import Phrasebook.ArgType
import Phrasebook.Number.Basic

/-!
The part of TypeScript in which accessors are written: literals, object and array literals, template
literals, and arrow functions with typed parameters, whose body is an expression or a block of
conditionals and returns.
-/

namespace Phrasebook.Script

inductive Literal where
  | string (value : String)
  | number (value : Number)
  | bool (value : Bool)
  deriving DecidableEq, Repr

/-- A typed parameter of an arrow function. -/
structure Param where
  name : String
  type : ArgType
  deriving DecidableEq, Repr

/-- A piece of a template literal: characters, or an expression whose value takes its place. -/
inductive Piece (α : Type) where
  | static (text : String)
  | dynamic (value : α)
  deriving DecidableEq, Repr

mutual

/-- An expression. A `lambda` is an arrow function whose body is an expression, a `procedure` one
whose body is a block. -/
inductive Expr where
  | ident (name : String)
  | literal (value : Literal)
  | lambda (params : List Param) (body : Expr)
  | procedure (params : List Param) (body : List Stmt)
  | object (members : List (String × Expr))
  | array (items : List Expr)
  | template (pieces : List (Piece Expr))
  | strictEqual (left right : Expr)

inductive Stmt where
  | ret (value : Expr)
  | ifThen (condition : Expr) (body : List Stmt)
  | ifElse (condition : Expr) (onTrue onFalse : List Stmt)

end

def Expr.isLiteral : Expr → Bool
  | .literal _ => true
  | _ => false

/-- A file: the lines of a comment, and an expression, which may be the file's default export. -/
structure Module where
  banner : List String
  defaultExport : Bool
  value : Expr

end Phrasebook.Script
