import Phrasebook.Script.Basic
import Phrasebook.Script.Escape

/-!
The text of a script. Members of objects, items of arrays and statements of blocks each begin a
line, two spaces further in than the line that opens the bracket; an array that holds literals
alone stands on one line, and so does everything empty.
-/

namespace Phrasebook.Script

def indent (level : Nat) : List Char := List.replicate (2 * level) ' '

def Literal.chars : Literal → List Char
  | .string s => quoteString s.toList
  | .number n => n.text
  | .bool b => if b then "true".toList else "false".toList

def Param.chars (p : Param) : List Char := p.name.toList ++ ':' :: ' ' :: p.type.keyword.toList

/-- The parameters of an arrow function, up to its arrow. -/
def paramsChars (params : List Param) : List Char :=
  '(' :: ", ".toList.intercalate (params.map Param.chars) ++ ") => ".toList

/-- The operator of a strict comparison. -/
def strictEqualSign : List Char := "===".toList

mutual

/-- The text of an expression that begins on a line of the given level. -/
def Expr.chars (level : Nat) : Expr → List Char
  | .ident name => name.toList
  | .literal value => value.chars
  | .lambda params body => paramsChars params ++ body.chars level
  | .procedure params [] => paramsChars params ++ ['\x7b', '\x7d']
  | .procedure params body =>
    paramsChars params ++ '\x7b' :: '\n' :: stmtsChars (level + 1) body ++ indent level ++ ['\x7d']
  | .object [] => ['\x7b', '\x7d']
  | .object members =>
    '\x7b' :: '\n' :: membersChars (level + 1) members ++ indent level ++ ['\x7d']
  | .array items =>
    if items.all Expr.isLiteral then '[' :: inlineChars items ++ [']']
    else '[' :: '\n' :: itemsChars (level + 1) items ++ indent level ++ [']']
  | .template pieces => '\x60' :: piecesChars level pieces ++ ['\x60']
  | .strictEqual left right =>
    left.chars level ++ ' ' :: strictEqualSign ++ ' ' :: right.chars level

/-- The members of an object, each on a line of its own. -/
def membersChars (level : Nat) : List (String × Expr) → List Char
  | [] => []
  | (key, value) :: rest =>
    indent level ++ propertyName key.toList ++ ':' :: ' ' :: value.chars level ++
      ',' :: '\n' :: membersChars level rest

/-- The items of an array, each on a line of its own. -/
def itemsChars (level : Nat) : List Expr → List Char
  | [] => []
  | item :: rest => indent level ++ item.chars level ++ ',' :: '\n' :: itemsChars level rest

def inlineChars : List Expr → List Char
  | [] => []
  | [item] => item.chars 0
  | item :: rest => item.chars 0 ++ ',' :: ' ' :: inlineChars rest

def piecesChars (level : Nat) : List (Piece Expr) → List Char
  | [] => []
  | .static text :: rest => escapeTemplate text.toList ++ piecesChars level rest
  | .dynamic value :: rest =>
    '$' :: '\x7b' :: value.chars level ++ '\x7d' :: piecesChars level rest

/-- The lines of a statement of the given level. -/
def Stmt.chars (level : Nat) : Stmt → List Char
  | .ret value => indent level ++ "return ".toList ++ value.chars level ++ [';', '\n']
  | .ifThen condition body =>
    indent level ++ "if (".toList ++ condition.chars level ++ ") \x7b\n".toList ++
      stmtsChars (level + 1) body ++ indent level ++ "\x7d\n".toList
  | .ifElse condition onTrue onFalse =>
    indent level ++ "if (".toList ++ condition.chars level ++ ") \x7b\n".toList ++
      stmtsChars (level + 1) onTrue ++ indent level ++ "\x7d else \x7b\n".toList ++
      stmtsChars (level + 1) onFalse ++ indent level ++ "\x7d\n".toList

def stmtsChars (level : Nat) : List Stmt → List Char
  | [] => []
  | stmt :: rest => stmt.chars level ++ stmtsChars level rest

end

/-- A line of the comment at the top of a file. -/
def commentLine (line : String) : List Char :=
  if line.isEmpty then "//\n".toList else "// ".toList ++ line.toList ++ ['\n']

/-- The comment at the top of a file, with the empty line that ends it. -/
def bannerChars (lines : List String) : List Char :=
  if lines.isEmpty then [] else lines.flatMap commentLine ++ ['\n']

def Module.chars (m : Module) : List Char :=
  bannerChars m.banner ++
    if m.defaultExport then "export default ".toList ++ m.value.chars 0 ++ [';', '\n']
    else m.value.chars 0 ++ ['\n']

def Expr.text (e : Expr) (level : Nat) : String := String.ofList (e.chars level)

def Stmt.text (s : Stmt) (level : Nat) : String := String.ofList (s.chars level)

def Module.text (m : Module) : String := String.ofList m.chars

end Phrasebook.Script
