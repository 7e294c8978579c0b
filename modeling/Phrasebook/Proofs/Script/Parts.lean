import Mathlib.Data.List.Basic
import Phrasebook.Script.Basic

/-!
The expressions that stand in a script, at whatever depth, in the order of its text. The arrow functions
are among them, and so are the identifiers that occur in the body of one; an identifier may stand in a
comparison, or in a template literal, where its value goes into the text.
-/

namespace Phrasebook.Script

mutual

/-- The expression and all expressions in it. -/
def Expr.parts : Expr → List Expr
  | .ident name => [.ident name]
  | .literal value => [.literal value]
  | .lambda params body => .lambda params body :: body.parts
  | .procedure params body => .procedure params body :: stmtsParts body
  | .object members => .object members :: membersParts members
  | .array items => .array items :: itemsParts items
  | .template pieces => .template pieces :: piecesParts pieces
  | .strictEqual left right => .strictEqual left right :: (left.parts ++ right.parts)

def membersParts : List (String × Expr) → List Expr
  | [] => []
  | (_, value) :: rest => value.parts ++ membersParts rest

def itemsParts : List Expr → List Expr
  | [] => []
  | item :: rest => item.parts ++ itemsParts rest

def piecesParts : List (Piece Expr) → List Expr
  | [] => []
  | .static _ :: rest => piecesParts rest
  | .dynamic value :: rest => value.parts ++ piecesParts rest

/-- The expressions in a statement. -/
def Stmt.parts : Stmt → List Expr
  | .ret value => value.parts
  | .ifThen condition body => condition.parts ++ stmtsParts body
  | .ifElse condition onTrue onFalse => condition.parts ++ stmtsParts onTrue ++ stmtsParts onFalse

def stmtsParts : List Stmt → List Expr
  | [] => []
  | stmt :: rest => stmt.parts ++ stmtsParts rest

end

theorem membersParts_eq (members : List (String × Expr)) :
    membersParts members = members.flatMap (·.2.parts) := by
  induction members with
  | nil => rfl
  | cons member members ih => rw [membersParts, List.flatMap_cons, ih]

theorem itemsParts_eq (items : List Expr) : itemsParts items = items.flatMap Expr.parts := by
  induction items with
  | nil => rfl
  | cons item items ih => rw [itemsParts, List.flatMap_cons, ih]

theorem stmtsParts_eq (stmts : List Stmt) : stmtsParts stmts = stmts.flatMap Stmt.parts := by
  induction stmts with
  | nil => rfl
  | cons stmt stmts ih => rw [stmtsParts, List.flatMap_cons, ih]

/-! ### Identifiers -/

def Expr.ident? : Expr → Option String
  | .ident name => some name
  | _ => none

/-- The identifiers among expressions. -/
def identsOf (parts : List Expr) : List String := parts.filterMap Expr.ident?

/-- The identifier whose value goes into a text in this place. -/
def Piece.slot? : Piece Expr → Option String
  | .dynamic (.ident name) => some name
  | _ => none

/-- The identifiers that a template literal puts into its text. -/
def Expr.slots : Expr → List String
  | .template pieces => pieces.filterMap Piece.slot?
  | _ => []

/-- The identifiers that the template literals among expressions put into their texts. -/
def slotsOf (parts : List Expr) : List String := parts.flatMap Expr.slots

@[simp]
theorem identsOf_append (before after : List Expr) :
    identsOf (before ++ after) = identsOf before ++ identsOf after :=
  List.filterMap_append

@[simp]
theorem slotsOf_append (before after : List Expr) :
    slotsOf (before ++ after) = slotsOf before ++ slotsOf after :=
  List.flatMap_append

theorem identsOf_flatMap {α : Type} (f : α → List Expr) (items : List α) :
    identsOf (items.flatMap f) = items.flatMap fun x => identsOf (f x) :=
  List.filterMap_flatMap

theorem slotsOf_flatMap {α : Type} (f : α → List Expr) (items : List α) :
    slotsOf (items.flatMap f) = items.flatMap fun x => slotsOf (f x) :=
  List.flatMap_assoc

/-! ### Functions -/

namespace Expr

def isFunction : Expr → Bool
  | .lambda .. | .procedure .. => true
  | _ => false

/-- The arrow functions in an expression. -/
def functions (e : Expr) : List Expr := e.parts.filter isFunction

/-- The parameters of an arrow function. -/
def params : Expr → List Param
  | .lambda params _ | .procedure params _ => params
  | _ => []

/-- The expressions in the body of an arrow function. -/
def body : Expr → List Expr
  | .lambda _ body => body.parts
  | .procedure _ body => stmtsParts body
  | _ => []

/-- The identifiers that occur in the body of an arrow function. -/
def idents (f : Expr) : List String := identsOf f.body

/-- The identifiers that the body of an arrow function puts into texts. -/
def substitutions (f : Expr) : List String := slotsOf f.body

theorem functions_object (members : List (String × Expr)) :
    (object members).functions = members.flatMap (·.2.functions) := by
  rw [functions, parts, List.filter_cons_of_neg (by simp [isFunction]), membersParts_eq, List.filter_flatMap]
  rfl

theorem functions_array (items : List Expr) : (array items).functions = items.flatMap functions := by
  rw [functions, parts, List.filter_cons_of_neg (by simp [isFunction]), itemsParts_eq, List.filter_flatMap]
  rfl

/-- A function whose body holds no other one. -/
theorem functions_of_body {f : Expr} (hf : f.isFunction) (h : ∀ part ∈ f.body, ¬part.isFunction) :
    f.functions = [f] := by
  have hbody : f.body.filter isFunction = [] := List.filter_eq_nil_iff.2 h
  cases f with
  | lambda params body =>
      rw [functions, parts, List.filter_cons_of_pos hf]
      exact congrArg _ hbody
  | procedure params body =>
      rw [functions, parts, List.filter_cons_of_pos hf]
      exact congrArg _ hbody
  | _ => cases hf

end Expr

end Phrasebook.Script
