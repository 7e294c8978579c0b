import Phrasebook.Proofs.Number.Rounding

/-!
Scripts in which all numbers are doubles. The integers of a script are written with all their digits; where
the script runs there are no other numbers than doubles, so each integer stands for the nearest one.
-/

namespace Phrasebook

-- Powers are those of core, also where other powers of natural numbers are in scope.
attribute [local instance (high)] instPowNat

/-- The double that a number is read as. -/
def Number.rounded : Number → Number
  | .int n => .double (.ofNat (n < 0) n.natAbs)
  | .double x => .double x

theorem Number.value_rounded {n : Nat} (hlt : n < 2 ^ (1023 : Nat)) :
    (int n).rounded.value = Binary64.nearest n := by
  have hsign : decide ((n : Int) < 0) = false := by simp
  rw [rounded, hsign, Int.natAbs_natCast]
  exact Binary64.value_ofNat hlt

namespace Script

def Literal.rounded : Literal → Literal
  | .number n => .number n.rounded
  | value => value

mutual

/-- An expression with its numbers as doubles. -/
def Expr.rounded : Expr → Expr
  | .ident name => .ident name
  | .literal value => .literal value.rounded
  | .lambda params body => .lambda params body.rounded
  | .procedure params body => .procedure params (stmtsRounded body)
  | .object members => .object (membersRounded members)
  | .array items => .array (itemsRounded items)
  | .template pieces => .template (piecesRounded pieces)
  | .strictEqual left right => .strictEqual left.rounded right.rounded

def membersRounded : List (String × Expr) → List (String × Expr)
  | [] => []
  | (key, value) :: rest => (key, value.rounded) :: membersRounded rest

def itemsRounded : List Expr → List Expr
  | [] => []
  | item :: rest => item.rounded :: itemsRounded rest

def piecesRounded : List (Piece Expr) → List (Piece Expr)
  | [] => []
  | .static text :: rest => .static text :: piecesRounded rest
  | .dynamic value :: rest => .dynamic value.rounded :: piecesRounded rest

/-- A statement with its numbers as doubles. -/
def Stmt.rounded : Stmt → Stmt
  | .ret value => .ret value.rounded
  | .ifThen condition body => .ifThen condition.rounded (stmtsRounded body)
  | .ifElse condition onTrue onFalse => .ifElse condition.rounded (stmtsRounded onTrue) (stmtsRounded onFalse)

def stmtsRounded : List Stmt → List Stmt
  | [] => []
  | stmt :: rest => stmt.rounded :: stmtsRounded rest

end

theorem stmtsRounded_eq (stmts : List Stmt) : stmtsRounded stmts = stmts.map Stmt.rounded := by
  induction stmts with
  | nil => rfl
  | cons stmt rest ih => rw [stmtsRounded, List.map_cons, ih]

end Script

end Phrasebook
