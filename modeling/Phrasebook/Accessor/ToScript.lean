import Phrasebook.Accessor.Params

/-!
Accessors as script expressions. A constant is a literal, a group an object, and an accessor with
arguments an arrow function: a phrase returns a template literal, plural forms compare the count
with each of theirs in turn, and boolean forms test the flag.
-/

namespace Phrasebook

open Script (Expr Stmt Literal Piece)

/-- A constant as a literal. Booleans are texts like all that an accessor returns; numbers stay
numbers. -/
def Constant.toScript : Constant → Expr
  | .string s => .literal (.string s)
  | .number n => .literal (.number n)
  | .bool b => .literal (.string (if b then "true" else "false"))

/-- A part of a text as a piece of a template literal. -/
def Part.toPiece (identifiers : Identifiers) : Part → Piece Expr
  | .literal text => .static text
  | .arg name => .dynamic (.ident (identifiers.get name))

/-- Parts of a text as a template literal. -/
def Part.toTemplate (identifiers : Identifiers) (parts : List Part) : Expr :=
  .template (parts.map (Part.toPiece identifiers))

/-- A form as the expression that gives its text. -/
def Form.toScript (identifiers : Identifiers) : Form → Expr
  | .literal text => .literal (.string text)
  | .parts pieces => Part.toTemplate identifiers pieces

def Form.toReturn (identifiers : Identifiers) (form : Form) : Stmt :=
  .ret (form.toScript identifiers)

namespace Accessor

def countStmt (identifiers : Identifiers) (count : Nat) (form : Form) : Stmt :=
  .ifThen (.strictEqual (.ident Arg.count.name) (.literal (.number (.int count))))
    [form.toReturn identifiers]

mutual

def toScript : Accessor → Expr
  | .constant c => c.toScript
  | .group entries => .object (entriesToScript entries)
  | .list items => .array (itemsToScript items)
  | .phrase args parts =>
    let identifiers := Identifiers.ofArgs args
    .lambda (identifiers.params args) (Part.toTemplate identifiers parts)
  | .plural args counts nth =>
    let identifiers := Identifiers.ofArgs args
    .procedure (identifiers.params args)
      (counts.entries.map (fun (count, form) => countStmt identifiers count form) ++
        [nth.toReturn identifiers])
  | .choice args whenTrue whenFalse =>
    let identifiers := Identifiers.ofArgs args
    .procedure (identifiers.params args)
      [.ifElse (.strictEqual (.ident Arg.bool.name) (.literal (.bool true)))
        [whenTrue.toReturn identifiers] [whenFalse.toReturn identifiers]]

def itemsToScript : List Accessor → List Expr
  | [] => []
  | item :: rest => item.toScript :: itemsToScript rest

def entriesToScript : List (String × Accessor) → List (String × Expr)
  | [] => []
  | (key, entry) :: rest => (key, entry.toScript) :: entriesToScript rest

end

end Accessor

end Phrasebook
