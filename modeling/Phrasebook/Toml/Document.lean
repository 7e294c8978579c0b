import Phrasebook.Toml.Value

/-!
TOML documents: lines of keys with values, under headers of tables. The whole document is read
before anything is made of it.
-/

namespace Phrasebook.Toml

/-- A place in a text: its line, counted from one, and its column. -/
structure Place where
  line : Nat
  column : Nat
  deriving DecidableEq, Repr

namespace Place

-- Sums start at the zero of core, also where another one is in scope.
attribute [local instance (high)] Zero.ofOfNat0

/-- The part of a text after its last line end. -/
def lastLine (text : List Char) : List Char := (text.reverse.takeWhile (· != '\n')).reverse

/-- The place from which on the given number of characters of a text are left. Columns count
characters, except that before a character outside ASCII they count bytes; the end of the text is
told as the place after its last character. -/
def ofUnread (text : List Char) (unread : Nat) : Place :=
  let before := text.take (text.length - unread)
  match text.drop (text.length - unread) with
  | c :: _ =>
    let line := lastLine before
    let width := if c.toNat < 0x80 then line.length else (line.map Char.utf8Size).sum
    ⟨before.count '\n' + 1, width + 1⟩
  | [] => ⟨before.dropLast.count '\n' + 1, (lastLine before.dropLast).length + 2⟩

end Place

/-- The tables of a document, and the path of the one to which lines are added. -/
structure Document where
  entries : Entries
  current : List Key

namespace Document

def addValue (doc : Document) (pair : Pair) : Option Document := do
  let entries ← Entries.descend false (fun _ table => table.addValue pair) doc.current .header
    doc.entries
  return { doc with entries }

def openTable (doc : Document) (path : List Key) (key : Key) (place : Nat) : Option Document := do
  return ⟨← doc.entries.addTable path key place, path ++ [key]⟩

/-- Opens a further table of a list. -/
def openTables (doc : Document) (path : List Key) (key : Key) (place : Nat) :
    Option Document := do
  return ⟨← doc.entries.addTables path key place, path ++ [key]⟩

end Document

namespace Reader

def pairLine (size : Nat) (doc : Document) : Reader Document := do
  let start ← unread
  let (path, key) ← dottedKey size
  expect "="
  space
  let place := (← unread).length
  let value ← value size maxDepth
  lineRest
  match doc.addValue ⟨path, key, place, value⟩ with
  | some doc => return doc
  | none => failAt start

/-- The header of a table or, between two brackets, of a list of tables. A bracket at the very end
of the text opens neither. -/
def headerLine (size : Nat) (doc : Document) : Reader Document := do
  let start ← unread
  if start.length < 2 then fail
  let list ← accept "[["
  unless list do expect "["
  let (path, key) ← dottedKey size
  expect (if list then "]]" else "]")
  lineRest
  let add := if list then doc.openTables else doc.openTable
  match add path key start.length with
  | some doc => return doc
  | none => failAt start

def lines (size : Nat) : Nat → Document → Reader Document
  | 0, doc => return doc
  | steps + 1, doc => do
    space
    match ← peek with
    | none => return doc
    | some '#' =>
      lineRest
      lines size steps doc
    | some '[' => lines size steps (← headerLine size doc)
    | some c =>
      if ← acceptLineEnd then lines size steps doc
      else if c = '\r' then fail
      else lines size steps (← pairLine size doc)

end Reader

/-- The entries of a document, or the place of the first error of form. -/
def decode (text : String) : Except Place Entries :=
  let chars := text.toList
  let body :=
    match chars with
    | '\ufeff' :: rest => rest
    | _ => chars
  let size := chars.length + 1
  match Reader.lines size size ⟨[], []⟩ body with
  | .ok (doc, _) => .ok doc.entries
  | .error stop => .error (Place.ofUnread chars stop.rest.length)

end Phrasebook.Toml
