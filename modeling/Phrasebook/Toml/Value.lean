import Phrasebook.Toml.Scalars

/-!
Values in TOML. Configured values are strings and booleans, so of all other values only the form is
checked.
-/

namespace Phrasebook.Toml

inductive Value where
  | string (text : String)
  | boolean (value : Bool)
  | other
  deriving DecidableEq, Repr

/-- How a table came to be: its own header, a longer header, or a dotted key. -/
inductive Origin where
  | header
  | implied
  | dotted
  deriving DecidableEq, Repr

/-- A key with its place in the text, which is told as the length of the text from there on. -/
structure Key where
  name : String
  place : Nat
  deriving DecidableEq, Repr

/-- A value under a dotted key: the keys of the tables that lead to it, the last key, and the place
of the value. -/
structure Pair where
  path : List Key
  key : Key
  place : Nat
  value : Value
  deriving DecidableEq, Repr

/-- What a key leads to. Of a list of tables only the last one can still be written to, and only
that one is kept. -/
inductive Item where
  | value (value : Value)
  | table (origin : Origin) (entries : List (Key × Nat × Item))
  | tables (last : List (Key × Nat × Item))

/-- The entries of a table in the order of the text: each with its key and with the place to name
when its value is of the wrong kind. -/
abbrev Entries := List (Key × Nat × Item)

namespace Entries

def find? (entries : Entries) (name : String) : Option Item :=
  (List.find? (·.1.name == name) entries).map (·.2.2)

def replace (entries : Entries) (name : String) (item : Item) : Entries :=
  entries.map fun (key, place, old) => (key, place, if key.name == name then item else old)

/-- Changes the table at the end of a path. Tables that the path names for the first time are made
on the way; there is no result if the path leads through anything but tables, or a dotted path
into a table that has a header. -/
def descend (dotted : Bool) (change : Origin → Entries → Option Entries) :
    List Key → Origin → Entries → Option Entries
  | [], origin, entries => change origin entries
  | key :: path, _, entries =>
    match entries.find? key.name with
    | none => do
      let origin := if dotted then .dotted else .implied
      let inner ← descend dotted change path origin []
      return entries ++ [(key, key.place, .table origin inner)]
    | some (.table origin inner) =>
      if dotted ∧ origin = .header then none
      else do
        let inner ← descend dotted change path origin inner
        return entries.replace key.name (.table origin inner)
    | some (.tables last) => do
      return entries.replace key.name (.tables (← descend dotted change path .header last))
    | some (.value _) => none

/-- Adds a value under a dotted key. A key has one value, and a table that dotted keys have made
takes values by such keys alone. -/
def addValue (entries : Entries) (pair : Pair) : Option Entries :=
  descend true (fun origin inner =>
    if (origin = .dotted ↔ pair.path = []) ∨ (inner.find? pair.key.name).isSome then none
    else some (inner ++ [(pair.key, pair.place, .value pair.value)])) pair.path .header entries

/-- Adds a table for a header. One that exists already must have come from longer headers. -/
def addTable (path : List Key) (key : Key) (place : Nat) (entries : Entries) : Option Entries :=
  descend false (fun _ siblings =>
    match siblings.find? key.name with
    | none => some (siblings ++ [(key, place, .table .header [])])
    | some (.table .implied inner) =>
      some (siblings.filter (·.1.name != key.name) ++ [(key, place, .table .header inner)])
    | some _ => none) path .header entries

/-- Adds a table to the list of tables for a header. -/
def addTables (path : List Key) (key : Key) (place : Nat) (entries : Entries) : Option Entries :=
  descend false (fun _ siblings =>
    match siblings.find? key.name with
    | none => some (siblings ++ [(key, place, .tables [])])
    | some (.tables _) => some (siblings.replace key.name (.tables []))
    | some _ => none) path .header entries

end Entries

namespace Reader

/-! ### Keys -/

/-- A character of a key that stands without quotes. -/
def isBareKey (c : Char) : Bool := c.isAlphanum || c == '_' || c == '-'

def simpleKey (size : Nat) : Reader Key := do
  let place := (← unread).length
  if (← peek).any fun c => c == '"' || c == '\'' then
    return ⟨← commit (lineString size), place⟩
  else
    match ← takeWhile isBareKey with
    | [] => fail
    | name => return ⟨String.ofList name, place⟩

/-- The number of keys that a dotted key may have, and of brackets that may be open at once. -/
def maxDepth : Nat := 79

/-- A dotted key: the keys of the tables that lead to it, and the last one. -/
def dottedKey (size : Nat) : Reader (List Key × Key) := do
  let start ← unread
  let keys ← someItems "." (do space; let key ← simpleKey size; space; return key) size
  match keys.getLast? with
  | some last => if keys.length ≤ maxDepth then return (keys.dropLast, last) else failAt start
  | none => fail

/-! ### Values -/

/-- The rest of an array after its opening bracket. A comma may follow the last value. -/
def arrayRest (value : Reader Value) (size : Nat) : Reader Unit := do
  let values ← items "," (do gap size; let item ← value; gap size; return item) size
  unless values.isEmpty do
    let _ ← accept ","
  gap size
  expect "]"

/-- A key with its value in an inline table. -/
def inlinePair (value : Reader Value) (size : Nat) : Reader Pair := do
  let (path, key) ← dottedKey size
  commit do
    expect "="
    space
    let place := (← unread).length
    let item ← value
    space
    return ⟨path, key, place, item⟩

/-- The rest of an inline table after its opening brace. A key that cannot be added is told at the
start, after all pairs have been read. -/
def inlineRest (value : Reader Value) (size : Nat) : Reader Unit := do
  let start ← unread
  let pairs ← items "," (inlinePair value size) size
  space
  match pairs.foldlM Entries.addValue [] with
  | some _ => expect "\x7d"
  | none => failAt start

/-- A value; `nested` reads the values in its brackets, if brackets may still be opened. -/
def valueOf (size : Nat) (nested : Option (Reader Value)) : Reader Value := do
  match ← peek with
  | some '"' | some '\'' => return .string (← commit (anyString size))
  | some 't' =>
    commit (expect "true")
    return .boolean true
  | some 'f' =>
    commit (expect "false")
    return .boolean false
  | some '[' =>
    commit do
      let some value := nested | fail
      skip 1
      arrayRest value size
    return .other
  | some '\x7b' =>
    commit do
      let some value := nested | fail
      skip 1
      inlineRest value size
    return .other
  | _ =>
    number size
    return .other

/-- A value in which up to `depth` brackets are open at once. -/
def value (size : Nat) : (depth : Nat) → Reader Value
  | 0 => valueOf size none
  | depth + 1 => valueOf size (some (value size depth))

end Reader

end Phrasebook.Toml
