import Phrasebook.Json.Token
import Phrasebook.Json.Value

/-!
Decoding a whole JSON text. Brackets nest up to 127 deep. A repeated key keeps its first place in
the object and takes its last value.
-/

namespace Phrasebook.Json

namespace Decoder

/-- Looks for the next item of a list, which stays unread; `false` says that the closing bracket
comes next. -/
def hasItem (first : Bool) : Decoder Bool := do
  match ← peekToken with
  | none => failHere .endInList
  | some ']' => return false
  | some c =>
    if first then return true
    else if c = ',' then
      skip
      match ← peekToken with
      | none => failHere .endInValue
      | some ']' => failNext .trailingComma
      | some _ => return true
    else failNext .expectedListEnd

/-- The items of a list after its opening bracket and the given ones, the last of them first. Each
step reads an item, so the size of the text bounds the number of steps. -/
def items (item : Decoder α) : Nat → List α → Decoder (List α)
  | 0, _ => failHere .endInList
  | steps + 1, read => do
    if ← hasItem read.isEmpty then
      items item steps ((← item) :: read)
    else
      skip
      return read.reverse

/-- Looks for the next key of an object, whose opening quote stays unread; `false` says that the
closing bracket comes next. -/
def hasKey (first : Bool) : Decoder Bool := do
  match ← peekToken with
  | none => failHere .endInObject
  | some '\x7d' => return false
  | some c =>
    if first then
      if c = '"' then return true else failNext .keyNotString
    else if c = ',' then
      skip
      match ← peekToken with
      | none => failHere .endInValue
      | some '"' => return true
      | some '\x7d' => failNext .trailingComma
      | some _ => failNext .keyNotString
    else failNext .expectedObjectEnd

def colon : Decoder Unit := do
  match ← peekToken with
  | none => failHere .endInObject
  | some ':' => skip
  | some _ => failNext .expectedColon

/-- The members of an object after its opening bracket and the given ones, the last of them first.
-/
def members (size : Nat) (item : Decoder α) :
    Nat → List (String × α) → Decoder (List (String × α))
  | 0, _ => failHere .endInObject
  | steps + 1, read => do
    if ← hasKey read.isEmpty then
      let key ← quotedString size
      colon
      members size item steps ((key, ← item) :: read)
    else
      skip
      return read.reverse

/-- A value; `nested` reads the values in its brackets, if brackets may still be opened. -/
def valueOf (size : Nat) (nested : Option (Decoder Value)) : Decoder Value := do
  match ← peekToken with
  | none => failHere .endInValue
  | some 'n' =>
    word ['n', 'u', 'l', 'l']
    return .null
  | some 't' =>
    word ['t', 'r', 'u', 'e']
    return .bool true
  | some 'f' =>
    word ['f', 'a', 'l', 's', 'e']
    return .bool false
  | some '"' => return .string (← quotedString size)
  | some '[' =>
    match nested with
    | none => failNext .tooDeep
    | some item =>
      skip
      return .array (← items item size [])
  | some '\x7b' =>
    match nested with
    | none => failNext .tooDeep
    | some item =>
      skip
      return .object (ofMembers (← members size item size []))
  | some c =>
    if c = '-' ∨ c.isDigit then return .number (← number size)
    else failNext .expectedValue

/-- A value in which up to `depth` brackets are open at once. -/
def value (size : Nat) : (depth : Nat) → Decoder Value
  | 0 => valueOf size none
  | depth + 1 => valueOf size (some (value size depth))

/-- Nothing but a gap may follow. -/
def finish : Decoder Unit := do
  if (← peekToken).isSome then failNext .trailingCharacters

/-- Runs a decoder over a whole text; the decoder is told a bound on the number of characters. -/
def run (decoder : Nat → Decoder α) (text : String) : Except Error α := do
  let (result, cursor) ← decoder (text.length + 1) (Cursor.start text.toList)
  let _ ← finish cursor
  return result

end Decoder

def maxDepth : Nat := 127

def decode (text : String) : Except Error Value :=
  Decoder.run (Decoder.value · maxDepth) text

end Phrasebook.Json
