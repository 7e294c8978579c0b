import Phrasebook.Json.Decoder
import Phrasebook.Number.Numeral
import Phrasebook.Text.Hex

/-!
The scalar tokens of JSON: the words `null`, `true` and `false`, strings and numerals.
-/

namespace Phrasebook.Json.Decoder

/-- Reads the letters of a word, of which the first has been seen already. -/
def word : List Char → Decoder Unit
  | [] => pure ()
  | letter :: letters => do
    match ← peek with
    | none => failHere .endInValue
    | some c =>
      if c = letter then
        skip
        word letters
      else failNext .expectedWord

/-! ### Strings -/

/-- The four hexadecimal digits of an escape. Four bytes are read in any case, and the text ends in
the string if there are fewer. -/
def codeUnit : Decoder Nat := fun cursor =>
  let bytes := (cursor.rest.take 4).foldl (fun n c => n + c.utf8Size) 0
  if bytes < 4 then
    .error ⟨.endInString, cursor.rest.foldl Position.advance cursor.position⟩
  else
    let past := cursor.position.afterBytes 4 cursor.rest
    match cursor.rest with
    | a :: b :: c :: d :: rest =>
      match Text.ofFourHex? a b c d with
      | some n => .ok (n, ⟨rest, past⟩)
      | none => .error ⟨.invalidEscape, past⟩
    | _ => .error ⟨.invalidEscape, past⟩

/-- Reads a character that the second half of a surrogate pair must begin with. -/
def pairMark (mark : Char) : Decoder Unit := do
  match ← peek with
  | none => failHere .endInString
  | some c => if c = mark then skip else failNext .cutSurrogatePair

/-- The character of a `\u` escape; a high surrogate needs a low one in an escape of its own. -/
def unicodeEscape : Decoder Char := do
  let high ← codeUnit
  if 0xdc00 ≤ high ∧ high < 0xe000 then failHere .unpairedSurrogate
  else if 0xd800 ≤ high ∧ high < 0xdc00 then
    pairMark '\\'
    pairMark 'u'
    let low ← codeUnit
    if 0xdc00 ≤ low ∧ low < 0xe000 then
      return Char.ofNat (0x10000 + (high - 0xd800) * 0x400 + (low - 0xdc00))
    else failHere .unpairedSurrogate
  else return Char.ofNat high

/-- The character that a letter after a backslash stands for. -/
def shortEscape? : Char → Option Char
  | '"' => some '"'
  | '\\' => some '\\'
  | '/' => some '/'
  | 'b' => some '\x08'
  | 'f' => some '\x0c'
  | 'n' => some '\n'
  | 'r' => some '\r'
  | 't' => some '\t'
  | _ => none

/-- The character of an escape whose backslash has been read. -/
def escape : Decoder Char := do
  match ← peek with
  | none => failHere .endInString
  | some 'u' =>
    skip
    unicodeEscape
  | some c =>
    match shortEscape? c with
    | some meant =>
      skip
      return meant
    | none => failNext .invalidEscape

/-- The characters up to the closing quote, after those read already, the last of them first. Every
step reads a character, so the size of the text bounds the number of steps. -/
def stringRest : Nat → List Char → Decoder String
  | 0, _ => failHere .endInString
  | size + 1, read => do
    match ← peek with
    | none => failHere .endInString
    | some '"' =>
      skip
      return String.ofList read.reverse
    | some '\\' =>
      skip
      let c ← escape
      stringRest size (c :: read)
    | some c =>
      if c.toNat < 0x20 then failNext .controlCharacter
      else
        skip
        stringRest size (c :: read)

/-- A string, from its opening quote on. -/
def quotedString (size : Nat) : Decoder String := do
  skip
  stringRest size []

/-! ### Numerals -/

def digitValue (c : Char) : Nat := c.toNat - '0'.toNat

/-- Decimal digits, as many as there are. -/
def digits : Decoder (List Nat) := do
  return (← takeWhile Char.isDigit).map digitValue

/-- The digits before the point: a zero, or digits that do not begin with zero. -/
def wholeDigits : Decoder (List Nat) := do
  match ← peek with
  | none => failHere .endInValue
  | some '0' =>
    skip
    match ← peek with
    | some c => if c.isDigit then failNext .invalidNumber else return [0]
    | none => return [0]
  | some c => if c.isDigit then digits else failNext .invalidNumber

/-- The point and the digits after it, at least one. -/
def fractionDigits : Decoder (Option (List Nat)) := do
  match ← peek with
  | some '.' =>
    skip
    match ← digits with
    | [] => failNextOrEnd .invalidNumber .endInValue
    | ds => return some ds
  | _ => return none

/-- The digits of an exponent, after the number that the ones before make. An exponent of `2 ^ 31`
or more is too large for a coefficient that is not zero, and is told at the digit that reaches it.
-/
def exponentDigits (limited : Bool) : Nat → Nat → Decoder Nat
  | 0, value => return value
  | size + 1, value => do
    match ← peek with
    | some c =>
      if c.isDigit then
        skip
        let value := value * 10 + digitValue c
        if limited && 2 ^ 31 ≤ value then failHere .numberTooLarge
        else exponentDigits limited size value
      else return value
    | none => return value

/-- The exponent after its sign: at least one digit. -/
def exponentAfterSign (size coefficient : Nat) (negative : Bool) : Decoder Int := do
  match ← peek with
  | none => failHere .endInValue
  | some d =>
    if d.isDigit then
      let value ← exponentDigits (!negative && coefficient != 0) size 0
      return if negative then -value else value
    else failNext .invalidNumber

/-- The exponent with its sign. -/
def exponent (size : Nat) (coefficient : Nat) : Decoder (Option Int) := do
  match ← peek with
  | some c =>
    if c = 'e' ∨ c = 'E' then
      skip
      let negative := (← peek) == some '-'
      if negative || (← peek) == some '+' then skip
      return some (← exponentAfterSign size coefficient negative)
    else return none
  | none => return none

/-- A number after its sign, from its first digit on. -/
def numberAfterSign (size : Nat) (negative : Bool) : Decoder Number := do
  let whole ← wholeDigits
  let fraction ← fractionDigits
  let mantissa : Numeral := ⟨negative, whole, fraction, none⟩
  let exponent ← exponent size mantissa.coefficient.1
  match (⟨negative, whole, fraction, exponent⟩ : Numeral).value? with
  | some n => return n
  | none => failHere .numberTooLarge

/-- A number, from its sign or first digit on. -/
def number (size : Nat) : Decoder Number := do
  let negative := (← peek) == some '-'
  if negative then skip
  numberAfterSign size negative

end Phrasebook.Json.Decoder
