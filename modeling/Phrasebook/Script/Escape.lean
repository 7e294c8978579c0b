import Phrasebook.Text.Hex
import Phrasebook.Text.Name

/-!
How texts are written inside string and template literals. Both escape the backslash, the controls
and the two Unicode line separators; a string literal escapes its quote as well, and a template
literal its grave accent and each dollar sign that stands before an opening brace.
-/

namespace Phrasebook.Script

/-- The control characters: U+0000 to U+001F and U+007F to U+009F. -/
def isControl (c : Char) : Bool := c.toNat < 0x20 || (0x7f ≤ c.toNat && c.toNat < 0xa0)

/-- A character that neither literal treats as its own delimiter. -/
def plainChar (c : Char) : List Char :=
  if c = '\\' then ['\\', '\\']
  else if c = '\n' then ['\\', 'n']
  else if c = '\r' then ['\\', 'r']
  else if c = '\t' then ['\\', 't']
  else if c = '\u2028' ∨ c = '\u2029' ∨ isControl c then '\\' :: 'u' :: Text.fourHex c.toNat
  else [c]

def stringChar (c : Char) : List Char := if c = '"' then ['\\', '"'] else plainChar c

/-- The characters of a string literal, without its quotes. -/
def escapeString (s : List Char) : List Char := s.flatMap stringChar

/-- The characters of the static text of a template literal. -/
def escapeTemplate : List Char → List Char
  | [] => []
  | c :: rest =>
    (if c = '\x60' then ['\\', '\x60']
      else if c = '$' ∧ rest.head? = some '\x7b' then ['\\', '$']
      else plainChar c) ++ escapeTemplate rest

def quoteString (s : List Char) : List Char := '"' :: escapeString s ++ ['"']

/-- A property name of an object literal: a name as it is, any other key as a string literal. -/
def propertyName (key : List Char) : List Char :=
  if Text.isName key then key else quoteString key

end Phrasebook.Script
