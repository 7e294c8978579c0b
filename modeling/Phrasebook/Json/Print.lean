import Phrasebook.Json.Value
import Phrasebook.Text.Hex

/-!
JSON texts of values. The compact text has no space between its tokens; the pretty text has one
item or member a line, two spaces further in for each bracket, and writes empty brackets as `[]`
and `{}`. Strings escape the quote, the backslash and the controls below U+0020, and nothing else.
-/

namespace Phrasebook.Json

def stringChar (c : Char) : List Char :=
  if c = '"' then ['\\', '"']
  else if c = '\\' then ['\\', '\\']
  else if c = '\x08' then ['\\', 'b']
  else if c = '\t' then ['\\', 't']
  else if c = '\n' then ['\\', 'n']
  else if c = '\x0c' then ['\\', 'f']
  else if c = '\r' then ['\\', 'r']
  else if c.toNat < 0x20 then '\\' :: 'u' :: Text.fourHex c.toNat
  else [c]

def stringText (s : String) : List Char := '"' :: s.toList.flatMap stringChar ++ ['"']

def boolText (b : Bool) : List Char := if b then "true".toList else "false".toList

mutual

/-- The text without spaces. -/
def compactChars : Value → List Char
  | .null => "null".toList
  | .bool b => boolText b
  | .number n => n.text
  | .string s => stringText s
  | .array items => '[' :: compactItems items ++ [']']
  | .object members => '\x7b' :: compactMembers members ++ ['\x7d']

/-- The items of a list, with commas between them. -/
def compactItems : List Value → List Char
  | [] => []
  | [item] => compactChars item
  | item :: items => compactChars item ++ ',' :: compactItems items

/-- The members of an object, with commas between them. -/
def compactMembers : List (String × Value) → List Char
  | [] => []
  | [(key, value)] => stringText key ++ ':' :: compactChars value
  | (key, value) :: members =>
    stringText key ++ ':' :: compactChars value ++ ',' :: compactMembers members

end

/-- A line end and the spaces that begin the next line. -/
def lineStart (level : Nat) : List Char := '\n' :: List.replicate (2 * level) ' '

mutual

/-- The text with one item or member a line, of a value that stands at the given level. -/
def prettyChars (level : Nat) : Value → List Char
  | .null => "null".toList
  | .bool b => boolText b
  | .number n => n.text
  | .string s => stringText s
  | .array [] => ['[', ']']
  | .array items => '[' :: prettyItems (level + 1) items ++ lineStart level ++ [']']
  | .object [] => ['\x7b', '\x7d']
  | .object members => '\x7b' :: prettyMembers (level + 1) members ++ lineStart level ++ ['\x7d']

/-- The items of a list, each on a line of its own. -/
def prettyItems (level : Nat) : List Value → List Char
  | [] => []
  | [item] => lineStart level ++ prettyChars level item
  | item :: items => lineStart level ++ prettyChars level item ++ ',' :: prettyItems level items

/-- The members of an object, each on a line of its own. -/
def prettyMembers (level : Nat) : List (String × Value) → List Char
  | [] => []
  | [(key, value)] => lineStart level ++ stringText key ++ ':' :: ' ' :: prettyChars level value
  | (key, value) :: members =>
    lineStart level ++ stringText key ++ ':' :: ' ' :: prettyChars level value ++
      ',' :: prettyMembers level members

end

def Value.compact (v : Value) : String := String.ofList (compactChars v)

def Value.pretty (v : Value) : String := String.ofList (prettyChars 0 v)

end Phrasebook.Json
