import Phrasebook.Text.Hex
import Phrasebook.Text.Printable

/-!
Quoted text in diagnostics: a path to a key that needs quotes, or a string where an option expects
something else. Quotes, backslashes and line ends have short escapes, whatever does not show is
written by its code point, and all else stands as it is.
-/

namespace Phrasebook.Text

def quotedChar (c : Char) : List Char :=
  if c = '"' then ['\\', '"']
  else if c = '\\' then ['\\', '\\']
  else if c = '\n' then ['\\', 'n']
  else if c = '\r' then ['\\', 'r']
  else if c = '\t' then ['\\', 't']
  else if c = '\x00' then ['\\', '0']
  else if isPrintable c then [c]
  else '\\' :: 'u' :: '\x7b' :: hex c.toNat ++ ['\x7d']

/-- The text between double quotes, with escapes. -/
def quoted (s : List Char) : List Char := '"' :: s.flatMap quotedChar ++ ['"']

end Phrasebook.Text
