/-!
Names: an ASCII letter, a low line or a dollar sign, followed by any number of these and digits. A
placeholder names its argument in this way, and a key that is a name needs no quotes.
-/

namespace Phrasebook.Text

/-- A character that a name may hold. -/
def isNameChar (c : Char) : Bool := c.isAlphanum || c == '_' || c == '$'

/-- A name is not empty and does not begin with a digit. -/
def isName : List Char → Bool
  | [] => false
  | c :: rest => !c.isDigit && (c :: rest).all isNameChar

end Phrasebook.Text
