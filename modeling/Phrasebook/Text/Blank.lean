import Phrasebook.Text.Ranges

/-!
White space in the Unicode sense, the characters that end a line of a script, and cutting off white
space at the end of a line.
-/

namespace Phrasebook.Text

/-- The code points with the Unicode property White_Space. -/
def blankRanges : Ranges :=
  [(0x9, 0xd), (0x20, 0x20), (0x85, 0x85), (0xa0, 0xa0), (0x1680, 0x1680), (0x2000, 0x200a),
    (0x2028, 0x2029), (0x202f, 0x202f), (0x205f, 0x205f), (0x3000, 0x3000)]

/-- White space: it may surround the colon of a placeholder and is cut off banner lines. -/
def isBlank (c : Char) : Bool := blankRanges.has c

/-- The line terminators of ECMAScript. -/
def isLineEnd (c : Char) : Bool := c == '\n' || c == '\r' || c == '\u2028' || c == '\u2029'

/-- The line without the white space at its end. -/
def trimEnd (line : List Char) : List Char := (line.reverse.dropWhile isBlank).reverse

end Phrasebook.Text
