import Phrasebook.Text.Blank

/-!
The comment at the top of a file. A banner is cut wherever a script would end a line, so that each
of its lines stays in a comment of its own.
-/

namespace Phrasebook.Banner

/-- Each carriage return with a line feed after it gives way to the line feed alone. -/
def joinLineEnds : List Char → List Char
  | '\r' :: '\n' :: rest => '\n' :: joinLineEnds rest
  | c :: rest => c :: joinLineEnds rest
  | [] => []

/-- The text without the line end that it closes with. -/
def dropLastLineEnd (text : List Char) : List Char :=
  match text.getLast? with
  | some c => if Text.isLineEnd c then text.dropLast else text
  | none => text

/-- The lines of a banner, without the white space at their ends. No text has no lines; a line end
at the end of a text begins no further line. -/
def lines (banner : String) : List String :=
  if banner.isEmpty then []
  else
    ((dropLastLineEnd (joinLineEnds banner.toList)).splitOnP Text.isLineEnd).map fun line =>
      String.ofList (Text.trimEnd line)

end Phrasebook.Banner
