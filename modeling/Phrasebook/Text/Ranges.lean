/-!
Sets of characters, given as tables of code point ranges in the way the Unicode character database
lists a property.
-/

namespace Phrasebook.Text

/-- A set of code points: closed ranges in ascending order. -/
abbrev Ranges := List (Nat × Nat)

/-- A character is in the set when its code point lies in one of the ranges. -/
def Ranges.has (table : Ranges) (c : Char) : Bool :=
  table.any fun range => range.1 ≤ c.toNat && c.toNat ≤ range.2

end Phrasebook.Text
