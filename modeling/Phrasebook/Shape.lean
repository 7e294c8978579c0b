import Phrasebook.Counts
import Phrasebook.Json.Value

/-!
The shapes of objects in a resource. An object whose keys are counts and `n` holds the plural
forms of one text, one with exactly the keys `true` and `false` its two boolean forms, and every
other object is a group of entries.
-/

namespace Phrasebook

/-- What an object of a resource stands for. -/
inductive Shape where
  | plural (counts : Counts String) (nth : String)
  | choice (whenTrue whenFalse : String)
  | plain

namespace Shape

-- Powers are those of core, also where other powers of natural numbers are in scope.
attribute [local instance (high)] instPowNat

/-- The key of the text for all counts without a text of their own. -/
def nthKey : String := "n"

/-- The count that a key names: decimal digits, leading zeros allowed, for a number below `2 ^
64`. -/
def countOfKey? (key : String) : Option Nat :=
  (Number.ofDecimal? key.toList).filter (· < 2 ^ (64 : Nat))

/-- Whether a key spells its count without needless zeros. -/
def isCanonicalKey (key : String) : Bool := key.toList.length == 1 || key.toList.head? != some '0'

/-- Adds the text of one count. Of several keys for one count the canonical one counts, and
otherwise the first. -/
def addCount? (counts : Counts String) : String × Json.Value → Option (Counts String)
  | (key, value) => do
    let text ← value.string?
    if key = nthKey then return counts
    let count ← countOfKey? key
    return if isCanonicalKey key then counts.insert count text else counts.insertIfNew count text

/-- The plural forms of an object, if it has that shape. -/
def plural? (members : List (String × Json.Value)) : Option Shape := do
  let nth ← (← Json.lookup members nthKey).string?
  return .plural (← members.foldlM addCount? .empty) nth

/-- The boolean forms of an object, if it has that shape. -/
def choice? (members : List (String × Json.Value)) : Option Shape := do
  guard (members.length = 2)
  let whenTrue ← (← Json.lookup members "true").string?
  let whenFalse ← (← Json.lookup members "false").string?
  return .choice whenTrue whenFalse

/-- The shape of an object. Plural forms are tried first, then boolean forms. -/
def ofMembers (members : List (String × Json.Value)) : Shape :=
  (plural? members <|> choice? members).getD .plain

def label : Shape → String
  | .plural .. => "plural"
  | .choice .. => "boolean"
  | .plain => "plain"

/-- The names of the shapes in the order in which they are tried. -/
def labels : List String := ["plural", "boolean", "plain"]

end Shape

end Phrasebook
