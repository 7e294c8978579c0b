import Phrasebook.Number.Basic
import Phrasebook.Text.Name
import Phrasebook.Text.Quoted

/-!
Paths to the values in a resource, as diagnostics write them: `$` is the whole resource, `.key` and
`["key"]` step into an object, and `[0]` steps into a list.
-/

namespace Phrasebook

/-- A step into an object or a list. -/
inductive Step where
  | key (name : String)
  | index (place : Nat)
  deriving DecidableEq, Repr

/-- The steps from the whole resource to a value in it. -/
abbrev Path := List Step

/-- One step of a path; a key that is no name is quoted. -/
def Step.text : Step → List Char
  | .key name =>
    if Text.isName name.toList then '.' :: name.toList
    else '[' :: Text.quoted name.toList ++ [']']
  | .index place => '[' :: Number.decimalDigits place ++ [']']

def Path.text (path : Path) : List Char := '$' :: path.flatMap Step.text

end Phrasebook
