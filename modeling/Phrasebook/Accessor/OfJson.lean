import Phrasebook.Accessor.Basic
import Phrasebook.Path
import Phrasebook.Shape

/-!
The accessor of each value of a resource. Every value has one, except for null.
-/

namespace Phrasebook

/-- A value for which there is no accessor, at the given place of the resource. -/
structure Unsupported where
  path : Path
  deriving DecidableEq, Repr

namespace Unsupported

/-- The kind of value that has no accessor. -/
def kind : String := "null"

def message (e : Unsupported) : String :=
  "unsupported " ++ kind ++ " value at " ++ String.ofList e.path.text

/-- The same error, seen from the object or list that the given step leads into. -/
def under (step : Step) (e : Unsupported) : Unsupported := ⟨step :: e.path⟩

end Unsupported

namespace Accessor

mutual

/-- The accessor of a value; the first null in the order of the resource is an error. -/
def ofJson : Json.Value → Except Unsupported Accessor
  | .null => .error ⟨[]⟩
  | .bool b => .ok (.constant (.bool b))
  | .number n => .ok (.constant (.number n))
  | .string s => .ok (ofText s)
  | .array items => (ofItems 0 items).map .list
  | .object members =>
    match Shape.ofMembers members with
    | .plural counts nth => .ok (ofPlural counts nth)
    | .choice whenTrue whenFalse => .ok (ofChoice whenTrue whenFalse)
    | .plain => (ofEntries members).map .group

/-- The accessors of the items of a list, from the given place on. -/
def ofItems (place : Nat) : List Json.Value → Except Unsupported (List Accessor)
  | [] => .ok []
  | item :: rest => do
    let head ← (ofJson item).mapError (.under (.index place))
    return head :: (← ofItems (place + 1) rest)

/-- The accessors of the members of a plain object. -/
def ofEntries : List (String × Json.Value) → Except Unsupported (List (String × Accessor))
  | [] => .ok []
  | (key, value) :: rest => do
    let head ← (ofJson value).mapError (.under (.key key))
    return (key, head) :: (← ofEntries rest)

end

end Accessor

end Phrasebook
