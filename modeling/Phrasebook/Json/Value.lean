import Phrasebook.Number.Basic

/-!
JSON values. Objects keep the order of their members, because accessors are written in the order of
the resource.
-/

namespace Phrasebook.Json

inductive Value where
  | null
  | bool (value : Bool)
  | number (value : Number)
  | string (value : String)
  | array (items : List Value)
  | object (members : List (String × Value))

/-- The value of the first member with the given key. -/
def lookup (members : List (String × α)) (key : String) : Option α :=
  (members.find? (·.1 == key)).map (·.2)

/-- Adds a member. A key that is already there keeps its place and takes the new value. -/
def insert (members : List (String × α)) (key : String) (value : α) : List (String × α) :=
  if members.any (·.1 == key) then
    members.map fun member => if member.1 == key then (key, value) else member
  else (key, value) :: members

/-- The members in the order of the first occurrence of their keys, each with its last value. -/
def ofMembers (members : List (String × α)) : List (String × α) :=
  (members.foldl (fun object member => insert object member.1 member.2) []).reverse

namespace Value

def string? : Value → Option String
  | .string s => some s
  | _ => none

end Value

end Phrasebook.Json
