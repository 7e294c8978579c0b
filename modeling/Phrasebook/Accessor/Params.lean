import Phrasebook.Accessor.Basic
import Phrasebook.Script.Basic
import Phrasebook.Script.Word

/-!
The parameters that stand for the arguments of an accessor. An argument keeps its name, unless the
name is a reserved word; then low lines go in front of it, as few as are needed for an identifier
that no other argument has.
-/

namespace Phrasebook

/-- Puts low lines in front of an identifier until it is none of those taken. An identifier that was
passed by is shorter than all that are still to come, so it need not be kept. -/
def avoid (taken : List String) (identifier : String) : String :=
  if identifier ∈ taken then avoid (taken.erase identifier) ("_" ++ identifier) else identifier
termination_by taken.length
decreasing_by
  rename_i h
  have := List.length_pos_of_mem h
  rw [List.length_erase_of_mem h]
  omega

/-- Names of arguments with their identifiers. -/
abbrev Identifiers := List (String × String)

namespace Identifiers

/-- Chooses identifiers for arguments in their order, none of them among those taken. -/
def choose (taken : List String) : List Arg → Identifiers
  | [] => []
  | arg :: rest =>
    if Script.isReserved arg.name then
      let identifier := avoid taken (Script.identifierOf arg.name)
      (arg.name, identifier) :: choose (identifier :: taken) rest
    else (arg.name, arg.name) :: choose taken rest

/-- The identifiers of the arguments of an accessor. Names that are not reserved are taken from the
start. -/
def ofArgs (args : List Arg) : Identifiers :=
  choose ((args.map (·.name)).filter (!Script.isReserved ·)) args

/-- The identifier of a name: the last one chosen for it, if one was. -/
def get (identifiers : Identifiers) (name : String) : String :=
  match identifiers.reverse.find? (·.1 == name) with
  | some (_, identifier) => identifier
  | none => Script.identifierOf name

def params (identifiers : Identifiers) (args : List Arg) : List Script.Param :=
  args.map fun arg => ⟨identifiers.get arg.name, arg.type⟩

end Identifiers

end Phrasebook
