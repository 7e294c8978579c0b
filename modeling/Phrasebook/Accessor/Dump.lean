import Phrasebook.Accessor.Basic
import Phrasebook.Json.Value

/-!
Accessors as JSON, for tools that read them instead of a script. `Accessor.toJson` writes an
accessor as an object of its kind and its value, and `Accessor.ofDump?` reads such objects.
-/

namespace Phrasebook

/-! ### Writing -/

/-- An argument as an object of its name and type. -/
def Arg.toJson (arg : Arg) : Json.Value :=
  .object [("name", .string arg.name), ("type", .string arg.type.keyword)]

/-- A part as an object of one member. -/
def Part.toJson : Part → Json.Value
  | .literal text => .object [("literal", .string text)]
  | .arg name => .object [("arg", .string name)]

/-- A form as a text or as a list of parts. -/
def Form.toJson : Form → Json.Value
  | .literal text => .string text
  | .parts pieces => .array (pieces.map Part.toJson)

/-- A constant as the scalar it is. -/
def Constant.toJson : Constant → Json.Value
  | .string s => .string s
  | .number n => .number n
  | .bool b => .bool b

/-- A table of forms as an object, in ascending order of the counts. -/
def Counts.toJson (counts : Counts Form) : Json.Value :=
  .object (counts.entries.map fun (count, form) =>
    (String.ofList (Number.decimalDigits count), form.toJson))

namespace Accessor

/-- An object that says what kind of accessor its value is. -/
def tagged (kind : String) (value : Json.Value) : Json.Value :=
  .object [("kind", .string kind), ("value", value)]

/-- The value of an accessor with arguments. -/
def withArgs (args : List Arg) (key : String) (value : Json.Value) : Json.Value :=
  .object [("args", .array (args.map Arg.toJson)), (key, value)]

mutual

def toJson : Accessor → Json.Value
  | .constant c => tagged "primitive" c.toJson
  | .group entries => tagged "object" (.object (entriesToJson entries))
  | .list items => tagged "array" (.array (itemsToJson items))
  | .phrase args parts =>
    tagged "placeholderFunction" (withArgs args "stringParts" (.array (parts.map Part.toJson)))
  | .plural args counts nth =>
    tagged "pluralFunction" (withArgs args "forms"
      (.object [("counts", counts.toJson), ("nth", nth.toJson)]))
  | .choice args whenTrue whenFalse =>
    tagged "booleanFunction" (withArgs args "forms"
      (.object [("whenTrue", whenTrue.toJson), ("whenFalse", whenFalse.toJson)]))

def itemsToJson : List Accessor → List Json.Value
  | [] => []
  | item :: rest => item.toJson :: itemsToJson rest

def entriesToJson : List (String × Accessor) → List (String × Json.Value)
  | [] => []
  | (key, entry) :: rest => (key, entry.toJson) :: entriesToJson rest

end

end Accessor

/-! ### Reading -/

def Arg.ofDump? : Json.Value → Option Arg
  | .object [("name", .string name), ("type", .string type)] =>
    (ArgType.ofKeyword? type).map (⟨name, ·⟩)
  | _ => none

def Part.ofDump? : Json.Value → Option Part
  | .object [("literal", .string text)] => some (.literal text)
  | .object [("arg", .string name)] => some (.arg name)
  | _ => none

def Form.ofDump? : Json.Value → Option Form
  | .string text => some (.literal text)
  | .array pieces => (pieces.mapM Part.ofDump?).map .parts
  | _ => none

def Constant.ofDump? : Json.Value → Option Constant
  | .string s => some (.string s)
  | .number n => some (.number n)
  | .bool b => some (.bool b)
  | _ => none

/-- The table of forms that an object describes, whatever the order of its members. -/
def Counts.ofDump? (members : List (String × Json.Value)) : Option (Counts Form) :=
  members.foldlM (fun counts (key, form) => do
    return counts.insert (← Number.ofDecimal? key.toList) (← Form.ofDump? form)) .empty

namespace Accessor

mutual

def ofDump? : Json.Value → Option Accessor
  | .object [("kind", .string kind), ("value", value)] =>
    match kind, value with
    | "primitive", value => (Constant.ofDump? value).map .constant
    | "object", .object members => (entriesOfDump? members).map .group
    | "array", .array items => (itemsOfDump? items).map .list
    | "placeholderFunction", .object [("args", .array args), ("stringParts", .array parts)] => do
      return .phrase (← args.mapM Arg.ofDump?) (← parts.mapM Part.ofDump?)
    | "pluralFunction", .object [("args", .array args),
        ("forms", .object [("counts", .object counts), ("nth", nth)])] => do
      return .plural (← args.mapM Arg.ofDump?) (← Counts.ofDump? counts) (← Form.ofDump? nth)
    | "booleanFunction", .object [("args", .array args),
        ("forms", .object [("whenTrue", whenTrue), ("whenFalse", whenFalse)])] => do
      return .choice (← args.mapM Arg.ofDump?) (← Form.ofDump? whenTrue)
        (← Form.ofDump? whenFalse)
    | _, _ => none
  | _ => none

def itemsOfDump? : List Json.Value → Option (List Accessor)
  | [] => some []
  | item :: rest => do return (← ofDump? item) :: (← itemsOfDump? rest)

def entriesOfDump? : List (String × Json.Value) → Option (List (String × Accessor))
  | [] => some []
  | (key, entry) :: rest => do return (key, ← ofDump? entry) :: (← entriesOfDump? rest)

end

end Accessor

end Phrasebook
