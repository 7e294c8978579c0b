import Phrasebook.Json.Decode
import Phrasebook.Options
import Phrasebook.Text.Quoted

/-!
Options as JSON: an object of the fields `default_export` and `banner`, each of which may be absent,
or a list of their values in that order. A field is checked as soon as it is read, so of two faults
the first in the text is told.
-/

namespace Phrasebook

namespace Json.Decoder

/-- Stops because something else was expected: a scalar is read and named, a bracket is not. -/
def wrongType (size : Nat) (expected : String) : Decoder α := do
  match ← peekToken with
  | none => failHere .endInValue
  | some 'n' =>
    word ['n', 'u', 'l', 'l']
    failHere (.wrongType "null" expected)
  | some 't' =>
    word ['t', 'r', 'u', 'e']
    failHere (.wrongType "boolean `true`" expected)
  | some 'f' =>
    word ['f', 'a', 'l', 's', 'e']
    failHere (.wrongType "boolean `false`" expected)
  | some '"' =>
    let text ← quotedString size
    failHere (.wrongType ("string " ++ String.ofList (Text.quoted text.toList)) expected)
  | some '[' => failHere (.wrongType "sequence" expected)
  | some '\x7b' => failHere (.wrongType "map" expected)
  | some c =>
    if c = '-' ∨ c.isDigit then
      let n ← number size
      let kind :=
        match n with
        | .int _ => "integer "
        | .double _ => "floating point "
      failHere (.wrongType (kind ++ ticked (String.ofList n.text)) expected)
    else failNext .expectedValue

def boolean (size : Nat) : Decoder Bool := do
  match ← peekToken with
  | some 't' =>
    word ['t', 'r', 'u', 'e']
    return true
  | some 'f' =>
    word ['f', 'a', 'l', 's', 'e']
    return false
  | _ => wrongType size "a boolean"

/-- A string or null. -/
def optionalString (size : Nat) : Decoder (Option String) := do
  match ← peekToken with
  | some 'n' =>
    word ['n', 'u', 'l', 'l']
    return none
  | some '"' => return some (← quotedString size)
  | _ => wrongType size "a string"

/-- Stops because of a key. The object is left first, if it ends right after the key. -/
def failAtKey (cause : Cause) : Decoder α := do
  if (← peekToken) == some '\x7d' then skip
  failHere cause

/-- The end of a list that has all its items. -/
def listEnd : Decoder Unit := do
  match ← peekToken with
  | none => failHere .endInList
  | some ']' => skip
  | some ',' =>
    skip
    if (← peekToken) == some ']' then failNext .trailingComma else failNext .trailingCharacters
  | some _ => failNext .trailingCharacters

end Json.Decoder

namespace Options

open Json (Decoder)
open Json.Decoder

def fieldNames : List String := ["default_export", "banner"]

structure Fields where
  defaultExport : Option Bool := none
  banner : Option (Option String) := none

/-- The options with defaults for the fields that are absent. -/
def Fields.options (fields : Fields) : Options :=
  ⟨fields.defaultExport.getD false, fields.banner.getD none⟩

/-- The fields of an object after its opening bracket. Each step reads a field that was absent, so
three steps reach the end of the object. -/
def fromObject (size : Nat) : (steps : Nat) → Fields → Decoder Fields
  | 0, fields => return fields
  | steps + 1, fields => do
    if ← hasKey (fields.defaultExport.isNone && fields.banner.isNone) then
      let key ← quotedString size
      if key = "default_export" then
        if fields.defaultExport.isSome then failAtKey (.repeatedMember key)
        colon
        fromObject size steps { fields with defaultExport := some (← boolean size) }
      else if key = "banner" then
        if fields.banner.isSome then failAtKey (.repeatedMember key)
        colon
        fromObject size steps { fields with banner := some (← optionalString size) }
      else failAtKey (.unknownMember key fieldNames)
    else
      skip
      return fields

/-- The fields of a list after its opening bracket. -/
def fromList (size : Nat) : Decoder Fields := do
  let mut fields : Fields := {}
  if ← hasItem true then
    fields := { fields with defaultExport := some (← boolean size) }
    if ← hasItem false then
      fields := { fields with banner := some (← optionalString size) }
  listEnd
  return fields

/-- The options that an object or a list gives. -/
def decoder (size : Nat) : Decoder Options := do
  match ← peekToken with
  | some '\x7b' =>
    skip
    return (← fromObject size 3 {}).options
  | some '[' =>
    skip
    return (← fromList size).options
  | _ => wrongType size "struct GenerateOptions"

def ofJson (text : String) : Except Json.Error Options := Json.Decoder.run decoder text

end Options

end Phrasebook
