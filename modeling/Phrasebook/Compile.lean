import Phrasebook.Accessor.OfJson
import Phrasebook.Accessor.ToScript
import Phrasebook.Json.Decode
import Phrasebook.Options
import Phrasebook.Script.Print

/-!
From a resource to a script: the text is decoded, each value gets its accessor, the accessors become
one expression, and the expression is written as a file.
-/

namespace Phrasebook

/-- Why a resource has no script. -/
inductive ResourceError where
  | json (error : Json.Error)
  | unsupported (error : Unsupported)
  deriving DecidableEq, Repr

def ResourceError.message : ResourceError → String
  | .json e => "invalid resource JSON: " ++ e.message
  | .unsupported e => e.message

/-- The script file for an accessor, under the given comment lines. -/
def Accessor.module (a : Accessor) (banner : List String) (defaultExport : Bool) : Script.Module :=
  ⟨banner, defaultExport, a.toScript⟩

/-- The script file for an accessor. -/
def Accessor.render (a : Accessor) (options : Options) : String :=
  (a.module options.bannerLines options.defaultExport).text

def renderValue (resource : Json.Value) (options : Options) : Except Unsupported String :=
  (Accessor.ofJson resource).map (·.render options)

def decodeResource (text : String) : Except ResourceError Json.Value :=
  (Json.decode text).mapError .json

/-- The accessor for the resource that a text denotes. -/
def accessorOf (text : String) : Except ResourceError Accessor := do
  (Accessor.ofJson (← decodeResource text)).mapError .unsupported

/-- The script file for the resource that a text denotes. -/
def compile (text : String) (options : Options) : Except ResourceError String :=
  (accessorOf text).map (·.render options)

end Phrasebook
