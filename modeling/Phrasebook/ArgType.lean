/-!
The types that an argument of an accessor can have.
-/

namespace Phrasebook

/-- The type of an argument, and of the parameter that stands for it in a script. -/
inductive ArgType where
  | string
  | number
  | object
  | boolean
  deriving DecidableEq, Repr

namespace ArgType

def keyword : ArgType → String
  | .string => "string"
  | .number => "number"
  | .object => "object"
  | .boolean => "boolean"

def ofKeyword? : String → Option ArgType
  | "string" => some .string
  | "number" => some .number
  | "object" => some .object
  | "boolean" => some .boolean
  | _ => none

/-- The type that a placeholder's token names; a token that names none, or is empty, stands for
strings. -/
def ofToken (token : String) : ArgType := (ofKeyword? token).getD .string

end ArgType

end Phrasebook
