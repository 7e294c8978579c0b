/-!
What can be wrong with a JSON text, and where. A position is a line, counted from one, and the
number of bytes of that line up to the place of the error.
-/

namespace Phrasebook.Json

/-- Why a text could not be decoded. -/
inductive Cause where
  | endInValue
  | endInList
  | endInObject
  | endInString
  | expectedColon
  | expectedListEnd
  | expectedObjectEnd
  | expectedWord
  | expectedValue
  | invalidEscape
  | invalidNumber
  | numberTooLarge
  | keyNotString
  | controlCharacter
  | unpairedSurrogate
  | cutSurrogatePair
  | trailingComma
  | trailingCharacters
  | tooDeep
  | wrongType (found expected : String)
  | unknownMember (name : String) (known : List String)
  | repeatedMember (name : String)
  deriving DecidableEq, Repr

def ticked (s : String) : String := "`" ++ s ++ "`"

def Cause.text : Cause → String
  | .endInValue => "EOF while parsing a value"
  | .endInList => "EOF while parsing a list"
  | .endInObject => "EOF while parsing an object"
  | .endInString => "EOF while parsing a string"
  | .expectedColon => "expected `:`"
  | .expectedListEnd => "expected `,` or `]`"
  | .expectedObjectEnd => "expected `,` or `\x7d`"
  | .expectedWord => "expected ident"
  | .expectedValue => "expected value"
  | .invalidEscape => "invalid escape"
  | .invalidNumber => "invalid number"
  | .numberTooLarge => "number out of range"
  | .keyNotString => "key must be a string"
  | .controlCharacter => "control character (\\u0000-\\u001F) found while parsing a string"
  | .unpairedSurrogate => "lone leading surrogate in hex escape"
  | .cutSurrogatePair => "unexpected end of hex escape"
  | .trailingComma => "trailing comma"
  | .trailingCharacters => "trailing characters"
  | .tooDeep => "recursion limit exceeded"
  | .wrongType found expected => "invalid type: " ++ found ++ ", expected " ++ expected
  | .unknownMember name known =>
    "unknown field " ++ ticked name ++ ", expected " ++ " or ".intercalate (known.map ticked)
  | .repeatedMember name => "duplicate field " ++ ticked name

/-- A place in a text: a line and a number of bytes in it. -/
structure Position where
  line : Nat
  column : Nat
  deriving DecidableEq, Repr

/-- A cause with the place where it was found. -/
structure Error where
  cause : Cause
  position : Position
  deriving DecidableEq, Repr

/-- The wording of an error, with its place. -/
def Error.message (e : Error) : String :=
  e.cause.text ++ " at line " ++ toString e.position.line ++ " column " ++
    toString e.position.column

end Phrasebook.Json
