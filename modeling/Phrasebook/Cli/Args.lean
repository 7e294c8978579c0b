/-!
Command lines. Options may stand before and after the resource; a value is the next word or
follows the name after an equals sign, short options may share one dash, and after `--` every word
names a resource. A word is understood from left to right, so the first fault is the one that is
told.

A value that is a word of its own stays *pending* until the next option, or the end of the line,
shows that it is complete.
-/

namespace Phrasebook.Cli

/-- What a command line asks for. -/
structure Args where
  input : String
  output : Option String
  /-- The last of the two export flags, if one is given. -/
  defaultExport : Option Bool
  banner : Option String
  config : Option String
  dumpAccessors : Bool
  verbose : Bool
  deriving DecidableEq, Repr

inductive Slot where
  | input
  | output
  | banner
  | config
  deriving DecidableEq, Repr

/-- How a message calls what takes a value. -/
def Slot.label : Slot → String
  | .input => "<INPUT>"
  | .output => "--output <OUTPUT>"
  | .banner => "--banner <TEXT>"
  | .config => "--config <CONFIG>"

/-- An option without a value. -/
inductive Flag where
  | defaultExport
  | noDefaultExport
  | dumpAccessors
  | verbose
  | help
  | version
  deriving DecidableEq, Repr

/-- How a message calls an option without a value. -/
def Flag.label : Flag → String
  | .defaultExport => "--default-export"
  | .noDefaultExport => "--no-default-export"
  | .dumpAccessors => "--emit-ir"
  | .verbose => "--verbose"
  | .help => "--help"
  | .version => "--version"

/-- What is wrong with a command line. -/
inductive UsageError where
  | missingInput
  | unexpected (word : String)
  | missingValue (slot : Slot)
  | repeatedSlot (slot : Slot)
  | repeatedFlag (flag : Flag)
  | unexpectedValue (value : String) (flag : Flag)
  deriving DecidableEq, Repr

def quoted (s : String) : String := "'" ++ s ++ "'"

def UsageError.message : UsageError → String
  | .missingInput => "the following required arguments were not provided:"
  | .unexpected word => "unexpected argument " ++ quoted word ++ " found"
  | .missingValue slot =>
    "a value is required for " ++ quoted slot.label ++ " but none was supplied"
  | .repeatedSlot slot =>
    "the argument " ++ quoted slot.label ++ " cannot be used multiple times"
  | .repeatedFlag flag =>
    "the argument " ++ quoted flag.label ++ " cannot be used multiple times"
  | .unexpectedValue value flag =>
    "unexpected value " ++ quoted value ++ " for " ++ quoted flag.label ++
      " found; no more were expected"

/-- Why the reading of a command line stops without arguments. -/
inductive Stop where
  | help
  | version
  | error (cause : UsageError)
  deriving DecidableEq, Repr

/-! ### The words read so far -/

structure Draft where
  input : Option String := none
  output : Option String := none
  defaultExport : Option Bool := none
  banner : Option String := none
  config : Option String := none
  dumpAccessors : Bool := false
  verbose : Bool := false

namespace Draft

def get (draft : Draft) : Slot → Option String
  | .input => draft.input
  | .output => draft.output
  | .banner => draft.banner
  | .config => draft.config

/-- Gives a slot its value. Each slot has one value, and a path is not empty. -/
def set (draft : Draft) (slot : Slot) (value : String) : Except Stop Draft :=
  if (draft.get slot).isSome then .error (.error (.repeatedSlot slot))
  else if slot ≠ .banner ∧ value.isEmpty then .error (.error (.missingValue slot))
  else
    match slot with
    | .input => .ok { draft with input := some value }
    | .output => .ok { draft with output := some value }
    | .banner => .ok { draft with banner := some value }
    | .config => .ok { draft with config := some value }

/-- Turns on a flag. Each flag may be given once, but each of the export flags takes back the other
one. -/
def turnOn (draft : Draft) (flag : Flag) : Except Stop Draft :=
  let again : Except Stop Draft := .error (.error (.repeatedFlag flag))
  match flag with
  | .defaultExport =>
    if draft.defaultExport = some true then again
    else .ok { draft with defaultExport := some true }
  | .noDefaultExport =>
    if draft.defaultExport = some false then again
    else .ok { draft with defaultExport := some false }
  | .dumpAccessors =>
    if draft.dumpAccessors then again else .ok { draft with dumpAccessors := true }
  | .verbose => if draft.verbose then again else .ok { draft with verbose := true }
  | .help => .error .help
  | .version => .error .version

end Draft

structure Progress where
  draft : Draft := {}
  /-- The slot that was named last, and its value if that is complete. -/
  pending : Option (Slot × Option String) := none
  /-- Whether all further words are resources. -/
  onlyInputs : Bool := false

namespace Progress

def settle (p : Progress) : Except Stop Progress :=
  match p.pending with
  | none => .ok p
  | some (slot, none) => .error (.error (.missingValue slot))
  | some (slot, some value) => do
    return { p with draft := ← p.draft.set slot value, pending := none }

def turnOn (p : Progress) (flag : Flag) : Except Stop Progress := do
  let p ← p.settle
  return { p with draft := ← p.draft.turnOn flag }

/-- Gives a slot a value that is part of the same word. -/
def attach (p : Progress) (slot : Slot) (value : String) : Except Stop Progress := do
  let p ← p.settle
  return { p with draft := ← p.draft.set slot value }

def await (p : Progress) (slot : Slot) : Except Stop Progress := do
  return { ← p.settle with pending := some (slot, none) }

def unexpected (word : String) : Except Stop Progress := .error (.error (.unexpected word))

/-- A word that is no option names the resource, of which there is one. -/
def addInput (p : Progress) (word : String) : Except Stop Progress :=
  if p.draft.input.isSome || p.pending.any (·.1 == .input) then unexpected word
  else do return { ← p.settle with pending := some (.input, some word) }

end Progress

/-! ### Options -/

inductive Switch where
  | flag (flag : Flag)
  | slot (slot : Slot)

def ofLongName? : String → Option Switch
  | "output" => some (.slot .output)
  | "banner" => some (.slot .banner)
  | "config" => some (.slot .config)
  | "default-export" => some (.flag .defaultExport)
  | "no-default-export" => some (.flag .noDefaultExport)
  | "emit-ir" => some (.flag .dumpAccessors)
  | "verbose" => some (.flag .verbose)
  | "help" => some (.flag .help)
  | "version" => some (.flag .version)
  | _ => none

def ofLetter? : Char → Option Switch
  | 'o' => some (.slot .output)
  | 'v' => some (.flag .verbose)
  | 'h' => some (.flag .help)
  | 'V' => some (.flag .version)
  | _ => none

namespace Progress

/-- Reads the part of a word after two dashes. -/
def readLong (p : Progress) (word : List Char) : Except Stop Progress :=
  let name := String.ofList (word.takeWhile (· != '='))
  let value? : Option String :=
    match word.dropWhile (· != '=') with
    | [] => none
    | _ :: value => some (String.ofList value)
  match ofLongName? name, value? with
  | none, _ => unexpected ("--" ++ name)
  | some (.flag flag), none => p.turnOn flag
  | some (.flag flag), some value => .error (.error (.unexpectedValue value flag))
  | some (.slot slot), none => p.await slot
  | some (.slot slot), some value => p.attach slot value

/-- Reads the letters after one dash. The first one that takes a value takes the rest of the word.
-/
def readShort (p : Progress) : List Char → Except Stop Progress
  | [] => .ok p
  | letter :: rest =>
    match ofLetter? letter, rest with
    | none, _ => unexpected (String.ofList ['-', letter])
    | some (.flag flag), rest => do (← p.turnOn flag).readShort rest
    | some (.slot slot), [] => p.await slot
    | some (.slot slot), '=' :: value => p.attach slot (String.ofList value)
    | some (.slot slot), value => p.attach slot (String.ofList value)

/-- Reads a word that is no option: the value that is waited for, or a resource. -/
def readPlain (p : Progress) (word : String) : Except Stop Progress :=
  match p.pending with
  | some (slot, none) => .ok { p with pending := some (slot, some word) }
  | _ => p.addInput word

def read (p : Progress) (word : String) : Except Stop Progress :=
  if p.onlyInputs then p.addInput word
  else
    match word.toList with
    | ['-', '-'] => .ok { p with onlyInputs := true }
    | '-' :: '-' :: long => p.readLong long
    | '-' :: letter :: letters => p.readShort (letter :: letters)
    | _ => p.readPlain word

/-- The arguments at the end of the line, where a resource must have been named. -/
def finish (p : Progress) : Except Stop Args := do
  let draft := (← p.settle).draft
  match draft.input with
  | none => .error (.error .missingInput)
  | some input =>
    return ⟨input, draft.output, draft.defaultExport, draft.banner, draft.config,
      draft.dumpAccessors, draft.verbose⟩

end Progress

def Args.parse (words : List String) : Except Stop Args := do
  (← words.foldlM Progress.read {}).finish

/-! ### Help -/

/-- The line that shows how the program is called. -/
def usage : String := "Usage: i18nts [OPTIONS] <INPUT>"

def helpText : String :=
  "Compile localization JSON into typed TypeScript accessors\n\n" ++ usage ++ "\n\n" ++
  "Arguments:\n" ++
  "  <INPUT>  Localization JSON file to compile\n\n" ++
  "Options:\n" ++
  "  -o, --output <OUTPUT>    Write the result to this file instead of stdout\n" ++
  "      --default-export     Wrap the accessors in `export default ...;`\n" ++
  "      --no-default-export  Print the bare expression, even when the config file sets " ++
    "`default_export`\n" ++
  "      --banner <TEXT>      Comment placed at the top of the generated file\n" ++
  "      --config <CONFIG>    TOML file with default options\n" ++
  "      --emit-ir            Print the intermediate representation as JSON instead of " ++
    "TypeScript\n" ++
  "  -v, --verbose            Log pipeline stages to stderr\n" ++
  "  -h, --help               Print help\n" ++
  "  -V, --version            Print version\n"

def versionText : String := "i18nts 0.1.0\n"

end Phrasebook.Cli
