import Phrasebook.Accessor.Dump
import Phrasebook.Cli.Config
import Phrasebook.Cli.FileTree
import Phrasebook.Compile
import Phrasebook.Json.Print

/-!
What the command does, as a function of its arguments and of the files there are. The stages
follow each other: the configuration is loaded, the resource read, decoded, turned into accessors,
written as a script or as JSON, and delivered. The first stage that fails ends the run; nothing is
delivered then. An invalid configuration is told in the words of its parser, which are a parameter.
-/

namespace Phrasebook.Cli

/-- Why a run fails. -/
inductive Failure where
  | read (path : String) (error : FileError)
  | write (path : String) (error : FileError)
  | config (path : String) (report : Toml.Report)
  | resource (path : String) (error : ResourceError)
  deriving DecidableEq, Repr

namespace Failure

/-- What a failure says before its path. -/
def lead : Failure → String
  | .read _ _ => "failed to read "
  | .write _ _ => "failed to write "
  | .config _ _ => "invalid config file "
  | .resource _ _ => ""

/-- The path that a failure names. -/
def path : Failure → String
  | .read path _ | .write path _ | .config path _ | .resource path _ => path

/-- What a failure says about its path. -/
def cause : Failure → String
  | .read _ e | .write _ e => e.message
  | .config _ report => report.text
  | .resource _ e => e.message

def message (failure : Failure) : String := failure.lead ++ failure.path ++ ": " ++ failure.cause

end Failure

inductive Level where
  | debug
  | info
  deriving DecidableEq, Repr

def Level.label : Level → String
  | .debug => "DEBUG"
  | .info => "INFO"

structure LogLine where
  level : Level
  message : String
  deriving DecidableEq, Repr

/-- What a run changes: the files, and the log. -/
structure Session where
  tree : FileTree
  logs : List LogLine := []

/-- A part of a run, which may fail. -/
abbrev Stage := ExceptT Failure (StateM Session)

namespace Stage

def log (level : Level) (message : String) : Stage Unit :=
  modify fun session => { session with logs := session.logs ++ [⟨level, message⟩] }

/-- The result of a step, with its failure told as one of the run. -/
def check (result : Except ε α) (failure : ε → Failure) : Stage α :=
  ExceptT.mk (pure (result.mapError failure))

end Stage

open Stage

def readFile (path : String) : Stage String := do
  check ((← get).tree.readText path) (.read path)

/-- Reads the options from the configuration file, if one is named. -/
def loadConfig (commentary : Toml.Commentary) : Option String → Stage Options
  | none => return {}
  | some path => do
    let config ← check (Options.ofToml commentary (← readFile path)) (.config path)
    log .debug "Loaded config file."
    return config

def readInput (path : String) : Stage String := do
  let text ← readFile path
  log .debug "Read localization resource."
  return text

def decodeInput (path text : String) : Stage Json.Value := do
  let resource ← check (decodeResource text) (.resource path)
  log .debug "Converting resource JSON to IR."
  return resource

def makeAccessor (path : String) (resource : Json.Value) : Stage Accessor :=
  check (Accessor.ofJson resource) (.resource path ∘ .unsupported)

/-- The text to deliver: the accessor as pretty JSON, or its script. -/
def renderAccessor (accessor : Accessor) (dump : Bool) (options : Options) : Stage String := do
  if dump then return accessor.toJson.pretty ++ "\n"
  else
    log .debug "Generating TypeScript AST from IR."
    let script := accessor.render options
    log .debug "TypeScript accessors generated."
    return script

/-- Makes the directory of a file, with all that are missing above it. -/
def makeParent (path : String) : Stage Unit := do
  match FilePath.parent? path with
  | none => return
  | some parent =>
    let (tree, error?) := (← get).tree.makeDirectories (FilePath.names parent).reverse
    modify ({ · with tree })
    if let some e := error? then throw (.write parent e)

/-- Writes a text to a file, in a directory that is made if it is missing. -/
def writeFile (path text : String) : Stage Unit := do
  makeParent path
  let tree ← check ((← get).tree.writeText path text) (.write path)
  modify ({ · with tree })
  log .info "Wrote generated file."

/-- Delivers a text to a file or, without one, to the standard output, of which the result is the
text. -/
def deliver (output : Option String) (text : String) : Stage String := do
  match output with
  | none => return text
  | some path =>
    writeFile path text
    return ""

def stages (commentary : Toml.Commentary) (args : Args) : Stage String := do
  let options := (← loadConfig commentary args.config).override args
  let text ← readInput args.input
  let resource ← decodeInput args.input text
  let accessor ← makeAccessor args.input resource
  deliver args.output (← renderAccessor accessor args.dumpAccessors options)

/-- What can be seen of a run: its exit status, its output, the log, and the files afterwards. -/
structure Outcome where
  status : Nat
  stdout : String := ""
  stderr : String := ""
  logs : List LogLine := []
  tree : FileTree

/-- Runs the stages. Without the verbose flag the log holds no debug lines. -/
def execute (commentary : Toml.Commentary) (args : Args) (tree : FileTree) : Outcome :=
  let (result, session) := (stages commentary args).run.run { tree }
  let logs := session.logs.filter fun line => args.verbose || line.level == .info
  match result with
  | .ok stdout => { status := 0, stdout, logs, tree := session.tree }
  | .error failure =>
    { status := 1, stderr := "Error: " ++ failure.message ++ "\n", logs, tree := session.tree }

/-- Runs a command line. Unless the words of the parser of configurations are given, an invalid one is
told by its place alone. -/
def run (words : List String) (tree : FileTree) (commentary : Toml.Commentary := .silent) : Outcome :=
  match Args.parse words with
  | .ok args => execute commentary args tree
  | .error .help => { status := 0, stdout := helpText, tree }
  | .error .version => { status := 0, stdout := versionText, tree }
  | .error (.error e) =>
    { status := 2, stderr := "error: " ++ e.message ++ "\n\n" ++ usage ++
        "\n\nFor more information, try '--help'.\n", tree }

end Phrasebook.Cli
