import Phrasebook.Cli.Args
import Phrasebook.Options
import Phrasebook.Toml.Report

/-!
Configuration files: TOML documents with the options as keys. What the command line says comes
before what the file says.
-/

namespace Phrasebook

namespace Options

/-- Takes over one entry of a document. A key that is no option is told at the key, a value of the
wrong kind at the value. -/
def configure (text : List Char) (options : Options) :
    Toml.Key × Nat × Toml.Item → Except Toml.Place Options
  | (key, place, item) =>
    match key.name, item with
    | "default_export", .value (.boolean b) => .ok { options with defaultExport := b }
    | "banner", .value (.string s) => .ok { options with banner := some s }
    | "default_export", _ => .error (.ofUnread text place)
    | "banner", _ => .error (.ofUnread text place)
    | _, _ => .error (.ofUnread text key.place)

/-- The options that a document sets, or the place of its first error. -/
def readToml (text : String) : Except Toml.Place Options := do
  (← Toml.decode text).foldlM (configure text.toList) {}

/-- The options that a configuration file sets, or what its parser reports of it. -/
def ofToml (commentary : Toml.Commentary) (text : String) : Except Toml.Report Options :=
  (readToml text).mapError (commentary.report text)

/-- The options under a command line: an export flag and a banner, even an empty one, come before
what is configured. -/
def override (config : Options) (args : Cli.Args) : Options :=
  ⟨args.defaultExport.getD config.defaultExport, args.banner <|> config.banner⟩

end Options

end Phrasebook
