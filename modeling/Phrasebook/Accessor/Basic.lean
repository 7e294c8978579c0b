import Phrasebook.Counts
import Phrasebook.Number.Basic
import Phrasebook.Template

/-!
Accessors: what a resource offers in place of each of its values. A text without placeholders is a
constant; one with placeholders takes arguments, and so do the two families of texts from which a
count or a flag selects one form.
-/

namespace Phrasebook

structure Arg where
  name : String
  type : ArgType
  deriving DecidableEq, Repr

namespace Arg

/-- Adds an argument, unless one of its name is there already. -/
def add (args : List Arg) (arg : Arg) : List Arg :=
  if args.any (·.name == arg.name) then args else args ++ [arg]

/-- The first argument of each name, in order. -/
def distinct (args : List Arg) : List Arg := args.foldl add []

/-- The argument that selects a form by count. -/
def count : Arg := ⟨"count", .number⟩

/-- The argument that selects one of two forms. -/
def bool : Arg := ⟨"bool", .boolean⟩

end Arg

/-- A piece of a text: characters that stand for themselves, or the value of an argument. -/
inductive Part where
  | literal (text : String)
  | arg (name : String)
  deriving DecidableEq, Repr

/-- One of the texts among which a count or a flag selects. -/
inductive Form where
  | literal (text : String)
  | parts (parts : List Part)
  deriving DecidableEq, Repr

/-- A value that is the same whatever the arguments. -/
inductive Constant where
  | string (value : String)
  | number (value : Number)
  | bool (value : Bool)
  deriving DecidableEq, Repr

/-- What stands for one value of a resource. -/
inductive Accessor where
  | constant (value : Constant)
  | group (entries : List (String × Accessor))
  | list (items : List Accessor)
  | phrase (args : List Arg) (parts : List Part)
  | plural (args : List Arg) (counts : Counts Form) (nth : Form)
  | choice (args : List Arg) (whenTrue whenFalse : Form)

/-! ### Texts -/

/-- A run of characters as a part; an empty run is none. -/
def Part.ofRun (run : List Char) : List Part :=
  if run.isEmpty then [] else [.literal (String.ofList run)]

namespace Template

def parts (t : Template) : List Part :=
  Part.ofRun t.head ++ t.tail.flatMap fun (p, run) => .arg p.name :: Part.ofRun run

/-- The arguments that the placeholders of a text ask for, from left to right. -/
def args (t : Template) : List Arg := t.placeholders.map fun p => ⟨p.name, p.type⟩

def form (t : Template) : Form :=
  if t.tail.isEmpty then .literal (String.ofList t.text) else .parts t.parts

end Template

namespace Accessor

/-- The accessor of a text outside plural and boolean forms. -/
def ofText (s : String) : Accessor :=
  let t := Template.parse s.toList
  if t.tail.isEmpty then .constant (.string s) else .phrase (Arg.distinct t.args) t.parts

/-- The arguments of an accessor with several texts: the one that selects among them, then those of
each text in turn. -/
def argsOf (selector : Arg) (texts : List Template) : List Arg :=
  texts.foldl (fun args t => (Arg.distinct t.args).foldl Arg.add args) [selector]

/-- The accessor of texts from which a count selects. -/
def ofPlural (counts : Counts String) (nth : String) : Accessor :=
  let counts := counts.map fun s => Template.parse s.toList
  let nth := Template.parse nth.toList
  .plural (argsOf .count (counts.values ++ [nth])) (counts.map Template.form) nth.form

/-- The accessor of two texts from which a flag selects. -/
def ofChoice (whenTrue whenFalse : String) : Accessor :=
  let whenTrue := Template.parse whenTrue.toList
  let whenFalse := Template.parse whenFalse.toList
  .choice (argsOf .bool [whenTrue, whenFalse]) whenTrue.form whenFalse.form

end Accessor

end Phrasebook
