import Phrasebook.Cli.FilePath

/-!
Trees of files and directories, and the operations of a command that reads and writes files in one.
Paths are resolved name by name, the way a file system does it, and fail as they do there.
-/

namespace Phrasebook.Cli

/-- Why a file cannot be read or written. -/
inductive FileError where
  | notFound
  | exists
  | notDirectory
  | isDirectory
  | notText
  deriving DecidableEq, Repr

def FileError.message : FileError → String
  | .notFound => "No such file or directory (os error 2)"
  | .exists => "File exists (os error 17)"
  | .notDirectory => "Not a directory (os error 20)"
  | .isDirectory => "Is a directory (os error 21)"
  | .notText => "stream did not contain valid UTF-8"

-- Contents of files are compared by the instance of core, also where another one is in scope.
attribute [local instance (high)] ByteArray.instDecidableEq

/-- What stands at a place. -/
inductive FileEntry where
  | directory
  | file (content : ByteArray)
  deriving DecidableEq

/-- A place: the names that lead to it from the working directory. A place above the working
directory begins with `..`, and one under the root of the file system with `/`. -/
abbrev Location := List String

/-- The entries of a tree by their places, of which the working directory, the directories above it
and the root of the file system are not listed. -/
structure FileTree where
  entries : List (Location × FileEntry)

namespace FileTree

/-- What stands at a place. The working directory, those above it and the root are always there. -/
def lookup (tree : FileTree) (place : Location) : Option FileEntry :=
  if place.all (· == "..") || place == ["/"] then some .directory
  else (tree.entries.find? (·.1 == place)).map (·.2)

def isDirectory (tree : FileTree) (place : Location) : Bool :=
  match tree.lookup place with
  | some .directory => true
  | _ => false

def set (tree : FileTree) (place : Location) (entry : FileEntry) : FileTree :=
  ⟨if tree.entries.any (·.1 == place) then
    tree.entries.map fun old => if old.1 == place then (place, entry) else old
  else tree.entries ++ [(place, entry)]⟩

/-! ### Paths -/

/-- The place above a place. -/
def above (place : Location) : Location :=
  if place = ["/"] then place
  else if place.all (· == "..") then place ++ [".."]
  else place.dropLast

/-- The place that a name leads to from a directory. -/
def step (place : Location) (name : String) : Location :=
  if name = "." then place else if name = ".." then above place else place ++ [name]

/-- The place that names lead to from a place. Every name but the last leads on only from a
directory; at the last name anything may stand, or nothing. -/
def resolve (tree : FileTree) : List String → Location → Except FileError Location
  | [], place => .ok place
  | name :: rest, place =>
    match tree.lookup place with
    | none => .error .notFound
    | some (.file _) => .error .notDirectory
    | some .directory => tree.resolve rest (step place name)

/-! ### Reading -/

/-- The text in the file of a path. A path that closes with a slash names a directory. -/
def readText (tree : FileTree) (path : String) : Except FileError String := do
  let place ← tree.resolve (FilePath.names path) []
  match tree.lookup place with
  | none => .error .notFound
  | some .directory => .error .isDirectory
  | some (.file content) =>
    if FilePath.closesWithSlash path then .error .notDirectory
    else
      match String.fromUTF8? content with
      | some text => .ok text
      | none => .error .notText

/-! ### Writing -/

/-- Makes a directory, unless one is there already. -/
def makeDirectory (tree : FileTree) (path : List String) : Except FileError FileTree := do
  let place ← tree.resolve path []
  match tree.lookup place with
  | none => .ok (tree.set place .directory)
  | some .directory => .ok tree
  | some (.file _) => .error .exists

/-- The tree after an attempt to change it, and the error if the attempt failed. -/
def attempt (tree : FileTree) : Except FileError FileTree → FileTree × Option FileError
  | .ok changed => (changed, none)
  | .error e => (tree, some e)

/-- Makes a directory and all that are missing above it, from its names in reverse. Where one of them
cannot be made, those that were made before it stay. -/
def makeDirectories (tree : FileTree) : List String → FileTree × Option FileError
  | [] => (tree, none)
  | name :: above =>
    let path := (name :: above).reverse
    match tree.makeDirectory path with
    | .error .notFound =>
      match tree.makeDirectories above with
      | (made, none) => made.attempt (made.makeDirectory path)
      | failed => failed
    | result => tree.attempt result

/-- Writes a text to the file of a path. A path that closes with a slash names no file. -/
def writeText (tree : FileTree) (path : String) (text : String) : Except FileError FileTree := do
  let place ← tree.resolve (FilePath.names path) []
  if FilePath.closesWithSlash path || tree.isDirectory place then .error .isDirectory
  else .ok (tree.set place (.file text.toUTF8))

/-- Puts a file at the place of a path, with the directories that hold it. -/
def addFile (tree : FileTree) (path : String) (content : ByteArray) : FileTree :=
  let place := FilePath.names path
  let above := (List.range (place.length - 1)).map fun n => place.take (n + 1)
  (above.foldl (fun tree directory => tree.set directory .directory) tree).set place
    (.file content)

/-- The tree of some files, beside the null device, which is empty whenever it is read. -/
def ofFiles (files : List (String × ByteArray)) : FileTree :=
  files.foldl (fun tree (path, content) => tree.addFile path content)
    ((⟨[]⟩ : FileTree).addFile "/dev/null" .empty)

/-- The files of a tree that are new or have another content than in an earlier tree. -/
def changedFiles (earlier later : FileTree) : List (Location × ByteArray) :=
  later.entries.filterMap fun (place, entry) =>
    match entry with
    | .file content => if earlier.lookup place = some entry then none else some (place, content)
    | .directory => none

end FileTree

end Phrasebook.Cli
