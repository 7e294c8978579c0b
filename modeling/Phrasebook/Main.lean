import Phrasebook.Cli.Run

/-!
The command. It looks at the places that its arguments name, lets `Cli.run` decide what to do, and
does it. Of an invalid configuration it tells the place, without an excerpt and a message.
-/

namespace Phrasebook.Cli

/-- The places that a command line may read or write, with all places above them. -/
def relevantPlaces (words : List String) : List Location :=
  match Args.parse words with
  | .error _ => []
  | .ok args =>
    let paths := args.input :: (args.config.toList ++ args.output.toList)
    (paths.flatMap fun path =>
      let names := FilePath.names path
      (List.range names.length).map fun n => (names.take (n + 1)).foldl FileTree.step []).eraseDups

def pathOf : Location → String
  | "/" :: rest => "/" ++ "/".intercalate rest
  | place => "/".intercalate place

/-- What stands at a place. A directory can be opened, but not read like a file. -/
def look (place : Location) : IO (Option FileEntry) := do
  try
    return some (.file (← IO.FS.readBinFile (pathOf place)))
  catch e =>
    match e with
    | .inappropriateType none _ _ => return some .directory
    | _ => return none

/-- What stands at the places that matter to a command line. -/
def snapshot (words : List String) : IO FileTree :=
  (relevantPlaces words).foldlM (fun tree place => do
    return (← look place).elim tree (tree.set place)) ⟨[]⟩

/-- Makes the directories and writes the files in which a tree differs from an earlier one. -/
def store (earlier later : FileTree) : IO Unit := do
  for (place, entry) in later.entries do
    if earlier.lookup place ≠ some entry then
      match entry with
      | .directory => IO.FS.createDirAll (pathOf place)
      | .file content => IO.FS.writeBinFile (pathOf place) content

/-- Runs a command line in the working directory and gives its exit status. -/
def perform (words : List String) : IO UInt32 := do
  let tree ← snapshot words
  let outcome := run words tree
  store tree outcome.tree
  for line in outcome.logs do
    IO.eprintln (line.level.label ++ " " ++ line.message)
  IO.print outcome.stdout
  IO.eprint outcome.stderr
  return outcome.status.toUInt32

end Phrasebook.Cli

def main (words : List String) : IO UInt32 := Phrasebook.Cli.perform words
