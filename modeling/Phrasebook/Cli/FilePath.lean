/-!
Paths as texts: their names, and the path of the directory that holds a file.
-/

namespace Phrasebook.Cli.FilePath

def parts (path : String) : List String := (path.toList.splitOn '/').map String.ofList

def closesWithSlash (path : String) : Bool := path.toList.getLast? == some '/'

/-- The names of a path. One under the root of the file system begins with the name `/`, and slashes
that follow each other count as one. -/
def names (path : String) : List String :=
  let inside := (parts path).filter (· != "")
  if path.toList.head? = some '/' then "/" :: inside else inside

/-- The parts of a path without those at its end that lead nowhere; the first part stays. -/
def trim : List String → List String
  | [] => []
  | first :: rest => first :: (rest.reverse.dropWhile fun part => part == "" || part == ".").reverse

/-- The path of the directory that holds a file, as much of the given path as is needed to name
it. It is empty for the working directory, and there is none above the root of the file system. -/
def parent? (path : String) : Option String :=
  match trim (parts path) with
  | [""] => none
  | all =>
    match trim all.dropLast with
    | [""] => some "/"
    | above => some ("/".intercalate above)

end Phrasebook.Cli.FilePath
