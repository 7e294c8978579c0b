import Phrasebook.Text.Hex
import Phrasebook.Toml.Reader

/-!
The four kinds of strings in TOML. Basic strings stand between quotes and have escapes, literal
strings stand between apostrophes and have none; three delimiters in place of one let a string go
over several lines. A line end right after three opening delimiters does not count, and every
other one counts as a line feed.
-/

namespace Phrasebook.Toml.Reader

/-- The character that a letter after a backslash stands for. -/
def shortEscape? : Char → Option Char
  | 'b' => some '\x08'
  | 'f' => some '\x0c'
  | 'n' => some '\n'
  | 'r' => some '\r'
  | 't' => some '\t'
  | '\\' => some '\\'
  | '"' => some '"'
  | _ => none

/-- The character of a code point that is written with the given number of hexadecimal digits. -/
def codePoint (digits : Nat) : Reader Char := do
  let values := ((← unread).take digits).filterMap Text.hexValue?
  let code := values.foldl (fun n d => n * 16 + d) 0
  if values.length = digits ∧ code.isValidChar then
    skip digits
    return Char.ofNat code
  else fail

/-- The character of an escape, from its backslash on. -/
def escape : Reader Char := do
  match ← unread with
  | _ :: 'u' :: _ =>
    skip 2
    codePoint 4
  | _ :: 'U' :: _ =>
    skip 2
    codePoint 8
  | _ :: letter :: rest =>
    match shortEscape? letter with
    | some c =>
      skip 2
      return c
    | none => failAt (if letter.toNat < 0x80 then rest else letter :: rest)
  | _ => fail

/-- The rest of a basic string, after the characters read already, the last of them first. -/
def basicRest : Nat → List Char → Reader String
  | 0, _ => fail
  | size + 1, read => do
    match ← peek with
    | some '"' =>
      skip 1
      return String.ofList read.reverse
    | some '\\' => basicRest size ((← escape) :: read)
    | some c =>
      if isText c then
        skip 1
        basicRest size (c :: read)
      else fail
    | none => fail

/-- A string between quotes, on one line. -/
def basicString (size : Nat) : Reader String := do
  expect "\""
  basicRest size []

/-- A string between apostrophes, on one line. -/
def literalString : Reader String := do
  expect "'"
  let body ← takeWhile fun c => isText c && c != '\''
  expect "'"
  return String.ofList body

/-- Reads a backslash at the end of a line, with all space and line ends that follow. -/
def acceptContinuation (size : Nat) : Reader Bool := do
  let start ← unread
  skip 1
  space
  if ← acceptLineEnd then
    blankLines size
    return true
  else
    set start
    return false

/-- Whether a character of a string between apostrophes comes next, or the end of a line. -/
def seesLiteral : Reader Bool := do
  return (← peek).any (fun c => isText c && c != '\'') || (← sees "\n") || (← sees "\r\n")

/-- The rest of a string of several lines, after the characters read already, the last of them
first. Up to two delimiters may stand in the string, also right before the three that close it. -/
def multilineRest (delimiter : Char) (size : Nat) : Nat → List Char → Reader String
  | 0, _ => fail
  | steps + 1, read => do
    match ← peek with
    | none => fail
    | some c =>
      if c = delimiter then
        let rest ← unread
        let run := (rest.takeWhile (· == delimiter)).length
        if 3 ≤ run then
          let inside := min (run - 3) 2
          skip (inside + 3)
          return String.ofList (List.replicate inside delimiter ++ read).reverse
        else if (rest.drop run).isEmpty then fail
        else
          skip run
          if delimiter = '\'' then
            unless ← seesLiteral do failAt rest
          multilineRest delimiter size steps (List.replicate run delimiter ++ read)
      else if ← acceptLineEnd then multilineRest delimiter size steps ('\n' :: read)
      else if c = '\\' ∧ delimiter = '"' then
        if ← acceptContinuation size then multilineRest delimiter size steps read
        else multilineRest delimiter size steps ((← escape) :: read)
      else if isText c then
        skip 1
        multilineRest delimiter size steps (c :: read)
      else fail

def multilineString (delimiter : Char) (size : Nat) : Reader String := do
  skip 3
  let _ ← acceptLineEnd
  multilineRest delimiter size size []

/-- A string on one line, between quotes or apostrophes. -/
def lineString (size : Nat) : Reader String := do
  if ← sees "'" then literalString else basicString size

def anyString (size : Nat) : Reader String := do
  if ← sees "\"\"\"" then multilineString '"' size
  else if ← sees "'''" then multilineString '\'' size
  else lineString size

end Phrasebook.Toml.Reader
