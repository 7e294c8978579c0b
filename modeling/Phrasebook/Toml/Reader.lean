/-!
Reading TOML from left to right. A reader consumes some of the text, or stops and leaves the text
from the place of the error on. Where the form of a text can go on in more than one way, a reader
that stops has its text read in another way, unless it stopped for good.
-/

namespace Phrasebook.Toml

/-- Where a reader stopped: the text that was unread there, and whether no other way of reading is
left to try. -/
structure Stop where
  rest : List Char
  final : Bool := false
  deriving DecidableEq, Repr

abbrev Reader := StateT (List Char) (Except Stop)

namespace Reader

/-- Stops at the next character. -/
def fail : Reader α := fun rest => .error { rest }

/-- Stops at another place, from which on the given text is unread. -/
def failAt (rest : List Char) : Reader α := fun _ => .error { rest }

/-- Reads what can be read in one way only: where it stops, it stops for good. -/
def commit (reader : Reader α) : Reader α := fun rest =>
  (reader rest).mapError fun stop => { stop with final := true }

/-- Reads something if it can be read. The text stays unread where the reader stops, unless it
stops for good. -/
def attempt (reader : Reader α) : Reader (Option α) := fun rest =>
  match reader rest with
  | .ok (result, rest) => .ok (some result, rest)
  | .error stop => if stop.final then .error stop else .ok (none, rest)

def unread : Reader (List Char) := get

/-- The next character, which stays unread. -/
def peek : Reader (Option Char) := return (← get).head?

/-- Reads the given number of characters. -/
def skip (count : Nat) : Reader Unit := modify (·.drop count)

/-- Reads the characters that satisfy a test, up to the first that does not. -/
def takeWhile (p : Char → Bool) : Reader (List Char) := do
  let rest ← get
  set (rest.dropWhile p)
  return rest.takeWhile p

/-- Whether the unread text starts with the given one. -/
def sees (mark : String) : Reader Bool := return mark.toList.isPrefixOf (← get)

def expect (mark : String) : Reader Unit := do
  if ← sees mark then skip mark.length else fail

/-- Reads a text if it comes next, and tells whether it did. -/
def accept (mark : String) : Reader Bool := do
  if ← sees mark then
    skip mark.length
    return true
  else return false

/-! ### Lists -/

/-- Further items with a mark in front of each, after those read already, the last of them first. A
mark without an item after it stays unread. -/
def moreItems (mark : String) (item : Reader α) : Nat → List α → Reader (List α)
  | 0, read => return read.reverse
  | steps + 1, read => do
    match ← attempt (do expect mark; item) with
    | some next => moreItems mark item steps (next :: read)
    | none => return read.reverse

/-- One item or more, with a mark between any two. -/
def someItems (mark : String) (item : Reader α) (size : Nat) : Reader (List α) := do
  moreItems mark item size [← item]

/-- Any number of items, with a mark between any two. -/
def items (mark : String) (item : Reader α) (size : Nat) : Reader (List α) :=
  return (← attempt (someItems mark item size)).getD []

/-! ### Space and comments -/

def isSpace (c : Char) : Bool := c == ' ' || c == '\t'

/-- A character that comments and strings may hold: any but controls, of which the tab is allowed.
-/
def isText (c : Char) : Bool := c == '\t' || (0x20 ≤ c.toNat && c.toNat != 0x7f)

def space : Reader Unit := do
  let _ ← takeWhile isSpace

def acceptLineEnd : Reader Bool := do
  if ← accept "\n" then return true else accept "\r\n"

/-- The end of a line, which must come next. It is missed after the character that stands there in
its place. -/
def lineEnd : Reader Unit := do
  unless ← acceptLineEnd do failAt ((← unread).drop 1)

/-- A comment, if one comes next. -/
def comment : Reader Unit := do
  if ← sees "#" then
    let _ ← takeWhile isText

/-- Nothing more than space and a comment up to the end of the line. -/
def lineRest : Reader Unit := do
  space
  comment
  unless ← acceptLineEnd do
    if (← peek).isSome then fail

def blankLines : Nat → Reader Unit
  | 0 => return
  | size + 1 => do
    space
    if ← acceptLineEnd then blankLines size

/-- Space, comments and line ends. Every comment has a line end after it. -/
def gap : Nat → Reader Unit
  | 0 => return
  | size + 1 => do
    space
    match ← peek with
    | some '#' =>
      comment
      lineEnd
      gap size
    | some '\n' | some '\r' =>
      lineEnd
      gap size
    | _ => return

end Reader

end Phrasebook.Toml
