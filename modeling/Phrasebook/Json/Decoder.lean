import Phrasebook.Json.Error

/-!
Reading a text from left to right. An error is reported either *here*, at the characters read so
far, or *after the next byte*: one column further, at the start of the next line if that byte ends
a line, and no further than the end of the text.
-/

namespace Phrasebook.Json

/-- The unread text and the position before it. -/
structure Cursor where
  rest : List Char
  position : Position

namespace Cursor

def start (text : List Char) : Cursor := ⟨text, ⟨1, 0⟩⟩

end Cursor

namespace Position

def advance (p : Position) (c : Char) : Position :=
  if c = '\n' then ⟨p.line + 1, 0⟩ else ⟨p.line, p.column + c.utf8Size⟩

/-- The position after the next byte of the unread text. -/
def afterByte (p : Position) : List Char → Position
  | [] => p
  | c :: _ => if c = '\n' then ⟨p.line + 1, 0⟩ else ⟨p.line, p.column + 1⟩

/-- The position after the given number of bytes of the unread text, which may end inside a
character. -/
def afterBytes (p : Position) (count : Nat) : List Char → Position
  | [] => p
  | c :: rest =>
    if count ≤ c.utf8Size then
      if c = '\n' ∧ 0 < count then p.advance c else ⟨p.line, p.column + count⟩
    else (p.advance c).afterBytes (count - c.utf8Size) rest

end Position

/-- A step of decoding: it reads some of the text and gives a result, or stops with an error. -/
abbrev Decoder := StateT Cursor (Except Error)

namespace Decoder

def failHere (cause : Cause) : Decoder α := fun cursor => .error ⟨cause, cursor.position⟩

def failNext (cause : Cause) : Decoder α :=
  fun cursor => .error ⟨cause, cursor.position.afterByte cursor.rest⟩

/-- Stops after the next byte, or for another cause at the end of the text. -/
def failNextOrEnd (cause atEnd : Cause) : Decoder α :=
  fun cursor => if cursor.rest.isEmpty then failNext atEnd cursor else failNext cause cursor

/-- The next character, which stays unread. -/
def peek : Decoder (Option Char) := fun cursor => .ok (cursor.rest.head?, cursor)

/-- Reads one character, if there is one. -/
def skip : Decoder Unit := fun cursor =>
  match cursor.rest with
  | [] => .ok ((), cursor)
  | c :: rest => .ok ((), ⟨rest, cursor.position.advance c⟩)

/-- Spaces, tabs and line ends between the tokens of a text. -/
def isGap (c : Char) : Bool := c == ' ' || c == '\t' || c == '\n' || c == '\r'

/-- Reads the characters that satisfy a test, up to the first that does not. -/
def takeWhile (p : Char → Bool) : Decoder (List Char) := fun cursor =>
  let taken := cursor.rest.takeWhile p
  .ok (taken, ⟨cursor.rest.dropWhile p, taken.foldl Position.advance cursor.position⟩)

/-- The first character after a gap, which stays unread. -/
def peekToken : Decoder (Option Char) := do
  let _ ← takeWhile isGap
  peek

end Decoder

end Phrasebook.Json
