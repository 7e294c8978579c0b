import Mathlib.Data.List.Basic
import Phrasebook.Script.Print
import Phrasebook.Text.Ranges
import Phrasebook.Proofs.Script.Quoted
import Phrasebook.Proofs.Text.Classes

/-!
The tokens of a script. Blanks and line ends stand between tokens; a word is as long as it can be,
and a mark is found after any blanks. Each lemma here says what a reader of one token does on a text
that begins with it.
-/

namespace Phrasebook.Script

/-- White space and line ends as ECMAScript has them. -/
def blankRanges : Text.Ranges :=
  [(0x9, 0xd), (0x20, 0x20), (0xa0, 0xa0), (0x1680, 0x1680), (0x2000, 0x200a), (0x2028, 0x2029),
    (0x202f, 0x202f), (0x205f, 0x205f), (0x3000, 0x3000), (0xfeff, 0xfeff)]

/-- A character that only separates tokens. -/
def isBlank (c : Char) : Bool := blankRanges.has c

/-- The text from its first token on. -/
def skip (s : List Char) : List Char := s.dropWhile isBlank

/-- The words that are no identifiers in the code of a module: the keywords of the language, those
of strict mode, and `await`. -/
def keywords : List String :=
  ["await", "break", "case", "catch", "class", "const", "continue", "debugger", "default", "delete",
    "do", "else", "enum", "export", "extends", "false", "finally", "for", "function", "if",
    "implements", "import", "in", "instanceof", "interface", "let", "new", "null", "package",
    "private", "protected", "public", "return", "static", "super", "switch", "this", "throw", "true",
    "try", "typeof", "var", "void", "while", "with", "yield"]

/-- A word that is an identifier in the code of a module. -/
def IsIdentifier (name : String) : Prop := Text.isName name.toList ∧ name ∉ keywords

/-- The identifiers that the code of a module, which is strict, may not bind. -/
def unbindable : List String := ["eval", "arguments"]

/-- A word that can name a parameter in the code of a module. -/
def IsBinding (name : String) : Prop := IsIdentifier name ∧ name ∉ unbindable

/-- A step of reading: it takes some of the text and gives a result, or rejects the text. -/
abbrev Reader := StateT (List Char) Option

namespace Reader

def symbol (mark : List Char) : Reader Unit := fun s =>
  (mark.isPrefixOf? (skip s)).map fun rest => ((), rest)

/-- Reads a mark if it comes next, and tells whether it did. -/
def accept (mark : List Char) : Reader Bool := fun s =>
  match mark.isPrefixOf? (skip s) with
  | some rest => some (true, rest)
  | none => some (false, s)

/-- The first character of the next token, which stays unread. -/
def peek : Reader (Option Char) := fun s => some ((skip s).head?, skip s)

/-- Rejects a text whose next token begins on another line. -/
def sameLine : Reader Unit := fun s =>
  if (s.takeWhile isBlank).any Text.isLineEnd then none else some ((), s)

def word : Reader String := fun s =>
  let name := (skip s).takeWhile Text.isNameChar
  if Text.isName name then some (String.ofList name, (skip s).dropWhile Text.isNameChar) else none

/-- Reads the given word if it comes next, and tells whether it did. -/
def acceptWord (expected : String) : Reader Bool := fun s =>
  match word s with
  | some (found, rest) => if found = expected then some (true, rest) else some (false, s)
  | none => some (false, s)

/-- Reads a word that names a parameter. -/
def identifier : Reader String := do
  let name ← word
  if name ∈ keywords then failure else return name

def typeName : Reader ArgType := do
  match ArgType.ofKeyword? (← word) with
  | some type => return type
  | none => failure

/-- Reads the characters of a string or template literal, after its opening mark. -/
def quoted (q : Quote) : Reader (String × Mark) := fun s =>
  (q.read? s).map fun ((text, mark), rest) => ((String.ofList text, mark), rest)

theorem bind_some {α β : Type} {x : Reader α} {f : α → Reader β} {s rest : List Char} {a : α}
    (h : x s = some (a, rest)) : (x >>= f) s = f a rest := by
  show (x s >>= fun p => f p.1 p.2) = _
  rw [h]
  rfl

theorem bind_none {α β : Type} {x : Reader α} {f : α → Reader β} {s : List Char} (h : x s = none) :
    (x >>= f) s = none := by
  show (x s >>= fun p => f p.1 p.2) = _
  rw [h]
  rfl

theorem exists_of_bind {α β : Type} {x : Reader α} {f : α → Reader β} {s rest : List Char} {b : β}
    (h : (x >>= f) s = some (b, rest)) : ∃ a t, x s = some (a, t) ∧ f a t = some (b, rest) := by
  obtain ⟨⟨a, t⟩, hx, hf⟩ := Option.bind_eq_some_iff.1 h
  exact ⟨a, t, hx, hf⟩

end Reader

/-! ### Blanks -/

theorem skip_cons_blank {c : Char} {s : List Char} (h : isBlank c) : skip (c :: s) = skip s :=
  List.dropWhile_cons_of_pos h

theorem skip_cons {c : Char} {s : List Char} (h : ¬isBlank c) : skip (c :: s) = c :: s :=
  List.dropWhile_cons_of_neg h

@[simp]
theorem skip_space (s : List Char) : skip (' ' :: s) = skip s := skip_cons_blank (by decide)

@[simp]
theorem skip_newline (s : List Char) : skip ('\n' :: s) = skip s := skip_cons_blank (by decide)

@[simp]
theorem skip_indent (level : Nat) (s : List Char) : skip (indent level ++ s) = skip s := by
  rw [indent]
  generalize 2 * level = n
  induction n with
  | zero => rfl
  | succ n ih => rw [List.replicate_succ, List.cons_append, skip_space, ih]

/-- The first token after the spaces of a line. -/
theorem skip_indent_cons (level : Nat) {c : Char} {s : List Char} (h : ¬isBlank c) :
    skip (indent level ++ c :: s) = c :: s :=
  (skip_indent level _).trans (skip_cons h)

/-! ### Words -/

/-- A text that does not go on with a character of a word. -/
def EndsWord (rest : List Char) : Prop := ∀ c ∈ rest.head?, ¬Text.isNameChar c

namespace Reader

theorem word_of_skip (name : String) {s rest : List Char} (hname : Text.isName name.toList)
    (hrest : EndsWord rest) (h : skip s = name.toList ++ rest) : word s = some (name, rest) := by
  obtain ⟨htake, hdrop⟩ := Text.span_append (Text.isNameChar_of_isName hname) hrest
  simp only [word, h, htake, hdrop]
  rw [if_pos hname, String.ofList_toList]

theorem identifier_of_skip {name : String} {s rest : List Char} (hname : IsIdentifier name)
    (hrest : EndsWord rest) (h : skip s = name.toList ++ rest) :
    identifier s = some (name, rest) := by
  rw [identifier, bind_some (word_of_skip name hname.1 hrest h), if_neg hname.2]
  rfl

theorem typeName_of_skip {type : ArgType} {s rest : List Char} (hrest : EndsWord rest)
    (h : skip s = type.keyword.toList ++ rest) : typeName s = some (type, rest) := by
  have hname : Text.isName type.keyword.toList := by cases type <;> decide
  have hkeyword : ArgType.ofKeyword? type.keyword = some type := by cases type <;> rfl
  rw [typeName, bind_some (word_of_skip _ hname hrest h), hkeyword]
  rfl

/-! ### Marks -/

theorem symbol_of_skip {mark s rest : List Char} (h : skip s = mark ++ rest) :
    symbol mark s = some ((), rest) := by
  rw [symbol, List.isPrefixOf?_eq_some_iff_append_eq.2 h.symm]
  rfl

theorem symbol_char {c : Char} {s rest : List Char} (h : skip s = c :: rest) :
    symbol [c] s = some ((), rest) :=
  symbol_of_skip h

theorem accept_of_skip {mark s rest : List Char} (h : skip s = mark ++ rest) :
    accept mark s = some (true, rest) := by
  rw [accept, List.isPrefixOf?_eq_some_iff_append_eq.2 h.symm]

theorem accept_char {c : Char} {s rest : List Char} (h : skip s = c :: rest) :
    accept [c] s = some (true, rest) :=
  accept_of_skip h

theorem accept_of_head {c d : Char} {mark s rest : List Char} (h : skip s = d :: rest)
    (hne : d ≠ c) : accept (c :: mark) s = some (false, s) := by
  rw [accept, h, List.isPrefixOf?, if_neg]
  simpa using hne.symm

/-! ### Texts -/

theorem quoted_of_read? {q : Quote} {s rest : List Char} {text : String} {mark : Mark}
    (h : q.read? s = some ((text.toList, mark), rest)) : quoted q s = some ((text, mark), rest) := by
  simp only [quoted, h, Option.map_some, String.ofList_toList]

end Reader

end Phrasebook.Script
