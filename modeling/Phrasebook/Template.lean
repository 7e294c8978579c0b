import Phrasebook.Placeholder

/-!
Texts that hold placeholders. A text is a run of characters, then a placeholder, a run, and so on:
`Template.parse` finds this form from left to right, and `Template.text_parse` says that nothing of
the text is lost.
-/

namespace Phrasebook

/-- A text cut at its placeholders: the characters before the first one, and each placeholder with
the characters that follow it. -/
structure Template where
  head : List Char
  tail : List (Placeholder × List Char)
  deriving DecidableEq, Repr

namespace Template

def text (t : Template) : List Char :=
  t.head ++ t.tail.flatMap fun (p, run) => p.text ++ run

/-- Cuts a text at its placeholders, from left to right. A brace that begins no placeholder is an
ordinary character. -/
def parse (s : List Char) : Template :=
  match h : Placeholder.parse? s with
  | some (p, rest) =>
    have := Placeholder.length_of_parse? h
    let t := parse rest
    ⟨[], (p, t.head) :: t.tail⟩
  | none =>
    match s with
    | [] => ⟨[], []⟩
    | c :: rest =>
      let t := parse rest
      ⟨c :: t.head, t.tail⟩
termination_by s.length

/-- Cutting a text loses nothing of it. -/
theorem text_parse (s : List Char) : (parse s).text = s := by
  fun_induction parse s with
  | case1 s p rest h _ t ih =>
    rw [Placeholder.eq_append_of_parse? h, ← ih]
    simp [text, t]
  | case2 => rfl
  | case3 c rest _ t ih =>
    simp only [text, List.cons_append] at ih ⊢
    rw [ih]

def placeholders (t : Template) : List Placeholder := t.tail.map (·.1)

end Template

/-! ### Places of placeholders -/

-- Sums start at the zero of core, also where another one is in scope.
attribute [local instance (high)] Zero.ofOfNat0

/-- The number of bytes that characters take. -/
def byteLength (s : List Char) : Nat := (s.map Char.utf8Size).sum

/-- A placeholder with the byte offsets of its start and its end in a text. -/
structure Occurrence where
  placeholder : Placeholder
  start : Nat
  stop : Nat
  deriving DecidableEq, Repr

namespace Template

/-- The placeholders with their places, when the first of them starts at the given offset. -/
def occurrencesFrom (start : Nat) : List (Placeholder × List Char) → List Occurrence
  | [] => []
  | (p, run) :: rest =>
    let stop := start + byteLength p.text
    ⟨p, start, stop⟩ :: occurrencesFrom (stop + byteLength run) rest

/-- The placeholders of a template with their places in its text. -/
def occurrences (t : Template) : List Occurrence := occurrencesFrom (byteLength t.head) t.tail

end Template

/-- All placeholders of a text, from left to right. -/
def Occurrence.scan (s : String) : List Occurrence := (Template.parse s.toList).occurrences

end Phrasebook
