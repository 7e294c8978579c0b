import Mathlib.Tactic.SplitIfs
import Phrasebook.Script.Escape
import Phrasebook.Proofs.Text.Classes

/-!
Reading the text of string and template literals. ECMAScript ends a string at its quote, and the
text of a template at a grave accent or where a dollar sign and a brace open a substitution; a
backslash begins an escape in both. `Quote.read?_escapeString` and `Quote.read?_escapeTemplate` say
that the escaped text of a literal has the value it was written for, and ends where the literal does.
-/

namespace Phrasebook.Script

/-- The two literals that hold text. -/
inductive Quote where
  | string
  | template
  deriving DecidableEq, Repr

/-- How a text ends: with its literal, or where a substitution opens. -/
inductive Mark where
  | close
  | substitution
  deriving DecidableEq, Repr

/-! ### One character of a text -/

/-- The letters that stand for a control character after a backslash. -/
def controlEscapes : List (Char × Char) :=
  [('b', '\x08'), ('f', '\x0c'), ('n', '\n'), ('r', '\r'), ('t', '\t'), ('v', '\x0b')]

/-- The character of a `\u` escape with four digits. A surrogate is no character of its own. -/
def unicodeEscape? : List Char → Option (Char × List Char)
  | a :: b :: c :: d :: rest => do
    let n ← Text.ofFourHex? a b c d
    if n.isValidChar then return (Char.ofNat n, rest) else none
  | _ => none

/-- The character of an escape, from after its backslash on. Digits, `x` and line ends begin escapes
that no script here has; all other characters without a meaning of their own stand for themselves. -/
def escape? : List Char → Option (Char × List Char)
  | [] => none
  | c :: rest =>
    if c = 'u' then unicodeEscape? rest
    else if c = 'x' ∨ c.isDigit ∨ Text.isLineEnd c then none
    else some ((controlEscapes.lookup c).getD c, rest)

namespace Quote

/-- How the text ends, if it ends here, and what follows. -/
def end? : Quote → List Char → Option (Mark × List Char)
  | .string, c :: rest => if c = '"' then some (.close, rest) else none
  | .template, c :: rest =>
    if c = '\x60' then some (.close, rest)
    else if c = '$' ∧ rest.head? = some '\x7b' then some (.substitution, rest.tail)
    else none
  | _, [] => none

/-- A character that stands for itself. A string has no line end but the two Unicode ones; in a
template a carriage return, with the line feed after it, counts as a line feed. -/
def plain? : Quote → Char → List Char → Option (Char × List Char)
  | .string, c, rest => if c = '\n' ∨ c = '\r' then none else some (c, rest)
  | .template, c, rest =>
    if c = '\r' then some ('\n', if rest.head? = some '\n' then rest.tail else rest)
    else some (c, rest)

/-- The next character of the text, however it is written. -/
def element? (q : Quote) : List Char → Option (Char × List Char)
  | [] => none
  | c :: rest => if c = '\\' then escape? rest else q.plain? c rest

theorem length_of_unicodeEscape? {s rest : List Char} {c : Char}
    (h : unicodeEscape? s = some (c, rest)) : rest.length < s.length := by
  unfold unicodeEscape? at h
  split at h
  · obtain ⟨n, -, hn⟩ := Option.bind_eq_some_iff.1 h
    split at hn
    · cases hn
      simp only [List.length_cons]
      omega
    · cases hn
  · cases h

theorem length_of_escape? {s rest : List Char} {c : Char} (h : escape? s = some (c, rest)) :
    rest.length < s.length := by
  unfold escape? at h
  split at h
  · cases h
  · split_ifs at h
    · have := length_of_unicodeEscape? h
      simp only [List.length_cons]
      omega
    · cases h
      simp only [List.length_cons]
      omega

theorem length_of_plain? {q : Quote} {s rest : List Char} {c d : Char}
    (h : q.plain? c s = some (d, rest)) : rest.length ≤ s.length := by
  have htail : s.tail.length ≤ s.length := by
    rw [List.length_tail]
    exact Nat.sub_le _ _
  cases q with
  | string =>
      simp only [plain?] at h
      split_ifs at h
      cases h
      exact Nat.le_refl _
  | template =>
      simp only [plain?] at h
      split_ifs at h <;> cases h
      · exact htail
      · exact Nat.le_refl _
      · exact Nat.le_refl _

theorem length_of_element? {q : Quote} {s rest : List Char} {c : Char}
    (h : q.element? s = some (c, rest)) : rest.length < s.length := by
  unfold element? at h
  split at h
  · cases h
  · simp only [List.length_cons]
    split_ifs at h
    · have := length_of_escape? h
      omega
    · have := length_of_plain? h
      omega

/-- The text up to its end, how it ends, and what follows. -/
def read? (q : Quote) (s : List Char) : Option ((List Char × Mark) × List Char) :=
  match q.end? s with
  | some (mark, rest) => some (([], mark), rest)
  | none =>
    match h : q.element? s with
    | none => none
    | some (c, rest) =>
      have := length_of_element? h
      (q.read? rest).map fun ((text, mark), rest) => ((c :: text, mark), rest)
termination_by s.length

theorem read?_end {q : Quote} {s rest : List Char} {mark : Mark}
    (h : q.end? s = some (mark, rest)) : q.read? s = some (([], mark), rest) := by
  rw [read?, h]

theorem read?_element {q : Quote} {s t rest : List Char} {c : Char} {text : List Char}
    {mark : Mark} (hend : q.end? s = none) (h : q.element? s = some (c, t))
    (ht : q.read? t = some ((text, mark), rest)) :
    q.read? s = some ((c :: text, mark), rest) := by
  rw [read?, hend]
  dsimp only
  split
  · rename_i hnone
    rw [hnone] at h
    cases h
  · rename_i c' t' hsome
    rw [hsome] at h
    cases h
    rw [ht]
    rfl

end Quote

/-! ### Escapes -/

theorem unicodeEscape?_fourHex {c : Char} (h : c.toNat < 65536) (rest : List Char) :
    unicodeEscape? (Text.fourHex c.toNat ++ rest) = some (c, rest) := by
  have hvalue : (((c.toNat / 4096 % 16 * 16 + c.toNat / 256 % 16) * 16 + c.toNat / 16 % 16) * 16 +
      c.toNat % 16) = c.toNat := by omega
  have hdigits : Text.ofFourHex? (Nat.digitChar (c.toNat / 4096 % 16))
      (Nat.digitChar (c.toNat / 256 % 16)) (Nat.digitChar (c.toNat / 16 % 16))
      (Nat.digitChar (c.toNat % 16)) = some c.toNat := by
    simp only [Text.ofFourHex?, Text.hexValue?_digitChar (Nat.mod_lt _ (by decide : 0 < 16)),
      Option.bind_eq_bind, Option.bind_some, Option.pure_def, hvalue]
  simp only [Text.fourHex, List.cons_append, List.nil_append, unicodeEscape?, hdigits,
    Option.bind_eq_bind, Option.bind_some]
  rw [if_pos (show c.toNat.isValidChar from c.valid), Char.ofNat_toNat]
  rfl

namespace Quote

/-- A character written as `plainChar` writes it is read as that character, whichever literal it
stands in. -/
theorem element?_plainChar (q : Quote) (c : Char) (rest : List Char) :
    q.element? (plainChar c ++ rest) = some (c, rest) := by
  unfold plainChar
  split_ifs with hslash hfeed hreturn htab hcode
  · subst hslash
    rfl
  · subst hfeed
    rfl
  · subst hreturn
    rfl
  · subst htab
    rfl
  · have hlt : c.toNat < 65536 := by
      rcases hcode with rfl | rfl | h
      · decide
      · decide
      · simp only [isControl, Bool.or_eq_true, Bool.and_eq_true, decide_eq_true_eq] at h
        omega
    exact unicodeEscape?_fourHex hlt rest
  · simp only [List.cons_append, List.nil_append, element?, if_neg hslash]
    cases q with
    | string => rw [plain?, if_neg (not_or.2 ⟨hfeed, hreturn⟩)]
    | template => rw [plain?, if_neg hreturn]

/-- The first character that is written for another one: that character itself, or a backslash. -/
theorem plainChar_eq_cons (c : Char) :
    ∃ d tail, plainChar c = d :: tail ∧ (d = c ∨ d = '\\') := by
  unfold plainChar
  split_ifs
  · exact ⟨_, _, rfl, Or.inr rfl⟩
  · exact ⟨_, _, rfl, Or.inr rfl⟩
  · exact ⟨_, _, rfl, Or.inr rfl⟩
  · exact ⟨_, _, rfl, Or.inr rfl⟩
  · exact ⟨_, _, rfl, Or.inr rfl⟩
  · exact ⟨_, _, rfl, Or.inl rfl⟩

theorem end?_backslash (q : Quote) (rest : List Char) : q.end? ('\\' :: rest) = none := by
  cases q <;> rfl

/-- The text does not end before a character that is written plainly, unless it ends before the
character itself. -/
theorem end?_plainChar {q : Quote} {c : Char} {rest : List Char}
    (h : q.end? (c :: rest) = none) : q.end? (plainChar c ++ rest) = none := by
  unfold plainChar
  split_ifs
  · exact end?_backslash q _
  · exact end?_backslash q _
  · exact end?_backslash q _
  · exact end?_backslash q _
  · exact end?_backslash q _
  · exact h

theorem end?_stringChar (c : Char) (rest : List Char) :
    Quote.string.end? (stringChar c ++ rest) = none := by
  unfold stringChar
  split_ifs with h
  · exact end?_backslash .string _
  · exact end?_plainChar (by rw [end?, if_neg h])

theorem element?_stringChar (c : Char) (rest : List Char) :
    Quote.string.element? (stringChar c ++ rest) = some (c, rest) := by
  unfold stringChar
  split_ifs with h
  · subst h
    rfl
  · exact element?_plainChar .string c rest

/-- The text of a string literal has the value it was written for. -/
theorem read?_escapeString (s : List Char) {tail rest : List Char} {mark : Mark}
    (h : Quote.string.end? tail = some (mark, rest)) :
    Quote.string.read? (escapeString s ++ tail) = some ((s, mark), rest) := by
  induction s with
  | nil => exact read?_end h
  | cons c s ih =>
      rw [escapeString, List.flatMap_cons, List.append_assoc]
      exact read?_element (end?_stringChar c _) (element?_stringChar c _) ih

/-- A brace comes first in the text of a template only where the text itself begins with one. -/
theorem head?_escapeTemplate {s tail : List Char} (hs : s.head? ≠ some '\x7b')
    (htail : tail.head? ≠ some '\x7b') : (escapeTemplate s ++ tail).head? ≠ some '\x7b' := by
  cases s with
  | nil => exact htail
  | cons c s =>
      rw [escapeTemplate]
      split_ifs
      · simp
      · simp
      · obtain ⟨d, rest, hplain, rfl | rfl⟩ := plainChar_eq_cons c
        · rw [hplain]
          exact hs
        · rw [hplain]
          simp

/-- The text of a template literal has the value it was written for. A dollar sign at its end opens
no substitution, since what comes next is never a brace. -/
theorem read?_escapeTemplate (s : List Char) {tail rest : List Char} {mark : Mark}
    (h : Quote.template.end? tail = some (mark, rest)) :
    Quote.template.read? (escapeTemplate s ++ tail) = some ((s, mark), rest) := by
  have htail : tail.head? ≠ some '\x7b' := by
    intro hbrace
    obtain ⟨t, rfl⟩ := List.head?_eq_some_iff.1 hbrace
    cases h
  induction s with
  | nil => exact read?_end h
  | cons c s ih =>
      rw [escapeTemplate, List.append_assoc]
      split_ifs with haccent hdollar
      · subst haccent
        exact read?_element (end?_backslash .template _) rfl ih
      · obtain ⟨rfl, -⟩ := hdollar
        exact read?_element (end?_backslash .template _) rfl ih
      -- a dollar sign that is left as it is stands neither before a brace of the text nor before the
      -- tail's first character, if that is a brace
      · have hend : Quote.template.end? (c :: (escapeTemplate s ++ tail)) = none := by
          rw [end?, if_neg haccent, if_neg]
          rintro ⟨rfl, hbrace⟩
          exact head?_escapeTemplate (fun hs => hdollar ⟨rfl, hs⟩) htail hbrace
        exact read?_element (end?_plainChar hend) (element?_plainChar .template c _) ih

end Quote

end Phrasebook.Script
