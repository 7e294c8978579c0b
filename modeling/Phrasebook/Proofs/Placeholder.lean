import Phrasebook.Placeholder
import Phrasebook.Proofs.Text.Classes

/-!
What is read as a placeholder. A text begins with a well-formed placeholder exactly when the reader finds
one there, and it finds the one whose text that is: the classes of characters in it and its marks are told
apart at every place, so a text is the text of one placeholder at most.
-/

namespace Phrasebook.Placeholder

/-- A placeholder as it may be written: a name, white space alone on both sides of the colon, and a token
of word characters, which may be empty. -/
structure WellFormed (p : Placeholder) : Prop where
  name : Text.isName p.name.toList
  beforeColon : ∀ c ∈ p.beforeColon.toList, Text.isBlank c
  afterColon : ∀ c ∈ p.afterColon.toList, Text.isBlank c
  token : ∀ c ∈ p.token.toList, Text.isWord c

variable {s rest : List Char} {p : Placeholder}

/-- A run with a mark after it begins with one of its own characters, or with the mark. -/
theorem mem_or_eq_of_mem_head? {run : List Char} {mark c : Char} (h : c ∈ (run ++ mark :: rest).head?) :
    c ∈ run ∨ c = mark := by
  cases run with
  | nil => exact Or.inr (Option.some.inj h).symm
  | cons first run =>
      left
      rw [← Option.some.inj h]
      exact List.mem_cons_self ..

theorem parseToken?_eq_some_iff {afterColon token : List Char} :
    parseToken? s = some ((afterColon, token), rest) ↔
      (∀ c ∈ afterColon, Text.isBlank c) ∧ (∀ c ∈ token, Text.isWord c) ∧
        s = afterColon ++ token ++ '\x7d' :: rest := by
  constructor
  · intro h
    refine ⟨?_, ?_, eq_append_of_parseToken? h⟩
    all_goals
      unfold parseToken? at h
      dsimp only at h
      split at h
      · cases h
        exact fun c hc => Text.of_mem_takeWhile hc
      · cases h
  · rintro ⟨hafter, htoken, rfl⟩
    have hclose : ∀ c ∈ ('\x7d' :: rest).head?, ¬Text.isWord c := by
      rintro c hc
      cases hc
      decide
    have hnext : ∀ c ∈ (token ++ '\x7d' :: rest).head?, ¬Text.isBlank c := by
      intro c hc hblank
      rcases mem_or_eq_of_mem_head? hc with hc | rfl
      · exact Text.not_isWord_of_isBlank hblank (htoken c hc)
      · exact absurd hblank (by decide)
    have hword := Text.span_append htoken hclose
    have hblank := Text.span_append hafter hnext
    unfold parseToken?
    dsimp only
    rw [List.append_assoc, hblank.1, hblank.2, hword.1, hword.2]
    rfl

theorem wellFormed_of_parse? (h : parse? s = some (p, rest)) : p.WellFormed := by
  unfold parse? at h
  split at h
  · dsimp only at h
    split at h
    · split at h
      · rename_i hname
        obtain ⟨⟨⟨afterColon, token⟩, _⟩, htoken, hp⟩ := Option.map_eq_some_iff.1 h
        obtain ⟨hafter, hword, -⟩ := parseToken?_eq_some_iff.1 htoken
        cases hp
        constructor
        all_goals simp only [String.toList_ofList]
        · exact hname
        · exact fun c hc => Text.of_mem_takeWhile hc
        · exact hafter
        · exact hword
      · cases h
    · cases h
  · cases h

/-- A placeholder is found at the start of every text that begins with it. -/
theorem parse?_text_append (hp : p.WellFormed) (rest : List Char) :
    parse? (p.text ++ rest) = some (p, rest) := by
  have htoken : parseToken? (p.afterColon.toList ++ p.token.toList ++ '\x7d' :: rest) =
      some ((p.afterColon.toList, p.token.toList), rest) :=
    parseToken?_eq_some_iff.2 ⟨hp.afterColon, hp.token, rfl⟩
  have hcolon : ∀ c ∈ (':' :: (p.afterColon.toList ++ p.token.toList ++ '\x7d' :: rest)).head?,
      ¬Text.isBlank c := by
    rintro c hc
    cases hc
    decide
  have hnext : ∀ c ∈ (p.beforeColon.toList ++
      ':' :: (p.afterColon.toList ++ p.token.toList ++ '\x7d' :: rest)).head?, ¬Text.isNameChar c := by
    intro c hc hchar
    rcases mem_or_eq_of_mem_head? hc with hc | rfl
    · exact Text.not_isNameChar_of_isBlank (hp.beforeColon c hc) hchar
    · exact absurd hchar (by decide)
  have hblank := Text.span_append hp.beforeColon hcolon
  have hname := Text.span_append (Text.isNameChar_of_isName hp.name) hnext
  have htext : p.text ++ rest = '\x7b' :: (p.name.toList ++ (p.beforeColon.toList ++
      ':' :: (p.afterColon.toList ++ p.token.toList ++ '\x7d' :: rest))) := by
    simp [text]
  rw [htext]
  simp only [parse?, hname.1, hname.2, hblank.1, hblank.2, hp.name, if_true, htoken, Option.map_some,
    String.ofList_toList]

/-- What `parse?` finds is the placeholder with which the text begins. -/
theorem parse?_eq_some_iff : parse? s = some (p, rest) ↔ p.WellFormed ∧ s = p.text ++ rest := by
  constructor
  · intro h
    exact ⟨wellFormed_of_parse? h, eq_append_of_parse? h⟩
  · rintro ⟨hp, rfl⟩
    exact parse?_text_append hp rest

/-- A placeholder stays what it is when the text goes on. -/
theorem parse?_append (h : parse? s = some (p, rest)) (more : List Char) :
    parse? (s ++ more) = some (p, rest ++ more) := by
  obtain ⟨hp, rfl⟩ := parse?_eq_some_iff.1 h
  rw [List.append_assoc]
  exact parse?_text_append hp _

/-- Well-formed placeholders with which one text begins are the same. -/
theorem eq_of_text_append_eq {q : Placeholder} {rest' : List Char} (hp : p.WellFormed)
    (hq : q.WellFormed) (h : p.text ++ rest = q.text ++ rest') : p = q ∧ rest = rest' := by
  have hparse := parse?_text_append hp rest
  rw [h, parse?_text_append hq] at hparse
  cases hparse
  exact ⟨rfl, rfl⟩

/-! ### Marks -/

/-- The opening brace of a placeholder is the only one in it. -/
theorem exists_text_eq_cons (hp : p.WellFormed) :
    ∃ inner, p.text = '\x7b' :: inner ∧ '\x7b' ∉ inner := by
  refine ⟨p.name.toList ++ p.beforeColon.toList ++ ':' :: p.afterColon.toList ++ p.token.toList ++ ['\x7d'],
    rfl, fun hbrace => ?_⟩
  simp only [List.mem_append, List.mem_cons, List.not_mem_nil, or_false, or_assoc] at hbrace
  rcases hbrace with hbrace | hbrace | hbrace | hbrace | hbrace | hbrace
  · exact absurd (Text.isNameChar_of_isName hp.name _ hbrace) (by decide)
  · exact absurd (hp.beforeColon _ hbrace) (by decide)
  · exact absurd hbrace (by decide)
  · exact absurd (hp.afterColon _ hbrace) (by decide)
  · exact absurd (hp.token _ hbrace) (by decide)
  · exact absurd hbrace (by decide)

end Phrasebook.Placeholder
