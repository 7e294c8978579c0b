import Phrasebook.Proofs.Script.Quoted

/-!
String literals and property names as tokens. A string literal of ECMAScript is a run of characters
and escapes between two quotes; the ones that are written here hold no control and no end of a line.
`propertyName_isToken` says that every text is written as such a literal with the text as its value,
and that a key is written as one, or as it is if it is an ASCII name. So no two keys are written
alike.
-/

namespace Phrasebook.Script

/-! ### The characters that are written -/

/-- Neither a control nor the end of a line. -/
def isVisible (c : Char) : Bool := !isControl c && !Text.isLineEnd c

theorem not_isLineEnd_of_isVisible {c : Char} (h : isVisible c) : ¬Text.isLineEnd c := by
  rw [isVisible, Bool.and_eq_true] at h
  simpa using h.2

theorem isVisible_digitChar {d : Nat} (h : d < 16) : isVisible (Nat.digitChar d) := by
  have hall : ∀ d < 16, isVisible (Nat.digitChar d) := by decide
  exact hall d h

theorem isVisible_of_mem_fourHex {n : Nat} {c : Char} (h : c ∈ Text.fourHex n) : isVisible c := by
  simp only [Text.fourHex, List.mem_cons, List.not_mem_nil, or_false] at h
  rcases h with rfl | rfl | rfl | rfl <;> exact isVisible_digitChar (Nat.mod_lt _ (by decide))

theorem isVisible_of_isNameChar {c : Char} (h : Text.isNameChar c) : isVisible c := by
  have hall : ∀ n < 128, Text.isNameChar (Char.ofNat n) → isVisible (Char.ofNat n) := by decide
  have hvisible := hall c.toNat (Text.toNat_lt_of_isNameChar h)
  rw [Char.ofNat_toNat] at hvisible
  exact hvisible h

theorem isVisible_of_mem_escaped {c d : Char} (hc : isVisible c) (h : d ∈ ['\\', c]) : isVisible d := by
  rcases List.mem_cons.1 h with rfl | h
  · decide
  · rw [List.mem_singleton.1 h]
    exact hc

/-- A character is written with visible ones, whether or not it is one itself. -/
theorem isVisible_of_mem_plainChar {c d : Char} (h : d ∈ plainChar c) : isVisible d := by
  unfold plainChar at h
  split_ifs at h with hslash hfeed hreturn htab hcode
  · exact isVisible_of_mem_escaped (by decide) h
  · exact isVisible_of_mem_escaped (by decide) h
  · exact isVisible_of_mem_escaped (by decide) h
  · exact isVisible_of_mem_escaped (by decide) h
  · rcases List.mem_cons.1 h with rfl | h
    · decide
    · rcases List.mem_cons.1 h with rfl | h
      · decide
      · exact isVisible_of_mem_fourHex h
  · rw [List.mem_singleton.1 h]
    simp only [not_or] at hcode
    simp [isVisible, Text.isLineEnd, hfeed, hreturn, hcode]

theorem isVisible_of_mem_stringChar {c d : Char} (h : d ∈ stringChar c) : isVisible d := by
  unfold stringChar at h
  split_ifs at h
  · exact isVisible_of_mem_escaped (by decide) h
  · exact isVisible_of_mem_plainChar h

theorem isVisible_of_mem_quoteString {s : List Char} {d : Char} (h : d ∈ quoteString s) :
    isVisible d := by
  rw [quoteString, List.cons_append, List.mem_cons, List.mem_append, List.mem_singleton] at h
  rcases h with rfl | h | rfl
  · decide
  · obtain ⟨c, -, h⟩ := List.mem_flatMap.1 h
    exact isVisible_of_mem_stringChar h
  · decide

theorem isVisible_of_mem_propertyName {key : List Char} {d : Char} (h : d ∈ propertyName key) :
    isVisible d := by
  unfold propertyName at h
  split_ifs at h with hname
  · exact isVisible_of_isNameChar (Text.isNameChar_of_isName hname d h)
  · exact isVisible_of_mem_quoteString h

theorem isVisible_of_mem_escapeTemplate {s : List Char} {d : Char} (h : d ∈ escapeTemplate s) :
    isVisible d := by
  induction s with
  | nil => cases h
  | cons c s ih =>
      rw [escapeTemplate, List.mem_append] at h
      rcases h with h | h
      · split_ifs at h
        · exact isVisible_of_mem_escaped (by decide) h
        · exact isVisible_of_mem_escaped (by decide) h
        · exact isVisible_of_mem_plainChar h
      · exact ih h

/-! ### String literals -/

/-- What can stand between the quotes of a string, with its value: characters other than the quote,
the backslash and the ends of lines, and escapes, each of which begins with a backslash. -/
inductive StringText : List Char → List Char → Prop
  | nil : StringText [] []
  | plain {c : Char} {text value : List Char} (hquote : c ≠ '"') (hslash : c ≠ '\\')
      (hline : ¬Text.isLineEnd c) (h : StringText text value) : StringText (c :: text) (c :: value)
  | escape {c : Char} {tail text value : List Char} (hescape : escape? tail = some (c, text))
      (h : StringText text value) : StringText ('\\' :: tail) (c :: value)

/-- A token that is one string literal of the given value and holds visible characters alone. -/
structure IsStringLiteral (token value : List Char) : Prop where
  text : ∃ text, token = '"' :: (text ++ ['"']) ∧ StringText text value
  visible : ∀ c ∈ token, isVisible c

/-- A key that is a name of ASCII letters, digits, low lines and dollar signs. -/
def IsAsciiName (key : List Char) : Prop :=
  ∃ first rest, key = first :: rest ∧ (first.isAlpha ∨ first = '_' ∨ first = '$') ∧
    ∀ c ∈ rest, c.isAlpha ∨ c.isDigit ∨ c = '_' ∨ c = '$'

theorem stringChar_ne_nil (c : Char) : stringChar c ≠ [] := by
  unfold stringChar
  split_ifs
  · exact List.cons_ne_nil _ _
  · obtain ⟨d, tail, hplain, -⟩ := Quote.plainChar_eq_cons c
    rw [hplain]
    exact List.cons_ne_nil _ _

namespace StringText

variable {text value : List Char}

/-- What is read as one character of a string begins a text of a string, if a text follows. -/
theorem of_element? {c d : Char} {tail : List Char} (hquote : d ≠ '"') (hline : ¬Text.isLineEnd d)
    (h : Quote.string.element? (d :: tail) = some (c, text)) (htext : StringText text value) :
    StringText (d :: tail) (c :: value) := by
  rw [Quote.element?] at h
  split_ifs at h with hslash
  · subst hslash
    exact .escape h htext
  · rw [Quote.plain?] at h
    split_ifs at h
    cases h
    exact .plain hquote hslash hline htext

/-- Escaping makes the text of a string from any text, which is its value. -/
theorem of_escapeString (s : List Char) : StringText (escapeString s) s := by
  induction s with
  | nil => exact .nil
  | cons c s ih =>
      have hend := Quote.end?_stringChar c (escapeString s)
      have helement := Quote.element?_stringChar c (escapeString s)
      rw [escapeString, List.flatMap_cons]
      cases hchar : stringChar c with
      | nil => exact absurd hchar (stringChar_ne_nil c)
      | cons d tail =>
          rw [hchar, List.cons_append] at hend helement
          have hquote : d ≠ '"' := by
            rintro rfl
            cases hend
          have hvisible : isVisible d :=
            isVisible_of_mem_stringChar (by rw [hchar]; exact List.mem_cons_self ..)
          exact of_element? hquote (not_isLineEnd_of_isVisible hvisible) helement ih

theorem unicodeEscape?_append {tail more : List Char} {c : Char}
    (h : unicodeEscape? tail = some (c, text)) :
    unicodeEscape? (tail ++ more) = some (c, text ++ more) := by
  unfold unicodeEscape? at h
  split at h
  · obtain ⟨n, hn, h⟩ := Option.bind_eq_some_iff.1 h
    split_ifs at h with hvalid
    cases h
    simp only [List.cons_append, unicodeEscape?, hn, Option.bind_eq_bind, Option.bind_some]
    rw [if_pos hvalid]
    rfl
  · cases h

theorem escape?_append {tail more : List Char} {c : Char} (h : escape? tail = some (c, text)) :
    escape? (tail ++ more) = some (c, text ++ more) := by
  cases tail with
  | nil => cases h
  | cons d tail =>
      rw [escape?] at h
      rw [List.cons_append, escape?]
      split_ifs at h ⊢
      · exact unicodeEscape?_append h
      · cases h
        rfl

/-- The text of a string is read up to the quote after it. -/
theorem read? (h : StringText text value) (rest : List Char) :
    Quote.string.read? (text ++ '"' :: rest) = some ((value, .close), rest) := by
  induction h with
  | nil => exact Quote.read?_end rfl
  | @plain c text value hquote hslash hline _ ih =>
      refine Quote.read?_element (if_neg hquote) ?_ ih
      rw [List.cons_append, Quote.element?, if_neg hslash, Quote.plain?, if_neg]
      rintro (rfl | rfl)
      · exact hline rfl
      · exact hline rfl
  | @escape c tail text value hescape _ ih =>
      refine Quote.read?_element (Quote.end?_backslash .string _) ?_ ih
      rw [List.cons_append, Quote.element?, if_pos rfl]
      exact escape?_append hescape

end StringText

/-- A string literal has one value. -/
theorem IsStringLiteral.value_unique {token value other : List Char}
    (h : IsStringLiteral token value) (hother : IsStringLiteral token other) : value = other := by
  obtain ⟨text, htoken, htext⟩ := h.text
  obtain ⟨text', htoken', htext'⟩ := hother.text
  have heq : text ++ ['"'] = text' ++ ['"'] := (List.cons.inj (htoken.symm.trans htoken')).2
  have hread := htext.read? []
  rw [heq, htext'.read? []] at hread
  cases hread
  rfl

theorem isStringLiteral_quoteString (s : List Char) : IsStringLiteral (quoteString s) s :=
  ⟨⟨escapeString s, rfl, .of_escapeString s⟩, fun _ => isVisible_of_mem_quoteString⟩

/-! ### Property names -/

theorem isNameChar_iff {c : Char} :
    Text.isNameChar c ↔ c.isAlpha ∨ c.isDigit ∨ c = '_' ∨ c = '$' := by
  simp only [Text.isNameChar, Char.isAlphanum, Bool.or_eq_true, beq_iff_eq, or_assoc]

theorem not_isDigit_of_isAlpha {c : Char} (h : c.isAlpha) : ¬c.isDigit := by
  have hall : ∀ n < 128, (Char.ofNat n).isAlpha → ¬(Char.ofNat n).isDigit := by decide
  have hdigit := hall c.toNat (Text.toNat_lt_of_isNameChar (isNameChar_iff.2 (Or.inl h)))
  rw [Char.ofNat_toNat] at hdigit
  exact hdigit h

theorem isAsciiName_iff {key : List Char} : IsAsciiName key ↔ Text.isName key := by
  constructor
  · rintro ⟨first, rest, rfl, hfirst, hrest⟩
    have hdigit : ¬first.isDigit := by
      rcases hfirst with h | rfl | rfl
      · exact not_isDigit_of_isAlpha h
      · decide
      · decide
    have hchar : Text.isNameChar first := isNameChar_iff.2 (hfirst.imp_right Or.inr)
    rw [Text.isName, Bool.and_eq_true, List.all_cons, Bool.and_eq_true, List.all_eq_true]
    exact ⟨by simpa using hdigit, hchar, fun c hc => isNameChar_iff.2 (hrest c hc)⟩
  · intro h
    cases key with
    | nil => cases h
    | cons first rest =>
        have hchars := Text.isNameChar_of_isName h
        have hdigit : ¬first.isDigit := by
          rw [Text.isName, Bool.and_eq_true] at h
          simpa using h.1
        have hrest : ∀ c ∈ rest, Text.isNameChar c := fun c hc => hchars c (List.mem_cons_of_mem _ hc)
        refine ⟨first, rest, rfl, ?_, fun c hc => isNameChar_iff.1 (hrest c hc)⟩
        rcases isNameChar_iff.1 (hchars first (List.mem_cons_self ..)) with h | h | h
        · exact Or.inl h
        · exact absurd h hdigit
        · exact Or.inr h

/-- A key is written as it is, if it is an ASCII name, or else as a string literal. -/
theorem propertyName_cases (key : List Char) :
    IsAsciiName key ∧ propertyName key = key ∨ IsStringLiteral (propertyName key) key := by
  by_cases h : Text.isName key
  · exact Or.inl ⟨isAsciiName_iff.2 h, if_pos h⟩
  · rw [propertyName, if_neg h]
    exact Or.inr (isStringLiteral_quoteString key)

/-- No name is a string literal: it does not begin with a quote. -/
theorem IsAsciiName.not_isStringLiteral {key value : List Char} (h : IsAsciiName key) :
    ¬IsStringLiteral key value := by
  intro hliteral
  obtain ⟨first, rest, rfl, hfirst, -⟩ := h
  obtain ⟨text, htoken, -⟩ := hliteral.text
  cases (List.cons.inj htoken).1
  revert hfirst
  decide

/-- Every text is written as a string literal of which it is the value, and every key as a name or as
such a literal. No two keys are written alike. -/
theorem propertyName_isToken :
    (∀ s, IsStringLiteral (quoteString s) s) ∧
    (∀ key, IsAsciiName key ∧ propertyName key = key ∨ IsStringLiteral (propertyName key) key) ∧
    Function.Injective propertyName := by
  refine ⟨isStringLiteral_quoteString, propertyName_cases, fun key other h => ?_⟩
  rcases propertyName_cases key with ⟨hkey, hname⟩ | hkey
  · rcases propertyName_cases other with ⟨-, hother⟩ | hother
    · rw [← hname, h, hother]
    · rw [← h, hname] at hother
      exact absurd hother hkey.not_isStringLiteral
  · rcases propertyName_cases other with ⟨hother, hname⟩ | hother
    · rw [h, hname] at hkey
      exact absurd hkey hother.not_isStringLiteral
    · rw [h] at hkey
      exact hkey.value_unique hother

end Phrasebook.Script
