import Phrasebook.Accessor.OfJson
import Phrasebook.Proofs.Json.Nodes
import Phrasebook.Proofs.Number.Decimal
import Phrasebook.Proofs.Text.Classes

/-!
Written paths name one place. A step is a name after a dot, a quoted text or a number in brackets; a name
ends before the next dot or bracket, and a quoted text at the first quote that no escape holds. So the
text of a path can be taken apart in one way only, step after step, whatever the keys hold.
-/

namespace Phrasebook

namespace Text

/-- A text of pieces can be taken apart in one way only if that is so of its first piece, and if no piece
begins what stands after the last one. -/
theorem flatMap_append_inj {α : Type} {write : α → List Char} {rest other : List Char}
    (hpiece : ∀ (a b : α) (s t : List α),
      write a ++ (s.flatMap write ++ rest) = write b ++ (t.flatMap write ++ other) →
        a = b ∧ s.flatMap write ++ rest = t.flatMap write ++ other)
    (hrest : ∀ a tail, write a ++ tail ≠ rest) (hother : ∀ a tail, write a ++ tail ≠ other)
    {s t : List α} (h : s.flatMap write ++ rest = t.flatMap write ++ other) : s = t ∧ rest = other := by
  induction s generalizing t with
  | nil =>
      cases t with
      | nil => exact ⟨rfl, h⟩
      | cons b t =>
          rw [List.flatMap_cons, List.append_assoc] at h
          exact absurd h.symm (hrest b _)
  | cons a s ih =>
      rw [List.flatMap_cons, List.append_assoc] at h
      cases t with
      | nil => exact absurd h (hother a _)
      | cons b t =>
          rw [List.flatMap_cons, List.append_assoc] at h
          obtain ⟨rfl, htail⟩ := hpiece a b s t h
          obtain ⟨rfl, hend⟩ := ih htail
          exact ⟨rfl, hend⟩

/-! ### Quoted texts -/

/-- The number that hexadecimal digits name. -/
def ofHex? (digits : List Char) : Option Nat :=
  digits.foldlM (fun n c => (hexValue? c).map (n * 16 + ·)) 0

theorem ofHex?_hex (n : Nat) : ofHex? (hex n) = some n := by
  induction n using Nat.strongRecOn with
  | ind n ih =>
      by_cases hlt : n < 16
      · rw [hex_of_lt hlt, ofHex?, List.foldlM_cons, hexValue?_digitChar hlt, Nat.zero_mul]
        simp
      · have hhead := ih (n / 16) (by omega)
        rw [ofHex?] at hhead
        rw [hex_of_le (Nat.le_of_not_lt hlt), ofHex?, List.foldlM_append, hhead, Option.bind_eq_bind,
          Option.bind_some, List.foldlM_cons, hexValue?_digitChar (Nat.mod_lt n (by decide))]
        simp only [Option.map_some, Option.bind_eq_bind, Option.bind_some, List.foldlM_nil,
          Option.pure_def, Option.some.injEq]
        omega

/-- The characters with a short escape, by what stands after the backslash. -/
def shortEscapes : List (Char × Char) :=
  [('"', '"'), ('\\', '\\'), ('n', '\n'), ('r', '\r'), ('t', '\t'), ('0', '\x00')]

/-- The first character of a quoted text, however it is written, and what follows it. -/
def unquoted? : List Char → Option (Char × List Char)
  | [] => none
  | '"' :: _ => none
  | '\\' :: 'u' :: '\x7b' :: rest =>
    (ofHex? (rest.takeWhile (· ≠ '\x7d'))).map fun n => (Char.ofNat n, (rest.dropWhile (· ≠ '\x7d')).tail)
  | '\\' :: c :: rest => (shortEscapes.lookup c).map (·, rest)
  | c :: rest => some (c, rest)

theorem unquoted?_hex (c : Char) (rest : List Char) :
    unquoted? ('\\' :: 'u' :: '\x7b' :: hex c.toNat ++ ['\x7d'] ++ rest) = some (c, rest) := by
  have hall : ∀ d < 16, Nat.digitChar d ≠ '\x7d' := by decide
  have hrun : ∀ d ∈ hex c.toNat, decide (d ≠ '\x7d') := by
    intro d hd
    obtain ⟨n, hlt, rfl⟩ := digitChar_of_mem_hex hd
    exact decide_eq_true (hall n hlt)
  have hend : ∀ d ∈ ('\x7d' :: rest).head?, ¬decide (d ≠ '\x7d') := by simp
  obtain ⟨hdigits, hrest⟩ := span_append hrun hend
  simp only [List.cons_append, List.append_assoc, List.nil_append, unquoted?, hdigits, hrest,
    ofHex?_hex, Option.map_some, Char.ofNat_toNat, List.tail_cons]

theorem unquoted?_quotedChar (c : Char) (rest : List Char) :
    unquoted? (quotedChar c ++ rest) = some (c, rest) := by
  unfold quotedChar
  split_ifs with hquote hslash hline hreturn htab hnull
  · subst hquote
    rfl
  · subst hslash
    rfl
  · subst hline
    rfl
  · subst hreturn
    rfl
  · subst htab
    rfl
  · subst hnull
    rfl
  · simp [unquoted?, hslash]
  · exact unquoted?_hex c rest

theorem quotedChar_append_inj {c d : Char} {s t : List Char}
    (h : quotedChar c ++ s = quotedChar d ++ t) : c = d ∧ s = t := by
  have hread := unquoted?_quotedChar c s
  rw [h, unquoted?_quotedChar, Option.some.injEq, Prod.mk.injEq] at hread
  exact ⟨hread.1.symm, hread.2.symm⟩

/-- A quote in a quoted text does not stand at the start of a character. -/
theorem quotedChar_append_ne (rest : List Char) (c : Char) (tail : List Char) :
    quotedChar c ++ tail ≠ '"' :: rest := by
  intro h
  have hread := unquoted?_quotedChar c tail
  rw [h] at hread
  cases hread

/-- A quoted text ends at its quote, whatever follows. -/
theorem quoted_append_inj {s t rest other : List Char} (h : quoted s ++ rest = quoted t ++ other) :
    s = t ∧ rest = other := by
  simp only [quoted, List.cons_append, List.append_assoc, List.nil_append, List.cons.injEq,
    true_and] at h
  obtain ⟨hs, hrest⟩ := flatMap_append_inj (fun _ _ _ _ => quotedChar_append_inj)
    (quotedChar_append_ne rest) (quotedChar_append_ne other) h
  exact ⟨hs, (List.cons.inj hrest).2⟩

end Text

/-! ### Steps -/

namespace Step

/-- What can follow a step: it does not go on with a character of a name. -/
def Follows (tail : List Char) : Prop := ∀ c ∈ tail.head?, ¬Text.isNameChar c

theorem text_name {name : String} (h : Text.isName name.toList) :
    (key name).text = '.' :: name.toList := if_pos h

theorem text_quoted {name : String} (h : ¬Text.isName name.toList) :
    (key name).text = '[' :: Text.quoted name.toList ++ [']'] := if_neg h

theorem text_index (place : Nat) : (index place).text = '[' :: Number.decimalDigits place ++ [']'] := rfl

theorem follows_text_append (step : Step) (tail : List Char) : Follows (step.text ++ tail) := by
  intro c hc
  cases step with
  | key name =>
      by_cases hname : Text.isName name.toList
      · rw [text_name hname] at hc
        cases hc
        decide
      · rw [text_quoted hname] at hc
        cases hc
        decide
  | index place =>
      cases hc
      decide

theorem follows_flatMap_text (path : Path) : Follows (path.flatMap text) := by
  cases path with
  | nil => exact fun c hc => nomatch hc
  | cons step path => exact follows_text_append step _

/-- A place in a list is written with digits alone. -/
theorem span_digits (place : Nat) (tail : List Char) :
    (Number.decimalDigits place ++ ']' :: tail).takeWhile Char.isDigit = Number.decimalDigits place ∧
      (Number.decimalDigits place ++ ']' :: tail).dropWhile Char.isDigit = ']' :: tail := by
  apply Text.span_append
  · exact fun c hc => Nat.isDigit_of_mem_toDigits (by decide) (by decide) hc
  · intro c hc
    cases hc
    decide

theorem decimalDigits_append_inj {i j : Nat} {s t : List Char}
    (h : Number.decimalDigits i ++ ']' :: s = Number.decimalDigits j ++ ']' :: t) : i = j ∧ s = t := by
  have hi := span_digits i s
  rw [h] at hi
  have hdigits : Number.decimalDigits i = Number.decimalDigits j := hi.1.symm.trans (span_digits j t).1
  have hrest : ']' :: s = ']' :: t := hi.2.symm.trans (span_digits j t).2
  have hvalue := Number.ofDecimal?_decimalDigits i
  rw [hdigits, Number.ofDecimal?_decimalDigits] at hvalue
  exact ⟨(Option.some.inj hvalue).symm, (List.cons.inj hrest).2⟩

/-- No key is taken for a place in a list: a quote is no digit. -/
theorem text_key_ne_index (name : String) (place : Nat) (s t : List Char) :
    (key name).text ++ s ≠ (index place).text ++ t := by
  intro h
  rw [text_index] at h
  by_cases hname : Text.isName name.toList
  · rw [text_name hname] at h
    exact absurd (List.cons.inj h).1 (by decide)
  · rw [text_quoted hname] at h
    simp only [Text.quoted, List.cons_append, List.append_assoc, List.nil_append, List.cons.injEq,
      true_and] at h
    have hdigits := (span_digits place t).1
    rw [← h, List.takeWhile_cons_of_neg (by decide)] at hdigits
    exact Nat.toDigits_ne_nil hdigits.symm

theorem text_key_inj {name other : String} {s t : List Char} (hs : Follows s) (ht : Follows t)
    (h : (key name).text ++ s = (key other).text ++ t) : name = other ∧ s = t := by
  by_cases hname : Text.isName name.toList
  · rw [text_name hname] at h
    by_cases hother : Text.isName other.toList
    · rw [text_name hother] at h
      have htail : name.toList ++ s = other.toList ++ t := (List.cons.inj h).2
      have hspan := Text.span_append (Text.isNameChar_of_isName hname) hs
      rw [htail] at hspan
      have hspan' := Text.span_append (Text.isNameChar_of_isName hother) ht
      exact ⟨String.toList_inj.1 (hspan.1.symm.trans hspan'.1), hspan.2.symm.trans hspan'.2⟩
    · rw [text_quoted hother] at h
      exact absurd (List.cons.inj h).1 (by decide)
  · rw [text_quoted hname] at h
    by_cases hother : Text.isName other.toList
    · rw [text_name hother] at h
      exact absurd (List.cons.inj h).1 (by decide)
    · rw [text_quoted hother] at h
      simp only [List.cons_append, List.append_assoc, List.nil_append, List.cons.injEq, true_and] at h
      obtain ⟨hkey, hrest⟩ := Text.quoted_append_inj h
      exact ⟨String.toList_inj.1 hkey, (List.cons.inj hrest).2⟩

/-- The first step can be told from the text of the path, whatever its key and whatever follows. -/
theorem text_append_inj {a b : Step} {s t : List Char} (hs : Follows s) (ht : Follows t)
    (h : a.text ++ s = b.text ++ t) : a = b ∧ s = t := by
  cases a with
  | key name =>
      cases b with
      | key other =>
          obtain ⟨rfl, hrest⟩ := text_key_inj hs ht h
          exact ⟨rfl, hrest⟩
      | index place => exact absurd h (text_key_ne_index name place s t)
  | index place =>
      cases b with
      | key name => exact absurd h.symm (text_key_ne_index name place t s)
      | index other =>
          simp only [text_index, List.cons_append, List.append_assoc, List.nil_append, List.cons.injEq,
            true_and] at h
          obtain ⟨rfl, hrest⟩ := decimalDigits_append_inj h
          exact ⟨rfl, hrest⟩

theorem text_ne_nil (step : Step) (tail : List Char) : step.text ++ tail ≠ [] := by
  cases step with
  | key name =>
      by_cases hname : Text.isName name.toList
      · rw [text_name hname]
        exact List.cons_ne_nil _ _
      · rw [text_quoted hname]
        exact List.cons_ne_nil _ _
  | index place => exact List.cons_ne_nil _ _

end Step

/-! ### Paths -/

theorem Path.text_inj {p q : Path} (h : p.text = q.text) : p = q := by
  have hsteps : p.flatMap Step.text ++ [] = q.flatMap Step.text ++ [] := by
    rw [List.append_nil, List.append_nil]
    exact (List.cons.inj h).2
  refine (Text.flatMap_append_inj ?_ Step.text_ne_nil Step.text_ne_nil hsteps).1
  intro a b s t hstep
  rw [List.append_nil, List.append_nil] at hstep ⊢
  exact Step.text_append_inj (Step.follows_flatMap_text s) (Step.follows_flatMap_text t) hstep

/-- Two values in a resource whose paths are written alike are one value, at one place. -/
theorem Json.Value.eq_of_mem_nodes {v w u : Value} (hkeys : v.DistinctKeys) {p q : Path}
    (hw : (p, w) ∈ v.nodes) (hu : (q, u) ∈ v.nodes) (h : p.text = q.text) : p = q ∧ w = u := by
  obtain rfl := Path.text_inj h
  have hat := at?_of_mem_nodes hkeys hw
  rw [at?_of_mem_nodes hkeys hu] at hat
  exact ⟨rfl, (Option.some.inj hat).symm⟩

/-- Two paths are written alike only if they are the same steps, and so are the errors that name them. -/
theorem Unsupported.message_eq_iff (p q : Path) :
    (p.text = q.text ↔ p = q) ∧
      ((⟨p⟩ : Unsupported).message = (⟨q⟩ : Unsupported).message ↔ p = q) := by
  refine ⟨⟨Path.text_inj, congrArg _⟩, ⟨?_, ?_⟩⟩
  · intro h
    have hchars := congrArg String.toList h
    simp only [message, String.toList_append, String.toList_ofList] at hchars
    exact Path.text_inj (List.append_cancel_left hchars)
  · rintro rfl
    rfl

/-- A key that imitates the path of a value under another key is told from it. -/
example : Path.text [.key "a.b[0]"] = "$[\"a.b[0]\"]".toList ∧
    Path.text [.key "a", .key "b", .index 0] = "$.a.b[0]".toList ∧
    Path.text [.key "0"] = "$[\"0\"]".toList ∧ Path.text [.index 0] = "$[0]".toList := by
  decide

end Phrasebook
