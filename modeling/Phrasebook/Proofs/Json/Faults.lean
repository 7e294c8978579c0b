import Mathlib.Tactic.SplitIfs
import Phrasebook.Json.Decode

/-!
What decoding says when it stops. Every decoder stops for one of a few causes, whose wording is one line, so
the message about a text that is no JSON is one line as well.
-/

namespace Phrasebook.Json

/-- The wording of a cause holds no line end. -/
def Cause.OneLine (cause : Cause) : Prop := '\n' ∉ cause.text.toList

instance (cause : Cause) : Decidable cause.OneLine := inferInstanceAs (Decidable ('\n' ∉ cause.text.toList))

namespace Decoder

/-- Whatever the decoder reads, it stops for a cause that is worded in one line. -/
def Brief {α : Type} (d : Decoder α) : Prop :=
  ∀ cursor e, d cursor = .error e → e.cause.OneLine

section Brief

variable {α β : Type}

theorem Brief.of_ok {d : Decoder α} (h : ∀ cursor, ∃ r, d cursor = .ok r) : Brief d := by
  intro cursor e he
  obtain ⟨r, hr⟩ := h cursor
  rw [hr] at he
  cases he

theorem Brief.pure (a : α) : Brief (pure a) := .of_ok fun cursor => ⟨(a, cursor), rfl⟩

theorem Brief.failHere {cause : Cause} (h : cause.OneLine) : Brief (failHere cause : Decoder α) := by
  intro cursor e he
  cases he
  exact h

theorem Brief.failNext {cause : Cause} (h : cause.OneLine) : Brief (failNext cause : Decoder α) := by
  intro cursor e he
  cases he
  exact h

theorem Brief.failNextOrEnd {cause atEnd : Cause} (h : cause.OneLine) (hend : atEnd.OneLine) :
    Brief (failNextOrEnd cause atEnd : Decoder α) := by
  intro cursor e he
  rw [Decoder.failNextOrEnd] at he
  split_ifs at he
  · exact Brief.failNext hend cursor e he
  · exact Brief.failNext h cursor e he

theorem Brief.bind {d : Decoder α} {f : α → Decoder β} (hd : Brief d) (hf : ∀ a, Brief (f a)) :
    Brief (d >>= f) := by
  intro cursor e he
  change (d cursor >>= fun r => f r.1 r.2) = _ at he
  cases hread : d cursor with
  | error cause =>
      rw [hread] at he
      cases he
      exact hd cursor _ hread
  | ok r =>
      rw [hread] at he
      exact hf r.1 r.2 e he

theorem brief_peek : Brief peek := .of_ok fun _ => ⟨_, rfl⟩

theorem brief_takeWhile (p : Char → Bool) : Brief (takeWhile p) := .of_ok fun _ => ⟨_, rfl⟩

theorem brief_skip : Brief skip := by
  refine .of_ok fun cursor => ?_
  rw [skip]
  cases cursor.rest with
  | nil => exact ⟨_, rfl⟩
  | cons c rest => exact ⟨_, rfl⟩

theorem brief_peekToken : Brief peekToken := (brief_takeWhile isGap).bind fun _ => brief_peek

end Brief

/-! ### Words and strings -/

theorem brief_word (letters : List Char) : Brief (word letters) := by
  induction letters with
  | nil => exact .pure ()
  | cons letter letters ih =>
      refine brief_peek.bind fun next => ?_
      split
      · exact .failHere (by decide)
      · split
        · exact brief_skip.bind fun _ => ih
        · exact .failNext (by decide)

theorem brief_codeUnit : Brief codeUnit := by
  intro cursor e he
  rw [codeUnit] at he
  split at he
  · cases he
    exact (by decide : Cause.endInString.OneLine)
  · split at he
    · split at he
      · cases he
      · cases he
        exact (by decide : Cause.invalidEscape.OneLine)
    · cases he
      exact (by decide : Cause.invalidEscape.OneLine)

theorem brief_pairMark (mark : Char) : Brief (pairMark mark) := by
  refine brief_peek.bind fun next => ?_
  split
  · exact .failHere (by decide)
  · split
    · exact brief_skip
    · exact .failNext (by decide)

theorem brief_unicodeEscape : Brief unicodeEscape := by
  refine brief_codeUnit.bind fun high => ?_
  split_ifs
  · exact .failHere (by decide)
  · refine (brief_pairMark _).bind fun _ => (brief_pairMark _).bind fun _ => ?_
    refine brief_codeUnit.bind fun low => ?_
    split_ifs
    · exact .pure _
    · exact .failHere (by decide)
  · exact .pure _

theorem brief_escape : Brief escape := by
  refine brief_peek.bind fun next => ?_
  split
  · exact .failHere (by decide)
  · exact brief_skip.bind fun _ => brief_unicodeEscape
  · split
    · exact brief_skip.bind fun _ => .pure _
    · exact .failNext (by decide)

theorem brief_stringRest (size : Nat) (read : List Char) :
    Brief (stringRest size read) := by
  induction size generalizing read with
  | zero => exact .failHere (by decide)
  | succ size ih =>
      refine brief_peek.bind fun next => ?_
      split
      · exact .failHere (by decide)
      · exact brief_skip.bind fun _ => .pure _
      · exact brief_skip.bind fun _ => brief_escape.bind fun c => ih (c :: read)
      · split_ifs
        · exact .failNext (by decide)
        · exact brief_skip.bind fun _ => ih _

theorem brief_quotedString (size : Nat) : Brief (quotedString size) :=
  brief_skip.bind fun _ => brief_stringRest size []

/-! ### Numerals -/

theorem brief_digits : Brief digits := (brief_takeWhile _).bind fun _ => .pure _

theorem brief_wholeDigits : Brief wholeDigits := by
  refine brief_peek.bind fun next => ?_
  split
  · exact .failHere (by decide)
  · refine brief_skip.bind fun _ => brief_peek.bind fun further => ?_
    split
    · split_ifs
      · exact .failNext (by decide)
      · exact .pure _
    · exact .pure _
  · split_ifs
    · exact brief_digits
    · exact .failNext (by decide)

theorem brief_fractionDigits : Brief fractionDigits := by
  refine brief_peek.bind fun next => ?_
  split
  · refine brief_skip.bind fun _ => brief_digits.bind fun ds => ?_
    split
    · exact .failNextOrEnd (by decide) (by decide)
    · exact .pure _
  · exact .pure _

theorem brief_exponentDigits (limited : Bool) (size value : Nat) :
    Brief (exponentDigits limited size value) := by
  induction size generalizing value with
  | zero => exact .pure _
  | succ size ih =>
      refine brief_peek.bind fun next => ?_
      split
      · split_ifs
        · refine brief_skip.bind fun _ => ?_
          dsimp only
          split_ifs
          · exact .failHere (by decide)
          · exact ih _
        · exact .pure _
      · exact .pure _

theorem brief_exponentAfterSign (size coefficient : Nat) (negative : Bool) :
    Brief (exponentAfterSign size coefficient negative) := by
  refine brief_peek.bind fun next => ?_
  split
  · exact .failHere (by decide)
  · split
    · exact (brief_exponentDigits _ size 0).bind fun _ => .pure _
    · exact .failNext (by decide)

theorem brief_exponent (size coefficient : Nat) : Brief (exponent size coefficient) := by
  refine brief_peek.bind fun next => ?_
  split
  · split_ifs
    · refine brief_skip.bind fun _ => brief_peek.bind fun sign => brief_peek.bind fun further => ?_
      dsimp only
      split_ifs
      · exact brief_skip.bind fun _ => (brief_exponentAfterSign _ _ _).bind fun _ => .pure _
      · exact (brief_exponentAfterSign _ _ _).bind fun _ => .pure _
    · exact .pure _
  · exact .pure _

theorem brief_numberAfterSign (size : Nat) (negative : Bool) : Brief (numberAfterSign size negative) := by
  refine brief_wholeDigits.bind fun whole => brief_fractionDigits.bind fun fraction => ?_
  refine (brief_exponent size _).bind fun exponent => ?_
  split
  · exact .pure _
  · exact .failHere (by decide)

theorem brief_number (size : Nat) : Brief (number size) := by
  refine brief_peek.bind fun sign => ?_
  dsimp only
  split_ifs
  · exact brief_skip.bind fun _ => brief_numberAfterSign _ _
  · exact brief_numberAfterSign _ _

/-! ### Values -/

theorem brief_hasItem (first : Bool) : Brief (hasItem first) := by
  refine brief_peekToken.bind fun next => ?_
  split
  · exact .failHere (by decide)
  · exact .pure _
  · split_ifs
    · exact .pure _
    · refine brief_skip.bind fun _ => brief_peekToken.bind fun further => ?_
      split
      · exact .failHere (by decide)
      · exact .failNext (by decide)
      · exact .pure _
    · exact .failNext (by decide)

theorem brief_items {α : Type} {item : Decoder α} (hitem : Brief item) (steps : Nat)
    (read : List α) : Brief (items item steps read) := by
  induction steps generalizing read with
  | zero => exact .failHere (by decide)
  | succ steps ih =>
      refine (brief_hasItem _).bind fun more => ?_
      split_ifs
      · exact hitem.bind fun a => ih _
      · exact brief_skip.bind fun _ => .pure _

theorem brief_hasKey (first : Bool) : Brief (hasKey first) := by
  refine brief_peekToken.bind fun next => ?_
  split
  · exact .failHere (by decide)
  · exact .pure _
  · split_ifs
    · exact .pure _
    · exact .failNext (by decide)
    · refine brief_skip.bind fun _ => brief_peekToken.bind fun further => ?_
      split
      · exact .failHere (by decide)
      · exact .pure _
      · exact .failNext (by decide)
      · exact .failNext (by decide)
    · exact .failNext (by decide)

theorem brief_colon : Brief colon := by
  refine brief_peekToken.bind fun next => ?_
  split
  · exact .failHere (by decide)
  · exact brief_skip
  · exact .failNext (by decide)

theorem brief_members {α : Type} {size : Nat} {item : Decoder α} (hitem : Brief item)
    (steps : Nat) (read : List (String × α)) : Brief (members size item steps read) := by
  induction steps generalizing read with
  | zero => exact .failHere (by decide)
  | succ steps ih =>
      refine (brief_hasKey _).bind fun more => ?_
      split_ifs
      · refine (brief_quotedString size).bind fun key => ?_
        exact brief_colon.bind fun _ => hitem.bind fun a => ih _
      · exact brief_skip.bind fun _ => .pure _

theorem brief_valueOf {size : Nat} {nested : Option (Decoder Value)}
    (hnested : ∀ item ∈ nested, Brief item) : Brief (valueOf size nested) := by
  refine brief_peekToken.bind fun next => ?_
  split
  · exact .failHere (by decide)
  · exact (brief_word _).bind fun _ => .pure _
  · exact (brief_word _).bind fun _ => .pure _
  · exact (brief_word _).bind fun _ => .pure _
  · exact (brief_quotedString size).bind fun _ => .pure _
  · cases nested with
    | none => exact .failNext (by decide)
    | some item =>
        exact brief_skip.bind fun _ => (brief_items (hnested item rfl) size []).bind fun _ => .pure _
  · cases nested with
    | none => exact .failNext (by decide)
    | some item =>
        exact brief_skip.bind fun _ => (brief_members (hnested item rfl) size []).bind fun _ => .pure _
  · split_ifs
    · exact (brief_number size).bind fun _ => .pure _
    · exact .failNext (by decide)

theorem brief_value (size depth : Nat) : Brief (value size depth) := by
  induction depth with
  | zero => exact brief_valueOf fun item h => by cases h
  | succ depth ih =>
      refine brief_valueOf fun item h => ?_
      cases h
      exact ih

theorem brief_finish : Brief finish := by
  refine brief_peekToken.bind fun next => ?_
  split_ifs
  · exact .failNext (by decide)
  · exact .pure _

end Decoder

theorem lineEnd_not_mem_toString (n : Nat) : '\n' ∉ (toString n).toList := by
  intro h
  have hdigit : '\n'.isDigit := Nat.isDigit_of_mem_toDigits (by decide) (by decide)
    (show '\n' ∈ Nat.toDigits 10 n by simpa [toString, Nat.repr] using h)
  exact absurd hdigit (by decide)

theorem brief_of_decode {text : String} {e : Error} (h : decode text = .error e) : e.cause.OneLine := by
  rw [decode, Decoder.run] at h
  cases hread : Decoder.value (text.length + 1) maxDepth (Cursor.start text.toList) with
  | error cause =>
      rw [hread] at h
      cases h
      exact Decoder.brief_value _ _ _ _ hread
  | ok r =>
      obtain ⟨result, cursor⟩ := r
      rw [hread] at h
      change (Decoder.finish cursor >>= fun _ => Except.ok result) = _ at h
      cases hfinish : Decoder.finish cursor with
      | error cause =>
          rw [hfinish] at h
          cases h
          exact Decoder.brief_finish _ _ hfinish
      | ok _ =>
          rw [hfinish] at h
          cases h

/-- The message about a text that is no JSON is one line. -/
theorem lineEnd_not_mem_message {text : String} {e : Error} (h : decode text = .error e) :
    '\n' ∉ e.message.toList := by
  have hat : '\n' ∉ " at line ".toList := by decide
  have hcolumn : '\n' ∉ " column ".toList := by decide
  rw [Error.message]
  simp only [String.toList_append, List.mem_append, not_or]
  exact ⟨⟨⟨⟨brief_of_decode h, hat⟩, lineEnd_not_mem_toString _⟩, hcolumn⟩, lineEnd_not_mem_toString _⟩

end Phrasebook.Json
