import Phrasebook.Text.Blank
import Phrasebook.Text.Hex
import Phrasebook.Text.Name
import Phrasebook.Text.Word

/-!
Runs of characters of one class. A run ends where a character of another class stands, so a text that is
put together from runs of disjoint classes can be taken apart in one way only. Names, white space and words
are such classes, as far as they meet in a placeholder, and none of them holds its marks. Hexadecimal digits
are another one.
-/

namespace Phrasebook.Text

/-- A run of characters that pass a test ends where one does not. -/
theorem span_append {p : Char → Bool} {run rest : List Char} (hrun : ∀ c ∈ run, p c)
    (hrest : ∀ c ∈ rest.head?, ¬p c) :
    (run ++ rest).takeWhile p = run ∧ (run ++ rest).dropWhile p = rest := by
  rw [List.takeWhile_append_of_pos hrun, List.dropWhile_append_of_pos hrun]
  cases rest with
  | nil => simp
  | cons c rest =>
      have hc : ¬p c := hrest c rfl
      rw [List.takeWhile_cons_of_neg hc, List.dropWhile_cons_of_neg hc, List.append_nil]
      exact ⟨rfl, rfl⟩

/-- What a run is taken from passes the test. -/
theorem of_mem_takeWhile {p : Char → Bool} {s : List Char} {c : Char} (h : c ∈ s.takeWhile p) : p c :=
  List.all_eq_true.1 List.all_takeWhile c h

/-! ### Names -/

theorem isNameChar_of_isName {name : List Char} (h : isName name) : ∀ c ∈ name, isNameChar c := by
  cases name with
  | nil => cases h
  | cons c rest =>
      rw [isName, Bool.and_eq_true, List.all_eq_true] at h
      exact h.2

theorem toNat_lt_of_isNameChar {c : Char} (h : isNameChar c) : c.toNat < 128 := by
  have hclasses : (((c.isUpper || c.isLower) || c.isDigit) || c == '_') || c == '$' := h
  simp only [Bool.or_eq_true, beq_iff_eq] at hclasses
  rcases hclasses with (((hc | hc) | hc) | rfl) | rfl
  · have hle : c.val ≤ 'Z'.val := (of_decide_eq_true hc).2
    exact Nat.lt_of_le_of_lt (UInt32.le_iff_toNat_le.1 hle) (by decide)
  · have hle : c.val ≤ 'z'.val := of_decide_eq_true (Bool.and_eq_true_iff.1 hc).2
    exact Nat.lt_of_le_of_lt (UInt32.le_iff_toNat_le.1 hle) (by decide)
  · exact Nat.lt_of_le_of_lt (Char.isDigit_iff_toNat.1 hc).2 (by decide)
  · decide
  · decide

/-! ### Hexadecimal digits -/

theorem hex_of_lt {n : Nat} (h : n < 16) : hex n = [Nat.digitChar n] := Nat.toDigits_of_lt_base h

theorem hex_of_le {n : Nat} (h : 16 ≤ n) : hex n = hex (n / 16) ++ [Nat.digitChar (n % 16)] :=
  Nat.toDigits_of_base_le (by decide) h

theorem hexValue?_digitChar {d : Nat} (h : d < 16) : hexValue? (Nat.digitChar d) = some d := by
  have hall : ∀ d < 16, hexValue? (Nat.digitChar d) = some d := by decide
  exact hall d h

theorem digitChar_of_mem_hex {n : Nat} {c : Char} (h : c ∈ hex n) : ∃ d < 16, c = Nat.digitChar d := by
  induction n using Nat.strongRecOn with
  | ind n ih =>
      by_cases hlt : n < 16
      · rw [hex_of_lt hlt, List.mem_singleton] at h
        exact ⟨n, hlt, h⟩
      · rw [hex_of_le (Nat.le_of_not_lt hlt), List.mem_append, List.mem_singleton] at h
        rcases h with hhead | rfl
        · exact ih (n / 16) (by omega) hhead
        · exact ⟨n % 16, Nat.mod_lt _ (by decide), rfl⟩

/-! ### White space -/

/-- Whatever holds of the characters that the table of white space lists holds of all white space. -/
theorem of_isBlank {P : Char → Prop} {c : Char} (h : isBlank c)
    (hall : ∀ range ∈ blankRanges, ∀ n ∈ List.range' range.1 (range.2 + 1 - range.1),
      P (Char.ofNat n)) :
    P c := by
  rw [isBlank, Ranges.has, List.any_eq_true] at h
  obtain ⟨range, hrange, hc⟩ := h
  rw [Bool.and_eq_true, decide_eq_true_eq, decide_eq_true_eq] at hc
  have hn := hall range hrange c.toNat (by rw [List.mem_range'_1]; omega)
  rwa [Char.ofNat_toNat] at hn

theorem not_isNameChar_of_isBlank {c : Char} (h : isBlank c) : ¬isNameChar c := by
  apply of_isBlank (P := fun c => ¬isNameChar c) h
  decide

/-- No character is both white space and a character of a word. -/
theorem not_isWord_of_isBlank {c : Char} (h : isBlank c) : ¬isWord c := by
  apply of_isBlank (P := fun c => ¬isWord c) h
  decide +kernel

end Phrasebook.Text
