import Mathlib.Data.List.Induction
import Phrasebook.Number.Basic

/-!
Decimal digits of natural numbers. Every number has one spelling without needless zeros, and that is
the one in which numbers are written.
-/

namespace Phrasebook.Number

/-- Only zero is written with a zero in front. -/
theorem head?_decimalDigits {n : Nat} (h : n ≠ 0) : (decimalDigits n).head? ≠ some '0' := by
  induction n using Nat.strongRecOn with
  | ind n ih =>
      rw [decimalDigits]
      by_cases hlt : n < 10
      · rw [Nat.toDigits_of_lt_base hlt]
        have hall : ∀ d < 10, d ≠ 0 → Nat.digitChar d ≠ '0' := by decide
        simpa using hall n hlt h
      · rw [Nat.toDigits_of_base_le (by decide) (by omega), List.head?_append]
        have hdiv := ih (n / 10) (by omega) (by omega)
        rw [decimalDigits] at hdiv
        cases hdigits : Nat.toDigits 10 (n / 10) with
        | nil => exact absurd hdigits Nat.toDigits_ne_nil
        | cons d ds =>
            rw [hdigits] at hdiv
            exact hdiv

/-- Digits without needless zeros. -/
def IsCanonical (digits : List Char) : Prop := digits.length = 1 ∨ digits.head? ≠ some '0'

theorem isCanonical_decimalDigits (n : Nat) : IsCanonical (decimalDigits n) := by
  by_cases h : n = 0
  · subst h
    exact Or.inl rfl
  · exact Or.inr (head?_decimalDigits h)

theorem ofDecimal?_eq_some {digits : List Char} {n : Nat} : ofDecimal? digits = some n ↔
    digits ≠ [] ∧ (∀ c ∈ digits, c.isDigit) ∧ Nat.ofDigitChars 10 digits 0 = n := by
  have hfold : digits.foldl (fun n c => n * 10 + (c.toNat - '0'.toNat)) 0 =
      Nat.ofDigitChars 10 digits 0 := by
    rw [Nat.ofDigitChars_eq_foldl]
    congr 1
    funext n c
    rw [Nat.mul_comm]
  have htest : (digits.isEmpty || !digits.all Char.isDigit) = true ↔
      ¬(digits ≠ [] ∧ ∀ c ∈ digits, c.isDigit) := by
    rw [Bool.or_eq_true, List.isEmpty_iff, Bool.not_eq_true', ← Bool.not_eq_true, List.all_eq_true]
    exact Decidable.or_iff_not_not_and_not.trans (by rw [Decidable.not_not])
  rw [ofDecimal?, hfold]
  by_cases h : digits ≠ [] ∧ ∀ c ∈ digits, c.isDigit
  · rw [if_neg fun hbad => htest.1 hbad h, Option.some.injEq]
    exact ⟨fun heq => ⟨h.1, h.2, heq⟩, fun heq => heq.2.2⟩
  · rw [if_pos (htest.2 h)]
    exact ⟨fun heq => (nomatch heq), fun heq => absurd ⟨heq.1, heq.2.1⟩ h⟩

theorem ofDecimal?_decimalDigits (n : Nat) : ofDecimal? (decimalDigits n) = some n :=
  ofDecimal?_eq_some.2 ⟨Nat.toDigits_ne_nil,
    fun _ hc => Nat.isDigit_of_mem_toDigits (by decide) (by decide) hc, Nat.ofDigitChars_ten_toDigits⟩

theorem digitChar_toNat {c : Char} (h : c.isDigit) :
    c.toNat - '0'.toNat < 10 ∧ Nat.digitChar (c.toNat - '0'.toNat) = c := by
  have hall : ∀ n < 58, (Char.ofNat n).isDigit →
      n - '0'.toNat < 10 ∧ Nat.digitChar (n - '0'.toNat) = Char.ofNat n := by decide
  have hlt : c.toNat < 58 := by
    rw [Char.isDigit, Bool.and_eq_true, decide_eq_true_eq, decide_eq_true_eq] at h
    exact Nat.lt_of_le_of_lt (UInt32.le_iff_toNat_le.1 h.2) (by decide)
  have hdigit := hall c.toNat hlt
  rw [Char.ofNat_toNat] at hdigit
  exact hdigit h

/-- Of the digits that denote a number, only those that are written have no needless zeros. -/
theorem eq_decimalDigits {digits : List Char} {n : Nat} (h : ofDecimal? digits = some n)
    (hcanonical : IsCanonical digits) : digits = decimalDigits n := by
  obtain ⟨hne, hdigits, hvalue⟩ := ofDecimal?_eq_some.1 h
  clear h
  induction digits using List.reverseRecOn generalizing n with
  | nil => exact absurd rfl hne
  | append_singleton init c ih =>
      obtain ⟨hlt, hchar⟩ := digitChar_toNat (hdigits c (by simp))
      rw [Nat.ofDigitChars_append, Nat.ofDigitChars_cons, Nat.ofDigitChars_nil] at hvalue
      cases init with
      | nil =>
          rw [Nat.ofDigitChars_nil, Nat.mul_zero, Nat.zero_add] at hvalue
          rw [← hvalue, decimalDigits, Nat.toDigits_of_lt_base hlt, hchar]
          rfl
      | cons d init =>
          have hd : d ≠ '0' := by
            rcases hcanonical with hlength | hhead
            · simp at hlength
            · exact fun hzero => hhead (by rw [hzero]; rfl)
          have hinit := ih (Or.inr fun hzero => hd (Option.some.inj hzero)) (List.cons_ne_nil _ _)
            (fun x hx => hdigits x (List.mem_append_left _ hx)) rfl
          have hpos : 0 < Nat.ofDigitChars 10 (d :: init) 0 := by
            refine Nat.pos_of_ne_zero fun hzero => hd ?_
            rw [hzero] at hinit
            exact (List.cons.inj hinit).1
          rw [hinit, ← hvalue, decimalDigits, decimalDigits,
            ← Nat.toDigits_append_toDigits (by decide) hpos hlt, Nat.toDigits_of_lt_base hlt, hchar]

end Phrasebook.Number
