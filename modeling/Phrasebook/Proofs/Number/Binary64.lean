import Phrasebook.Number.Binary64

/-!
Rounding a quotient to a double. The exponent is the one at which the quotient has 53 bits, or the least one.
So its rounded significand is always in the format, and only an exponent beyond the greatest one has no double.
-/

namespace Phrasebook

namespace Binary64

-- Powers are those of core, also where other powers of natural numbers are in scope.
attribute [local instance (high)] instPowNat

variable {num den : Nat} {exponent : Int}

theorem scaled_snd_pos (h : 0 < den) (num : Nat) (exponent : Int) : 0 < (scaled num den exponent).2 :=
  Nat.mul_pos h (Nat.two_pow_pos _)

/-- The logarithms bound a scaled quotient from above. -/
theorem scaled_lt (hnum : num ≠ 0) (hden : den ≠ 0) {bits : Nat}
    (h : (num.log2 : Int) + 1 - den.log2 ≤ bits + exponent) :
    (scaled num den exponent).1 < 2 ^ bits * (scaled num den exponent).2 := by
  rw [scaled]
  dsimp only
  calc num * 2 ^ (-exponent).toNat < 2 ^ (num.log2 + 1) * 2 ^ (-exponent).toNat :=
        Nat.mul_lt_mul_of_pos_right ((Nat.log2_lt hnum).1 (Nat.lt_succ_self _)) (Nat.two_pow_pos _)
    _ = 2 ^ (num.log2 + 1 + (-exponent).toNat) := (Nat.pow_add ..).symm
    _ ≤ 2 ^ (bits + (den.log2 + exponent.toNat)) := Nat.pow_le_pow_right (by decide) (by omega)
    _ = 2 ^ bits * (2 ^ den.log2 * 2 ^ exponent.toNat) := by rw [Nat.pow_add, Nat.pow_add]
    _ ≤ 2 ^ bits * (den * 2 ^ exponent.toNat) :=
        Nat.mul_le_mul_left _ (Nat.mul_le_mul_right _ (Nat.log2_self_le hden))

/-- The logarithms bound a scaled quotient from below. -/
theorem le_scaled (hnum : num ≠ 0) (hden : den ≠ 0) {bits : Nat}
    (h : bits + exponent ≤ (num.log2 : Int) - den.log2 - 1) :
    2 ^ bits * (scaled num den exponent).2 ≤ (scaled num den exponent).1 := by
  rw [scaled]
  dsimp only
  calc 2 ^ bits * (den * 2 ^ exponent.toNat) ≤ 2 ^ bits * (2 ^ (den.log2 + 1) * 2 ^ exponent.toNat) :=
        Nat.mul_le_mul_left _ (Nat.mul_le_mul_right _ (Nat.le_of_lt ((Nat.log2_lt hden).1 (Nat.lt_succ_self _))))
    _ = 2 ^ (bits + (den.log2 + 1 + exponent.toNat)) := by rw [Nat.pow_add 2 bits, Nat.pow_add 2 (_ + 1)]
    _ ≤ 2 ^ (num.log2 + (-exponent).toNat) := Nat.pow_le_pow_right (by decide) (by omega)
    _ = 2 ^ num.log2 * 2 ^ (-exponent).toNat := Nat.pow_add ..
    _ ≤ num * 2 ^ (-exponent).toNat := Nat.mul_le_mul_right _ (Nat.log2_self_le hnum)

/-- A scaled quotient is halved by the next exponent. -/
theorem le_scaled_succ {bits : Nat}
    (h : 2 ^ (bits + 1) * (scaled num den exponent).2 ≤ (scaled num den exponent).1) :
    2 ^ bits * (scaled num den (exponent + 1)).2 ≤ (scaled num den (exponent + 1)).1 := by
  rw [scaled] at h ⊢
  dsimp only at h ⊢
  by_cases hneg : exponent < 0
  · have htwice : num * 2 ^ (-exponent).toNat = 2 * (num * 2 ^ (-(exponent + 1)).toNat) := by
      rw [show (-exponent).toNat = (-(exponent + 1)).toNat + 1 by omega, Nat.pow_succ]
      rw [← Nat.mul_assoc, Nat.mul_comm]
    have hzero : exponent.toNat = 0 := by omega
    have hnext : (exponent + 1).toNat = 0 := by omega
    rw [htwice, hzero, Nat.pow_succ, Nat.mul_right_comm, Nat.mul_comm _ 2] at h
    rw [hnext]
    exact Nat.le_of_mul_le_mul_left h (by decide)
  · have hzero : (-exponent).toNat = 0 := by omega
    have hnext : (-(exponent + 1)).toNat = 0 := by omega
    have hsucc : (exponent + 1).toNat = exponent.toNat + 1 := by omega
    rw [hzero] at h
    rw [hnext, hsucc, Nat.pow_succ]
    refine Nat.le_trans (Nat.le_of_eq ?_) h
    rw [Nat.pow_succ, Nat.mul_assoc (2 ^ bits) 2, Nat.mul_left_comm 2, Nat.mul_comm 2]

/-- At its exponent a quotient has at most 53 bits before the point, and exactly so many unless the exponent
is the least one. -/
theorem exponentOf_spec (hnum : num ≠ 0) (hden : den ≠ 0) :
    -1074 ≤ exponentOf num den ∧
    (scaled num den (exponentOf num den)).1 < 2 ^ (53 : Nat) * (scaled num den (exponentOf num den)).2 ∧
    (exponentOf num den = -1074 ∨
      2 ^ (52 : Nat) * (scaled num den (exponentOf num den)).2 ≤ (scaled num den (exponentOf num den)).1) := by
  rw [exponentOf]
  dsimp only
  have hpos := scaled_snd_pos (Nat.pos_of_ne_zero hden) num
  split
  · rename_i hbits
    rw [Nat.div_lt_iff_lt_mul (hpos _)] at hbits
    refine ⟨by omega, hbits, ?_⟩
    by_cases hleast : (num.log2 : Int) - den.log2 - 53 ≤ -1074
    · exact Or.inl (by omega)
    · exact Or.inr (le_scaled hnum hden (by omega))
  · rename_i hbits
    have hfull := (Nat.le_div_iff_mul_le (hpos _)).1 (Nat.not_lt.1 hbits)
    exact ⟨by omega, scaled_lt hnum hden (by omega), Or.inr (le_scaled_succ hfull)⟩

theorem roundDiv_bounds (num den : Nat) :
    num / den ≤ roundDiv num den ∧ roundDiv num den ≤ num / den + 1 := by
  rw [roundDiv]
  split <;> omega

/-- The significand of a quotient before its carry. -/
def rounded (num den : Nat) : Nat :=
  let (a, b) := scaled num den (exponentOf num den)
  roundDiv a b

theorem rounded_spec (hnum : num ≠ 0) (hden : den ≠ 0) : rounded num den ≤ 2 ^ (53 : Nat) ∧
    (exponentOf num den = -1074 ∨ 2 ^ (52 : Nat) ≤ rounded num den) := by
  obtain ⟨-, hlt, hnormal⟩ := exponentOf_spec hnum hden
  have hpos := scaled_snd_pos (Nat.pos_of_ne_zero hden) num (exponentOf num den)
  obtain ⟨hbelow, habove⟩ :=
    roundDiv_bounds (scaled num den (exponentOf num den)).1 (scaled num den (exponentOf num den)).2
  rw [← Nat.div_lt_iff_lt_mul hpos] at hlt
  rw [← Nat.le_div_iff_mul_le hpos] at hnormal
  rw [rounded]
  dsimp only
  exact ⟨by omega, hnormal.imp_right fun h => Nat.le_trans h hbelow⟩

/-- The significand and the exponent of a quotient after its carry. -/
def carried (num den : Nat) : Nat × Int :=
  if rounded num den = 2 ^ (53 : Nat) then (2 ^ (52 : Nat), exponentOf num den + 1)
  else (rounded num den, exponentOf num den)

/-- A quotient has a double unless its exponent is too large. -/
theorem inFormat_carried_iff (hnum : num ≠ 0) (hden : den ≠ 0) :
    InFormat (carried num den).1 (carried num den).2 ↔ (carried num den).2 ≤ 971 := by
  refine ⟨InFormat.greatest, fun hgreatest => ?_⟩
  obtain ⟨hle, hnormal⟩ := rounded_spec hnum hden
  have hleast := (exponentOf_spec hnum hden).1
  rw [carried] at hgreatest ⊢
  by_cases hcarry : rounded num den = 2 ^ (53 : Nat)
  · have hlt : 2 ^ (52 : Nat) < 2 ^ (53 : Nat) := by decide
    rw [if_pos hcarry] at hgreatest ⊢
    exact ⟨hlt, Or.inl (Nat.le_refl _), Int.le_trans hleast (Int.le_add_one (Int.le_refl _)), hgreatest⟩
  · rw [if_neg hcarry] at hgreatest ⊢
    exact ⟨Nat.lt_of_le_of_ne hle hcarry, hnormal.symm, hleast, hgreatest⟩

theorem ofRatio?_eq (hnum : num ≠ 0) (negative : Bool) (den : Nat) :
    ofRatio? negative num den = ofParts? negative (carried num den).1 (carried num den).2 := by
  rw [ofRatio?, if_neg hnum]
  rfl

end Binary64

end Phrasebook
