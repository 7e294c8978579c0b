import Phrasebook.Proofs.Number.Binary64
import Phrasebook.Proofs.Number.Shortest
import Phrasebook.Proofs.Script.Evaluation

/-!
Integers as doubles. A natural number is read as a double as the nearest one of the integers with 53
significant bits, a tie as the one with the even significand. Up to `2 ^ 53` this is the number itself; beyond
it several numbers can be read as one.
-/

namespace Phrasebook

namespace Binary64

-- Powers are those of core, also where other powers of natural numbers are in scope.
attribute [local instance (high)] instPowNat

/-! ### Nearest multiples -/

section Multiples

variable {num den : Nat}

theorem roundDiv_of_lt (h : 2 * (num % den) < den) : roundDiv num den = num / den := by
  simp only [roundDiv, Nat.compare_eq_lt.2 h]

theorem roundDiv_of_eq (h : 2 * (num % den) = den) : roundDiv num den = num / den + num / den % 2 := by
  simp only [roundDiv, Nat.compare_eq_eq.2 h]

theorem roundDiv_of_gt (h : den < 2 * (num % den)) : roundDiv num den = num / den + 1 := by
  simp only [roundDiv, Nat.compare_eq_gt.2 h]

/-- The quotient is rounded to one of its neighbours, no more than half away. -/
theorem roundDiv_cases (num den : Nat) :
    (roundDiv num den = num / den ∧ 2 * (num % den) ≤ den) ∨
      (roundDiv num den = num / den + 1 ∧ den ≤ 2 * (num % den)) := by
  rcases Nat.lt_trichotomy (2 * (num % den)) den with hlt | heq | hgt
  · exact Or.inl ⟨roundDiv_of_lt hlt, Nat.le_of_lt hlt⟩
  · rw [roundDiv_of_eq heq]
    omega
  · exact Or.inr ⟨roundDiv_of_gt hgt, Nat.le_of_lt hgt⟩

theorem roundDiv_one (num : Nat) : roundDiv num 1 = num := by
  rcases roundDiv_cases num 1 with ⟨h, -⟩ | ⟨-, h⟩
  · rw [h, Nat.div_one]
  · rw [Nat.mod_one] at h
    omega

/-- A multiple lies on one side of the two between which a number is. -/
theorem mul_le_or_le_mul (k quotient den : Nat) :
    k * den ≤ quotient * den ∨ quotient * den + den ≤ k * den := by
  rcases Nat.lt_or_ge quotient k with h | h
  · right
    rw [← Nat.succ_mul]
    exact Nat.mul_le_mul_right den h
  · exact Or.inl (Nat.mul_le_mul_right den h)

/-- No multiple is nearer than that of the rounded quotient. -/
theorem natAbs_sub_roundDiv_le (hden : 0 < den) (k : Nat) :
    ((num : Int) - (roundDiv num den * den : Nat)).natAbs ≤ ((num : Int) - (k * den : Nat)).natAbs := by
  have hdiv := Nat.div_add_mod' num den
  have hmod := Nat.mod_lt num hden
  have hside := mul_le_or_le_mul k (num / den) den
  rcases roundDiv_cases num den with ⟨hround, hhalf⟩ | ⟨hround, hhalf⟩
  · rw [hround]
    omega
  · rw [hround, Nat.succ_mul]
    omega

/-- A tie goes to the even multiple. -/
theorem roundDiv_mod_two (hden : 0 < den) {k : Nat} (hk : k ≠ roundDiv num den)
    (htie : ((num : Int) - (k * den : Nat)).natAbs = ((num : Int) - (roundDiv num den * den : Nat)).natAbs) :
    roundDiv num den % 2 = 0 := by
  have hdiv := Nat.div_add_mod' num den
  have hmod := Nat.mod_lt num hden
  have hside := mul_le_or_le_mul k (num / den) den
  rcases Nat.lt_trichotomy (2 * (num % den)) den with hlt | heq | hgt
  · -- the quotient alone is nearest
    rw [roundDiv_of_lt hlt] at hk htie
    have hsame : k * den = num / den * den := by omega
    exact absurd (Nat.eq_of_mul_eq_mul_right hden hsame) hk
  · rw [roundDiv_of_eq heq]
    omega
  · rw [roundDiv_of_gt hgt] at hk htie
    rw [Nat.succ_mul] at htie
    have hsame : k * den = (num / den + 1) * den := by
      rw [Nat.succ_mul]
      omega
    exact absurd (Nat.eq_of_mul_eq_mul_right hden hsame) hk

end Multiples

/-! ### Nearest integers -/

/-- The distance between the doubles around a natural number, if these are integers. -/
def spacing (n : Nat) : Nat := 2 ^ (n.log2 - 52)

/-- The integer that a natural number is read as. -/
def nearest (n : Nat) : Nat := roundDiv n (spacing n) * spacing n

/-- Whether a natural number has no more than 53 significant bits. -/
def Represented (n : Nat) : Prop := ∃ significand exponent : Nat,
  significand < 2 ^ (53 : Nat) ∧ n = significand * 2 ^ exponent

theorem spacing_pos (n : Nat) : 0 < spacing n := Nat.two_pow_pos _

theorem represented_of_le {n : Nat} (h : n ≤ 2 ^ (53 : Nat)) : Represented n := by
  rcases Nat.lt_or_eq_of_le h with hlt | rfl
  · exact ⟨n, 0, hlt, by simp⟩
  · exact ⟨2 ^ (52 : Nat), 1, by decide, by decide⟩

theorem represented_two_pow (exponent : Nat) : Represented (2 ^ exponent) :=
  ⟨1, exponent, by decide, (Nat.one_mul _).symm⟩

theorem represented_nearest (n : Nat) : Represented (nearest n) := by
  have hlt : n / spacing n < 2 ^ (53 : Nat) := by
    rw [Nat.div_lt_iff_lt_mul (spacing_pos n), spacing, ← Nat.pow_add]
    exact Nat.lt_of_lt_of_le Nat.lt_log2_self (Nat.pow_le_pow_right (by decide) (by omega))
  have hle := (roundDiv_bounds n (spacing n)).2
  unfold nearest
  by_cases hcarry : roundDiv n (spacing n) = 2 ^ (53 : Nat)
  · refine ⟨2 ^ (52 : Nat), n.log2 - 52 + 1, by decide, ?_⟩
    rw [hcarry, spacing, ← Nat.pow_add, ← Nat.pow_add]
    congr 1
    omega
  · exact ⟨roundDiv n (spacing n), n.log2 - 52, by omega, rfl⟩

/-- The numbers of 53 bits that are as large as the highest bit of another one are multiples of the spacing
there. -/
theorem spacing_dvd {n m : Nat} (hm : Represented m) (h : 2 ^ n.log2 ≤ m) : spacing n ∣ m := by
  obtain ⟨significand, exponent, hlt, rfl⟩ := hm
  have hpow : 2 ^ n.log2 < 2 ^ (53 + exponent) := by
    calc 2 ^ n.log2 ≤ significand * 2 ^ exponent := h
      _ < 2 ^ (53 : Nat) * 2 ^ exponent := Nat.mul_lt_mul_of_pos_right hlt (Nat.two_pow_pos _)
      _ = 2 ^ (53 + exponent) := (Nat.pow_add ..).symm
  have hexponent := (Nat.pow_lt_pow_iff_right (by decide)).1 hpow
  exact Nat.dvd_trans (Nat.pow_dvd_pow 2 (by omega)) (Nat.dvd_mul_left ..)

/-- No number of 53 bits is nearer than the one that is read. -/
theorem natAbs_sub_nearest_le {n m : Nat} (hm : Represented m) :
    ((n : Int) - nearest n).natAbs ≤ ((n : Int) - m).natAbs := by
  have hmultiple : ∀ other, spacing n ∣ other →
      ((n : Int) - nearest n).natAbs ≤ ((n : Int) - other).natAbs := by
    rintro _ ⟨k, rfl⟩
    rw [Nat.mul_comm]
    exact natAbs_sub_roundDiv_le (spacing_pos n) k
  by_cases hlarge : 2 ^ n.log2 ≤ m
  · exact hmultiple m (spacing_dvd hm hlarge)
  · -- a power of two lies between the two numbers, and is a multiple of the spacing itself
    have hpower := hmultiple (2 ^ n.log2) (Nat.pow_dvd_pow 2 (Nat.sub_le ..))
    by_cases hzero : n = 0
    · rw [hzero, show nearest 0 = 0 by decide]
      exact Nat.zero_le _
    · have hle := Nat.log2_self_le hzero
      omega

/-- When another number of 53 bits is as near, the significand of the one that is read is even. -/
theorem significand_mod_two {n m : Nat} (hm : Represented m) (hne : m ≠ nearest n)
    (htie : ((n : Int) - m).natAbs = ((n : Int) - nearest n).natAbs) : roundDiv n (spacing n) % 2 = 0 := by
  by_cases hlarge : 2 ^ n.log2 ≤ m
  · obtain ⟨k, rfl⟩ := spacing_dvd hm hlarge
    rw [Nat.mul_comm] at hne htie
    refine roundDiv_mod_two (spacing_pos n) (fun hk => hne ?_) htie
    rw [hk, nearest]
  · have hpower := natAbs_sub_nearest_le (n := n) (represented_two_pow n.log2)
    by_cases hzero : n = 0
    · subst hzero
      decide
    · have hle := Nat.log2_self_le hzero
      omega

theorem nearest_of_represented {n : Nat} (h : Represented n) : nearest n = n := by
  have hdistance := natAbs_sub_nearest_le (n := n) h
  omega

theorem nearest_of_le {n : Nat} (h : n ≤ 2 ^ (53 : Nat)) : nearest n = n :=
  nearest_of_represented (represented_of_le h)

/-! ### Integers read as doubles -/

theorem exponentOf_one {n : Nat} (hn : n ≠ 0) (hlt : n < 2 ^ (1023 : Nat)) :
    exponentOf n 1 = (n.log2 : Int) - 52 := by
  have hone : Nat.log2 1 = 0 := by decide
  have hlog : n.log2 < 1023 := (Nat.log2_lt hn).2 hlt
  have hguess : max (-1074) ((n.log2 : Int) - Nat.log2 1 - 53) = n.log2 - 53 := by omega
  have hfull : 2 ^ (53 : Nat) * (1 * 2 ^ ((n.log2 : Int) - 53).toNat) ≤
      n * 2 ^ (-((n.log2 : Int) - 53)).toNat := by
    calc 2 ^ (53 : Nat) * (1 * 2 ^ ((n.log2 : Int) - 53).toNat)
        = 2 ^ (53 + ((n.log2 : Int) - 53).toNat) := by rw [Nat.one_mul, Nat.pow_add]
      _ = 2 ^ (n.log2 + (-((n.log2 : Int) - 53)).toNat) := by
          congr 1
          omega
      _ = 2 ^ n.log2 * 2 ^ (-((n.log2 : Int) - 53)).toNat := Nat.pow_add ..
      _ ≤ n * 2 ^ (-((n.log2 : Int) - 53)).toNat := Nat.mul_le_mul_right _ (Nat.log2_self_le hn)
  rw [← Nat.le_div_iff_mul_le (Nat.mul_pos Nat.one_pos (Nat.two_pow_pos _))] at hfull
  rw [exponentOf, hguess, scaled]
  dsimp only
  rw [if_neg (Nat.not_lt.2 hfull)]
  omega

theorem value_double (x : Binary64) : (Number.double x).value =
    (if x.negative then -1 else 1) * (x.significand * 2 ^ x.exponent) := by
  rw [Number.value, ratio, zpow_eq_div 2 (by norm_num)]
  push_cast
  rw [mul_div_assoc]

/-- The significand of a natural number is that of its nearest integer, filled up with zeros. -/
theorem rounded_one {n : Nat} (hn : n ≠ 0) (hlt : n < 2 ^ (1023 : Nat)) :
    rounded n 1 = roundDiv n (spacing n) * 2 ^ (52 - n.log2) := by
  rw [rounded, exponentOf_one hn hlt, scaled]
  dsimp only
  rw [Nat.one_mul]
  by_cases hshort : n.log2 ≤ 52
  · have hspacing : spacing n = 1 := by rw [spacing, Nat.sub_eq_zero_of_le hshort, Nat.pow_zero]
    have hexponent : ((n.log2 : Int) - 52).toNat = 0 := by omega
    have hzeros : (-((n.log2 : Int) - 52)).toNat = 52 - n.log2 := by omega
    rw [hspacing, hexponent, hzeros, Nat.pow_zero, roundDiv_one, roundDiv_one]
  · have hexponent : ((n.log2 : Int) - 52).toNat = n.log2 - 52 := by omega
    have hzeros : (-((n.log2 : Int) - 52)).toNat = 0 := by omega
    have hnone : 52 - n.log2 = 0 := by omega
    rw [hexponent, hzeros, hnone, Nat.pow_zero, Nat.mul_one, Nat.mul_one, spacing]

/-- A carry gives one bit less and the next exponent, and so the same number. -/
theorem carried_magnitude (num den : Nat) :
    ((carried num den).1 * 2 ^ (carried num den).2 : ℚ) = rounded num den * 2 ^ exponentOf num den := by
  rw [carried]
  split_ifs with hcarry
  · rw [hcarry]
    push_cast
    rw [zpow_add_one₀ (by norm_num)]
    ring
  · rfl

/-- The double of a natural number is the integer that the number is read as. -/
theorem value_ofNat {n : Nat} (hlt : n < 2 ^ (1023 : Nat)) :
    (Number.double (ofNat false n)).value = nearest n := by
  by_cases hn : n = 0
  · subst hn
    rw [value_double, show ofNat false 0 = zero false from rfl, show nearest 0 = 0 by decide, zero]
    simp
  · have hgreatest : (carried n 1).2 ≤ 971 := by
      have hlog : n.log2 < 1023 := (Nat.log2_lt hn).2 hlt
      rw [carried, exponentOf_one hn hlt]
      split_ifs <;> dsimp only <;> omega
    have hvalue : (Number.double (ofNat false n)).value = rounded n 1 * 2 ^ ((n.log2 : Int) - 52) := by
      rw [ofNat, ofRatio?_eq hn, ofParts?, dif_pos ((inFormat_carried_iff hn Nat.one_ne_zero).2 hgreatest),
        Option.getD_some, value_double, carried_magnitude, exponentOf_one hn hlt]
      simp
    have hexponent : ((52 - n.log2 : Nat) : Int) + ((n.log2 : Int) - 52) = (n.log2 - 52 : Nat) := by omega
    rw [hvalue, rounded_one hn hlt, nearest, spacing]
    push_cast
    rw [mul_assoc, ← zpow_natCast, ← zpow_add₀ (by norm_num), hexponent, zpow_natCast]

end Binary64
end Phrasebook
