import Mathlib.Algebra.Order.Field.Power
import Mathlib.Algebra.Order.Field.Rat
import Mathlib.Tactic.FieldSimp
import Mathlib.Tactic.Linarith
import Mathlib.Tactic.LinearCombination
import Mathlib.Tactic.Positivity
import Mathlib.Tactic.Ring
import Phrasebook.Number.Shortest

/-!
Doubles and the decimals that read back as them. Every number rounds to one double at most, and the decimal
that is printed for a double, of which seventeen digits always suffice, rounds to that double.
-/

namespace Phrasebook.Binary64

-- Powers are those of core, also where other powers of natural numbers are in scope.
attribute [local instance (high)] instPowNat

/-- A quarter of the last significand place. -/
def quarter (x : Binary64) : ℚ := 2 ^ (x.exponent - 2)

/-- Whether a rational number rounds to the double. -/
def Rounds (x : Binary64) (v : ℚ) : Prop :=
  if x.significand % 2 = 0 then x.lowerEnd * x.quarter ≤ v ∧ v ≤ x.upperEnd * x.quarter
  else x.lowerEnd * x.quarter < v ∧ v < x.upperEnd * x.quarter

variable {x y : Binary64}

theorem quarter_pos (x : Binary64) : 0 < x.quarter := zpow_pos (by norm_num) _

theorem mul_quarter_le_mul_quarter {m n : ℕ} (h : m ≤ n) (x : Binary64) :
    (m : ℚ) * x.quarter ≤ n * x.quarter :=
  mul_le_mul_of_nonneg_right (by exact_mod_cast h) x.quarter_pos.le

theorem mul_quarter_lt_mul_quarter {m n : ℕ} (h : m < n) (x : Binary64) :
    (m : ℚ) * x.quarter < n * x.quarter :=
  mul_lt_mul_of_pos_right (by exact_mod_cast h) x.quarter_pos

/-- A power as a quotient of two natural powers. -/
theorem zpow_eq_div (b : ℚ) (hb : b ≠ 0) (n : ℤ) : b ^ n = b ^ n.toNat / b ^ (-n).toNat := by
  rw [eq_div_iff (pow_ne_zero _ hb), ← zpow_natCast, ← zpow_natCast, ← zpow_add₀ hb]
  congr 1
  omega

/-- A quarter of the last place over a power of ten is the quotient of the two naturals. -/
theorem quarterPlace_eq (x : Binary64) (power : ℤ) :
    ((x.quarterPlace power).1 : ℚ) * 10 ^ power = (x.quarterPlace power).2 * x.quarter := by
  have htwo := zpow_eq_div 2 (by norm_num) (x.exponent - 2)
  have hten := zpow_eq_div 10 (by norm_num) power
  have hneg : (-(x.exponent - 2)).toNat = (2 - x.exponent).toNat := by omega
  rw [hneg] at htwo
  rw [quarter, htwo, hten, quarterPlace]
  push_cast
  field_simp

theorem quarterPlace_snd_pos (x : Binary64) (power : ℤ) : 0 < (x.quarterPlace power).2 :=
  Nat.mul_pos (Nat.two_pow_pos _) (Nat.pow_pos (by decide))

/-- What numbers of quarters and decimals are multiplied with when they are compared as naturals. -/
theorem exists_scale (x : Binary64) (power : ℤ) : ∃ c : ℚ, 0 < c ∧
    (∀ n : ℕ, ((n * (x.quarterPlace power).1 : ℕ) : ℚ) = n * x.quarter * c) ∧
    ∀ d : ℕ, ((d * (x.quarterPlace power).2 : ℕ) : ℚ) = d * 10 ^ power * c := by
  have hden : (0 : ℚ) < (x.quarterPlace power).2 := by exact_mod_cast quarterPlace_snd_pos x power
  have hten : (0 : ℚ) < 10 ^ power := zpow_pos (by norm_num) _
  refine ⟨(x.quarterPlace power).2 / 10 ^ power, div_pos hden hten, fun n => ?_, fun d => ?_⟩
  · have heq := quarterPlace_eq x power
    push_cast
    field_simp
    linear_combination (n : ℚ) * heq
  · push_cast
    field_simp

/-- Comparing with a decimal on the grid of a power of ten is comparing with its value. -/
theorem reads_iff (x : Binary64) (power : ℤ) (d : ℕ) :
    x.reads power d ↔ x.Rounds (d * 10 ^ power) := by
  obtain ⟨c, hc, hquarters, hdecimals⟩ := exists_scale x power
  rw [reads, Rounds]
  dsimp only
  split_ifs
  · rw [Bool.and_eq_true, decide_eq_true_eq, decide_eq_true_eq, ← Nat.cast_le (α := ℚ),
      ← Nat.cast_le (α := ℚ), hquarters, hquarters, hdecimals, mul_le_mul_iff_left₀ hc,
      mul_le_mul_iff_left₀ hc]
  · rw [Bool.and_eq_true, decide_eq_true_eq, decide_eq_true_eq, ← Nat.cast_lt (α := ℚ),
      ← Nat.cast_lt (α := ℚ), hquarters, hquarters, hdecimals, mul_lt_mul_iff_left₀ hc,
      mul_lt_mul_iff_left₀ hc]

/-! ### Every number rounds to one double at most -/

theorem Rounds.le {v : ℚ} (h : x.Rounds v) :
    x.lowerEnd * x.quarter ≤ v ∧ v ≤ x.upperEnd * x.quarter := by
  rw [Rounds] at h
  split_ifs at h
  · exact h
  · exact ⟨h.1.le, h.2.le⟩

theorem Rounds.lt {v : ℚ} (h : x.Rounds v) (hodd : x.significand % 2 ≠ 0) :
    x.lowerEnd * x.quarter < v ∧ v < x.upperEnd * x.quarter := by
  rwa [Rounds, if_neg hodd] at h

/-- Between two doubles of which the upper end of one is no more than the lower end of the other, no number
rounds to both: they could only share an end, and one of the two has an odd significand then. -/
theorem not_rounds_of_le {v : ℚ} (hle : x.upperEnd * x.quarter ≤ y.lowerEnd * y.quarter)
    (hodd : x.significand % 2 = 0 → y.significand % 2 = 0 →
      x.upperEnd * x.quarter < y.lowerEnd * y.quarter)
    (hx : x.Rounds v) (hy : y.Rounds v) : False := by
  by_cases hxodd : x.significand % 2 = 0
  · by_cases hyodd : y.significand % 2 = 0
    · exact absurd (hx.le.2.trans_lt (hodd hxodd hyodd)) (not_lt.2 hy.le.1)
    · exact absurd (hx.le.2.trans hle) (not_le.2 (hy.lt hyodd).1)
  · exact absurd ((hx.lt hxodd).2.trans_le hle) (not_lt.2 hy.le.1)

theorem not_rounds_of_significand_lt {v : ℚ} (hexponent : x.exponent = y.exponent)
    (hlt : x.significand < y.significand) (hx : x.Rounds v) (hy : y.Rounds v) : False := by
  have hquarter : x.quarter = y.quarter := by rw [quarter, quarter, hexponent]
  have hlower : 4 * y.significand ≤ y.lowerEnd + 2 := by
    rw [lowerEnd]
    split_ifs <;> omega
  have hends : x.upperEnd ≤ y.lowerEnd := by
    rw [upperEnd]
    omega
  refine not_rounds_of_le ?_ (fun hxeven hyeven => ?_) hx hy
  · rw [hquarter]
    exact mul_quarter_le_mul_quarter hends y
  · have hends : x.upperEnd < y.lowerEnd := by
      rw [upperEnd]
      omega
    rw [hquarter]
    exact mul_quarter_lt_mul_quarter hends y

theorem not_rounds_of_exponent_lt {v : ℚ} (hlt : x.exponent < y.exponent) (hxv : x.Rounds v)
    (hyv : y.Rounds v) : False := by
  have hleast := x.inFormat.least
  have hsignificand := x.inFormat.significand_lt
  have hnormal : 2 ^ (52 : Nat) ≤ y.significand := y.inFormat.normal.resolve_right (by omega)
  have hlower : 2 ^ (54 : Nat) - 1 ≤ y.lowerEnd := by
    rw [lowerEnd]
    split_ifs <;> omega
  have hupper : x.upperEnd ≤ 2 * y.lowerEnd := by
    rw [upperEnd]
    omega
  have hquarter : 2 * x.quarter ≤ y.quarter := by
    have hstep : 2 * x.quarter = 2 ^ (x.exponent - 2 + 1) := by
      rw [quarter, zpow_add_one₀ (by norm_num), mul_comm]
    rw [hstep, quarter]
    exact zpow_le_zpow_right₀ (by norm_num) (by omega)
  have hscaled : (y.lowerEnd : ℚ) * (2 * x.quarter) ≤ y.lowerEnd * y.quarter :=
    mul_le_mul_of_nonneg_left hquarter (Nat.cast_nonneg _)
  have hassoc : ((2 * y.lowerEnd : ℕ) : ℚ) * x.quarter = y.lowerEnd * (2 * x.quarter) := by
    push_cast
    ring
  refine not_rounds_of_le (le_trans ?_ (hassoc ▸ hscaled)) (fun hxeven _ => lt_of_lt_of_le ?_ (hassoc ▸ hscaled))
    hxv hyv
  · exact mul_quarter_le_mul_quarter hupper x
  · have hupper : x.upperEnd < 2 * y.lowerEnd := by
      rw [upperEnd]
      omega
    exact mul_quarter_lt_mul_quarter hupper x

/-- A number rounds to one magnitude at most. -/
theorem eq_of_rounds {v : ℚ} (hxv : x.Rounds v) (hyv : y.Rounds v) :
    x.significand = y.significand ∧ x.exponent = y.exponent := by
  rcases lt_trichotomy x.exponent y.exponent with hlt | heq | hlt
  · exact (not_rounds_of_exponent_lt hlt hxv hyv).elim
  · rcases lt_trichotomy x.significand y.significand with hsig | hsig | hsig
    · exact (not_rounds_of_significand_lt heq hsig hxv hyv).elim
    · exact ⟨hsig, heq⟩
    · exact (not_rounds_of_significand_lt heq.symm hsig hyv hxv).elim
  · exact (not_rounds_of_exponent_lt hlt hyv hxv).elim

/-! ### The decimal that is found -/

/-- The magnitude of a double. -/
def magnitude (x : Binary64) : ℚ := 4 * x.significand * x.quarter

theorem reads_of_onGrid? {power : ℤ} {d : ℕ} (h : x.onGrid? power = some d) : x.reads power d := by
  rw [onGrid?] at h
  dsimp only at h
  split at h
  · rename_i hbelow _
    cases h
    exact hbelow
  · rename_i habove
    cases h
    exact habove
  · cases h
  · rename_i hbelow habove
    split at h
    · cases h
      exact hbelow
    · cases h
      rcases Nat.mod_two_eq_zero_or_one (4 * x.significand * (x.quarterPlace power).1 /
        (x.quarterPlace power).2) with hmod | hmod
      · rw [hmod, Nat.add_zero]
        exact hbelow
      · rw [hmod]
        exact habove
    · cases h
      exact habove

/-- How often a power of ten goes into a double. -/
def multiple (x : Binary64) (power : ℤ) : ℕ :=
  4 * x.significand * (x.quarterPlace power).1 / (x.quarterPlace power).2

/-- One of the two neighbours on a grid is found if it rounds to the double. -/
theorem onGrid?_isSome {power : ℤ}
    (h : x.reads power (x.multiple power) ∨ x.reads power (x.multiple power + 1)) :
    (x.onGrid? power).isSome := by
  rw [multiple] at h
  rw [onGrid?]
  dsimp only
  split
  · rfl
  · rfl
  · rename_i hbelow habove
    rw [hbelow, habove] at h
    simp at h
  · split <;> rfl

/-- The multiples of a power of ten below and above a double. -/
theorem multiple_le_magnitude (x : Binary64) (power : ℤ) :
    x.multiple power * (10 : ℚ) ^ power ≤ x.magnitude ∧
      x.magnitude < (x.multiple power + 1) * (10 : ℚ) ^ power := by
  obtain ⟨c, hc, hquarters, hdecimals⟩ := exists_scale x power
  have hden := quarterPlace_snd_pos x power
  have hle : x.multiple power * (x.quarterPlace power).2 ≤ 4 * x.significand * (x.quarterPlace power).1 :=
    Nat.div_mul_le_self _ _
  have hlt : 4 * x.significand * (x.quarterPlace power).1 <
      (x.multiple power + 1) * (x.quarterPlace power).2 := by
    rw [Nat.mul_comm (x.multiple power + 1)]
    exact Nat.lt_mul_div_succ _ hden
  rw [← Nat.cast_le (α := ℚ), hquarters, hdecimals, mul_le_mul_iff_left₀ hc] at hle
  rw [← Nat.cast_lt (α := ℚ), hquarters, hdecimals, mul_lt_mul_iff_left₀ hc] at hlt
  push_cast at hle hlt
  exact ⟨hle, hlt⟩

theorem rounds_of_lt {v : ℚ} (hlower : x.lowerEnd * x.quarter < v) (hupper : v < x.upperEnd * x.quarter) :
    x.Rounds v := by
  rw [Rounds]
  split_ifs
  · exact ⟨hlower.le, hupper.le⟩
  · exact ⟨hlower, hupper⟩

theorem upperEnd_mul_quarter (x : Binary64) :
    x.upperEnd * x.quarter = x.magnitude + 2 * x.quarter := by
  rw [upperEnd, magnitude]
  push_cast
  ring

/-- A grid that is fine enough has a number that rounds to the double. -/
theorem onGrid?_isSome_of_lt {power : ℤ} (hpos : x.significand ≠ 0)
    (hfine : (10 : ℚ) ^ power < 4 * x.quarter)
    (hfirst : x.significand = 2 ^ (52 : Nat) → (10 : ℚ) ^ power < 2 * x.quarter) :
    (x.onGrid? power).isSome := by
  obtain ⟨hbelow, habove⟩ := multiple_le_magnitude x power
  have hquarter := x.quarter_pos
  have hlower : x.lowerEnd * x.quarter < x.magnitude := by
    have hlt : x.lowerEnd < 4 * x.significand := by
      rw [lowerEnd]
      split_ifs <;> omega
    have hscaled := mul_quarter_lt_mul_quarter hlt x
    push_cast at hscaled
    exact hscaled
  -- the upper neighbour rounds to the double if the lower one is not near
  have hupper : x.multiple power * (10 : ℚ) ^ power + 10 ^ power < x.magnitude + 2 * x.quarter →
      (x.onGrid? power).isSome := by
    intro hlt
    refine onGrid?_isSome (Or.inr ((reads_iff x power _).2 (rounds_of_lt ?_ ?_)))
    · push_cast
      exact hlower.trans habove
    · rw [upperEnd_mul_quarter]
      push_cast
      rw [add_one_mul]
      exact hlt
  by_cases hmiddle : x.significand = 2 ^ (52 : Nat)
  · have := hfirst hmiddle
    exact hupper (by linarith)
  · have hlowerEnd : x.lowerEnd * x.quarter = x.magnitude - 2 * x.quarter := by
      have hend : x.lowerEnd + 2 = 4 * x.significand := by
        rw [lowerEnd, if_neg fun h => hmiddle h.1]
        omega
      have hcast : (x.lowerEnd : ℚ) + 2 = 4 * x.significand := by exact_mod_cast hend
      rw [magnitude, ← hcast]
      ring
    by_cases hnear : x.magnitude - 2 * x.quarter < x.multiple power * (10 : ℚ) ^ power
    · refine onGrid?_isSome (Or.inl ((reads_iff x power _).2 (rounds_of_lt ?_ ?_)))
      · rw [hlowerEnd]
        exact hnear
      · rw [upperEnd_mul_quarter]
        linarith
    · exact hupper (by linarith)

/-! ### The leading decimal digit -/

/-- Whether a power of ten is no more than the double, as `decimalExponent` asks for it. -/
theorem le_magnitude_iff (x : Binary64) (power : ℤ) :
    (x.quarterPlace power).2 ≤ 4 * x.significand * (x.quarterPlace power).1 ↔
      (10 : ℚ) ^ power ≤ x.magnitude := by
  obtain ⟨c, hc, hquarters, hdecimals⟩ := exists_scale x power
  have hone := hdecimals 1
  rw [Nat.one_mul, Nat.cast_one, one_mul] at hone
  rw [← Nat.cast_le (α := ℚ), hquarters, hone, mul_le_mul_iff_left₀ hc]
  push_cast
  rfl

/-- Powers of two bases compare like one pair of them, if the exponents do. -/
theorem pow_le_pow_of_base {a b p q n m : ℕ} (hbase : a ^ p ≤ b ^ q) (hp : p ≠ 0) (hb : 0 < b)
    (h : q * n ≤ p * m) : a ^ n ≤ b ^ m := by
  refine (Nat.pow_le_pow_iff_left hp).1 ?_
  calc (a ^ n) ^ p = (a ^ p) ^ n := Nat.pow_right_comm a n p
    _ ≤ (b ^ q) ^ n := Nat.pow_le_pow_left hbase n
    _ = b ^ (q * n) := (Nat.pow_mul b q n).symm
    _ ≤ b ^ (p * m) := Nat.pow_le_pow_right hb h
    _ = (b ^ m) ^ p := by rw [Nat.mul_comm, Nat.pow_mul]

/-- An estimate of powers of ten by powers of two. -/
theorem ten_zpow_le {guess exponent : ℤ} (hguess : guess * 100000 ≤ exponent * 30103)
    (hlow : -20000 ≤ exponent) (hhigh : exponent ≤ 20000) : (10 : ℚ) ^ (guess - 1) ≤ 2 ^ exponent := by
  by_cases hexponent : 0 ≤ exponent
  · obtain ⟨m, rfl⟩ := Int.eq_ofNat_of_zero_le hexponent
    by_cases hpower : 0 ≤ guess - 1
    · obtain ⟨n, hn⟩ := Int.eq_ofNat_of_zero_le hpower
      have hpow : 10 ^ n ≤ 2 ^ m :=
        pow_le_pow_of_base (show 10 ^ 59 ≤ 2 ^ 196 by norm_num) (by norm_num) (by norm_num) (by omega)
      rw [hn, zpow_natCast, zpow_natCast]
      exact_mod_cast hpow
    · calc (10 : ℚ) ^ (guess - 1) ≤ 1 := zpow_le_one_of_nonpos₀ (by norm_num) (by omega)
        _ ≤ 2 ^ (m : ℤ) := one_le_zpow₀ (by norm_num) (by omega)
  · obtain ⟨m, hm⟩ := Int.eq_ofNat_of_zero_le (show 0 ≤ -exponent by omega)
    obtain ⟨n, hn⟩ := Int.eq_ofNat_of_zero_le (show 0 ≤ -(guess - 1) by omega)
    have hpow : 2 ^ m ≤ 10 ^ n :=
      pow_le_pow_of_base (show 2 ^ 93 ≤ 10 ^ 28 by norm_num) (by norm_num) (by norm_num) (by omega)
    have hcast : (2 : ℚ) ^ m ≤ 10 ^ n := by exact_mod_cast hpow
    rw [← neg_neg (guess - 1), ← neg_neg exponent, hm, hn, zpow_neg, zpow_neg, zpow_natCast, zpow_natCast]
    exact inv_anti₀ (by positivity) hcast

theorem two_zpow_le_magnitude (h : x.significand ≠ 0) :
    (2 : ℚ) ^ ((x.significand.log2 : ℤ) + x.exponent) ≤ x.magnitude := by
  have hlog : ((2 ^ x.significand.log2 : ℕ) : ℚ) ≤ x.significand := by
    exact_mod_cast Nat.log2_self_le h
  have hmagnitude : x.magnitude = x.significand * 2 ^ x.exponent := by
    rw [magnitude, quarter, zpow_sub₀ (by norm_num)]
    norm_num
    ring
  rw [hmagnitude, zpow_add₀ (by norm_num), zpow_natCast]
  push_cast at hlog
  exact mul_le_mul_of_nonneg_right hlog (zpow_pos (by norm_num) _).le

/-- The power of ten of the leading digit is no more than the double. -/
theorem ten_zpow_decimalExponent_le (h : x.significand ≠ 0) :
    (10 : ℚ) ^ x.decimalExponent ≤ x.magnitude := by
  rw [decimalExponent]
  dsimp only
  split_ifs with hnext hguess
  · exact (le_magnitude_iff x _).1 (by simpa using hnext)
  · exact (le_magnitude_iff x _).1 (by simpa using hguess)
  · refine (ten_zpow_le ?_ ?_ ?_).trans (two_zpow_le_magnitude h)
    · exact Int.ediv_mul_le _ (by norm_num)
    · have := x.inFormat.least
      omega
    · have := x.inFormat.greatest
      have hlog : x.significand.log2 < 53 := (Nat.log2_lt h).2 x.inFormat.significand_lt
      omega

/-! ### The shortest decimal -/

theorem magnitude_lt (x : Binary64) : x.magnitude < 4 * 2 ^ (53 : Nat) * x.quarter := by
  have hlt : (x.significand : ℚ) < 2 ^ (53 : Nat) := by exact_mod_cast x.inFormat.significand_lt
  rw [magnitude]
  exact mul_lt_mul_of_pos_right (by linarith) x.quarter_pos

/-- Seventeen digits suffice. -/
theorem onGrid?_isSome_seventeen (h : x.significand ≠ 0) :
    (x.onGrid? (x.decimalExponent - (16 : ℕ))).isSome := by
  have hleading := ten_zpow_decimalExponent_le h
  have hpower : (10 : ℚ) ^ (x.decimalExponent - (16 : ℕ)) = 10 ^ x.decimalExponent / 10 ^ 16 := by
    rw [zpow_sub₀ (by norm_num), zpow_natCast]
  have hquarter := x.quarter_pos
  refine onGrid?_isSome_of_lt h ?_ fun hmiddle => ?_
  · have hlt := magnitude_lt x
    rw [hpower, div_lt_iff₀ (by norm_num)]
    norm_num at hlt ⊢
    linarith
  · have hmagnitude : x.magnitude = 4 * 2 ^ (52 : Nat) * x.quarter := by
      rw [magnitude, hmiddle]
      norm_num
    rw [hpower, div_lt_iff₀ (by norm_num)]
    norm_num at hmagnitude ⊢
    linarith

/-- The shortest decimal of a double rounds to the double. -/
theorem rounds_shortest (h : x.significand ≠ 0) :
    x.Rounds (x.shortest.digits * 10 ^ x.shortest.exponent) := by
  rw [shortest]
  cases hfound : (List.range 17).findSome? fun (n : Nat) =>
      (x.onGrid? (x.decimalExponent - n)).map (⟨·, x.decimalExponent - n⟩ : Nat → Decimal) with
  | none =>
      have hlast := List.findSome?_eq_none_iff.1 hfound 16 (by simp)
      rw [Option.map_eq_none_iff] at hlast
      have hsome := onGrid?_isSome_seventeen h
      rw [hlast] at hsome
      cases hsome
  | some found =>
      obtain ⟨n, -, hn⟩ := List.exists_of_findSome?_eq_some hfound
      obtain ⟨d, hd, rfl⟩ := Option.map_eq_some_iff.1 hn
      exact (reads_iff x _ d).1 (reads_of_onGrid? hd)

end Phrasebook.Binary64
