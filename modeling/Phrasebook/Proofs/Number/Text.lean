import Phrasebook.Proofs.Number.Shortest
import Phrasebook.Proofs.Script.Numeral

/-!
The texts of numbers. A numeral denotes a rational number; the text of a double denotes its shortest
decimal, which rounds to that double alone. So the text of a number tells the number.
-/

namespace Phrasebook.Number

/-! ### What a numeral denotes -/

/-- The power of ten of an exponent with its letter. -/
def exponentValue : List Char → ℤ
  | _ :: sign :: digits =>
    if sign = '-' then -Nat.ofDigitChars 10 digits 0 else Nat.ofDigitChars 10 digits 0
  | _ => 0

/-- The number that a numeral without sign denotes. -/
def denoted (text : List Char) : ℚ :=
  let mantissa := text.takeWhile (· != 'e')
  let whole := mantissa.takeWhile (· != '.')
  let fraction := (mantissa.dropWhile (· != '.')).tail
  Nat.ofDigitChars 10 (whole ++ fraction) 0 *
    10 ^ (exponentValue (text.dropWhile (· != 'e')) - fraction.length)

section Denoted

open Script (AllDigits)

variable {whole fraction power : List Char} {mark : Char}

theorem ne_of_isDigit {c : Char} (hmark : ¬mark.isDigit) (h : c.isDigit) : c != mark := by
  rw [bne_iff_ne]
  rintro rfl
  exact hmark h

/-- Digits end where something else follows. -/
theorem span_digits (hmark : ¬mark.isDigit) (hwhole : AllDigits whole) (rest : List Char)
    (hrest : ∀ c ∈ rest.head?, c = mark) :
    (whole ++ rest).takeWhile (· != mark) = whole ∧ (whole ++ rest).dropWhile (· != mark) = rest :=
  Text.span_append (fun c hc => ne_of_isDigit hmark (hwhole c hc)) fun c hc => by simp [hrest c hc]

theorem denoted_whole (hwhole : AllDigits whole) (hpower : ∀ c ∈ power.head?, c = 'e') :
    denoted (whole ++ power) = Nat.ofDigitChars 10 whole 0 * 10 ^ exponentValue power := by
  obtain ⟨htake, hdrop⟩ := span_digits (by decide) hwhole power hpower
  have hpoint : ¬Char.isDigit '.' := by decide
  obtain ⟨htakePoint, hdropPoint⟩ := span_digits hpoint hwhole [] fun c hc => by cases hc
  rw [List.append_nil] at htakePoint hdropPoint
  rw [denoted, htake, hdrop, htakePoint, hdropPoint]
  simp

theorem denoted_fraction (hwhole : AllDigits whole) (hfraction : AllDigits fraction)
    (hpower : ∀ c ∈ power.head?, c = 'e') :
    denoted (whole ++ '.' :: fraction ++ power) =
      Nat.ofDigitChars 10 (whole ++ fraction) 0 * 10 ^ (exponentValue power - fraction.length) := by
  have hmantissa : ∀ c ∈ whole ++ '.' :: fraction, c != 'e' := by
    intro c hc
    rcases List.mem_append.1 hc with hc | hc
    · exact ne_of_isDigit (by decide) (hwhole c hc)
    · rcases List.mem_cons.1 hc with rfl | hc
      · decide
      · exact ne_of_isDigit (by decide) (hfraction c hc)
  obtain ⟨htake, hdrop⟩ := Text.span_append hmantissa fun c hc => by simp [hpower c hc]
  obtain ⟨htakePoint, hdropPoint⟩ :=
    span_digits (by decide) hwhole ('.' :: fraction) fun c hc => (Option.some.inj hc).symm
  rw [denoted, htake, hdrop, htakePoint, hdropPoint, List.tail_cons]

theorem denoted_point (hwhole : AllDigits whole) (hfraction : AllDigits fraction) :
    denoted (whole ++ '.' :: fraction) =
      Nat.ofDigitChars 10 (whole ++ fraction) 0 * 10 ^ (-fraction.length : ℤ) := by
  have hnone : ∀ c ∈ ([] : List Char).head?, c = 'e' := fun c hc => by cases hc
  have hzero : exponentValue [] = 0 := rfl
  have hdenoted := denoted_fraction hwhole hfraction hnone
  rwa [List.append_nil, hzero, zero_sub] at hdenoted

end Denoted

/-! ### Layouts -/

open Script (AllDigits trimZeros)

theorem ofDigitChars_zeros_append (n : ℕ) (digits : List Char) :
    Nat.ofDigitChars 10 (List.replicate n '0' ++ digits) 0 = Nat.ofDigitChars 10 digits 0 := by
  rw [Nat.ofDigitChars_append, Nat.ofDigitChars_replicate_zero, Nat.mul_zero]

theorem ofDigitChars_append_zeros (digits : List Char) (n : ℕ) :
    Nat.ofDigitChars 10 (digits ++ List.replicate n '0') 0 = Nat.ofDigitChars 10 digits 0 * 10 ^ n := by
  rw [Nat.ofDigitChars_append, Nat.ofDigitChars_replicate_zero, Nat.mul_comm]

theorem allDigits_replicate (n : ℕ) : AllDigits (List.replicate n '0') := by
  intro c hc
  rw [List.eq_of_mem_replicate hc]
  decide

theorem exponentValue_power (leading : ℤ) :
    exponentValue ('e' :: (if leading < 0 then '-' else '+') :: decimalDigits leading.natAbs) = leading := by
  have hdigits : Nat.ofDigitChars 10 (decimalDigits leading.natAbs) 0 = leading.natAbs :=
    Nat.ofDigitChars_ten_toDigits
  by_cases hneg : leading < 0
  · rw [if_pos hneg, exponentValue, if_pos rfl, hdigits]
    omega
  · rw [if_neg hneg, exponentValue, if_neg (by decide), hdigits]
    omega

section Layout

variable {d : Char} {digits : List Char}

/-- Scientific notation. -/
theorem denoted_scientific (hdigits : AllDigits (d :: digits)) (leading : ℤ) :
    denoted ([d] ++ (if (d :: digits).length ≤ 1 then [] else ['.']) ++ digits ++
        'e' :: (if leading < 0 then '-' else '+') :: decimalDigits leading.natAbs) =
      Nat.ofDigitChars 10 (d :: digits) 0 * 10 ^ (leading - digits.length) := by
  have hfirst : AllDigits [d] := fun c hc => hdigits c (by simp_all)
  have htail : AllDigits digits := fun c hc => hdigits c (List.mem_cons_of_mem _ hc)
  have hpower : ∀ c ∈ ('e' :: (if leading < 0 then '-' else '+') ::
      decimalDigits leading.natAbs).head?, c = 'e' := fun c hc => (Option.some.inj hc).symm
  cases digits with
  | nil =>
      have hdenoted := denoted_whole hfirst hpower
      rw [exponentValue_power] at hdenoted
      simpa using hdenoted
  | cons next digits =>
      have hdenoted := denoted_fraction hfirst htail hpower
      rw [exponentValue_power] at hdenoted
      simpa using hdenoted

/-- A zero before the point. -/
theorem denoted_small (hdigits : AllDigits (d :: digits)) {leading : ℤ} (hneg : leading < 0) :
    denoted ('0' :: '.' :: List.replicate (leading.natAbs - 1) '0' ++ d :: digits) =
      Nat.ofDigitChars 10 (d :: digits) 0 * 10 ^ (leading - digits.length) := by
  have hzero : AllDigits ['0'] := allDigits_replicate 1
  have hfraction : AllDigits (List.replicate (leading.natAbs - 1) '0' ++ d :: digits) := by
    intro c hc
    rcases List.mem_append.1 hc with hc | hc
    · exact allDigits_replicate _ c hc
    · exact hdigits c hc
  have hdenoted := denoted_point hzero hfraction
  have hvalue : Nat.ofDigitChars 10 (['0'] ++ (List.replicate (leading.natAbs - 1) '0' ++ d :: digits)) 0 =
      Nat.ofDigitChars 10 (d :: digits) 0 := by
    rw [← List.append_assoc, ← List.replicate_one, List.replicate_append_replicate,
      ofDigitChars_zeros_append]
  have hlength : -((List.replicate (leading.natAbs - 1) '0' ++ d :: digits).length : ℤ) =
      leading - digits.length := by
    rw [List.length_append, List.length_replicate, List.length_cons]
    push_cast
    omega
  rw [hvalue, hlength] at hdenoted
  exact hdenoted

/-- Digits before the point, and zeros up to it. -/
theorem denoted_filled (hdigits : AllDigits digits) (n : ℕ) :
    denoted (digits ++ List.replicate n '0' ++ ['.', '0']) = Nat.ofDigitChars 10 digits 0 * 10 ^ (n : ℤ) := by
  have hwhole : AllDigits (digits ++ List.replicate n '0') := by
    intro c hc
    rcases List.mem_append.1 hc with hc | hc
    · exact hdigits c hc
    · exact allDigits_replicate _ c hc
  have hdenoted := denoted_point hwhole (allDigits_replicate 1)
  have hvalue : Nat.ofDigitChars 10 (digits ++ List.replicate n '0' ++ List.replicate 1 '0') 0 =
      Nat.ofDigitChars 10 digits 0 * 10 ^ (n + 1) := by
    rw [List.append_assoc, List.replicate_append_replicate, ofDigitChars_append_zeros]
  rw [List.replicate_one] at hdenoted hvalue
  rw [hdenoted, hvalue, List.length_singleton, Nat.cast_one, zpow_neg_one, zpow_natCast]
  push_cast
  ring

/-- Digits on both sides of the point. -/
theorem denoted_plain (hdigits : AllDigits (d :: digits)) {leading : ℤ} (hpos : ¬leading < 0) :
    denoted ((d :: digits).take (leading.toNat + 1) ++
        List.replicate (leading.toNat + 1 - (d :: digits).length) '0' ++ '.' ::
        if ((d :: digits).drop (leading.toNat + 1)).isEmpty then ['0']
        else (d :: digits).drop (leading.toNat + 1)) =
      Nat.ofDigitChars 10 (d :: digits) 0 * 10 ^ (leading - digits.length) := by
  by_cases hlength : (d :: digits).length ≤ leading.toNat + 1
  · have hexponent : ((leading.toNat + 1 - (d :: digits).length : ℕ) : ℤ) = leading - digits.length := by
      rw [List.length_cons] at hlength ⊢
      omega
    rw [List.take_of_length_le hlength, List.drop_of_length_le hlength, if_pos List.isEmpty_nil,
      denoted_filled hdigits, hexponent]
  · have hnone : leading.toNat + 1 - (d :: digits).length = 0 := by omega
    have hrest : ¬((d :: digits).drop (leading.toNat + 1)).isEmpty := by
      rw [List.isEmpty_iff, List.drop_eq_nil_iff]
      exact hlength
    have hbefore : AllDigits ((d :: digits).take (leading.toNat + 1)) := fun c hc =>
      hdigits c (List.mem_of_mem_take hc)
    have hafter : AllDigits ((d :: digits).drop (leading.toNat + 1)) := fun c hc =>
      hdigits c (List.mem_of_mem_drop hc)
    have hdenoted := denoted_point hbefore hafter
    have hexponent : -(((d :: digits).drop (leading.toNat + 1)).length : ℤ) = leading - digits.length := by
      rw [List.length_cons] at hlength
      rw [List.length_drop, List.length_cons]
      omega
    rw [hexponent, List.take_append_drop] at hdenoted
    rw [hnone, List.replicate_zero, List.append_nil, if_neg hrest]
    exact hdenoted

/-- Laid out digits denote what they denote as an integer, times a power of ten. -/
theorem denoted_layout (hdigits : AllDigits (d :: digits)) (leading : ℤ) :
    denoted (layout (d :: digits) leading) =
      Nat.ofDigitChars 10 (d :: digits) 0 * 10 ^ (leading - digits.length) := by
  rw [layout]
  split
  · exact denoted_scientific hdigits leading
  · split
    · rename_i hneg
      exact denoted_small hdigits hneg
    · rename_i hpos
      exact denoted_plain hdigits hpos

end Layout

/-! ### The text of a double -/

theorem exists_trimZeros (digits : List Char) :
    ∃ n, digits = trimZeros digits ++ List.replicate n '0' := by
  obtain ⟨n, hzeros⟩ : ∃ n, digits.reverse.takeWhile (· == '0') = List.replicate n '0' :=
    ⟨_, List.eq_replicate_iff.2 ⟨rfl, fun c hc => beq_iff_eq.1 (List.all_eq_true.1 List.all_takeWhile c hc)⟩⟩
  refine ⟨n, ?_⟩
  calc digits
      = (digits.reverse.takeWhile (· == '0') ++ digits.reverse.dropWhile (· == '0')).reverse := by
        rw [List.takeWhile_append_dropWhile, List.reverse_reverse]
    _ = trimZeros digits ++ (digits.reverse.takeWhile (· == '0')).reverse := by
        rw [List.reverse_append, trimZeros]
    _ = trimZeros digits ++ List.replicate n '0' := by rw [hzeros, List.reverse_replicate]

/-- The digits of a natural number, laid out without the zeros at their end, denote the number times a
power of ten. -/
theorem denoted_digits {n : ℕ} (hn : n ≠ 0) (exponent : ℤ) :
    denoted (layout (trimZeros (decimalDigits n)) (exponent + ((decimalDigits n).length - 1 : ℕ))) =
      n * 10 ^ exponent := by
  obtain ⟨k, hk⟩ := exists_trimZeros (decimalDigits n)
  have hvalue : Nat.ofDigitChars 10 (trimZeros (decimalDigits n)) 0 * 10 ^ k = n := by
    rw [← ofDigitChars_append_zeros, ← hk]
    exact Nat.ofDigitChars_ten_toDigits
  have hlength : (decimalDigits n).length = (trimZeros (decimalDigits n)).length + k := by
    rw [hk, List.length_append, List.length_replicate, ← hk]
  have hdigits : AllDigits (trimZeros (decimalDigits n)) := fun c hc =>
    Script.allDigits_decimalDigits n c ((Script.prefix_trimZeros _).subset hc)
  have hcons : ∃ d rest, trimZeros (decimalDigits n) = d :: rest := by
    cases hlist : decimalDigits n with
    | nil => exact absurd hlist Nat.toDigits_ne_nil
    | cons d digits =>
        have hd : d ≠ '0' := by
          rintro rfl
          exact head?_decimalDigits hn (by rw [hlist]; rfl)
        obtain ⟨rest, hrest⟩ := Script.trimZeros_eq_cons digits hd
        exact ⟨d, rest, hrest⟩
  obtain ⟨d, rest, hlist⟩ := hcons
  have hpower : exponent + ((decimalDigits n).length - 1 : ℕ) - rest.length = exponent + k := by
    rw [hlength, hlist, List.length_cons]
    omega
  rw [hlist] at hvalue hdigits ⊢
  rw [denoted_layout hdigits, hpower, zpow_add₀ (by norm_num), zpow_natCast]
  have hcast : (Nat.ofDigitChars 10 (d :: rest) 0 : ℚ) * 10 ^ k = n := by exact_mod_cast hvalue
  rw [← hcast]
  ring

/-- The text of a magnitude. -/
def magnitudeText (x : Binary64) : List Char :=
  if x.isZero then ['0', '.', '0']
  else layout (trimZeros (decimalDigits x.shortest.digits))
    (x.shortest.exponent + ((decimalDigits x.shortest.digits).length - 1 : ℕ))

theorem doubleText_eq_append (x : Binary64) :
    doubleText x = (if x.negative then ['-'] else []) ++ magnitudeText x := by
  unfold doubleText magnitudeText
  dsimp only
  split <;> rfl

theorem isNumeral_magnitudeText (x : Binary64) : Script.IsNumeral (magnitudeText x) := by
  obtain ⟨text, htext, heq⟩ := Script.doubleText_eq x
  rw [doubleText_eq_append] at heq
  rw [List.append_cancel_left heq]
  exact htext

variable {x y : Binary64}

/-- What rounds to a magnitude that is not zero is not zero. -/
theorem pos_of_rounds {v : ℚ} (h : x.significand ≠ 0) (hv : x.Rounds v) : 0 < v := by
  have hlower : (0 : ℚ) < x.lowerEnd := by exact_mod_cast Script.lowerEnd_pos h
  exact (mul_pos hlower x.quarter_pos).trans_le hv.le.1

/-- The text of a magnitude that is not zero denotes a number that rounds to the double. -/
theorem rounds_magnitudeText (h : x.significand ≠ 0) : x.Rounds (denoted (magnitudeText x)) := by
  have hrounds := Binary64.rounds_shortest h
  have hdigits : x.shortest.digits ≠ 0 := by
    intro hzero
    have hpos := pos_of_rounds h hrounds
    rw [hzero, Nat.cast_zero, zero_mul] at hpos
    exact lt_irrefl 0 hpos
  rw [magnitudeText, if_neg (by simpa [Binary64.isZero] using h), denoted_digits hdigits]
  exact hrounds

theorem denoted_magnitudeText_zero (h : x.significand = 0) : denoted (magnitudeText x) = 0 := by
  have hdenoted := denoted_filled (allDigits_replicate 1) 0
  have hzero : Nat.ofDigitChars 10 (List.replicate 1 '0') 0 = 0 := by
    rw [Nat.ofDigitChars_replicate_zero, Nat.mul_zero]
  rw [hzero, Nat.cast_zero, zero_mul] at hdenoted
  rw [magnitudeText, if_pos (by simpa [Binary64.isZero] using h)]
  exact hdenoted

theorem eq_of_magnitudeText_eq (h : magnitudeText x = magnitudeText y) :
    x.significand = y.significand ∧ x.exponent = y.exponent := by
  have hleast : ∀ {z : Binary64}, z.significand = 0 → z.exponent = -1074 := by
    intro z hzero
    refine z.inFormat.normal.resolve_left ?_
    rw [hzero]
    norm_num
  by_cases hxzero : x.significand = 0
  · by_cases hyzero : y.significand = 0
    · rw [hxzero, hyzero, hleast hxzero, hleast hyzero]
      exact ⟨rfl, rfl⟩
    · have hpos := pos_of_rounds hyzero (rounds_magnitudeText hyzero)
      rw [← h, denoted_magnitudeText_zero hxzero] at hpos
      exact absurd hpos (lt_irrefl 0)
  · by_cases hyzero : y.significand = 0
    · have hpos := pos_of_rounds hxzero (rounds_magnitudeText hxzero)
      rw [h, denoted_magnitudeText_zero hyzero] at hpos
      exact absurd hpos (lt_irrefl 0)
    · exact Binary64.eq_of_rounds (rounds_magnitudeText hxzero) (h ▸ rounds_magnitudeText hyzero)

/-- A text that is a numeral, with a minus sign for negative numbers. -/
theorem sign_inj {p q : Bool} {text other : List Char} (htext : Script.IsNumeral text)
    (hother : Script.IsNumeral other)
    (h : (if p then ['-'] else []) ++ text = (if q then ['-'] else []) ++ other) :
    p = q ∧ text = other := by
  obtain ⟨c, tail, rfl, hc⟩ := Script.head?_isDigit htext
  obtain ⟨d, rest, rfl, hd⟩ := Script.head?_isDigit hother
  have hminus : ∀ {c : Char}, c.isDigit → c ≠ '-' := by
    rintro c hc rfl
    exact absurd hc (by decide)
  cases p with
  | true =>
      cases q with
      | true => exact ⟨rfl, List.append_cancel_left h⟩
      | false => exact absurd (List.cons.inj h).1.symm (hminus hd)
  | false =>
      cases q with
      | true => exact absurd (List.cons.inj h).1 (hminus hc)
      | false => exact ⟨rfl, h⟩

/-- The text of a double tells the double. -/
theorem doubleText_inj (h : doubleText x = doubleText y) : x = y := by
  rw [doubleText_eq_append, doubleText_eq_append] at h
  obtain ⟨hnegative, htext⟩ := sign_inj (isNumeral_magnitudeText x) (isNumeral_magnitudeText y) h
  obtain ⟨hsignificand, hexponent⟩ := eq_of_magnitudeText_eq htext
  cases x
  cases y
  simp_all

/-! ### The text of a number -/

theorem decimalDigits_inj {m n : ℕ} (h : decimalDigits m = decimalDigits n) : m = n := by
  have hread := ofDecimal?_decimalDigits m
  rw [h, ofDecimal?_decimalDigits] at hread
  exact (Option.some.inj hread).symm

theorem intText_eq (n : ℤ) :
    intText n = (if decide (n < 0) then ['-'] else []) ++ decimalDigits n.natAbs := by
  cases n with
  | ofNat m =>
      rw [intText, if_neg (by simp)]
      rfl
  | negSucc m =>
      rw [intText, if_pos (by simp)]
      rfl

theorem intText_inj {m n : ℤ} (h : intText m = intText n) : m = n := by
  rw [intText_eq, intText_eq] at h
  obtain ⟨hnegative, hdigits⟩ := sign_inj (Script.isNumeral_decimalDigits m.natAbs)
    (Script.isNumeral_decimalDigits n.natAbs) h
  have hmagnitude := decimalDigits_inj hdigits
  rw [decide_eq_decide] at hnegative
  omega

theorem isDigit_of_mem_intText {n : ℤ} {c : Char} (h : c ∈ intText n) : c = '-' ∨ c.isDigit := by
  rw [intText_eq, List.mem_append] at h
  rcases h with h | h
  · left
    split_ifs at h
    · exact List.mem_singleton.1 h
    · cases h
  · exact Or.inr (Script.allDigits_decimalDigits _ c h)

theorem exists_mem_layout (digits : List Char) (leading : ℤ) :
    ∃ c ∈ layout digits leading, c = '.' ∨ c = 'e' := by
  rw [layout]
  split
  · exact ⟨'e', by simp, Or.inr rfl⟩
  · split
    · exact ⟨'.', by simp, Or.inl rfl⟩
    · exact ⟨'.', by simp, Or.inl rfl⟩

/-- The text of a double has a point or an exponent. -/
theorem exists_mem_doubleText (x : Binary64) : ∃ c ∈ doubleText x, c = '.' ∨ c = 'e' := by
  have hmagnitude : ∃ c ∈ magnitudeText x, c = '.' ∨ c = 'e' := by
    rw [magnitudeText]
    split_ifs
    · exact ⟨'.', by simp, Or.inl rfl⟩
    · exact exists_mem_layout _ _
  obtain ⟨c, hc, hmark⟩ := hmagnitude
  rw [doubleText_eq_append]
  exact ⟨c, List.mem_append_right _ hc, hmark⟩

theorem doubleText_ne_intText (x : Binary64) (n : ℤ) : doubleText x ≠ intText n := by
  intro h
  obtain ⟨c, hc, hmark⟩ := exists_mem_doubleText x
  rw [h] at hc
  rcases isDigit_of_mem_intText hc with rfl | hdigit
  · rcases hmark with hmark | hmark <;> exact absurd hmark (by decide)
  · rcases hmark with rfl | rfl <;> exact absurd hdigit (by decide)

/-- The text of a number tells the number. -/
theorem text_inj {m n : Number} (h : m.text = n.text) : m = n := by
  cases m with
  | int m =>
      cases n with
      | int n => exact congrArg int (intText_inj h)
      | double y => exact absurd h.symm (doubleText_ne_intText y m)
  | double x =>
      cases n with
      | int n => exact absurd h (doubleText_ne_intText x n)
      | double y => exact congrArg double (doubleText_inj h)

end Phrasebook.Number
