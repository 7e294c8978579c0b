import Mathlib.Data.List.TakeWhile
import Phrasebook.Proofs.Number.Decimal
import Phrasebook.Proofs.Script.Token

/-!
Numerals. ECMAScript writes a number as decimal digits without needless zeros in front, then perhaps
a point with further digits, then perhaps an exponent; what follows may not be part of a word.
`Reader.number_of_skip` says that every number is written as such a numeral.
-/

namespace Phrasebook.Script

/-- The digits after a point, with the point, and what follows them. -/
def fractionOf : List Char → List Char × List Char
  | [] => ([], [])
  | c :: rest =>
    if c = '.' then ('.' :: rest.takeWhile Char.isDigit, rest.dropWhile Char.isDigit)
    else ([], c :: rest)

/-- The sign of an exponent, if it has one, and what follows it. -/
def signOf : List Char → List Char × List Char
  | [] => ([], [])
  | c :: rest => if c = '+' ∨ c = '-' then ([c], rest) else ([], c :: rest)

/-- An exponent, if there is one, and what follows it. The letter needs a digit after it. -/
def exponentOf? : List Char → Option (List Char × List Char)
  | [] => some ([], [])
  | c :: rest =>
    if c = 'e' ∨ c = 'E' then
      let (sign, rest) := signOf rest
      let digits := rest.takeWhile Char.isDigit
      if digits.isEmpty then none
      else some (c :: sign ++ digits, rest.dropWhile Char.isDigit)
    else some ([], c :: rest)

/-- Digits that can stand before the point: a zero, or digits that do not begin with one. -/
def IsWhole (digits : List Char) : Prop :=
  digits ≠ [] ∧ (digits.head? = some '0' → digits = ['0'])

instance (digits : List Char) : Decidable (IsWhole digits) := instDecidableAnd

/-- The numeral at the start of a text, and what follows it. -/
def numeral? (s : List Char) : Option (List Char × List Char) :=
  let whole := s.takeWhile Char.isDigit
  if IsWhole whole then do
    let (fraction, s) := fractionOf (s.dropWhile Char.isDigit)
    let (exponent, s) ← exponentOf? s
    if s.head?.any Text.isNameChar then none else return (whole ++ fraction ++ exponent, s)
  else none

/-- Reads a numeral, which a minus sign can stand before. -/
def Reader.number : Reader (List Char) := fun s =>
  match skip s with
  | [] => none
  | c :: rest =>
    if c = '-' then (numeral? rest).map fun (text, rest) => ('-' :: text, rest)
    else numeral? (c :: rest)

/-! ### Reading a numeral that is written part by part -/

/-- A run of decimal digits. -/
def AllDigits (digits : List Char) : Prop := ∀ c ∈ digits, c.isDigit

/-- What can stand between the whole digits and the exponent. -/
inductive IsFraction : List Char → Prop
  | absent : IsFraction []
  | digits {ds : List Char} (h : AllDigits ds) : IsFraction ('.' :: ds)

/-- What can stand at the end of a numeral. -/
inductive IsExponent : List Char → Prop
  | absent : IsExponent []
  | power {sign : Char} {ds : List Char} (hsign : sign = '+' ∨ sign = '-') (hne : ds ≠ [])
      (h : AllDigits ds) : IsExponent ('e' :: sign :: ds)

/-- A text that goes on neither a numeral nor a word. -/
def EndsNumeral (rest : List Char) : Prop :=
  ∀ c ∈ rest.head?, ¬Text.isNameChar c ∧ c ≠ '.'

theorem not_isDigit_of_not_isNameChar {c : Char} (h : ¬Text.isNameChar c) : ¬c.isDigit := by
  intro hdigit
  apply h
  simp only [Text.isNameChar, Char.isAlphanum, hdigit, Bool.or_true, Bool.true_or]

theorem fractionOf_append {fraction rest : List Char} (h : IsFraction fraction)
    (hrest : ∀ c ∈ rest.head?, ¬c.isDigit ∧ c ≠ '.') :
    fractionOf (fraction ++ rest) = (fraction, rest) := by
  cases h with
  | absent =>
      cases rest with
      | nil => rfl
      | cons c rest => rw [List.nil_append, fractionOf, if_neg (hrest c rfl).2]
  | digits h =>
      obtain ⟨htake, hdrop⟩ := Text.span_append h fun c hc => (hrest c hc).1
      rw [List.cons_append, fractionOf, if_pos rfl, htake, hdrop]

theorem exponentOf?_append {exponent rest : List Char} (h : IsExponent exponent)
    (hrest : EndsNumeral rest) : exponentOf? (exponent ++ rest) = some (exponent, rest) := by
  cases h with
  | absent =>
      cases rest with
      | nil => rfl
      | cons c rest =>
          have hc := (hrest c rfl).1
          rw [List.nil_append, exponentOf?, if_neg]
          rintro (rfl | rfl) <;> exact hc (by decide)
  | @power sign ds hsign hne h =>
      obtain ⟨htake, hdrop⟩ := Text.span_append h fun c hc =>
        not_isDigit_of_not_isNameChar (hrest c hc).1
      have hsignOf : signOf (sign :: (ds ++ rest)) = ([sign], ds ++ rest) := by
        rw [signOf, if_pos hsign]
      rw [List.cons_append, List.cons_append, exponentOf?, if_pos (Or.inl rfl), hsignOf]
      simp only [htake, hdrop]
      rw [if_neg]
      · rfl
      · simpa using hne

theorem head?_exponent_append {exponent rest : List Char} (h : IsExponent exponent)
    (hrest : EndsNumeral rest) : ∀ c ∈ (exponent ++ rest).head?, ¬c.isDigit ∧ c ≠ '.' := by
  intro c hc
  cases h with
  | absent => exact ⟨not_isDigit_of_not_isNameChar (hrest c hc).1, (hrest c hc).2⟩
  | power =>
      cases hc
      exact ⟨by decide, by decide⟩

theorem head?_fraction_append {fraction rest : List Char} (h : IsFraction fraction)
    (hrest : ∀ c ∈ rest.head?, ¬c.isDigit ∧ c ≠ '.') :
    ∀ c ∈ (fraction ++ rest).head?, ¬c.isDigit := by
  intro c hc
  cases h with
  | absent => exact (hrest c hc).1
  | digits =>
      cases hc
      decide

/-- A text that is a numeral, without a sign. -/
inductive IsNumeral : List Char → Prop
  | parts {whole fraction exponent : List Char} (hdigits : AllDigits whole) (hwhole : IsWhole whole)
      (hfraction : IsFraction fraction) (hexponent : IsExponent exponent) :
      IsNumeral (whole ++ fraction ++ exponent)

theorem numeral?_append {text rest : List Char} (h : IsNumeral text) (hrest : EndsNumeral rest) :
    numeral? (text ++ rest) = some (text, rest) := by
  obtain ⟨hdigits, hwhole, hfraction, hexponent⟩ := h
  rename_i whole fraction exponent
  have hhead := head?_exponent_append hexponent hrest
  obtain ⟨htake, hdrop⟩ := Text.span_append hdigits (head?_fraction_append hfraction hhead)
  have hend : ¬(rest.head?.any Text.isNameChar) := by
    cases rest with
    | nil => simp
    | cons c rest => exact (hrest c rfl).1
  rw [List.append_assoc, List.append_assoc, numeral?, htake, hdrop, if_pos hwhole,
    fractionOf_append hfraction hhead]
  simp only [exponentOf?_append hexponent hrest, Option.bind_eq_bind, Option.bind_some]
  rw [if_neg hend]
  rfl

theorem head?_isDigit {text : List Char} (h : IsNumeral text) :
    ∃ c tail, text = c :: tail ∧ c.isDigit := by
  obtain ⟨hdigits, hwhole, -, -⟩ := h
  rename_i whole fraction exponent
  cases whole with
  | nil => exact absurd rfl hwhole.1
  | cons c whole =>
      exact ⟨c, _, rfl, hdigits c (List.mem_cons_self ..)⟩

/-! ### The digits of a natural number -/

theorem allDigits_decimalDigits (n : Nat) : AllDigits (Number.decimalDigits n) := fun _ hc =>
  Nat.isDigit_of_mem_toDigits (by decide) (by decide) hc

theorem isWhole_decimalDigits (n : Nat) : IsWhole (Number.decimalDigits n) := by
  refine ⟨Nat.toDigits_ne_nil, fun hzero => ?_⟩
  by_cases hn : n = 0
  · subst hn
    rfl
  · exact absurd hzero (Number.head?_decimalDigits hn)

theorem isNumeral_decimalDigits (n : Nat) : IsNumeral (Number.decimalDigits n) := by
  have h := IsNumeral.parts (allDigits_decimalDigits n) (isWhole_decimalDigits n) .absent .absent
  rwa [List.append_nil, List.append_nil] at h

/-! ### The digits of a double -/

section Shortest

variable {x : Binary64}

theorem lowerEnd_pos (h : x.significand ≠ 0) : 0 < x.lowerEnd := by
  unfold Binary64.lowerEnd
  split_ifs <;> omega

theorem quarterPlace_pos (power : Int) : 0 < (x.quarterPlace power).1 :=
  Nat.mul_pos (Nat.two_pow_pos _) (Nat.pow_pos (by decide))

theorem reads_zero (h : x.significand ≠ 0) (power : Int) : x.reads power 0 = false := by
  have hpos := Nat.mul_pos (lowerEnd_pos h) (quarterPlace_pos (x := x) power)
  unfold Binary64.reads
  dsimp only
  split_ifs
  · rw [Bool.and_eq_false_iff]
    left
    rw [decide_eq_false_iff_not, Nat.zero_mul]
    exact Nat.not_le.2 hpos
  · rw [Bool.and_eq_false_iff]
    left
    rw [decide_eq_false_iff_not, Nat.zero_mul]
    exact Nat.not_lt_zero _

/-- Zero does not read back as a double other than zero. -/
theorem onGrid?_ne_zero (h : x.significand ≠ 0) (power : Int) : x.onGrid? power ≠ some 0 := by
  have hbelow : ∀ d, x.reads power d = true → d ≠ 0 := by
    rintro d hd rfl
    rw [reads_zero h power] at hd
    cases hd
  unfold Binary64.onGrid?
  dsimp only
  split
  · rename_i hd _
    exact fun heq => hbelow _ hd (Option.some.inj heq)
  · simp
  · simp
  · rename_i hd _
    have := hbelow _ hd
    split
    · exact fun heq => this (Option.some.inj heq)
    · exact fun heq => this (Nat.add_eq_zero_iff.1 (Option.some.inj heq)).1
    · simp

/-- The decimal of a double has digits, unless no decimal of seventeen digits was found. -/
theorem shortest_digits (h : x.significand ≠ 0) :
    x.shortest.digits ≠ 0 ∨ x.shortest = ⟨0, 0⟩ := by
  unfold Binary64.shortest
  dsimp only
  cases hfound : (List.range 17).findSome? fun (n : Nat) =>
      (x.onGrid? (x.decimalExponent - n)).map (⟨·, x.decimalExponent - n⟩ : Nat → Binary64.Decimal)
    with
  | none => exact Or.inr rfl
  | some found =>
      left
      obtain ⟨n, -, hn⟩ := List.exists_of_findSome?_eq_some hfound
      obtain ⟨d, hd, rfl⟩ := Option.map_eq_some_iff.1 hn
      intro hzero
      have hzero : d = 0 := hzero
      rw [hzero] at hd
      exact onGrid?_ne_zero h _ hd

end Shortest

/-! ### The layout of a double -/

/-- The digits without the zeros at their end. -/
def trimZeros (digits : List Char) : List Char := (digits.reverse.dropWhile (· == '0')).reverse

theorem prefix_trimZeros (digits : List Char) : trimZeros digits <+: digits := by
  rw [← List.reverse_suffix, trimZeros, List.reverse_reverse]
  exact List.dropWhile_suffix _

/-- Digits that do not begin with a zero keep their first digit. -/
theorem trimZeros_eq_cons {d : Char} (digits : List Char) (hd : d ≠ '0') :
    ∃ rest, trimZeros (d :: digits) = d :: rest := by
  obtain ⟨tail, htail⟩ := prefix_trimZeros (d :: digits)
  cases htrim : trimZeros (d :: digits) with
  | cons c rest =>
      rw [htrim, List.cons_append, List.cons.injEq] at htail
      exact ⟨rest, by rw [htail.1]⟩
  | nil =>
      rw [trimZeros, List.reverse_eq_nil_iff, List.dropWhile_eq_nil_iff] at htrim
      have hzero := htrim d (by simp)
      exact absurd (beq_iff_eq.1 hzero) hd

/-- Digits are laid out as a numeral, whatever the power of ten of the first one. -/
theorem isNumeral_layout {d : Char} {digits : List Char} (hd : d ≠ '0')
    (hdigits : AllDigits (d :: digits)) (leading : Int) :
    IsNumeral (Number.layout (d :: digits) leading) := by
  have htail : AllDigits digits := fun c hc => hdigits c (List.mem_cons_of_mem _ hc)
  have hzeros : ∀ n, AllDigits (List.replicate n '0') := by
    intro n c hc
    rw [List.eq_of_mem_replicate hc]
    decide
  have hwhole : ∀ rest, IsWhole (d :: rest) := fun rest =>
    ⟨List.cons_ne_nil _ _, fun h => absurd (Option.some.inj h) hd⟩
  rw [Number.layout]
  split
  · have hsign : (if leading < 0 then '-' else '+') = '+' ∨
        (if leading < 0 then '-' else '+') = '-' := by
      split
      · exact Or.inr rfl
      · exact Or.inl rfl
    have hfraction :
        IsFraction ((if (d :: digits).length ≤ 1 then [] else ['.']) ++ digits) := by
      split
      · rename_i hlength
        have hnil : digits = [] := by
          rw [List.length_cons] at hlength
          exact List.length_eq_zero_iff.1 (by omega)
        rw [hnil]
        exact .absent
      · exact .digits htail
    have hfirst : AllDigits [d] := fun c hc => hdigits c (by simp_all)
    have h := IsNumeral.parts hfirst (hwhole []) hfraction
      (.power hsign Nat.toDigits_ne_nil (allDigits_decimalDigits leading.natAbs))
    rwa [← List.append_assoc [d]] at h
  · split
    · have hfraction : AllDigits (List.replicate (leading.natAbs - 1) '0' ++ d :: digits) := by
        intro c hc
        rcases List.mem_append.1 hc with hc | hc
        · exact hzeros _ c hc
        · exact hdigits c hc
      have hzero : AllDigits ['0'] := hzeros 1
      have h := IsNumeral.parts hzero (by decide) (.digits hfraction) .absent
      rwa [List.append_nil] at h
    · have hall : AllDigits ((d :: digits).take (leading.toNat + 1) ++
          List.replicate (leading.toNat + 1 - (d :: digits).length) '0') := by
        intro c hc
        rcases List.mem_append.1 hc with hc | hc
        · exact hdigits c (List.mem_of_mem_take hc)
        · exact hzeros _ c hc
      have hfraction : IsFraction ('.' ::
          if ((d :: digits).drop (leading.toNat + 1)).isEmpty then ['0']
          else (d :: digits).drop (leading.toNat + 1)) := by
        refine .digits ?_
        split
        · exact hzeros 1
        · exact fun c hc => hdigits c (List.mem_of_mem_drop hc)
      have h := IsNumeral.parts hall (hwhole _) hfraction .absent
      rwa [List.append_nil] at h

theorem isNumeral_zero : IsNumeral ['0', '.', '0'] := by
  have hzero : AllDigits ['0'] := by simp [AllDigits]
  exact .parts hzero (by decide) (.digits hzero) .absent

/-- A double is written as a numeral, after its sign. -/
theorem doubleText_eq (x : Binary64) :
    ∃ text, IsNumeral text ∧ Number.doubleText x = (if x.negative then ['-'] else []) ++ text := by
  unfold Number.doubleText
  dsimp only
  split
  · exact ⟨_, isNumeral_zero, rfl⟩
  · rename_i hzero
    refine ⟨_, ?_, rfl⟩
    have hne : x.significand ≠ 0 := by simpa [Binary64.isZero] using hzero
    rcases shortest_digits hne with hdigits | hnone
    · cases hlist : Number.decimalDigits x.shortest.digits with
      | nil => exact absurd hlist Nat.toDigits_ne_nil
      | cons d digits =>
          have hd : d ≠ '0' := by
            have := Number.head?_decimalDigits hdigits
            rw [hlist] at this
            exact fun h => this (congrArg some h)
          obtain ⟨rest, hrest⟩ := trimZeros_eq_cons digits hd
          have hall : AllDigits (d :: rest) := by
            intro c hc
            rw [← hrest] at hc
            have hmem := (prefix_trimZeros (d :: digits)).subset hc
            rw [← hlist] at hmem
            exact allDigits_decimalDigits _ c hmem
          have hlayout := isNumeral_layout hd hall
            (x.shortest.exponent + ((d :: digits).length - 1 : Nat))
          rw [← hrest] at hlayout
          exact hlayout
    · rw [hnone]
      exact isNumeral_zero

/-- Every number is written as a numeral that a minus sign can stand before. -/
theorem numberText_eq (n : Number) :
    ∃ sign text, (sign = [] ∨ sign = ['-']) ∧ IsNumeral text ∧ n.text = sign ++ text := by
  cases n with
  | int value =>
      cases value with
      | ofNat m => exact ⟨[], _, Or.inl rfl, isNumeral_decimalDigits m, rfl⟩
      | negSucc m => exact ⟨['-'], _, Or.inr rfl, isNumeral_decimalDigits (m + 1), rfl⟩
  | double x =>
      obtain ⟨text, htext, h⟩ := doubleText_eq x
      refine ⟨_, text, ?_, htext, h⟩
      split
      · exact Or.inr rfl
      · exact Or.inl rfl

namespace Reader

/-- A number is read back by its text. -/
theorem number_of_skip {n : Number} {s rest : List Char} (hrest : EndsNumeral rest)
    (h : skip s = n.text ++ rest) : number s = some (n.text, rest) := by
  obtain ⟨sign, text, hsign, htext, heq⟩ := numberText_eq n
  rw [heq] at h ⊢
  have hread := numeral?_append htext hrest
  rcases hsign with rfl | rfl
  · obtain ⟨c, tail, rfl, hc⟩ := head?_isDigit htext
    rw [List.nil_append, List.cons_append] at h
    rw [number, h]
    dsimp only
    rw [if_neg]
    · exact hread
    · rintro rfl
      cases hc
  · rw [number, h]
    simp only [List.cons_append, List.nil_append, if_true]
    rw [hread]
    rfl

end Reader

end Phrasebook.Script
