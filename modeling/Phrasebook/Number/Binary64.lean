/-!
Finite double-precision numbers as a sign, a significand and a power of two, with arithmetic that is
carried out exactly and rounded once. A result rounds to the nearest double, a tie to the even
significand; one beyond the largest double has no value.
-/

namespace Phrasebook

-- Powers are those of core, also where other powers of natural numbers are in scope.
attribute [local instance (high)] instPowNat

/-- The significands and exponents of the finite doubles: a significand of 53 bits, which is full
unless the exponent is the least one. -/
structure InFormat (significand : Nat) (exponent : Int) : Prop where
  significand_lt : significand < 2 ^ (53 : Nat)
  normal : 2 ^ (52 : Nat) ≤ significand ∨ exponent = -1074
  least : -1074 ≤ exponent
  greatest : exponent ≤ 971

instance (significand : Nat) (exponent : Int) : Decidable (InFormat significand exponent) :=
  decidable_of_decidable_of_iff
    (p := significand < 2 ^ (53 : Nat) ∧ (2 ^ (52 : Nat) ≤ significand ∨ exponent = -1074) ∧
      -1074 ≤ exponent ∧ exponent ≤ 971)
    ⟨fun ⟨hlt, hnormal, hleast, hgreatest⟩ => ⟨hlt, hnormal, hleast, hgreatest⟩,
      fun h => ⟨h.significand_lt, h.normal, h.least, h.greatest⟩⟩

/-- The double with the magnitude `significand * 2 ^ exponent`. -/
structure Binary64 where
  negative : Bool
  significand : Nat
  exponent : Int
  inFormat : InFormat significand exponent
  deriving DecidableEq, Repr

namespace Binary64

def zero (negative : Bool) : Binary64 := ⟨negative, 0, -1074, by decide⟩

/-- The double with the given parts, if the format has one. -/
def ofParts? (negative : Bool) (significand : Nat) (exponent : Int) : Option Binary64 :=
  if h : InFormat significand exponent then some ⟨negative, significand, exponent, h⟩ else none

def isZero (x : Binary64) : Bool := x.significand == 0

/-- The quotient rounded to the nearest integer, a half to the even one. -/
def roundDiv (num den : Nat) : Nat :=
  let quotient := num / den
  match compare (2 * (num % den)) den with
  | .lt => quotient
  | .eq => quotient + quotient % 2
  | .gt => quotient + 1

/-- A quotient over a power of two, as numerator and denominator. -/
def scaled (num den : Nat) (exponent : Int) : Nat × Nat :=
  (num * 2 ^ (-exponent).toNat, den * 2 ^ exponent.toNat)

/-- The exponent at which the quotient has 53 significant bits, or the least exponent. -/
def exponentOf (num den : Nat) : Int :=
  let guess := max (-1074) ((num.log2 : Int) - den.log2 - 53)
  let (a, b) := scaled num den guess
  if a / b < 2 ^ (53 : Nat) then guess else guess + 1

/-- The double nearest to a quotient, unless it is too large for one. -/
def ofRatio? (negative : Bool) (num den : Nat) : Option Binary64 :=
  if num = 0 then some (zero negative)
  else
    let exponent := exponentOf num den
    let (a, b) := scaled num den exponent
    let rounded := roundDiv a b
    let (significand, exponent) :=
      if rounded = 2 ^ (53 : Nat) then (2 ^ (52 : Nat), exponent + 1) else (rounded, exponent)
    ofParts? negative significand exponent

/-- The magnitude as numerator and denominator. -/
def ratio (x : Binary64) : Nat × Nat :=
  (x.significand * 2 ^ x.exponent.toNat, 2 ^ (-x.exponent).toNat)

/-- The double nearest to a natural number below `2 ^ 1023`. -/
def ofNat (negative : Bool) (n : Nat) : Binary64 :=
  (ofRatio? negative n 1).getD (zero negative)

/-- The double nearest to the given power of ten, for powers up to `10 ^ 308`. -/
def tenPow (n : Nat) : Binary64 := ofNat false (10 ^ n)

/-- The product with a positive double, if it is in range. -/
def mul? (x y : Binary64) : Option Binary64 :=
  ofRatio? x.negative (x.ratio.1 * y.ratio.1) (x.ratio.2 * y.ratio.2)

/-- The quotient by a double of at least one, which is always in range. -/
def div (x y : Binary64) : Binary64 :=
  (ofRatio? x.negative (x.ratio.1 * y.ratio.2) (x.ratio.2 * y.ratio.1)).getD x

/-- Divides by `10 ^ 308` the given number of times, or until nothing is left. -/
def shrink : Nat → Binary64 → Binary64
  | 0, x => x
  | n + 1, x => if x.isZero then x else shrink n (x.div (tenPow 308))

/-- The product with a power of ten, taken in steps of at most `10 ^ 308`, each of them rounded. -/
def scaleTen? (x : Binary64) (power : Int) : Option Binary64 :=
  if x.isZero then some x
  else if 308 < power then none
  else if 0 ≤ power then x.mul? (tenPow power.toNat)
  else
    let steps := ((-power).toNat - 1) / 308
    some ((shrink steps x).div (tenPow ((-power).toNat - 308 * steps)))

end Binary64

end Phrasebook
