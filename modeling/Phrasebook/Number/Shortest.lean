import Phrasebook.Number.Binary64

/-!
The shortest decimal that reads back as a given double. All reals of an interval round to the
double, both ends included when its significand is even; the decimal is the one with the fewest
digits in that interval, of several the nearest to the double, and of two equally near ones the
even one.
-/

namespace Phrasebook.Binary64

-- Powers are those of core, also where other powers of natural numbers are in scope.
attribute [local instance (high)] instPowNat

/-- The number `digits * 10 ^ exponent`. -/
structure Decimal where
  digits : Nat
  exponent : Int
  deriving DecidableEq, Repr

/-- Lower end of the interval, in quarters of the last significand place. -/
def lowerEnd (x : Binary64) : Nat :=
  if x.significand = 2 ^ (52 : Nat) ∧ x.exponent ≠ -1074 then 4 * x.significand - 1
  else 4 * x.significand - 2

/-- Upper end of the interval, in quarters of the last significand place. -/
def upperEnd (x : Binary64) : Nat := 4 * x.significand + 2

/-- A quarter of the last significand place over `10 ^ power`, as numerator and denominator. -/
def quarterPlace (x : Binary64) (power : Int) : Nat × Nat :=
  (2 ^ (x.exponent - 2).toNat * 10 ^ (-power).toNat, 2 ^ (2 - x.exponent).toNat * 10 ^ power.toNat)

/-- Whether `d * 10 ^ power` rounds to the double. -/
def reads (x : Binary64) (power : Int) (d : Nat) : Bool :=
  let (num, den) := x.quarterPlace power
  if x.significand % 2 = 0 then x.lowerEnd * num ≤ d * den && d * den ≤ x.upperEnd * num
  else x.lowerEnd * num < d * den && d * den < x.upperEnd * num

/-- The multiple of `10 ^ power` to print for the double, if one of its two neighbours among them
rounds to it. -/
def onGrid? (x : Binary64) (power : Int) : Option Nat :=
  let (num, den) := x.quarterPlace power
  let value := 4 * x.significand * num
  let below := value / den
  match x.reads power below, x.reads power (below + 1) with
  | true, false => some below
  | false, true => some (below + 1)
  | false, false => none
  | true, true =>
    match compare (2 * (value % den)) den with
    | .lt => some below
    | .eq => some (below + below % 2)
    | .gt => some (below + 1)

/-- The power of ten of the leading decimal digit. -/
def decimalExponent (x : Binary64) : Int :=
  let atLeast (power : Int) : Bool :=
    let (num, den) := x.quarterPlace power
    den ≤ 4 * x.significand * num
  let guess := ((x.significand.log2 : Int) + x.exponent) * 30103 / 100000
  if atLeast (guess + 1) then guess + 1 else if atLeast guess then guess else guess - 1

/-- The shortest decimal of a double that is not zero; 17 digits always suffice. -/
def shortest (x : Binary64) : Decimal :=
  let leading := x.decimalExponent
  ((List.range 17).findSome? fun (n : Nat) =>
    (x.onGrid? (leading - n)).map (⟨·, leading - n⟩)).getD ⟨0, 0⟩

end Phrasebook.Binary64
