import Phrasebook.Number.Basic

/-!
The value of a decimal numeral. An integer that fits 64 bits is exact, except for minus zero, which
is a double. For every other numeral, leading digits are gathered as long as they fit 64 bits; the
gathered number is rounded to a double and then multiplied or divided by a power of ten, which is
rounded as well, so that the last place can differ from the nearest double.
-/

namespace Phrasebook

/-- A numeral, taken apart: the digits before the point, those after it, and the exponent, the last
two absent when the numeral has no point or no exponent. -/
structure Numeral where
  negative : Bool
  whole : List Nat
  fraction : Option (List Nat)
  exponent : Option Int

namespace Numeral

-- Powers are those of core, also where other powers of natural numbers are in scope.
attribute [local instance (high)] instPowNat

/-- Appends decimal digits to a number as long as it stays below `2 ^ 64`; the second component
counts the digits from the first one that does not fit. -/
def gather (n : Nat) : List Nat → Nat × Nat
  | [] => (n, 0)
  | d :: rest => if n * 10 + d < 2 ^ 64 then gather (n * 10 + d) rest else (n, rest.length + 1)

/-- The gathered digits before the point and the number of those left out. -/
def gatherWhole (x : Numeral) : Nat × Nat := gather 0 x.whole

/-- The gathered digits and the power of ten that they are to be multiplied with. Digits left out
before the point count for the power, those after the point are dropped. -/
def coefficient (x : Numeral) : Nat × Int :=
  let (whole, skipped) := x.gatherWhole
  let fraction := x.fraction.getD []
  let (all, dropped) := gather whole fraction
  (all, (skipped : Int) - (fraction.length - dropped : Nat) + x.exponent.getD 0)

/-- The exact value of a numeral without point and exponent, if 64 bits hold it. -/
def integer? (x : Numeral) : Option Number :=
  let (n, skipped) := x.gatherWhole
  if x.fraction.isSome || x.exponent.isSome || skipped ≠ 0 then none
  else if x.negative then
    if 0 < n ∧ n ≤ 2 ^ (63 : Nat) then some (.int (-n)) else none
  else some (.int n)

/-- The value of the numeral, unless it is too large for a double. -/
def value? (x : Numeral) : Option Number :=
  match x.integer? with
  | some n => some n
  | none =>
    let (digits, power) := x.coefficient
    ((Binary64.ofNat x.negative digits).scaleTen? power).map .double

end Numeral

end Phrasebook
