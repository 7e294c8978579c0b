import Phrasebook.Number.Shortest

/-!
Numbers of a resource and how they are written. A number is an integer or a double, and its text
shows which: a double always has a point or an exponent.
-/

namespace Phrasebook

/-- An integer stays exact; every other number is a double. -/
inductive Number where
  | int (value : Int)
  | double (value : Binary64)
  deriving DecidableEq, Repr

namespace Number

/-- The decimal digits of a natural number. -/
def decimalDigits (n : Nat) : List Char := Nat.toDigits 10 n

/-- The natural number that decimal digits spell, leading zeros allowed. -/
def ofDecimal? (digits : List Char) : Option Nat :=
  if digits.isEmpty || !digits.all Char.isDigit then none
  else some (digits.foldl (fun n c => n * 10 + (c.toNat - '0'.toNat)) 0)

def intText (n : Int) : List Char :=
  match n with
  | .ofNat m => decimalDigits m
  | .negSucc m => '-' :: decimalDigits (m + 1)

/-- Significant digits with the power of ten of the first one: plain notation for powers from -5 to
15, with a point in every case, and scientific notation with a signed exponent beyond them. -/
def layout (digits : List Char) (leading : Int) : List Char :=
  if leading < -5 ∨ 15 < leading then
    let point := if digits.length ≤ 1 then [] else ['.']
    let sign := if leading < 0 then '-' else '+'
    digits.take 1 ++ point ++ digits.drop 1 ++ 'e' :: sign :: decimalDigits leading.natAbs
  else if leading < 0 then
    '0' :: '.' :: List.replicate (leading.natAbs - 1) '0' ++ digits
  else
    let places := leading.toNat + 1
    let whole := digits.take places ++ List.replicate (places - digits.length) '0'
    let rest := digits.drop places
    whole ++ '.' :: (if rest.isEmpty then ['0'] else rest)

/-- The shortest text that reads back as the double. -/
def doubleText (x : Binary64) : List Char :=
  let sign := if x.negative then ['-'] else []
  if x.isZero then sign ++ ['0', '.', '0']
  else
    let shortest := x.shortest
    let digits := decimalDigits shortest.digits
    let leading := shortest.exponent + (digits.length - 1 : Nat)
    sign ++ layout (digits.reverse.dropWhile (· == '0')).reverse leading

def text : Number → List Char
  | .int n => intText n
  | .double x => doubleText x

end Number

end Phrasebook
