import Phrasebook.Number.Binary64
import Phrasebook.Toml.Strings

/-!
Numbers, dates and times in TOML. Only their form is checked, and that a number is in range: nothing
that is configured has such a value.
-/

namespace Phrasebook.Toml.Reader

-- Powers are those of core, also where other powers of natural numbers are in scope.
attribute [local instance (high)] instPowNat

/-! ### Dates and times -/

/-- A number of exactly so many digits, if one comes next and is within the bounds. -/
def acceptNumber (digits low high : Nat) : Reader (Option Nat) := do
  let found := ((← unread).take digits).takeWhile Char.isDigit
  let value := found.foldl (fun n c => n * 10 + (c.toNat - '0'.toNat)) 0
  if found.length = digits ∧ low ≤ value ∧ value ≤ high then
    skip digits
    return some value
  else return none

/-- A number of exactly so many digits, which must come next and be within the bounds. -/
def expectNumber (digits low high : Nat) : Reader Nat := do
  match ← acceptNumber digits low high with
  | some value => return value
  | none => fail

def daysIn (year month : Nat) : Nat :=
  if month = 2 then
    if year % 4 = 0 ∧ (year % 100 ≠ 0 ∨ year % 400 = 0) then 29 else 28
  else if month = 4 ∨ month = 6 ∨ month = 9 ∨ month = 11 then 30
  else 31

/-- A time of day, if an hour and a colon come next. -/
def acceptTime : Reader Bool := do
  let start ← unread
  if (← acceptNumber 2 0 23).isSome && (← accept ":") then
    let _ ← expectNumber 2 0 59
    expect ":"
    let _ ← expectNumber 2 0 60
    match ← unread with
    | '.' :: c :: _ =>
      if c.isDigit then
        skip 1
        let _ ← takeWhile Char.isDigit
    | _ => pure ()
    return true
  else
    set start
    return false

/-- The distance of a time from universal time, if one comes next. -/
def acceptZone : Reader Unit := do
  match ← peek with
  | some c =>
    if c = 'Z' ∨ c = 'z' then skip 1
    else if c = '+' ∨ c = '-' then
      skip 1
      let _ ← expectNumber 2 0 23
      expect ":"
      let _ ← expectNumber 2 0 59
  | none => return

/-- A date with or without a time, or a time alone, if one comes next. -/
def acceptDateTime : Reader Bool := do
  let start ← unread
  match ← acceptNumber 4 0 9999 with
  | some year =>
    if ← accept "-" then
      let month ← expectNumber 2 1 12
      expect "-"
      let _ ← expectNumber 2 1 (daysIn year month)
      let beforeTime ← unread
      match ← peek with
      | some c =>
        if c = 'T' ∨ c = 't' ∨ c = ' ' then
          skip 1
          if ← acceptTime then acceptZone else set beforeTime
      | none => pure ()
      return true
    else
      set start
      return false
  | none => acceptTime

/-! ### Numbers -/

/-- Further digits, each of which may have a low line in front. -/
def moreDigits (p : Char → Bool) : Nat → List Char → Reader (List Char)
  | 0, read => return read.reverse
  | size + 1, read => do
    match ← peek with
    | some c =>
      if p c then
        skip 1
        moreDigits p size (c :: read)
      else if c = '_' then
        skip 1
        match ← peek with
        | some d =>
          if p d then
            skip 1
            moreDigits p size (d :: read)
          else fail
        | none => fail
      else return read.reverse
    | none => return read.reverse

/-- Digits with low lines between them. -/
def digitGroups (p : Char → Bool) (size : Nat) : Reader (List Char) := do
  match ← peek with
  | some c =>
    if p c then
      skip 1
      moreDigits p size [c]
    else fail
  | none => fail

/-- A sign, if one comes next; the result tells whether it is a minus. -/
def acceptSign : Reader Bool := do
  if ← accept "-" then return true
  let _ ← accept "+"
  return false

/-- Whole decimal digits without a needless zero. -/
def wholeDigits (size : Nat) : Reader (List Char) := do
  if ← accept "0" then return ['0'] else digitGroups Char.isDigit size

def ofDigits (base : Nat) (digits : List Char) : Nat :=
  digits.foldl (fun n c => n * base + (Text.hexValue? c).getD 0) 0

/-- The digits after a point, if one comes next. -/
def acceptFraction (size : Nat) : Reader (Option (List Char)) := do
  if ← accept "." then return some (← digitGroups Char.isDigit size) else return none

/-- The exponent of a number, if one comes next. -/
def acceptExponent (size : Nat) : Reader (Option Int) := do
  if (← peek).any fun c => c == 'e' || c == 'E' then
    skip 1
    let negative ← acceptSign
    let value := ofDigits 10 (← digitGroups Char.isDigit size)
    return some (if negative then -value else value)
  else return none

/-- Stops at the start of a number that 64 bits with a sign do not hold. -/
def checkRange (start : List Char) (negative : Bool) (n : Nat) : Reader Unit :=
  if n < 2 ^ (63 : Nat) ∨ (negative ∧ n = 2 ^ (63 : Nat)) then return else failAt start

/-- Whether the number that digits denote, times a power of ten, is too large for a double. One
that has at most 308 digits before its point is not, and one that has more than 309 is. -/
def exceedsDouble (digits : List Char) (power : Int) : Bool :=
  let significant := digits.dropWhile (· == '0')
  let places := significant.length + power
  if significant.isEmpty ∨ places ≤ 308 then false
  else if 309 < places then true
  else
    let n := ofDigits 10 significant
    (Binary64.ofRatio? false (n * 10 ^ power.toNat) (10 ^ (-power).toNat)).isNone

/-- A decimal number after its sign. An integer fits 64 bits, and no other number rounds to more
than the largest double; there is no such bound below. -/
def decimal (start : List Char) (negative : Bool) (size : Nat) : Reader Unit := do
  let whole ← wholeDigits size
  let fraction ← acceptFraction size
  let exponent ← acceptExponent size
  if fraction.isNone && exponent.isNone then checkRange start negative (ofDigits 10 whole)
  else
    let places := fraction.getD []
    if !negative && exceedsDouble (whole ++ places) (exponent.getD 0 - places.length) then
      failAt start

/-- An integer that is written in another base than ten, after its two-letter mark. -/
def basedInteger (start : List Char) (base size : Nat) : Reader Unit := do
  skip 2
  let digits ← digitGroups (fun c => (Text.hexValue? c).any (· < base)) size
  checkRange start false (ofDigits base digits)

/-- A date or time, or a number without a sign, from its first digit on. -/
def unsigned (size : Nat) : Reader Unit := do
  unless ← acceptDateTime do
    let start ← unread
    if ← sees "0x" then basedInteger start 16 size
    else if ← sees "0o" then basedInteger start 8 size
    else if ← sees "0b" then basedInteger start 2 size
    else decimal start false size

def seesDigit : Reader Bool := return (← peek).any Char.isDigit

/-- A number, or a date or time. From the first digit on it can be nothing else. -/
def number (size : Nat) : Reader Unit := do
  let start ← unread
  if ← seesDigit then commit (unsigned size)
  else
    let negative ← acceptSign
    if ← seesDigit then commit (decimal start negative size)
    else if ← sees "i" then expect "inf"
    else expect "nan"

end Phrasebook.Toml.Reader
