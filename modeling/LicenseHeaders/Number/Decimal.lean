import LicenseHeaders.Number.Double
import LicenseHeaders.Text.Basic

/-!
# Doubles in decimal digits

A double is written with the fewest digits that no other double is nearer to;
among numbers with that many digits the one nearest to the double is taken, and
of two equally near ones the even one.  The search looks at the two neighbours
of the double on the grid of numbers with one digit, with two digits and so on,
and seventeen digits always suffice.

* `shortest` — the digits and the power of ten they are multiplied with;
* `toText` — the digits written plainly, or with an exponent when the number is
  very large or very small;
* `inRange` — whether a decimal is below the largest double, or rounds to it;
* `fixed` — a given number of places, rounded to the nearest, ties to even.
-/

namespace LicenseHeaders

/-- A number `digits · 10 ^ power`. -/
structure Decimal where
  digits : Nat
  power : Int
  deriving DecidableEq, Repr

namespace Decimal

/-- The decimal digits of a number. -/
def digitsOf (n : Nat) : Text := Nat.toDigits 10 n

def tenTo (e : Int) : Nat := Nat.pow 10 e.toNat

/-- The power of ten of the first digit of a fraction above zero. -/
def leadingPower (num den : Nat) : Int :=
  if den ≤ num then (digitsOf (num / den)).length - 1
  else
    let places := (digitsOf (den / num)).length
    if den = num * Nat.pow 10 (places - 1) then -(places - 1 : Nat) else -(places : Nat)

/-- The ends of the interval of numbers that round to a double, over a common
denominator.  Below a power of two doubles lie twice as close. -/
def interval (x : Double) : Nat × Nat × Nat :=
  let (num, den) := x.fraction
  let unit := Double.twoTo x.exponent
  let below :=
    if x.significand = Nat.pow 2 (Double.precision - 1) ∧ x.exponent > Double.leastExponent then
      unit
    else 2 * unit
  (4 * num - below, 4 * num + 2 * unit, 4 * den)

/-- Whether a decimal rounds to a double, given the ends of its interval. -/
def roundsTo (closed : Bool) (ends : Nat × Nat × Nat) (d : Decimal) : Bool :=
  let (low, high, den) := ends
  let value := d.digits * tenTo d.power * den
  let low := low * tenTo (-d.power)
  let high := high * tenTo (-d.power)
  if closed then low ≤ value && value ≤ high else low < value && value < high

/-- The nearest decimal with `count` digits that rounds to a double. -/
def withDigits (x : Double) (count : Nat) : Option Decimal :=
  let (num, den) := x.fraction
  let power := leadingPower num den - count + 1
  let scaled := num * tenTo (-power)
  let unit := den * tenTo power
  let floor := scaled / unit
  let fits := roundsTo (x.significand % 2 = 0) (interval x)
  let below : Decimal := ⟨floor, power⟩
  let above : Decimal := ⟨floor + 1, power⟩
  match fits below, fits above with
  | true, true => some ⟨roundDiv scaled unit, power⟩
  | true, false => some below
  | false, true => some above
  | false, false => none

/-- The number without zeros at the end of its digits, at most `zeros` of
them. -/
def trim : (zeros : Nat) → Decimal → Decimal
  | 0, d => d
  | zeros + 1, d =>
    if d.digits ≠ 0 ∧ d.digits % 10 = 0 then trim zeros ⟨d.digits / 10, d.power + 1⟩ else d

/-- The shortest decimal that rounds to a double. -/
def shortest (x : Double) : Decimal :=
  if x.significand = 0 then ⟨0, 0⟩
  else trim 17 (((List.range 17).findSome? fun i => withDigits x (i + 1)).getD ⟨0, 0⟩)

/-- The least number that is rounded beyond the largest double. -/
def bound : Nat := Nat.pow 2 1024 - Nat.pow 2 970

/-- Whether a decimal rounds to a double.  Numbers far from the bound are told by
the place of their first digit alone. -/
def inRange (d : Decimal) : Bool :=
  let magnitude := d.power + (digitsOf d.digits).length
  if d.digits = 0 ∨ magnitude < 300 then true
  else if magnitude > 400 then false
  else d.digits * tenTo d.power < bound * tenTo (-d.power)

/-- Digits with a point after the first `whole` of them. -/
def pointed (digits : Text) (whole : Nat) : Text :=
  digits.take whole ++ '.' :: digits.drop whole

/-- The powers of the first digit that are written without an exponent. -/
def leastPlain : Int := -5
def greatestPlain : Int := 15

/-- A decimal as text.  Plain numbers have at least one place. -/
def toText (d : Decimal) : Text :=
  let digits := digitsOf d.digits
  let leading : Int := d.power + digits.length - 1
  if d.digits = 0 then "0.0".toList
  else if leading < leastPlain ∨ leading > greatestPlain then
    let significand := if digits.length = 1 then digits else pointed digits 1
    significand ++ 'e' :: (if leading < 0 then '-' else '+') :: digitsOf leading.natAbs
  else if leading < 0 then
    '0' :: '.' :: List.replicate (leading.natAbs - 1) '0' ++ digits
  else if 0 ≤ d.power then digits ++ List.replicate d.power.toNat '0' ++ ".0".toList
  else pointed digits (leading.toNat + 1)

/-- A double with a given number of places, at least one. -/
def fixed (x : Double) (places : Nat) : Text :=
  let (num, den) := x.fraction
  let digits := digitsOf (roundDiv (num * Nat.pow 10 places) den)
  let padded := List.replicate (places + 1 - digits.length) '0' ++ digits
  pointed padded (padded.length - places)

end Decimal

end LicenseHeaders
