import LicenseHeaders.Number.Decimal

/-!
# Numbers as they are written in JSON

A number is written with digits before and after the point and an exponent.
A number that somebody asks for has to be representable in double precision,
and how large it is gets judged with limited precision: the leading digits that
together fit into 64 bits are the significand, the digits after them only shift
its power of ten, and the significand and the power are rounded before they are
multiplied.  So close to the largest double the judgement may differ from that
on the exact number.

* `Numeral.scaled` — the significand and the power of ten;
* `Numeral.isRepresentable` — whether their rounded product is a double.
-/

namespace LicenseHeaders.Json

/-- The parts of a number: digits before and after the point, and the
exponent. -/
structure Numeral where
  whole : Text
  fraction : Text
  exponent : Int
  deriving DecidableEq, Repr

namespace Numeral

/-- Significands stay below this. -/
def significandBound : Nat := Nat.pow 2 64

/-- A significand with digits appended while it stays below the bound, and the
number of digits appended. -/
def appendDigits : (significand : Nat) → Text → Nat × Nat
  | n, [] => (n, 0)
  | n, d :: rest =>
    let longer := 10 * n + (d.toNat - '0'.toNat)
    if longer < significandBound then
      let (m, count) := appendDigits longer rest
      (m, count + 1)
    else (n, 0)

/-- The number as a significand and a power of ten.  A digit before the point
that is left out raises the power, a digit after the point that is appended
lowers it, and one that is left out there means nothing. -/
def scaled (n : Numeral) : Decimal :=
  let (whole, wholeCount) := appendDigits 0 n.whole
  let (significand, places) := appendDigits whole n.fraction
  ⟨significand, (n.whole.length : Int) - wholeCount - places + n.exponent⟩

/-- The greatest power of ten that is a double. -/
def greatestPower : Int := 308

/-- Whether the product of the rounded significand and the rounded power of ten
is rounded to a double. -/
def isRepresentable (n : Numeral) : Bool :=
  let d := n.scaled
  if d.digits = 0 ∨ d.power < 0 then true
  else if d.power > greatestPower then false
  else
    let (a, b) := (Double.nearest d.digits 1).fraction
    let (p, q) := (Double.nearest (Decimal.tenTo d.power) 1).fraction
    a * p < Decimal.bound * (b * q)

end Numeral

end LicenseHeaders.Json
