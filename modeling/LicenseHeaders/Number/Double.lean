/-!
# Double precision, without signs and infinities

A time in seconds is computed and printed in double precision: a significand of
at most 53 bits times a power of two.  All arithmetic here is on whole numbers,
so every value is exact and every rounding is spelled out.

* `roundDiv` — a quotient to the nearest whole number, a tie to the even one;
* `Double.nearest` — a fraction to the nearest double, a tie to the even one;
* `Double.add` — the rounded sum.
-/

namespace LicenseHeaders

/-- The whole number nearest to a quotient; of two equally near ones the even
one. -/
def roundDiv (num den : Nat) : Nat :=
  let floor := num / den
  let rest := 2 * (num % den)
  if rest > den ∨ (rest = den ∧ floor % 2 = 1) then floor + 1 else floor

/-- A number `significand · 2 ^ exponent`. -/
structure Double where
  significand : Nat
  exponent : Int
  deriving DecidableEq, Repr

namespace Double

/-- The number of bits of a full significand. -/
def precision : Nat := 53

/-- The exponent of the least double above zero. -/
def leastExponent : Int := -1074

def twoTo (e : Int) : Nat := Nat.pow 2 e.toNat

/-- The double as a fraction. -/
def fraction (x : Double) : Nat × Nat :=
  (x.significand * twoTo x.exponent, twoTo (-x.exponent))

/-- The exponent that gives a fraction a significand of full length. -/
def exponentFor (num den : Nat) : Int :=
  let guess : Int := (Nat.log2 num : Int) - Nat.log2 den - precision + 1
  let quotient := (num * twoTo (-guess)) / (den * twoTo guess)
  let exact := if quotient < Nat.pow 2 (precision - 1) then guess - 1 else guess
  max exact leastExponent

/-- The double nearest to a fraction. -/
def nearest (num den : Nat) : Double :=
  if num = 0 then ⟨0, 0⟩
  else
    let e := exponentFor num den
    ⟨roundDiv (num * twoTo (-e)) (den * twoTo e), e⟩

/-- The double nearest to the sum of two. -/
def add (x y : Double) : Double :=
  let (a, b) := x.fraction
  let (c, d) := y.fraction
  nearest (a * d + c * b) (b * d)

end Double

end LicenseHeaders
