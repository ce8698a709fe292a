import LicenseHeaders.Number.Decimal
import LicenseHeaders.Text.Digit
import LicenseHeaders.Toml.Value

/-!
# Numbers, truth values and points in time

The form of the values that are written without quotes.  Digits may be grouped
by single underscores between them; a decimal number has no leading zero; a
float has a fraction, an exponent or both; a point in time is a date, a time, or
both with or without an offset, and seconds may be left out.  Integers that fit
neither 128 bits with a sign nor 128 bits without one are too large, and so are
floats that are rounded beyond the largest double.

* `scalar?` — what a word without quotes is, if anything.
-/

namespace LicenseHeaders.Toml

def isDecimal (c : Char) : Bool := c.isDigit

def isHexadecimal (c : Char) : Bool :=
  c.isDigit || ('a' ≤ c && c ≤ 'f') || ('A' ≤ c && c ≤ 'F')

def isOctal (c : Char) : Bool := '0' ≤ c && c ≤ '7'

def isBinary (c : Char) : Bool := c = '0' || c = '1'

/-- One or more digits, grouped by single underscores. -/
def isDigits (isDigit : Char → Bool) (t : Text) : Bool :=
  (Text.splitOn '_' t).all fun group => !group.isEmpty && group.all isDigit

/-- Digits of a decimal number, without a leading zero. -/
def isWhole (t : Text) : Bool :=
  isDigits isDecimal t && (t = ['0'] || t.head? ≠ some '0')

def withoutSign : Text → Text
  | '+' :: rest => rest
  | '-' :: rest => rest
  | t => t

/-- The integers that are not too large. -/
def leastInteger : Int := -(Nat.pow 2 127 : Nat)
def greatestInteger : Int := (Nat.pow 2 128 : Nat) - 1

/-- The integer that a word spells. -/
def integer? (t : Text) : Option Int :=
  match t with
  | '0' :: 'x' :: digits =>
    if isDigits isHexadecimal digits then some (Text.valueIn 16 digits) else none
  | '0' :: 'o' :: digits => if isDigits isOctal digits then some (Text.valueIn 8 digits) else none
  | '0' :: 'b' :: digits => if isDigits isBinary digits then some (Text.valueIn 2 digits) else none
  | '-' :: digits => if isWhole digits then some (-(Text.valueIn 10 digits : Int)) else none
  | '+' :: digits => if isWhole digits then some (Text.valueIn 10 digits) else none
  | digits => if isWhole digits then some (Text.valueIn 10 digits) else none

/-- Splits a text at the first character that satisfies a test. -/
def cutAt (test : Char → Bool) (t : Text) : Text × Option Text :=
  match t.dropWhile fun c => !test c with
  | [] => (t, none)
  | _ :: rest => (t.takeWhile fun c => !test c, some rest)

/-- The size of the finite float that a word without a sign spells. -/
def finiteFloat? (t : Text) : Option Decimal :=
  let (significand, exponent) := cutAt (fun c => c = 'e' || c = 'E') t
  let (whole, fraction) := cutAt (· = '.') significand
  let power : Int := match exponent with
    | some ('-' :: digits) => -(Text.valueIn 10 digits : Int)
    | some digits => Text.valueIn 10 digits
    | none => 0
  let places := (fraction.getD []).countP isDecimal
  if (exponent.isSome || fraction.isSome)
      && isWhole whole
      && fraction.all (isDigits isDecimal)
      && exponent.all (fun e => isDigits isDecimal (withoutSign e)) then
    some ⟨Text.valueIn 10 (whole ++ fraction.getD []), power - places⟩
  else none

/-- What a number is. -/
def number? (t : Text) : Option Scalar :=
  match integer? t with
  | some n => some (if leastInteger ≤ n ∧ n ≤ greatestInteger then .integer else .excessive)
  | none =>
    let body := withoutSign t
    if body = "inf".toList ∨ body = "nan".toList then some .float
    else (finiteFloat? body).map fun d => if d.inRange then .float else .excessive

/-- A number of exactly `width` digits at the beginning of a text. -/
def takeNumber (width : Nat) (t : Text) : Option (Nat × Text) :=
  let digits := t.take width
  if digits.length = width ∧ digits.all isDecimal then some (Text.valueIn 10 digits, t.drop width)
  else none

def takeChar (c : Char) : Text → Option Text
  | d :: rest => if c = d then some rest else none
  | [] => none

def isLeapYear (year : Nat) : Bool :=
  year % 4 = 0 && (year % 100 ≠ 0 || year % 400 = 0)

def daysIn (year month : Nat) : Nat :=
  if month = 2 then (if isLeapYear year then 29 else 28)
  else if month ∈ [4, 6, 9, 11] then 30
  else 31

/-- A date at the beginning of a text; what follows it. -/
def takeDate (t : Text) : Option Text := do
  let (year, t) ← takeNumber 4 t
  let t ← takeChar '-' t
  let (month, t) ← takeNumber 2 t
  let t ← takeChar '-' t
  let (day, t) ← takeNumber 2 t
  if 1 ≤ month ∧ month ≤ 12 ∧ 1 ≤ day ∧ day ≤ daysIn year month then some t else none

/-- The fraction of a second, which may be missing. -/
def takeFraction (t : Text) : Option Text :=
  match t with
  | '.' :: rest =>
    if (rest.takeWhile isDecimal).isEmpty then none else some (rest.dropWhile isDecimal)
  | _ => some t

/-- A time of day at the beginning of a text; what follows it. -/
def takeTime (t : Text) : Option Text := do
  let (hour, t) ← takeNumber 2 t
  let t ← takeChar ':' t
  let (minute, t) ← takeNumber 2 t
  if hour > 23 ∨ minute > 59 then none
  else
    match t with
    | ':' :: rest => do
      let (second, t) ← takeNumber 2 rest
      if second > 60 then none else takeFraction t
    | _ => some t

/-- An offset from universal time. -/
def isOffset (t : Text) : Bool :=
  match t with
  | ['Z'] => true
  | ['z'] => true
  | sign :: rest =>
    (sign = '+' || sign = '-') &&
      match (do
        let (hour, t) ← takeNumber 2 rest
        let t ← takeChar ':' t
        let (minute, t) ← takeNumber 2 t
        some (hour, minute, t)) with
      | some (hour, minute, t) => hour ≤ 23 && minute ≤ 59 && t.isEmpty
      | none => false
  | [] => false

def isDate (t : Text) : Bool := takeDate t = some []

def isDateTime (t : Text) : Bool :=
  takeTime t = some [] ||
    match takeDate t with
    | some [] => true
    | some (c :: rest) =>
      (c = 'T' || c = 't' || c = ' ') &&
        match takeTime rest with
        | some [] => true
        | some offset => isOffset offset
        | none => false
    | none => false

/-- What a word without quotes is. -/
def scalar? (t : Text) : Option Scalar :=
  if t = "true".toList ∨ t = "false".toList then some .boolean
  else if isDateTime t then some .dateTime
  else number? t

end LicenseHeaders.Toml
