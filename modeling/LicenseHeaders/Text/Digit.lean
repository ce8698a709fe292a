import LicenseHeaders.Text.Basic

/-!
# Digits

The value of a digit and of a sequence of digits, in any base up to sixteen.

* `digitValue?` — the value of one digit;
* `Text.valueIn` — the number that digits spell, whatever groups them.
-/

namespace LicenseHeaders

/-- The value of a hexadecimal digit, in either case. -/
def digitValue? (c : Char) : Option Nat :=
  if c.isDigit then some (c.toNat - '0'.toNat)
  else if 'a' ≤ c ∧ c ≤ 'f' then some (c.toNat - 'a'.toNat + 10)
  else if 'A' ≤ c ∧ c ≤ 'F' then some (c.toNat - 'A'.toNat + 10)
  else none

/-- The number that digits spell in a base.  Characters that are no digits do
not count. -/
def Text.valueIn (base : Nat) (t : Text) : Nat :=
  (t.filterMap digitValue?).foldl (fun n d => base * n + d) 0

end LicenseHeaders
