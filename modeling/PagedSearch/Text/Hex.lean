/-!
# Digits in base 16

## Main definitions

* `hexDigits` — the digits of a number.
* `hexValue?` — the value of a digit in either case.
-/

namespace PagedSearch.Text

/-- The digits of `n` in base 16, in lower case and without padding. -/
def hexDigits (n : Nat) : List Char := Nat.toDigits 16 n

/-- The value of a digit in base 16. -/
def hexValue? (c : Char) : Option Nat :=
  if c.isDigit then some (c.toNat - '0'.toNat)
  else if 'a' ≤ c ∧ c ≤ 'f' then some (c.toNat - 'a'.toNat + 10)
  else if 'A' ≤ c ∧ c ≤ 'F' then some (c.toNat - 'A'.toNat + 10)
  else none

end PagedSearch.Text
