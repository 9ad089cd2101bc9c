/-!
# Doubles

Numbers in filters are binary floating point numbers of 64 bits.  A finite one is kept as the exact
value `± significand * 2 ^ exponent`, so every operation is exact arithmetic followed by one
rounding to the nearest double, ties to the even significand.

## Main definitions

* `Double` — a finite number, an infinity, or not a number.
* `Double.ofRatio` — the double nearest to a quotient of natural numbers.
* `Double.ofDecimal` — the double nearest to `digits * 10 ^ scale`.
* `Double.mul`, `Double.div` — the rounded product and quotient.
-/

namespace PagedSearch

/-- A binary floating point number of 64 bits.  The finite ones that the operations below return
are canonical: `significand < 2 ^ 53`, `-1074 ≤ exponent`, and `2 ^ 52 ≤ significand` unless
`exponent = -1074`. -/
inductive Double where
  /-- Not a number. -/
  | nan
  /-- An infinity of either sign. -/
  | infinite (negative : Bool)
  /-- The number `± significand * 2 ^ exponent`; a zero has a sign too. -/
  | finite (negative : Bool) (significand : Nat) (exponent : Int)
  deriving DecidableEq

namespace Double

/-- The zero of the given sign. -/
def zero (negative : Bool) : Double := .finite negative 0 (-1074)

/-- The natural number nearest to `num / den`; a tie goes to the even one. -/
def roundDiv (num den : Nat) : Nat :=
  let quotient := num / den
  let rest := num % den
  if 2 * rest < den then quotient
  else if den < 2 * rest then quotient + 1
  else quotient + quotient % 2

/-- The powers of `base` that `scale` stands for, as a numerator and a denominator. -/
def power (base : Nat) (scale : Int) : Nat × Nat :=
  if 0 ≤ scale then (Nat.pow base scale.toNat, 1) else (1, Nat.pow base (-scale).toNat)

/-- The exponent that a canonical double near `num / den` has. -/
def exponentFor (num den : Nat) : Int :=
  let guess : Int := (num.log2 : Int) - den.log2 - 52
  let (up, down) := power 2 guess
  let exponent := if num * down < Nat.pow 2 52 * (den * up) then guess - 1 else guess
  max exponent (-1074)

/-- The double nearest to `± num / den`. -/
def ofRatio (negative : Bool) (num den : Nat) : Double :=
  if num = 0 then zero negative
  else
    let exponent := exponentFor num den
    let (up, down) := power 2 exponent
    let significand := roundDiv (num * down) (den * up)
    let (significand, exponent) :=
      if significand = Nat.pow 2 53 then (Nat.pow 2 52, exponent + 1) else (significand, exponent)
    if 971 < exponent then .infinite negative else .finite negative significand exponent

/-- The double nearest to a natural number. -/
def ofNat (n : Nat) : Double := ofRatio false n 1

/-- The double nearest to `± digits * 10 ^ scale`. -/
def ofDecimal (negative : Bool) (digits : Nat) (scale : Int) : Double :=
  if digits = 0 then zero negative
  else
    let (up, down) := power 10 scale
    ofRatio negative (digits * up) down

/-- The number with the opposite sign. -/
def neg : Double → Double
  | nan => nan
  | infinite negative => infinite (!negative)
  | finite negative significand exponent => finite (!negative) significand exponent

/-- Whether the number is a zero, of either sign. -/
def isZero : Double → Bool
  | finite _ significand _ => significand == 0
  | _ => false

/-- The rounded product. -/
def mul : Double → Double → Double
  | nan, _ => nan
  | _, nan => nan
  | infinite s, infinite t => infinite (s != t)
  | infinite s, finite t m _ => if m = 0 then nan else infinite (s != t)
  | finite s m _, infinite t => if m = 0 then nan else infinite (s != t)
  | finite s m p, finite t n q =>
    let (up, down) := power 2 (p + q)
    ofRatio (s != t) (m * n * up) down

/-- The rounded quotient. -/
def div : Double → Double → Double
  | nan, _ => nan
  | _, nan => nan
  | infinite _, infinite _ => nan
  | infinite s, finite t _ _ => infinite (s != t)
  | finite s _ _, infinite t => zero (s != t)
  | finite s m p, finite t n q =>
    if n = 0 then (if m = 0 then nan else infinite (s != t))
    else
      let (up, down) := power 2 (p - q)
      ofRatio (s != t) (m * up) (n * down)

end Double

end PagedSearch
