import PagedSearch.Number.Double

/-!
# The text of a double

A double is written with the fewest decimal digits that read back as the same double, and of the
texts with that many digits with the one nearest to it.  How the digits are laid out is the choice
of a `DoubleFormat`.

## Main definitions

* `Decimal` — digits with the place of the decimal point.
* `Double.shortest` — the digits of a positive finite double.
* `DoubleFormat`, `Double.format` — a layout, and the text of a double in it.
* `Double.text` — the text of a double in filters, with no exponent.
-/

namespace PagedSearch

/-- The number `0.d₁d₂… * 10 ^ point` with the digits `d₁d₂…`. -/
structure Decimal where
  /-- The digits; the first one is not zero, and neither is the last. -/
  digits : List Char
  /-- How many digits stand before the decimal point; zero or less for a small number. -/
  point : Int
  deriving DecidableEq

/-- Which of two equally near neighbours is taken. -/
inductive Tie where
  /-- The greater one. -/
  | up
  /-- The one with an even last digit. -/
  | even
  deriving DecidableEq

/-- The digits of a natural number in base ten. -/
def decimalDigits (n : Nat) : List Char := Nat.toDigits 10 n

/-- The place of the decimal point in `num / den`: the `k` with
`10 ^ (k - 1) ≤ num / den < 10 ^ k`. -/
def decimalPoint (num den : Nat) : Int :=
  if den ≤ num then (decimalDigits (num / den)).length
  else 1 - ((decimalDigits ((den + num - 1) / num - 1)).length : Int)

namespace Double

/-- The reals that round to `significand * 2 ^ exponent`: a lower and an upper bound, in quarters of
`2 ^ exponent`.  Below a power of two the doubles are closer together. -/
def roundingBounds (significand : Nat) (exponent : Int) : Nat × Nat :=
  let below := if significand = Nat.pow 2 52 ∧ -1074 < exponent then 1 else 2
  (4 * significand - below, 4 * significand + 2)

/-- Whether `n * 10 ^ scale` rounds to `significand * 2 ^ exponent`. -/
def readsBack (significand : Nat) (exponent scale : Int) (n : Nat) : Bool :=
  let (lower, upper) := roundingBounds significand exponent
  let (up, down) := power 2 exponent
  let (tenUp, tenDown) := power 10 scale
  let quarters := 4 * n * tenUp * down
  let unit := up * tenDown
  if significand % 2 = 0 then lower * unit ≤ quarters && quarters ≤ upper * unit
  else lower * unit < quarters && quarters < upper * unit

/-- The multiple of `10 ^ scale` that reads back as `significand * 2 ^ exponent`, if one of its two
neighbours among those multiples does; of two that do, the nearer. -/
def onGrid? (tie : Tie) (significand : Nat) (exponent scale : Int) : Option Nat :=
  let (up, down) := power 2 exponent
  let (tenUp, tenDown) := power 10 scale
  let num := significand * up * tenDown
  let den := down * tenUp
  let floor := num / den
  let rest := num % den
  let upward := den < 2 * rest || (2 * rest == den && (tie == .up || floor % 2 == 1))
  match readsBack significand exponent scale floor,
    readsBack significand exponent scale (floor + 1) with
  | true, true => some (if upward then floor + 1 else floor)
  | true, false => some floor
  | false, true => some (floor + 1)
  | false, false => none

/-- The fewest digits that read back as `significand * 2 ^ exponent`, for a positive significand.
Seventeen always do. -/
def shortest (tie : Tie) (significand : Nat) (exponent : Int) : Decimal :=
  let (up, down) := power 2 exponent
  let point := decimalPoint (significand * up) down
  let attempt (count : Nat) : Option (List Char × Int) :=
    (onGrid? tie significand exponent (point - count)).map fun n =>
      (decimalDigits n, point - count)
  let (digits, scale) := ((List.range' 1 17).findSome? attempt).getD (['0'], 0)
  { digits := (digits.reverse.dropWhile (· == '0')).reverse, point := digits.length + scale }

end Double

/-- How a double is laid out as text. -/
structure DoubleFormat where
  /-- Which of two equally near texts is taken. -/
  tie : Tie
  /-- Whether a number whose leading digit counts `10 ^ e` is written without an exponent. -/
  positional : Int → Bool
  /-- What follows a whole number that is written without an exponent. -/
  wholeEnding : List Char

namespace Decimal

/-- The number without an exponent. -/
def positional (wholeEnding : List Char) (d : Decimal) : List Char :=
  if d.point ≤ 0 then
    ['0', '.'] ++ List.replicate (-d.point).toNat '0' ++ d.digits
  else
    let before := d.point.toNat
    if d.digits.length ≤ before then
      d.digits ++ List.replicate (before - d.digits.length) '0' ++ wholeEnding
    else d.digits.take before ++ '.' :: d.digits.drop before

/-- The number with one digit before the point, and an exponent with its sign. -/
def scientific (d : Decimal) : List Char :=
  let exponent := d.point - 1
  let fraction := d.digits.drop 1
  d.digits.take 1 ++ (if fraction.isEmpty then [] else '.' :: fraction) ++
    ['e', if exponent < 0 then '-' else '+'] ++ decimalDigits exponent.natAbs

end Decimal

namespace Double

/-- The text of a double in the given layout. -/
def format (layout : DoubleFormat) : Double → String
  | nan => "NaN"
  | infinite negative => if negative then "-inf" else "inf"
  | finite negative significand exponent =>
    let sign := if negative then ['-'] else []
    let body :=
      if significand = 0 then '0' :: layout.wholeEnding
      else
        let decimal := shortest layout.tie significand exponent
        if layout.positional (decimal.point - 1) then decimal.positional layout.wholeEnding
        else decimal.scientific
    String.ofList (sign ++ body)

/-- Filters write numbers without an exponent, whole ones without a fraction; a tie goes up. -/
def filterFormat : DoubleFormat where
  tie := .up
  positional _ := true
  wholeEnding := []

/-- The text of a double in filters and in messages about them. -/
def text (d : Double) : String := d.format filterFormat

end Double

end PagedSearch
