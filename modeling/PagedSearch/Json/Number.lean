import PagedSearch.Json.Value

/-!
# Numbers in JSON documents

A number without fraction and exponent that fits into 64 bits is a whole number, with a sign if it
is negative.  All other numbers are doubles.  These are read quickly rather than exactly: the digits
that fit into 64 bits are taken as a whole number, and then that is multiplied with or divided by a
power of ten.

## Main definitions

* `NumberText` — the parts of a number as they are written.
* `NumberText.value?` — the number, if it is not too large.
-/

namespace PagedSearch

/-- A number as it is written. -/
structure NumberText where
  /-- Whether a minus precedes it. -/
  negative : Bool
  /-- The digits before the decimal point. -/
  whole : List Char
  /-- The digits behind the decimal point, if there is one. -/
  fraction : Option (List Char)
  /-- The exponent, if there is one: whether it is negative, and its digits. -/
  exponent : Option (Bool × List Char)
  deriving DecidableEq

namespace NumberText

/-- The whole numbers that digits are gathered in are below this bound. -/
def significandBound : Nat := Nat.pow 2 64

/-- The number with one more digit, if it is not too large. -/
def pushDigit? (significand : Nat) (digit : Char) : Option Nat :=
  let next := 10 * significand + (digit.toNat - '0'.toNat)
  if next < significandBound then some next else none

/-- The digits of a whole number as far as they fit, and how many follow. -/
def gatherWhole (significand : Nat) : List Char → Nat × Nat
  | [] => (significand, 0)
  | digit :: digits =>
    match pushDigit? significand digit with
    | some next => gatherWhole next digits
    | none => (significand, digits.length + 1)

/-- The number with the digits of a fraction behind it as far as they fit, and how many do. -/
def gatherFraction (significand : Nat) : List Char → Nat × Nat
  | [] => (significand, 0)
  | digit :: digits =>
    match pushDigit? significand digit with
    | some next =>
      let (last, count) := gatherFraction next digits
      (last, count + 1)
    | none => (significand, 0)

/-- The largest power of ten that is a double. -/
def largestPower : Nat := 308

/-- The double nearest to a power of ten. -/
def powerOfTen (exponent : Nat) : Double := .ofDecimal false 1 exponent

/-- A double times a power of ten, unless it is too large; of a power too small to be a double, what
is too much is taken off first, in at most `steps` steps. -/
def scale? (value : Double) : (steps : Nat) → (exponent : Int) → Option Double
  | 0, _ => some (.zero false)
  | steps + 1, exponent =>
    if exponent.natAbs ≤ largestPower then
      if 0 ≤ exponent then
        match value.mul (powerOfTen exponent.natAbs) with
        | .infinite _ => none
        | product => some product
      else some (value.div (powerOfTen exponent.natAbs))
    else if value.isZero then some value
    else if 0 ≤ exponent then none
    else scale? (value.div (powerOfTen largestPower)) steps (exponent + largestPower)

/-- The exponents that are told apart are below this bound. -/
def exponentBound : Nat := Nat.pow 2 31

/-- The value of an exponent's digits, if it is below the bound. -/
def exponentValue? (digits : List Char) : Option Nat :=
  digits.foldlM (fun n digit =>
    let next := 10 * n + (digit.toNat - '0'.toNat)
    if next < exponentBound then some next else none) 0

/-- The double that a number is, unless it is too large. -/
def double? (number : NumberText) : Option Double :=
  let (significand, dropped) := gatherWhole 0 number.whole
  let (significand, kept) := gatherFraction significand (number.fraction.getD [])
  let shift : Int := (dropped : Int) - kept
  let signed (value : Double) : Double := if number.negative then value.neg else value
  match number.exponent with
  | none => (scale? (.ofNat significand) 5 shift).map signed
  | some (negative, digits) =>
    match exponentValue? digits with
    | some exponent =>
      let exponent := shift + (if negative then -(exponent : Int) else exponent)
      (scale? (.ofNat significand) 5 exponent).map signed
    | none =>
      if significand = 0 ∨ negative then some (signed (.zero false)) else none

/-- The number, unless it is too large. -/
def value? (number : NumberText) : Option JsonNumber :=
  let asDouble := number.double?.map JsonNumber.double
  match number.fraction, number.exponent with
  | none, none =>
    let (magnitude, dropped) := gatherWhole 0 number.whole
    if dropped ≠ 0 then asDouble
    else if number.negative then
      if magnitude = 0 ∨ Nat.pow 2 63 < magnitude then asDouble
      else some (.integer (-(magnitude : Int)))
    else some (.integer magnitude)
  | _, _ => asDouble

end NumberText

end PagedSearch
