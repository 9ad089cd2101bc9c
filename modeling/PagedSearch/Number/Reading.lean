import PagedSearch.Number.Double

/-!
# Reading doubles

A double can be written in any of the usual ways: with or without a sign, a decimal point and an
exponent, or as the name of an infinity or of what is no number.

## Main definitions

* `Double.ofText?` — the double nearest to the number that a text denotes.
-/

namespace PagedSearch

/-- The natural number with the given decimal digits. -/
def digitsValue (digits : List Char) : Nat :=
  digits.foldl (fun n c => 10 * n + (c.toNat - '0'.toNat)) 0

/-- A text without its sign, and whether that is a minus. -/
def splitSign (text : List Char) : Bool × List Char :=
  match text with
  | '-' :: rest => (true, rest)
  | '+' :: rest => (false, rest)
  | _ => (false, text)

namespace Double

/-- The exponent behind an `e`. -/
def exponent? (text : List Char) : Option Int :=
  let (negative, digits) := splitSign text
  if digits.isEmpty || !digits.all Char.isDigit then none
  else some (if negative then -(digitsValue digits : Int) else digitsValue digits)

/-- The double nearest to `± digits * 10 ^ scale`, an exponent beyond all doubles not being written
out. -/
def ofScaled (negative : Bool) (digits : List Char) (scale : Int) : Double :=
  let leading := scale + (digits.dropWhile (· == '0')).length
  if leading < -400 then zero negative
  else if 400 < leading then
    if digitsValue digits = 0 then zero negative else infinite negative
  else ofDecimal negative (digitsValue digits) scale

/-- The double nearest to a number that is written without its sign. -/
def ofDigits? (negative : Bool) (text : List Char) : Option Double :=
  let whole := text.takeWhile Char.isDigit
  let rest := text.drop whole.length
  let (fraction, rest) :=
    match rest with
    | '.' :: rest => (rest.takeWhile Char.isDigit, rest.dropWhile Char.isDigit)
    | _ => ([], rest)
  if whole.isEmpty && fraction.isEmpty then none
  else
    match rest with
    | [] => some (ofScaled negative (whole ++ fraction) (-fraction.length))
    | c :: rest =>
      if c = 'e' ∨ c = 'E' then
        (exponent? rest).map fun exponent =>
          ofScaled negative (whole ++ fraction) (exponent - fraction.length)
      else none

/-- The double that a text denotes. -/
def ofText? (text : String) : Option Double :=
  let (negative, rest) := splitSign text.toList
  match String.ofList (rest.map Char.toLower) with
  | "inf" => some (infinite negative)
  | "infinity" => some (infinite negative)
  | "nan" => some nan
  | _ => ofDigits? negative rest

end Double

end PagedSearch
