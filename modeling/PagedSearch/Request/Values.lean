import PagedSearch.Error
import PagedSearch.Number.Reading
import PagedSearch.Request.Form

/-!
# Parameters of a request

What a client sends with a request, as the texts that it sends.

## Main definitions

* `QueryValues`, `QueryValues.ofQuery` — the parameters in a query string.
* `readInt`, `readBool` — the numbers and truth values that the texts stand for.
-/

namespace PagedSearch

/-- The texts of the parameters that a client has set. -/
structure QueryValues where
  /-- The number of the page. -/
  page : Option String := none
  /-- The size of a page. -/
  perPage : Option String := none
  /-- The fields to sort by. -/
  sort : Option String := none
  /-- The filter. -/
  filter : Option String := none
  /-- Whether to leave out the count. -/
  skipTotal : Option String := none
  deriving DecidableEq

namespace QueryValues

/-- A query string without the question mark that may precede it. -/
def withoutMark (query : String) : String :=
  match query.toList with
  | '?' :: rest => String.ofList rest
  | _ => query

/-- The parameters among pairs of keys and values.  Of several pairs with the same key the first one
counts. -/
def ofPairs (pairs : List (String × String)) : QueryValues :=
  let value (param : QueryParam) : Option String := pairs.lookup param.key
  { page := value .page
    perPage := value .perPage
    sort := value .sort
    filter := value .filter
    skipTotal := value .skipTotal }

/-- The text of a parameter. -/
def get? (values : QueryValues) : QueryParam → Option String
  | .page => values.page
  | .perPage => values.perPage
  | .sort => values.sort
  | .filter => values.filter
  | .skipTotal => values.skipTotal

/-- The text of a parameter, unless it is empty. -/
def present? (values : QueryValues) (param : QueryParam) : Option String :=
  (values.get? param).filter (· ≠ "")

/-- The parameters in a query string. -/
def ofQuery (query : String) : QueryValues := ofPairs (Form.parseForm (withoutMark query))

end QueryValues

/-- The numbers that are read are not below `-2⁶³` and below `2⁶³`. -/
def intBound : Int := Int.pow 2 63

/-- The number that digits with a sign in front of them stand for. -/
def signedInt? (negative : Bool) (digits : List Char) : Option Int :=
  if digits.isEmpty || !digits.all Char.isDigit then none
  else
    let value : Int := if negative then -(digitsValue digits : Int) else digitsValue digits
    if -intBound ≤ value ∧ value < intBound then some value else none

/-- The whole number that a text stands for, white space around it aside. -/
def int? (text : String) : Option Int :=
  match Text.trimChars text.toList with
  | '-' :: digits => signedInt? true digits
  | '+' :: digits => signedInt? false digits
  | digits => signedInt? false digits

/-- The texts that stand for truth. -/
def trueTexts : List String := ["1", "t", "T", "TRUE", "true", "True"]

/-- The texts that stand for falsehood. -/
def falseTexts : List String := ["0", "f", "F", "FALSE", "false", "False"]

/-- The truth value that a text stands for. -/
def bool? (text : String) : Option Bool :=
  if trueTexts.contains text then some true
  else if falseTexts.contains text then some false
  else none

/-- The whole number that the value of a parameter stands for. -/
def readInt (param : QueryParam) (value : String) : Except SearchError Int :=
  match int? value with
  | some n => .ok n
  | none => .error (.invalidQueryParam param value)

/-- The truth value that the value of a parameter stands for. -/
def readBool (param : QueryParam) (value : String) : Except SearchError Bool :=
  match bool? value with
  | some b => .ok b
  | none => .error (.invalidQueryParam param value)

end PagedSearch
