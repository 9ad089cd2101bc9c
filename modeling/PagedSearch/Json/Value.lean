import PagedSearch.Number.Shortest
import PagedSearch.Text.Hex

/-!
# JSON values

The values of JSON documents, and the compact text of one.  The members of an object are sorted by
their keys, and no key occurs twice.

## Main definitions

* `JsonNumber`, `Json` — numbers and values.
* `Json.object` — the object with the given members.
* `Json.text` — the compact text of a value.
-/

namespace PagedSearch

/-- A number of a JSON document. -/
inductive JsonNumber where
  /-- A whole number. -/
  | integer (value : Int)
  /-- Any other number. -/
  | double (value : Double)
  deriving DecidableEq

/-- A JSON value. -/
inductive Json where
  /-- `null` -/
  | null
  /-- `true` or `false` -/
  | bool (value : Bool)
  /-- A number. -/
  | number (value : JsonNumber)
  /-- A text. -/
  | string (content : String)
  /-- A list of values. -/
  | array (elements : List Json)
  /-- Values with their keys. -/
  | members (list : List (String × Json))

/-- Numbers in JSON have an exponent outside of `10⁻⁵` to `10¹⁶`, and a fraction if they are no whole
numbers in the document; a tie goes to the even digit. -/
def JsonNumber.doubleFormat : DoubleFormat where
  tie := .even
  positional exponent := -5 ≤ exponent && exponent < 16
  wholeEnding := ['.', '0']

/-- The text of a number. -/
def JsonNumber.text : JsonNumber → String
  | .integer value => toString value
  | .double value => value.format doubleFormat

namespace Json

/-- The members with one more, which takes the place of one with the same key. -/
def insertMember (key : String) (value : Json) : List (String × Json) → List (String × Json)
  | [] => [(key, value)]
  | (first, firstValue) :: rest =>
    if key < first then (key, value) :: (first, firstValue) :: rest
    else if key = first then (key, value) :: rest
    else (first, firstValue) :: insertMember key value rest

/-- The object with the given members; of several with the same key the last one counts. -/
def object (members : List (String × Json)) : Json :=
  .members (members.foldl (fun sorted (key, value) => insertMember key value sorted) [])

/-- The character behind the backslash of a short escape. -/
def shortEscape? (c : Char) : Option Char :=
  if c = '"' || c = '\\' then some c
  else if c = '\x08' then some 'b'
  else if c = '\t' then some 't'
  else if c = '\n' then some 'n'
  else if c = '\x0c' then some 'f'
  else if c = '\r' then some 'r'
  else none

/-- A character in a quoted text: quotes, backslashes and controls are escaped. -/
def escape (c : Char) : List Char :=
  match shortEscape? c with
  | some short => ['\\', short]
  | none =>
    if c.toNat < 0x20 then
      let digits := Text.hexDigits c.toNat
      ['\\', 'u'] ++ List.replicate (4 - digits.length) '0' ++ digits
    else [c]

/-- A text in quotes. -/
def quote (content : String) : String :=
  String.ofList ('"' :: content.toList.flatMap escape ++ ['"'])

mutual

/-- The compact text of a value. -/
def text : Json → String
  | .null => "null"
  | .bool value => if value then "true" else "false"
  | .number value => value.text
  | .string content => quote content
  | .array elements => "[" ++ ",".intercalate (elementTexts elements) ++ "]"
  | .members list => "\x7b" ++ ",".intercalate (memberTexts list) ++ "\x7d"

/-- The compact texts of values. -/
def elementTexts : List Json → List String
  | [] => []
  | element :: elements => element.text :: elementTexts elements

/-- The compact texts of the members of an object. -/
def memberTexts : List (String × Json) → List String
  | [] => []
  | (key, value) :: rest => (quote key ++ ":" ++ value.text) :: memberTexts rest

end

end Json

end PagedSearch
