import PagedSearch.Json.Number
import PagedSearch.Text.Hex

/-!
# Reading JSON documents

A document is read in two steps.  The first one follows the grammar.  The second one gives texts and
numbers their values, and it is taken only where a value is wanted; so a part of a document that no
one looks at may hold half of a surrogate pair, a number that is too large, or any depth of arrays.

## Main definitions

* `Document`, `Document.ofText?` — a document as its grammar sees it.
* `Document.value?` — its value.
* `Json.ofText?` — both steps.
-/

namespace PagedSearch

/-- A unit of a text in a document. -/
inductive TextUnit where
  /-- A character, plain or with a short escape. -/
  | char (c : Char)
  /-- A UTF-16 code unit, as `\u` and four digits. -/
  | code (unit : Nat)
  deriving DecidableEq

/-- A document as its grammar sees it. -/
inductive Document where
  /-- `null` -/
  | null
  /-- `true` or `false` -/
  | bool (value : Bool)
  /-- A number. -/
  | number (number : NumberText)
  /-- A text. -/
  | string (units : List TextUnit)
  /-- A list. -/
  | array (elements : List Document)
  /-- Keys and values. -/
  | object (members : List (List TextUnit × Document))

namespace Document

/-! ### The grammar -/

/-- The white space between the parts of a document. -/
def isBlank (c : Char) : Bool := c == ' ' || c == '\t' || c == '\n' || c == '\r'

/-- A text from its first character on that is no white space. -/
def skipBlank (text : List Char) : List Char := text.dropWhile isBlank

/-- The number with four given digits in base 16. -/
def hexUnit? (a b c d : Char) : Option Nat := do
  return 4096 * (← Text.hexValue? a) + 256 * (← Text.hexValue? b) + 16 * (← Text.hexValue? c) + (← Text.hexValue? d)

/-- The character that a short escape stands for. -/
def unescape? : Char → Option Char
  | '"' => some '"'
  | '\\' => some '\\'
  | '/' => some '/'
  | 'b' => some '\x08'
  | 'f' => some '\x0c'
  | 'n' => some '\n'
  | 'r' => some '\r'
  | 't' => some '\t'
  | _ => none

/-- A text behind its opening quote, and the rest behind its closing quote. -/
def readString? : List Char → Option (List TextUnit × List Char)
  | [] => none
  | '"' :: rest => some ([], rest)
  | '\\' :: 'u' :: a :: b :: c :: d :: rest =>
    match hexUnit? a b c d, readString? rest with
    | some unit, some (units, rest) => some (.code unit :: units, rest)
    | _, _ => none
  | '\\' :: c :: rest =>
    match unescape? c, readString? rest with
    | some c, some (units, rest) => some (.char c :: units, rest)
    | _, _ => none
  | c :: rest =>
    if c.toNat < 0x20 then none
    else (readString? rest).map fun (units, rest) => (.char c :: units, rest)

/-- The digits that a text starts with, of which there must be one, and the rest. -/
def readDigits? (text : List Char) : Option (List Char × List Char) :=
  let digits := text.takeWhile Char.isDigit
  if digits.isEmpty then none else some (digits, text.drop digits.length)

/-- A number, and the rest. -/
def readNumber? (text : List Char) : Option (NumberText × List Char) := do
  let (negative, text) :=
    match text with
    | '-' :: rest => (true, rest)
    | _ => (false, text)
  let (whole, text) ← readDigits? text
  if whole.head? = some '0' ∧ whole.length ≠ 1 then none
  let (fraction, text) ←
    match text with
    | '.' :: rest => (readDigits? rest).map fun (digits, rest) => (some digits, rest)
    | _ => some (none, text)
  let (exponent, text) ←
    match text with
    | c :: rest =>
      if c = 'e' ∨ c = 'E' then
        match rest with
        | '-' :: rest => (readDigits? rest).map fun (digits, rest) => (some (true, digits), rest)
        | '+' :: rest => (readDigits? rest).map fun (digits, rest) => (some (false, digits), rest)
        | _ => (readDigits? rest).map fun (digits, rest) => (some (false, digits), rest)
      else some (none, text)
    | [] => some (none, text)
  return ({ negative, whole, fraction, exponent }, text)

mutual

/-- A value, and the rest.  `fuel` bounds the number of values and members that are read. -/
def read? : (fuel : Nat) → List Char → Option (Document × List Char)
  | 0, _ => none
  | fuel + 1, text =>
    match skipBlank text with
    | 'n' :: 'u' :: 'l' :: 'l' :: rest => some (.null, rest)
    | 't' :: 'r' :: 'u' :: 'e' :: rest => some (.bool true, rest)
    | 'f' :: 'a' :: 'l' :: 's' :: 'e' :: rest => some (.bool false, rest)
    | '"' :: rest => (readString? rest).map fun (units, rest) => (.string units, rest)
    | '[' :: rest =>
      match skipBlank rest with
      | ']' :: rest => some (.array [], rest)
      | rest => (readElements? fuel rest).map fun (elements, rest) => (.array elements, rest)
    | '\x7b' :: rest =>
      match skipBlank rest with
      | '\x7d' :: rest => some (.object [], rest)
      | rest => (readMembers? fuel rest).map fun (members, rest) => (.object members, rest)
    | text => (readNumber? text).map fun (written, rest) => (.number written, rest)

/-- The elements of a list behind its opening bracket, and the rest behind its closing one. -/
def readElements? : (fuel : Nat) → List Char → Option (List Document × List Char)
  | 0, _ => none
  | fuel + 1, text =>
    match read? fuel text with
    | some (element, rest) =>
      match skipBlank rest with
      | ',' :: rest =>
        (readElements? fuel rest).map fun (elements, rest) => (element :: elements, rest)
      | ']' :: rest => some ([element], rest)
      | _ => none
    | none => none

/-- The members of an object behind its opening brace, and the rest behind its closing one. -/
def readMembers? : (fuel : Nat) → List Char → Option (List (List TextUnit × Document) × List Char)
  | 0, _ => none
  | fuel + 1, text => do
    let (key, rest) ←
      match skipBlank text with
      | '"' :: rest => readString? rest
      | _ => none
    let rest ←
      match skipBlank rest with
      | ':' :: rest => some rest
      | _ => none
    match read? fuel rest with
    | some (value, rest) =>
      match skipBlank rest with
      | ',' :: rest =>
        (readMembers? fuel rest).map fun (members, rest) => ((key, value) :: members, rest)
      | '\x7d' :: rest => some ([(key, value)], rest)
      | _ => none
    | none => none

end

/-- The document with the given text. -/
def ofText? (text : String) : Option Document :=
  match read? (2 * text.length + 2) text.toList with
  | some (document, rest) => if (skipBlank rest).isEmpty then some document else none
  | none => none

/-! ### Values -/

/-- The text with the given units.  A code unit that is half of a surrogate pair must have the other
half behind it. -/
def decode? : List TextUnit → Option (List Char)
  | [] => some []
  | .char c :: units => (decode? units).map (c :: ·)
  | .code high :: .code low :: units =>
    if 0xd800 ≤ high ∧ high ≤ 0xdbff then
      if 0xdc00 ≤ low ∧ low ≤ 0xdfff then
        (decode? units).map
          (Char.ofNat (0x10000 + 0x400 * (high - 0xd800) + (low - 0xdc00)) :: ·)
      else none
    else if 0xdc00 ≤ high ∧ high ≤ 0xdfff then none
    else (decode? (.code low :: units)).map (Char.ofNat high :: ·)
  | .code unit :: units =>
    if 0xd800 ≤ unit ∧ unit ≤ 0xdfff then none else (decode? units).map (Char.ofNat unit :: ·)

/-- The text of a key or a value. -/
def decodeText? (units : List TextUnit) : Option String := (decode? units).map String.ofList

/-- How deep lists and objects can be within each other. -/
def depthLimit : Nat := 127

mutual

/-- The value of a document in which lists and objects are at most `depth` deep. -/
def value? : (depth : Nat) → Document → Option Json
  | _, .null => some .null
  | _, .bool value => some (.bool value)
  | _, .number written => written.value?.map .number
  | _, .string units => (decodeText? units).map .string
  | 0, .array _ => none
  | depth + 1, .array elements => (elementValues? depth elements).map .array
  | 0, .object _ => none
  | depth + 1, .object members => (memberValues? depth members).map .object

/-- The values of the elements of a list. -/
def elementValues? (depth : Nat) : List Document → Option (List Json)
  | [] => some []
  | element :: elements =>
    match value? depth element, elementValues? depth elements with
    | some value, some values => some (value :: values)
    | _, _ => none

/-- The keys and values of an object. -/
def memberValues? (depth : Nat) : List (List TextUnit × Document) → Option (List (String × Json))
  | [] => some []
  | (key, value) :: members =>
    match decodeText? key, value? depth value, memberValues? depth members with
    | some key, some value, some values => some ((key, value) :: values)
    | _, _, _ => none

end

end Document

/-- The value that a text denotes. -/
def Json.ofText? (text : String) : Option Json :=
  (Document.ofText? text).bind (Document.value? Document.depthLimit)

end PagedSearch
