import PagedSearch.Text.Hex
import PagedSearch.Text.Split
import PagedSearch.Text.Utf8

/-!
# Query strings

The `application/x-www-form-urlencoded` format: pairs of keys and values with `&` between them and
`=` within them, in which a space is a `+` and any byte can be written as `%` and two digits in base
16.

## Main definitions

* `decodeComponent` — a key or a value.
* `parseForm` — the pairs of a query string.
-/

namespace PagedSearch.Form

/-- The bytes of a key or a value.  A `%` without two digits behind it is kept. -/
def percentDecode : List Nat → List Nat
  | 0x25 :: high :: low :: rest =>
    match Text.hexValue? (Char.ofNat high), Text.hexValue? (Char.ofNat low) with
    | some h, some l => (16 * h + l) :: percentDecode rest
    | _, _ => 0x25 :: percentDecode (high :: low :: rest)
  | byte :: rest => byte :: percentDecode rest
  | [] => []

/-- A key or a value as it was before it became part of a query string. -/
def decodeComponent (text : List Char) : List Char :=
  Text.decodeLossy
    (percentDecode (Text.utf8Bytes (text.map fun c => if c = '+' then ' ' else c)))

/-- The key and the value of a piece, the value being empty if there is no `=`. -/
def parsePair (piece : List Char) : String × String :=
  let key := piece.takeWhile (· ≠ '=')
  let value := (piece.drop key.length).drop 1
  (String.ofList (decodeComponent key), String.ofList (decodeComponent value))

/-- The pairs of a query string. -/
def parseForm (query : String) : List (String × String) :=
  ((Text.split '&' query.toList).filter (!·.isEmpty)).map parsePair

end PagedSearch.Form
