import PagedSearch.Json.Reading
import PagedSearch.Search.Run

/-!
# Records in JSON documents

The parameters of a request, the limits and the pages of results can be read from and written to
JSON.  A record is an object with the names of its fields as keys, or the list of its fields in
order.  In an object, keys that are no fields are ignored, and no field may occur twice.

## Main definitions

* `Document.fields?` — the fields of a record.
* `QueryValues.ofJson?`, `Config.ofJson?`, `SearchPage.ofJson?` — the records.
* `Config.toJson`, `SearchPage.toJson` — their values.
-/

namespace PagedSearch

namespace Document

/-- The value of a field among the members of an object: `none` if the field occurs twice. -/
def field? (members : List (String × Document)) (name : String) : Option (Option Document) :=
  match members.filter (·.1 == name) with
  | [] => some none
  | [(_, value)] => some (some value)
  | _ => none

/-- The fields of a record with the given names.  A list may be shorter than the names only if
`short` says so. -/
def fields? (names : List String) (short : Bool) : Document → Option (List (Option Document))
  | .object list => do
    let members ← list.mapM fun (key, value) => (decodeText? key).map fun key => (key, value)
    names.mapM (field? members)
  | .array elements =>
    if elements.length = names.length ∨ (short ∧ elements.length < names.length) then
      some (elements.map some ++ List.replicate (names.length - elements.length) none)
    else none
  | _ => none

/-- The text that a field holds, if it holds one; `none` if it holds anything but a text or
`null`. -/
def optionalText? : Option Document → Option (Option String)
  | none => some none
  | some .null => some none
  | some (.string units) => (decodeText? units).map some
  | _ => none

/-- The whole number that a field holds, at least `least` and below `bound`. -/
def int? (least bound : Int) : Document → Option Int
  | .number written =>
    match written.value? with
    | some (.integer value) => if least ≤ value ∧ value < bound then some value else none
    | _ => none
  | _ => none

/-- The whole number without sign that a field holds, below `2⁶⁴`. -/
def nat? (document : Document) : Option Nat := (document.int? 0 (Nat.pow 2 64)).map Int.toNat

/-- The whole number without sign that a field holds, or the given one if there is no field. -/
def natOr? (default : Nat) : Option Document → Option Nat
  | none => some default
  | some document => document.nat?

end Document

/-- The parameters of a request. -/
def QueryValues.ofJson? (text : String) : Option QueryValues := do
  let document ← Document.ofText? text
  let fields ← document.fields? (QueryParam.all.map QueryParam.key) false
  match ← fields.mapM Document.optionalText? with
  | [page, perPage, sort, filter, skipTotal] => some { page, perPage, sort, filter, skipTotal }
  | _ => none

/-- The names of the limits. -/
def Config.fieldNames : List String :=
  ["defaultPerPage", "maxPerPage", "maxFilterLength", "maxSortFields", "maxSortFieldLength",
    "cacheCapacity"]

/-- The limits; those that are left out have their usual values. -/
def Config.ofJson? (text : String) : Option Config := do
  let document ← Document.ofText? text
  let usual : Config := {}
  match ← document.fields? Config.fieldNames true with
  | [defaultPerPage, maxPerPage, maxFilterLength, maxSortFields, maxSortFieldLength,
      cacheCapacity] =>
    return {
      defaultPerPage := ← Document.natOr? usual.defaultPerPage defaultPerPage
      maxPerPage := ← Document.natOr? usual.maxPerPage maxPerPage
      maxFilterLength := ← Document.natOr? usual.maxFilterLength maxFilterLength
      maxSortFields := ← Document.natOr? usual.maxSortFields maxSortFields
      maxSortFieldLength := ← Document.natOr? usual.maxSortFieldLength maxSortFieldLength
      cacheCapacity := ← Document.natOr? usual.cacheCapacity cacheCapacity }
  | _ => none

/-- A whole number. -/
def Json.int (value : Int) : Json := .number (.integer value)

/-- The limits as a value. -/
def Config.toJson (config : Config) : Json :=
  let values : List Nat :=
    [config.defaultPerPage, config.maxPerPage, config.maxFilterLength, config.maxSortFields,
      config.maxSortFieldLength, config.cacheCapacity]
  .object (Config.fieldNames.zip (values.map fun (value : Nat) => Json.int (value : Int)))

/-- The names of what a page of results holds. -/
def SearchPage.fieldNames : List String :=
  ["page", "perPage", "totalItems", "totalPages", "items"]

/-- A page of results whose rows are values. -/
def SearchPage.ofJson? (text : String) : Option (SearchPage Json) := do
  let document ← Document.ofText? text
  match ← document.fields? SearchPage.fieldNames false with
  | [some page, some perPage, some totalItems, some totalPages, some items] =>
    match ← items.value? (Document.depthLimit - 1) with
    | .array items =>
      return {
        page := ← page.nat?
        perPage := ← perPage.nat?
        totalItems := ← totalItems.int? (-intBound) intBound
        totalPages := ← totalPages.int? (-intBound) intBound
        items }
    | _ => none
  | _ => none

/-- A page of results as a value. -/
def SearchPage.toJson (page : SearchPage Json) : Json :=
  .object (SearchPage.fieldNames.zip
    [.int page.page, .int page.perPage, .int page.totalItems, .int page.totalPages,
      .array page.items])

end PagedSearch
