import PagedSearch.Search.Session
import PagedSearch.Text.Split

/-!
# Sorting

A client asks for an order as a list of fields with commas between them; a `-` in front of a field
reverses its direction, and a `+` means nothing.

## Main definitions

* `SortField`, `SortField.parseList` — the fields to sort by.
* `SortField.term` — the term of an order that a field becomes.
-/

namespace PagedSearch

/-- A field to sort by. -/
structure SortField where
  /-- The name of the field. -/
  name : String
  /-- The direction. -/
  direction : Direction
  deriving DecidableEq

namespace SortField

/-- The field that a member of the list asks for.  A member without a name is kept; its name will
not be found. -/
def ofText (text : List Char) : SortField :=
  match Text.trimChars text with
  | '-' :: name => { name := String.ofList name, direction := .descending }
  | '+' :: name => { name := String.ofList name, direction := .ascending }
  | name => { name := String.ofList name, direction := .ascending }

/-- The fields that a list asks for. -/
def parseList (text : String) : List SortField := (Text.split ',' text.toList).map ofText

/-- The name that asks for a random order. -/
def randomName : String := "@random"

/-- The name that asks for the order of the rows in their table. -/
def rowIdName : String := "@rowid"

/-- Whether an expression can be sorted by: it binds no values, and is neither empty nor `NULL`. -/
def isSortable (resolved : Resolved) : Bool :=
  resolved.params.isEmpty && resolved.identifier ≠ "" &&
    resolved.identifier.toList.map Char.toLower ≠ "null".toList

/-- An expression and a direction as a term of an order. -/
def orderTerm (expression : String) (direction : Direction) : String :=
  expression ++ " " ++ direction.keyword

/-- The term of an order that a field becomes.  A random order has no direction. -/
def term {ω : Type} (resolver : Resolver ω) (field : SortField) : Search ω String := do
  if field.name = randomName then return "RANDOM()"
  if field.name = rowIdName then
    return orderTerm (Fragment.columnMarker "_rowid_") field.direction
  let invalid := SearchError.invalidSortField field.name
  let resolved ← Search.explain (fun _ => invalid) (Search.inWorld (resolver.resolve field.name))
  if isSortable resolved then return orderTerm resolved.identifier field.direction
  else throw invalid

end SortField

end PagedSearch
