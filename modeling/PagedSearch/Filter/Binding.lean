import PagedSearch.Json.Value
import PagedSearch.Text.Cut

/-!
# Filters from templates

A program writes a filter as a template, with `{:name}` where a value belongs.  Binding puts the
literals of the values in these places, all at once: what comes from a value is not looked at again,
and what is not the place of a bound value stays as it is.

## Main definitions

* `Json.literal` — a value as filters write it.
* `bindTemplate` — a template with its values.
-/

namespace PagedSearch

/-- A text between single quotes, in which quotes and backslashes have a backslash in front. -/
def quoteLiteral (text : String) : String :=
  String.ofList
    ('\'' :: text.toList.flatMap (fun c => if c = '\\' || c = '\'' then ['\\', c] else [c]) ++
      ['\''])

/-- A value as filters write it.  Lists and objects are the texts of their documents. -/
def Json.literal : Json → String
  | .null => "null"
  | .bool value => if value then "true" else "false"
  | .number value => value.text
  | .string content => quoteLiteral content
  | .array elements => quoteLiteral (Json.array elements).text
  | .members list => quoteLiteral (Json.members list).text

namespace Binding

/-- The characters of the names in templates. -/
def isNamePart (c : Char) : Bool := c.isAlphanum || c == '_'

/-- The name in the place of a value, if one starts with `first`, and how many characters of `rest`
belong to that place. -/
def readPlace (first : Char) (rest : List Char) : Option (List Char) × Nat :=
  match first, rest with
  | '{', ':' :: body =>
    let name := body.takeWhile isNamePart
    if !name.isEmpty && (body.drop name.length).head? = some '}' then (some name, name.length + 2)
    else (none, 0)
  | _, _ => (none, 0)

/-- What stands in the filter for a piece of the template. -/
def fill (values : List (String × Json)) (piece : Option (List Char) × List Char) : List Char :=
  match piece.1.bind fun name => values.lookup (String.ofList name) with
  | some value => value.literal.toList
  | none => piece.2

end Binding

/-- A template with the given values in their places, a later value for a name taking the place of
an earlier one. -/
def bindTemplate (template : String) (values : List (String × Json)) : String :=
  String.ofList
    ((Text.cut Binding.readPlace template.toList).flatMap (Binding.fill values.reverse))

end PagedSearch
