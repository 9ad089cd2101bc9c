import PagedSearch.Field.Pattern.Parsing
import PagedSearch.Field.Resolver
import PagedSearch.Text.Split

/-!
# Allow-lists

The resolver for a table whose fields are its columns and what is in them.  A field has to be on a
list, by its name or by a pattern.  A name without dots is a column; the parts behind the first dot
are the path to a value in a JSON document in that column.

## Main definitions

* `sanitised` — a name without the characters that mean something in SQL.
* `AllowList`, `AllowList.ofEntries`, `AllowList.allows` — lists of names and patterns.
* `AllowList.resolve`, `AllowList.resolver` — what an allowed field stands for.
-/

namespace PagedSearch

/-- The characters that the names of columns and the keys of documents keep. -/
def isNamePart (c : Char) : Bool :=
  Text.isAlphanumeric c || ['_', '.', '*', '-', '@', '#'].contains c

/-- The characters of a name that it keeps in SQL. -/
def sanitisedChars (name : List Char) : List Char := name.filter isNamePart

/-- A name without the characters that mean something in SQL. -/
def sanitised (name : String) : String := String.ofList (sanitisedChars name.toList)

/-- An entry of an allow-list. -/
inductive AllowedField where
  /-- The field with this name. -/
  | named (name : String)
  /-- The fields in whose names this pattern is found. -/
  | matching (pattern : Pattern)
  deriving DecidableEq

namespace AllowedField

/-- An entry is a pattern if it starts with `^` and ends with `$`, and a name otherwise. -/
def ofEntry (entry : String) : Except SearchError AllowedField :=
  let text := entry.toList
  if text.head? = some '^' && text.getLast? = some '$' then
    match Pattern.ofText? entry with
    | some pattern => .ok (.matching pattern)
    | none => .error (.invalidPattern entry)
  else .ok (.named entry)

/-- Whether the entry allows the field. -/
def allows (field : String) : AllowedField → Bool
  | .named name => name == field
  | .matching pattern => pattern.isFoundIn field.toList

end AllowedField

/-- A list of the fields that may be searched. -/
structure AllowList where
  /-- The entries. -/
  entries : List AllowedField
  deriving DecidableEq

namespace AllowList

/-- The list with the given entries, unless one of them is no pattern although it looks like
one. -/
def ofEntries (entries : List String) : Except SearchError AllowList :=
  return { entries := ← entries.mapM AllowedField.ofEntry }

/-- Whether the field is on the list. -/
def allows (list : AllowList) (field : String) : Bool :=
  list.entries.any fun entry => entry.allows field

/-- A step of a path into a document: digits count the members of an array, and all else is the key
of an object. -/
def pathStep (part : List Char) : List Char :=
  let key := sanitisedChars part
  if !key.isEmpty && key.all Char.isDigit then '[' :: key ++ [']'] else '.' :: key

/-- A path into a document. -/
def jsonPath (parts : List (List Char)) : List Char := '$' :: parts.flatMap pathStep

/-- The SQL of a field. -/
def fieldSql (field : String) : Resolved :=
  match Text.split '.' field.toList with
  | [] => .ofIdentifier (Fragment.columnMarker "")
  | [column] => .ofIdentifier (Fragment.columnMarker (String.ofList (sanitisedChars column)))
  | column :: path =>
    { identifier :=
        "JSON_EXTRACT(" ++ Fragment.columnMarker (String.ofList (sanitisedChars column)) ++ ", '" ++
          String.ofList (jsonPath path) ++ "')"
      nullPolicy := .disabled }

/-- What a field stands for, if it is on the list. -/
def resolve (list : AllowList) (field : String) : Except SearchError Resolved :=
  if list.allows field then .ok (fieldSql field) else .error (.unknownField field)

/-- The resolver for the fields on the list, which leaves queries as they are. -/
def resolver {ω : Type} (list : AllowList) : Resolver ω where
  resolve field := ExceptT.mk (pure (list.resolve field))
  updateQuery query := pure query

end AllowList

end PagedSearch
