import PagedSearch.Sql.Template

/-!
# Statements

A statement is a text with marked places for values, and the values.

## Main definitions

* `Statement` — a statement that a database can be given.
* `Statement.ofChunks` — the statement with the given parts.
-/

namespace PagedSearch

/-- A statement with the values that it binds, in the order of their places. -/
structure Statement where
  /-- The text. -/
  text : String
  /-- The values. -/
  values : List Value
  deriving DecidableEq

namespace Chunk

/-- The text of some parts of a statement that `count` values precede. -/
def textFrom (backend : Backend) : Nat → List Chunk → List Char
  | _, [] => []
  | count, .text chars :: rest => chars ++ textFrom backend count rest
  | count, .value _ :: rest =>
    backend.mark :: (if backend.isNumbered then decimalDigits (count + 1) else []) ++
      textFrom backend (count + 1) rest

/-- The values in some parts of a statement. -/
def values : List Chunk → List Value
  | [] => []
  | .text _ :: rest => values rest
  | .value bound :: rest => bound :: values rest

end Chunk

/-- The statement with the given parts. -/
def Statement.ofChunks (backend : Backend) (chunks : List Chunk) : Statement where
  text := String.ofList (Chunk.textFrom backend 0 chunks)
  values := Chunk.values chunks

/-- The statement that selects a single expression. -/
def Statement.selecting (backend : Backend) (text : String) (params : Params) :
    Except SearchError Statement :=
  return .ofChunks backend (.text "SELECT ".toList :: (← printText backend text params))

end PagedSearch
