import PagedSearch.Sql.Fragment
import PagedSearch.Sql.Statement

/-!
# Queries

The query that a search runs in: a selection from one table and the tables joined to it, with
conditions, an order and a window.

## Main definitions

* `SelectQuery` — a query, and the functions that add to it.
* `SelectQuery.dataStatement` — the statement that returns the rows.
* `SelectQuery.countStatement` — the statement that counts them, without order and window.
-/

namespace PagedSearch

/-- Which rows a join keeps. -/
inductive JoinKind where
  /-- Those that meet a row of the joined table. -/
  | inner
  /-- All. -/
  | left
  deriving DecidableEq

/-- A table joined to a query. -/
structure QueryJoin where
  /-- Which rows are kept. -/
  kind : JoinKind
  /-- The table. -/
  table : String
  /-- The name under which the query knows the table, if not its own. -/
  knownAs : Option String
  /-- The condition of the join; one without text always holds. -/
  condition : Fragment

/-- A selection of rows. -/
structure SelectQuery where
  /-- The selected expressions; none stands for all columns of `table`. -/
  columns : List String := []
  /-- Whether equal rows are returned once. -/
  distinct : Bool := false
  /-- The table. -/
  table : String
  /-- The name under which the query knows the table, if not its own. -/
  knownAs : Option String := none
  /-- The joined tables. -/
  joins : List QueryJoin := []
  /-- The conditions, all of which must hold. -/
  conditions : List Fragment := []
  /-- The terms of the order, each an expression with ` ASC` or ` DESC` behind it, or neither. -/
  orderTerms : List String := []
  /-- How many rows to return at most. -/
  limit : Option Nat := none
  /-- How many rows to leave out. -/
  offset : Option Nat := none

/-- A direction of sorting. -/
inductive Direction where
  /-- From small to large. -/
  | ascending
  /-- From large to small. -/
  | descending
  deriving DecidableEq

/-- A direction in a statement. -/
def Direction.keyword : Direction → String
  | ascending => "ASC"
  | descending => "DESC"

/-- The text in front of `ending`, if it ends so. -/
def beforeEnding? (ending text : List Char) : Option (List Char) :=
  if ending.isSuffixOf text then some (text.take (text.length - ending.length)) else none

/-- The expression and the direction of a term of an order. -/
def splitDirection (term : String) : String × Direction :=
  let text := Text.trimChars term.toList
  match beforeEnding? " DESC".toList text with
  | some expression => (String.ofList expression, .descending)
  | none =>
    match beforeEnding? " ASC".toList text with
    | some expression => (String.ofList expression, .ascending)
    | none => (String.ofList text, .ascending)

namespace SelectQuery

/-- All rows of a table. -/
def ofTable (table : String) : SelectQuery := { table }

/-- The name under which the query knows its table. -/
def tableName (query : SelectQuery) : String := query.knownAs.getD query.table

/-- Whether a joined table is known under the given name. -/
def hasJoin (query : SelectQuery) (name : String) : Bool :=
  query.joins.any fun join => join.knownAs.getD join.table == name

/-- One more condition. -/
def addCondition (query : SelectQuery) (condition : Fragment) : SelectQuery :=
  { query with conditions := query.conditions ++ [condition] }

/-- One more term of the order. -/
def addOrder (query : SelectQuery) (term : String) : SelectQuery :=
  { query with orderTerms := query.orderTerms ++ [term] }

/-- One more joined table. -/
def addJoin (query : SelectQuery) (join : QueryJoin) : SelectQuery :=
  { query with joins := query.joins ++ [join] }

/-! ### Parts of statements -/

/-- Text of a statement. -/
def plain (text : String) : Chunk := .text text.toList

/-- A name in the quotes of a database. -/
def identifier (backend : Backend) (name : String) : Chunk :=
  .text (quoteIdentifier backend name.toList)

/-- Several expressions with commas between them. -/
def commaSeparated (expressions : List (List Chunk)) : List Chunk :=
  [plain ", "].intercalate expressions

/-- A table, and the name under which it is known. -/
def tableChunks (backend : Backend) (table : String) (knownAs : Option String) : List Chunk :=
  identifier backend table ::
    match knownAs with
    | some name => [plain " AS ", identifier backend name]
    | none => []

/-- The selected expressions, behind `SELECT `. -/
def columnChunks (query : SelectQuery) (backend : Backend) : Except SearchError (List Chunk) := do
  let columns ← query.columns.mapM fun column => printText backend column .empty
  let columns :=
    if columns.isEmpty then [[identifier backend query.tableName, plain ".*"]] else columns
  return (if query.distinct then [plain "DISTINCT "] else []) ++ commaSeparated columns

/-- A joined table with its condition. -/
def joinChunks (backend : Backend) (join : QueryJoin) : Except SearchError (List Chunk) := do
  let text := join.condition.text
  let condition ←
    if text = "" then .ok [plain "TRUE"] else printText backend text join.condition.params
  let keyword :=
    match join.kind with
    | .inner => " INNER JOIN "
    | .left => " LEFT JOIN "
  return plain keyword :: tableChunks backend join.table join.knownAs ++ plain " ON " :: condition

/-- All conditions of a query as one. -/
def condition (query : SelectQuery) : Fragment := .all query.conditions

/-- From ` FROM ` to the end of the conditions: what the data and the count have in common. -/
def sourceChunks (query : SelectQuery) (backend : Backend) : Except SearchError (List Chunk) := do
  let joins ← query.joins.mapM (joinChunks backend)
  let text := query.condition.text
  let condition ←
    if text = "" then .ok []
    else (printText backend text query.condition.params).map (plain " WHERE " :: ·)
  return plain " FROM " :: tableChunks backend query.table query.knownAs ++ joins.flatten ++
    condition

/-- A term of the order. -/
def orderChunks (backend : Backend) (term : String) : Except SearchError (List Chunk) := do
  let (expression, direction) := splitDirection term
  return (← printText backend expression .empty) ++ [plain (" " ++ direction.keyword)]

/-- The window of the returned rows. -/
def windowChunks (query : SelectQuery) : List Chunk :=
  (match query.limit with
    | some limit => [plain " LIMIT ", .value (.unsigned limit)]
    | none => []) ++
  (match query.offset with
    | some offset => [plain " OFFSET ", .value (.unsigned offset)]
    | none => [])

/-- The rows without order and window. -/
def rowChunks (query : SelectQuery) (backend : Backend) : Except SearchError (List Chunk) := do
  let columns ← query.columnChunks backend
  let source ← query.sourceChunks backend
  return plain "SELECT " :: columns ++ source

/-- The rows in their order and window. -/
def dataChunks (query : SelectQuery) (backend : Backend) : Except SearchError (List Chunk) := do
  let rows ← query.rowChunks backend
  let terms ← query.orderTerms.mapM (orderChunks backend)
  let order := if terms.isEmpty then [] else plain " ORDER BY " :: commaSeparated terms
  return rows ++ order ++ query.windowChunks

/-- The column in which a count is returned. -/
def totalName : String := "total"

/-- The name of the rows that a count is taken of. -/
def countedName : String := "__count"

/-- The number of rows, or of different values of `column` among them.  Rows that are returned once
are counted once. -/
def countChunks (query : SelectQuery) (column : Option String) (backend : Backend) :
    Except SearchError (List Chunk) := do
  let named := [plain " AS ", identifier backend totalName]
  match column with
  | some column =>
    let column ← printText backend (Fragment.columnMarker column) .empty
    let source ← query.sourceChunks backend
    return plain "SELECT COUNT(DISTINCT " :: column ++ plain ")" :: named ++ source
  | none =>
    if query.distinct then
      let rows ← query.rowChunks backend
      return plain "SELECT COUNT(*)" :: named ++ plain " FROM (" :: rows ++
        [plain ") AS ", identifier backend countedName]
    else
      let source ← query.sourceChunks backend
      return plain "SELECT COUNT(*)" :: named ++ source

/-- The statement that returns the rows. -/
def dataStatement (query : SelectQuery) (backend : Backend) : Except SearchError Statement :=
  return .ofChunks backend (← query.dataChunks backend)

/-- The statement that counts the rows, or the different values of `column` among them. -/
def countStatement (query : SelectQuery) (column : Option String) (backend : Backend) :
    Except SearchError Statement :=
  return .ofChunks backend (← query.countChunks column backend)

end SelectQuery

end PagedSearch
