import PagedSearch.Sql.Value

/-!
# Fragments of SQL

A condition is put together from fragments.  A fragment has a text and the values that the text
refers to.  Its text is portable: three kinds of markers stand for what every database writes in its
own way,

* `[[column]]` for a column, with its table in front if need be,
* `{{table}}` for a table,
* `{:name}` for a bound value.

## Main definitions

* `Fragment` — verbatim text, conjunctions and disjunctions, parentheses, and the two fragments that
  compare a row with the values related to it.
* `Fragment.text`, `Fragment.params` — the text of a fragment, and its values.
* `Fragment.build` — both, the values added to those of the surroundings.
-/

namespace PagedSearch

/-- A table that is joined to a selection, with the condition of the join. -/
structure JoinedTable (F : Type) where
  /-- The table. -/
  table : String
  /-- Its name within the selection. -/
  name : String
  /-- The condition; one without text is none. -/
  condition : F

/-- A fragment of SQL with the values it binds. -/
inductive Fragment where
  /-- A verbatim text. -/
  | raw (text : String) (params : Params)
  /-- All parts hold.  Parts without text do not count. -/
  | all (parts : List Fragment)
  /-- One of the parts holds.  Parts without text do not count. -/
  | any (parts : List Fragment)
  /-- A part in parentheses. -/
  | enclose (part : Fragment)
  /-- The selection of all values that `value` has in the rows of `table`, known as `name`, that
  belong to the current row of `target`. -/
  | related (target table name value : String) (joins : List (JoinedTable Fragment))
      (params : Params)
  /-- Some choice of one row from each of the sources, known under the names beside them, satisfies
  the condition. -/
  | someRelated (sources : List (Fragment × String)) (condition : Fragment)

namespace Fragment

/-- A fragment without text. -/
def none : Fragment := .raw "" .empty

/-- The condition that no row satisfies. -/
def never : String := "0=1"

/-- A text in parentheses. -/
def parenthesised (text : String) : String := "(" ++ text ++ ")"

/-- The texts of several conditions as one: the empty ones are left out, and if more than one
remains, each is put in parentheses. -/
def joinTexts (separator : String) (texts : List String) : String :=
  match texts.filter (· ≠ "") with
  | [] => ""
  | [text] => text
  | texts => separator.intercalate (texts.map parenthesised)

/-- A table marker. -/
def tableMarker (name : String) : String := "\x7b\x7b" ++ name ++ "\x7d\x7d"

/-- A column marker. -/
def columnMarker (name : String) : String := "[[" ++ name ++ "]]"

/-- A parameter marker. -/
def paramMarker (name : String) : String := "\x7b:" ++ name ++ "\x7d"

/-- The column under which a selection of related values returns them. -/
def relatedValue : String := "multiMatchValue"

/-- The text of a joined table, given the text of its condition. -/
def joinText (table name condition : String) : String :=
  " LEFT JOIN " ++ tableMarker table ++ " " ++ tableMarker name ++
    (if condition = "" then "" else " ON " ++ condition)

/-- The text of a selection of related values, which without its three tables' names selects
nothing. -/
def relatedText (target table name value joins : String) : String :=
  if target = "" ∨ table = "" ∨ name = "" then never
  else
    "SELECT " ++ value ++ " AS " ++ columnMarker relatedValue ++ " FROM " ++ tableMarker table ++
      " " ++ tableMarker name ++ joins ++ " WHERE " ++ columnMarker (name ++ ".id") ++ " = " ++
      columnMarker (target ++ ".id")

/-- Whether a list of sources can yield a row at all, given their texts. -/
def canYield (sources : List (String × String)) : Bool :=
  !sources.isEmpty && sources.all (·.1 ≠ never)

/-- The text of a condition on related values. -/
def someRelatedText (sources : List (String × String)) (condition : String) : String :=
  if canYield sources then
    "EXISTS (SELECT 1 FROM " ++
      ", ".intercalate (sources.map fun (text, name) =>
        parenthesised text ++ " " ++ tableMarker name) ++
      " WHERE " ++ condition ++ ")"
  else never

mutual

/-- The text of a fragment. -/
def text : Fragment → String
  | raw text _ => text
  | all parts => joinTexts " AND " (texts parts)
  | any parts => joinTexts " OR " (texts parts)
  | enclose part => if part.text = "" then "" else parenthesised part.text
  | related target table name value joins _ =>
    relatedText target table name value (joinsText joins)
  | someRelated sources condition => someRelatedText (sourceTexts sources) condition.text

/-- The texts of several fragments. -/
def texts : List Fragment → List String
  | [] => []
  | part :: parts => part.text :: texts parts

/-- The text of joined tables. -/
def joinsText : List (JoinedTable Fragment) → String
  | [] => ""
  | ⟨table, name, condition⟩ :: joins => joinText table name condition.text ++ joinsText joins

/-- The texts of sources, with their names. -/
def sourceTexts : List (Fragment × String) → List (String × String)
  | [] => []
  | (source, name) :: sources => (source.text, name) :: sourceTexts sources

end

mutual

/-- The values of a fragment, later ones winning.  A selection without its tables' names and a
condition that cannot hold have none. -/
def params : Fragment → Params
  | raw _ params => params
  | all parts => partsParams parts
  | any parts => partsParams parts
  | enclose part => part.params
  | related target table name _ joins params =>
    if target = "" ∨ table = "" ∨ name = "" then .empty else params.merge (joinsParams joins)
  | someRelated sources condition =>
    if canYield (sourceTexts sources) then (sourcesParams sources).merge condition.params
    else .empty

/-- The values of several fragments. -/
def partsParams : List Fragment → Params
  | [] => .empty
  | part :: parts => part.params.merge (partsParams parts)

/-- The values of the conditions of joined tables. -/
def joinsParams : List (JoinedTable Fragment) → Params
  | [] => .empty
  | ⟨_, _, condition⟩ :: joins => condition.params.merge (joinsParams joins)

/-- The values of sources. -/
def sourcesParams : List (Fragment × String) → Params
  | [] => .empty
  | (source, _) :: sources => source.params.merge (sourcesParams sources)

end

/-- The text of a fragment, and the values of the surroundings with those of the fragment. -/
def build (fragment : Fragment) (surroundings : Params) : String × Params :=
  (fragment.text, surroundings.merge fragment.params)

/-! ### Lists of fragments -/

theorem texts_eq_map (parts : List Fragment) : texts parts = parts.map text := by
  induction parts with
  | nil => rfl
  | cons part parts ih => simp [texts, ih]

theorem sourceTexts_eq_map (sources : List (Fragment × String)) :
    sourceTexts sources = sources.map fun (source, name) => (source.text, name) := by
  induction sources with
  | nil => rfl
  | cons source sources ih => simp [sourceTexts, ih]

theorem partsParams_append (parts others : List Fragment) :
    partsParams (parts ++ others) = (partsParams parts).merge (partsParams others) := by
  induction parts with
  | nil => simp [partsParams]
  | cons part parts ih => simp [partsParams, ih, Params.merge_assoc]

end Fragment

end PagedSearch
