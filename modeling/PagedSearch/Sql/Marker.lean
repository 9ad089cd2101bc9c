import PagedSearch.Error
import PagedSearch.Sql.Value
import PagedSearch.Text.Cut

/-!
# Markers

The text of a fragment is read as a sequence of markers, string literals and single characters.  A
string literal runs from one single quote to the next that is not doubled, or to the end of the
text; nothing inside it is a marker.

## Main definitions

* `Column` — a column, or all columns of a table.
* `Marker`, `markers` — the pieces of a fragment's text.
* `Argument`, `Item`, `Marker.bind` — a piece once its value has been looked up.
-/

namespace PagedSearch

/-- A column as a statement refers to it. -/
inductive Column where
  /-- All columns, of one table if given. -/
  | wildcard (table : Option (List Char))
  /-- One column, behind the names of its table and schema if given. -/
  | named (path : List (List Char))
  deriving DecidableEq

/-- The parts of a text between its first `count` dots. -/
def splitDots : Nat → List Char → List (List Char)
  | 0, text => [text]
  | count + 1, text =>
    match text.dropWhile (· ≠ '.') with
    | [] => [text]
    | _ :: rest => text.takeWhile (· ≠ '.') :: splitDots count rest

/-- The column with the given name, which its schema and table may precede. -/
def Column.ofText (text : List Char) : Column :=
  match splitDots 2 text with
  | [['*']] => .wildcard none
  | [table, ['*']] => .wildcard (some table)
  | path => .named path

/-- A piece of a fragment's text. -/
inductive Marker where
  /-- A string literal with its quotes. -/
  | literal (text : List Char)
  /-- `[[name]]` -/
  | column (name : List Char)
  /-- `{{name}}` -/
  | table (name : List Char)
  /-- `{:name}` -/
  | param (name : List Char)
  /-- Any other character. -/
  | char (c : Char)
  deriving DecidableEq

namespace Marker

/-- How many of the characters behind an opening quote belong to the string literal. -/
def literalLength : List Char → Nat
  | [] => 0
  | '\'' :: '\'' :: rest => literalLength rest + 2
  | '\'' :: _ => 1
  | _ :: rest => literalLength rest + 1

/-- The text in front of the first occurrence of `close`. -/
def before? (close : List Char) : List Char → Option (List Char)
  | [] => if close.isEmpty then some [] else none
  | c :: rest =>
    if close.isPrefixOf (c :: rest) then some [] else (before? close rest).map (c :: ·)

/-- The name in a marker, given the text behind its opening.  A name is not empty, and neither a
line break nor a single quote is in it. -/
def name? (close body : List Char) : Option (List Char) :=
  (before? close body).filter fun name =>
    !name.isEmpty && !name.contains '\n' && !name.contains '\''

/-- The marker that starts with `first`, and how many characters of `rest` are in it. -/
def read? (first : Char) (rest : List Char) : Option (Marker × Nat) :=
  match first, rest with
  | '[', '[' :: body =>
    (name? [']', ']'] body).map fun name => (.column (Text.trimChars name), name.length + 3)
  | '{', '{' :: body =>
    (name? ['}', '}'] body).map fun name => (.table (Text.trimChars name), name.length + 3)
  | '{', ':' :: body => (name? ['}'] body).map fun name => (.param name, name.length + 2)
  | _, _ => none

/-- The piece of a fragment's text that starts with `first`, and how many characters of `rest` are
in it. -/
def read (first : Char) (rest : List Char) : Marker × Nat :=
  if first = '\'' then
    let length := literalLength rest
    (.literal (first :: rest.take length), length)
  else (read? first rest).getD (.char first, 0)

end Marker

/-- The pieces of a fragment's text. -/
def markers (text : List Char) : List Marker :=
  (Text.cut Marker.read text).map Prod.fst

/-- What a statement has in place of a marker. -/
inductive Argument where
  /-- A column or a table. -/
  | column (column : Column)
  /-- A bound value. -/
  | value (value : Value)
  /-- A text that no one is to look into. -/
  | verbatim (text : List Char)
  deriving DecidableEq

/-- A piece of a fragment's text whose value is known. -/
inductive Item where
  /-- A text that is kept as it is. -/
  | literal (text : List Char)
  /-- A character. -/
  | char (c : Char)
  /-- An argument. -/
  | argument (argument : Argument)
  deriving DecidableEq

/-- The piece with its value.  A string literal with a backslash becomes an argument, since the
printer of templates gives the backslash a meaning that it does not have here. -/
def Marker.bind (params : Params) : Marker → Except SearchError Item
  | literal text => .ok (if text.contains '\\' then .argument (.verbatim text) else .literal text)
  | column name => .ok (.argument (.column (.ofText name)))
  | table name => .ok (.argument (.column (.named [name])))
  | param name =>
    match params.get? (String.ofList name) with
    | some value => .ok (.argument (.value value))
    | none => .error (.missingParam (String.ofList name))
  | char c => .ok (.char c)

end PagedSearch
