/-!
# Databases

The kinds of databases that statements are written for, and what differs between their dialects.

## Main definitions

* `Backend` — the databases.
* `Backend.quote`, `Backend.mark`, `Backend.isNumbered` — how identifiers are quoted, and how the
  place of a value is marked.
-/

namespace PagedSearch

/-- A kind of database. -/
inductive Backend where
  /-- SQLite. -/
  | sqlite
  /-- PostgreSQL. -/
  | postgres
  /-- MySQL. -/
  | mysql
  deriving DecidableEq

namespace Backend

/-- The name of a database in messages. -/
def describe : Backend → String
  | sqlite => "Sqlite"
  | postgres => "Postgres"
  | mysql => "MySql"

/-- The character around identifiers. -/
def quote : Backend → Char
  | sqlite => '"'
  | postgres => '"'
  | mysql => '\x60'

/-- The character that marks the place of a value. -/
def mark : Backend → Char
  | sqlite => '?'
  | postgres => '$'
  | mysql => '?'

/-- Whether the number of the value follows its mark. -/
def isNumbered : Backend → Bool
  | sqlite => false
  | postgres => true
  | mysql => false

end Backend

end PagedSearch
