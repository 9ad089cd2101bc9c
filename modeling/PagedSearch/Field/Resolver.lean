import PagedSearch.Sql.Select

/-!
# Fields and what they stand for

A client names fields, and a resolver says what SQL they stand for.  A resolver has a memory of its
own: while it resolves fields it may note which tables have to be joined, and it joins them at the
end, when it is shown the query.

## Main definitions

* `NullPolicy` — what equality makes of a missing value.
* `Resolved` — the SQL that an operand stands for.
* `Resolver` — what turns the names of fields into SQL.
-/

namespace PagedSearch

/-- What `=` and `!=` make of an operand that has no value. -/
inductive NullPolicy where
  /-- It equals the empty text, unless the other operand is `disabled`. -/
  | automatic
  /-- It equals the empty text in any case. -/
  | enforced
  /-- It equals only an operand that has no value either. -/
  | disabled
  deriving DecidableEq

/-- The SQL that an operand stands for. -/
structure Resolved where
  /-- The expression; an empty one stands for nothing. -/
  identifier : String
  /-- The values that the expression refers to. -/
  params : Params := .empty
  /-- If the operand can have several values in a row, the selection of all of them. -/
  related : Option Fragment := none
  /-- What the comparison that the operand takes part in is put into. -/
  wrap : Option (Fragment → Fragment) := none
  /-- What equality makes of a missing value. -/
  nullPolicy : NullPolicy := .automatic

/-- The SQL of an operand that is an expression without values. -/
def Resolved.ofIdentifier (identifier : String) : Resolved := { identifier }

/-- What turns the names of fields into SQL, with a memory of type `ω`. -/
structure Resolver (ω : Type) where
  /-- What a field stands for, if it may be searched at all. -/
  resolve : String → ExceptT SearchError (StateM ω) Resolved
  /-- The query with all that the resolved fields need. -/
  updateQuery : SelectQuery → ExceptT SearchError (StateM ω) SelectQuery

end PagedSearch
