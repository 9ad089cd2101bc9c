import PagedSearch.Proofs.Paging

/-!
# The phases of a search

A search first finds out whether it can be carried out at all: whether there is a query to search in
and a database of the right kind, whether the request stays within the limits, and whether its
filters and then its fields to sort by can be compiled, one after the other.  The first of these
that fails ends the search.  If none does, the resolver is shown the query, which may end the search
too.  Only then is the database asked for the number of rows and for a page of them.

## Main definitions

* `SearchRequest.Exceeds`, `SearchRequest.IsWithin` — requests against the limits.
* `SearchRequest.Refuses` — a search ends before its request is compiled.
* `SearchRequest.Compiles` — all filters and fields to sort by are compiled.
* `SearchRequest.StopsAt`, `SearchRequest.Prepares` — a search ends before it asks the database, or
  has a query to ask it.

## Main results

* `SearchRequest.refuses_or_compiles`, `SearchRequest.stopsAt_or_prepares` — one of the two happens.
* `SearchRequest.StopsAt.outcome_runSearch` — a search that stops ends there, with that error.
* `SearchRequest.Prepares.outcome_runSearch` — a search that does not goes on with its query.
-/

namespace PagedSearch

open Search

/-- The query with conditions and terms of its order behind its own. -/
def SelectQuery.refined (base : SelectQuery) (conditions : List Fragment) (terms : List String) :
    SelectQuery :=
  { base with
    conditions := base.conditions ++ conditions
    orderTerms := base.orderTerms ++ terms }

namespace SearchRequest

/-! ### Limits -/

/-- The request stays within the limits. -/
structure IsWithin (config : Config) (request : SearchRequest) : Prop where
  /-- No filter is too long. -/
  filterLength : ∀ filter ∈ request.filters, filter.utf8ByteSize ≤ config.maxFilterLength
  /-- There are not too many fields to sort by. -/
  sortFieldCount : request.sort.length ≤ config.maxSortFields
  /-- No field to sort by is too long. -/
  sortFieldLength : ∀ field ∈ request.sort, field.name.utf8ByteSize ≤ config.maxSortFieldLength

/-- The request exceeds a limit; the error is about the first limit that it exceeds. -/
inductive Exceeds (config : Config) (request : SearchRequest) : SearchError → Prop where
  /-- A filter is too long. -/
  | filterLength {filter : String} : filter ∈ request.filters →
      config.maxFilterLength < filter.utf8ByteSize →
        Exceeds config request (.limitExceeded .filterLength config.maxFilterLength)
  /-- There are too many fields to sort by. -/
  | sortFieldCount :
      (∀ filter ∈ request.filters, filter.utf8ByteSize ≤ config.maxFilterLength) →
      config.maxSortFields < request.sort.length →
        Exceeds config request (.limitExceeded .sortFieldCount config.maxSortFields)
  /-- A field to sort by is too long. -/
  | sortFieldLength {field : SortField} :
      (∀ filter ∈ request.filters, filter.utf8ByteSize ≤ config.maxFilterLength) →
      request.sort.length ≤ config.maxSortFields → field ∈ request.sort →
      config.maxSortFieldLength < field.name.utf8ByteSize →
        Exceeds config request (.limitExceeded .sortFieldLength config.maxSortFieldLength)

theorem IsWithin.not_exceeds {config : Config} {request : SearchRequest} {e : SearchError}
    (h : request.IsWithin config) : ¬ request.Exceeds config e := by
  rintro (⟨hmem, hlong⟩ | ⟨-, hmany⟩ | ⟨-, -, hmem, hlong⟩)
  · exact absurd (h.filterLength _ hmem) (Nat.not_le_of_lt hlong)
  · exact absurd h.sortFieldCount (Nat.not_le_of_lt hmany)
  · exact absurd (h.sortFieldLength _ hmem) (Nat.not_le_of_lt hlong)

/-- A request exceeds a limit, or stays within all of them. -/
theorem isWithin_or_exceeds (config : Config) (request : SearchRequest) :
    request.IsWithin config ∨ ∃ e, request.Exceeds config e := by
  by_cases hfilters : ∀ filter ∈ request.filters, filter.utf8ByteSize ≤ config.maxFilterLength
  · rcases Nat.lt_or_ge config.maxSortFields request.sort.length with hmany | hcount
    · exact .inr ⟨_, .sortFieldCount hfilters hmany⟩
    · by_cases hfields : ∀ field ∈ request.sort,
        field.name.utf8ByteSize ≤ config.maxSortFieldLength
      · exact .inl ⟨hfilters, hcount, hfields⟩
      · push Not at hfields
        obtain ⟨field, hmem, hlong⟩ := hfields
        exact .inr ⟨_, .sortFieldLength hfilters hcount hmem hlong⟩
  · push Not at hfilters
    obtain ⟨filter, hmem, hlong⟩ := hfilters
    exact .inr ⟨_, .filterLength hmem hlong⟩

theorem IsWithin.checkLimits_eq_ok {config : Config} {request : SearchRequest}
    (h : request.IsWithin config) : checkLimits config request = .ok () := by
  unfold checkLimits
  rw [if_neg (by simpa using h.filterLength), if_neg (Nat.not_lt_of_le h.sortFieldCount),
    if_neg (by simpa using h.sortFieldLength)]

theorem Exceeds.checkLimits_eq_error {config : Config} {request : SearchRequest} {e : SearchError}
    (h : request.Exceeds config e) : checkLimits config request = .error e := by
  unfold checkLimits
  cases h with
  | filterLength hmem hlong =>
    rw [if_pos (List.any_eq_true.mpr ⟨_, hmem, decide_eq_true hlong⟩)]
  | sortFieldCount hfilters hmany => rw [if_neg (by simpa using hfilters), if_pos hmany]
  | sortFieldLength hfilters hcount hmem hlong =>
    rw [if_neg (by simpa using hfilters), if_neg (Nat.not_lt_of_le hcount),
      if_pos (List.any_eq_true.mpr ⟨_, hmem, decide_eq_true hlong⟩)]

/-! ### Requests that are compiled -/

/-- Nothing keeps the request from being compiled: it has a query to search in, the database is of
the right kind, and no limit is exceeded. -/
structure IsAdmitted (config : Config) (backend : Backend) (request : SearchRequest)
    (base : SelectQuery) : Prop where
  /-- The query to search in. -/
  query : request.query = some base
  /-- The kind of database. -/
  backend : backend = .sqlite
  /-- The limits. -/
  limits : request.IsWithin config

section Phases

variable {ω ρ : Type} (context : Context ω) (resolver : Resolver ω) (backend : Backend)
  (request : SearchRequest) (s : Session ω)

/-- All filters of the request are compiled, one after the other, and then all fields to sort by. -/
structure Compiles (base : SelectQuery) (conditions : List Fragment) (terms : List String)
    (t : Session ω) : Prop where
  /-- Nothing keeps it from being compiled. -/
  admitted : request.IsAdmitted context.config backend base
  /-- The filters and the fields are compiled. -/
  compiled : ∃ u, outcome (request.filters.mapM (compileFilter context resolver)) s =
      (.ok conditions, u) ∧
    outcome (request.sort.mapM (SortField.term resolver)) u = (.ok terms, t)

/-- The search ends with an error before its request is compiled.  The error is the first one:
whatever could have failed before has not. -/
inductive Refuses : SearchError → Session ω → Prop where
  /-- There is no query. -/
  | query : request.query = none → Refuses .missingQuery s
  /-- The database is of another kind. -/
  | backend {base : SelectQuery} : request.query = some base → backend ≠ .sqlite →
      Refuses (.unsupportedBackend backend) s
  /-- A limit is exceeded. -/
  | limit {base : SelectQuery} {e : SearchError} : request.query = some base →
      backend = .sqlite → request.Exceeds context.config e → Refuses e s
  /-- A filter cannot be compiled, and all filters before it can. -/
  | filter {base : SelectQuery} {before after : List String} {filter : String}
      {conditions : List Fragment} {e : SearchError} {t u : Session ω} :
      request.IsAdmitted context.config backend base →
      request.filters = before ++ filter :: after →
      outcome (before.mapM (compileFilter context resolver)) s = (.ok conditions, t) →
      outcome (compileFilter context resolver filter) t = (.error e, u) → Refuses e u
  /-- A field to sort by cannot be compiled, and all filters and all fields before it can. -/
  | sortField {base : SelectQuery} {before after : List SortField} {field : SortField}
      {conditions : List Fragment} {terms : List String} {e : SearchError} {t u v : Session ω} :
      request.IsAdmitted context.config backend base →
      outcome (request.filters.mapM (compileFilter context resolver)) s = (.ok conditions, t) →
      request.sort = before ++ field :: after →
      outcome (before.mapM (SortField.term resolver)) t = (.ok terms, u) →
      outcome (field.term resolver) u = (.error e, v) → Refuses e v

/-- The search ends with an error before it asks the database: its request is not compiled, or the
resolver fails when it is shown the query. -/
def StopsAt (e : SearchError) (t : Session ω) : Prop :=
  request.Refuses context resolver backend s e t ∨
    ∃ base conditions terms u, request.Compiles context resolver backend s base conditions terms u ∧
      outcome (inWorld (resolver.updateQuery (base.refined conditions terms))) u = (.error e, t)

/-- The search has a query to ask the database. -/
def Prepares (query : SelectQuery) (t : Session ω) : Prop :=
  ∃ base conditions terms u, request.Compiles context resolver backend s base conditions terms u ∧
    outcome (inWorld (resolver.updateQuery (base.refined conditions terms))) u = (.ok query, t)

/-- Either the request is compiled, or the search ends before. -/
theorem refuses_or_compiles :
    (∃ e t, request.Refuses context resolver backend s e t) ∨
      ∃ base conditions terms t,
        request.Compiles context resolver backend s base conditions terms t := by
  cases hquery : request.query with
  | none => exact .inl ⟨_, _, .query hquery⟩
  | some base =>
    by_cases hbackend : backend = .sqlite
    · rcases isWithin_or_exceeds context.config request with hlimits | ⟨e, hexceeds⟩
      · have hadmitted : request.IsAdmitted context.config backend base :=
          ⟨hquery, hbackend, hlimits⟩
        rcases hfilters : outcome (request.filters.mapM (compileFilter context resolver)) s
          with ⟨e | conditions, t⟩
        · obtain ⟨before, filter, after, conditions, u, hsplit, hbefore, hfilter⟩ :=
            outcome_mapM_eq_error.mp hfilters
          exact .inl ⟨e, t, .filter hadmitted hsplit hbefore hfilter⟩
        · rcases hsort : outcome (request.sort.mapM (SortField.term resolver)) t with ⟨e | terms, u⟩
          · obtain ⟨before, field, after, terms, v, hsplit, hbefore, hfield⟩ :=
              outcome_mapM_eq_error.mp hsort
            exact .inl ⟨e, u, .sortField hadmitted hfilters hsplit hbefore hfield⟩
          · exact .inr ⟨base, conditions, terms, u, hadmitted, t, hfilters, hsort⟩
      · exact .inl ⟨e, s, .limit hquery hbackend hexceeds⟩
    · exact .inl ⟨_, s, .backend hquery hbackend⟩

/-- Either the search has a query to ask the database, or it ends before. -/
theorem stopsAt_or_prepares :
    (∃ e t, request.StopsAt context resolver backend s e t) ∨
      ∃ query t, request.Prepares context resolver backend s query t := by
  rcases refuses_or_compiles context resolver backend request s with
    ⟨e, t, hrefuses⟩ | ⟨base, conditions, terms, u, hcompiles⟩
  · exact .inl ⟨e, t, .inl hrefuses⟩
  · rcases hupdate : outcome (inWorld (resolver.updateQuery (base.refined conditions terms))) u
      with ⟨e | query, t⟩
    · exact .inl ⟨e, t, .inr ⟨base, conditions, terms, u, hcompiles, hupdate⟩⟩
    · exact .inr ⟨query, t, base, conditions, terms, u, hcompiles, hupdate⟩

variable {context resolver backend request s}

theorem Refuses.not_compiles {e : SearchError} {t : Session ω}
    (h : request.Refuses context resolver backend s e t) :
    ¬ ∃ base conditions terms u,
      request.Compiles context resolver backend s base conditions terms u := by
  rintro ⟨base, conditions, terms, u, ⟨hquery, hbackend, hlimits⟩, v, hfilters, hsort⟩
  cases h with
  | query hnone => cases hnone.symm.trans hquery
  | backend _ hother => exact hother hbackend
  | limit _ _ hexceeds => exact hlimits.not_exceeds hexceeds
  | filter _ hsplit hbefore hfilter =>
    have herror := outcome_mapM_eq_error.mpr ⟨_, _, _, _, _, hsplit, hbefore, hfilter⟩
    cases (Prod.mk.inj (herror.symm.trans hfilters)).1
  | sortField _ hfilters' hsplit hbefore hfield =>
    obtain ⟨-, rfl⟩ := Prod.mk.inj (hfilters'.symm.trans hfilters)
    have herror := outcome_mapM_eq_error.mpr ⟨_, _, _, _, _, hsplit, hbefore, hfield⟩
    cases (Prod.mk.inj (herror.symm.trans hsort)).1

/-! ### Runs -/

section Runs

variable {connection : Connection ω ρ} {base query : SelectQuery} {e : SearchError}
  {conditions : List Fragment} {terms : List String} {t u : Session ω}

theorem Compiles.outcome_compileQuery
    (h : request.Compiles context resolver backend s base conditions terms t) :
    outcome (compileQuery context resolver base request.filters request.sort) s =
      outcome (inWorld (resolver.updateQuery (base.refined conditions terms))) t := by
  obtain ⟨-, v, hfilters, hsort⟩ := h
  unfold compileQuery
  rw [outcome_bind_of_ok hfilters, outcome_bind_of_ok hsort]
  rfl

/-- An error of the query is the error of the search. -/
theorem IsAdmitted.outcome_runSearch
    (h : request.IsAdmitted context.config connection.backend base)
    (hcompile : outcome (compileQuery context resolver base request.filters request.sort) s =
      (.error e, t)) :
    outcome (runSearch context resolver connection request) s = (.error e, t) := by
  unfold runSearch
  rw [h.query]
  dsimp only
  rw [if_neg (not_not.mpr h.backend), h.limits.checkLimits_eq_ok,
    outcome_bind_of_ok (t := s) (by rfl), outcome_bind_of_error hcompile]

/-- A search whose request is not compiled ends there, with that error. -/
theorem Refuses.outcome_runSearch
    (h : request.Refuses context resolver connection.backend s e t) :
    outcome (runSearch context resolver connection request) s = (.error e, t) := by
  cases h with
  | query hquery =>
    unfold runSearch
    rw [hquery]
    rfl
  | backend hquery hbackend =>
    unfold runSearch
    rw [hquery]
    dsimp only
    rw [if_pos hbackend]
    rfl
  | limit hquery hbackend hexceeds =>
    unfold runSearch
    rw [hquery]
    dsimp only
    rw [if_neg (not_not.mpr hbackend), hexceeds.checkLimits_eq_error,
      outcome_bind_of_error (t := s) (by rfl)]
  | filter hadmitted hsplit hbefore hfilter =>
    refine hadmitted.outcome_runSearch ?_
    unfold compileQuery
    exact outcome_bind_of_error
      (outcome_mapM_eq_error.mpr ⟨_, _, _, _, _, hsplit, hbefore, hfilter⟩)
  | sortField hadmitted hfilters hsplit hbefore hfield =>
    refine hadmitted.outcome_runSearch ?_
    unfold compileQuery
    rw [outcome_bind_of_ok hfilters]
    exact outcome_bind_of_error
      (outcome_mapM_eq_error.mpr ⟨_, _, _, _, _, hsplit, hbefore, hfield⟩)

/-- A search that stops before it asks the database ends there, with that error. -/
theorem StopsAt.outcome_runSearch
    (h : request.StopsAt context resolver connection.backend s e t) :
    outcome (runSearch context resolver connection request) s = (.error e, t) := by
  rcases h with hrefuses | ⟨base, conditions, terms, u, hcompiles, hupdate⟩
  · exact hrefuses.outcome_runSearch
  · exact hcompiles.admitted.outcome_runSearch (hcompiles.outcome_compileQuery.trans hupdate)

/-- A search with a query goes on to fetch its window, once the rows are counted. -/
theorem Prepares.outcome_runSearch {total : Option Int}
    (h : request.Prepares context resolver connection.backend s query t)
    (hcounts : request.Counts connection query t u total) :
    outcome (runSearch context resolver connection request) s =
      outcome (fetchWindow connection query (request.window context.config total) total) u := by
  obtain ⟨base, conditions, terms, v, hcompiles, hupdate⟩ := h
  have hadmitted := hcompiles.admitted
  exact PagedSearch.outcome_runSearch hadmitted.query hadmitted.backend
    hadmitted.limits.checkLimits_eq_ok (hcompiles.outcome_compileQuery.trans hupdate) hcounts

/-- If the rows cannot be counted, the search fails for the same reason. -/
theorem Prepares.outcome_runSearch_of_error
    (h : request.Prepares context resolver connection.backend s query t)
    (hcount : request.skipTotal = false)
    (htotal : outcome (fetchTotal connection query request.countColumn) t = (.error e, u)) :
    outcome (runSearch context resolver connection request) s = (.error e, u) := by
  obtain ⟨base, conditions, terms, v, hcompiles, hupdate⟩ := h
  have hadmitted := hcompiles.admitted
  unfold runSearch
  rw [hadmitted.query]
  dsimp only
  rw [if_neg (not_not.mpr hadmitted.backend), hadmitted.limits.checkLimits_eq_ok,
    outcome_bind_of_ok (t := s) (by rfl),
    outcome_bind_of_ok (hcompiles.outcome_compileQuery.trans hupdate),
    if_neg (by rw [hcount]; decide)]
  exact outcome_bind_of_error htotal

/-- A search that stops before it asks the database has no query to ask it. -/
theorem StopsAt.not_prepares (h : request.StopsAt context resolver backend s e t) :
    ¬ ∃ query u, request.Prepares context resolver backend s query u := by
  rintro ⟨query, u, base, conditions, terms, v, hcompiles, hupdate⟩
  rcases h with hrefuses | ⟨base', conditions', terms', v', hcompiles', hupdate'⟩
  · exact hrefuses.not_compiles ⟨base, conditions, terms, v, hcompiles⟩
  · obtain rfl := Option.some.inj (hcompiles.admitted.query.symm.trans hcompiles'.admitted.query)
    have hreached := (hcompiles'.outcome_compileQuery.trans hupdate').symm.trans
      (hcompiles.outcome_compileQuery.trans hupdate)
    cases (Prod.mk.inj hreached).1

/-- What a search prepares is determined by where it starts. -/
theorem Prepares.unique {query' : SelectQuery} {t' : Session ω}
    (h : request.Prepares context resolver backend s query t)
    (h' : request.Prepares context resolver backend s query' t') : query' = query ∧ t' = t := by
  obtain ⟨base, conditions, terms, u, hcompiles, hupdate⟩ := h
  obtain ⟨base', conditions', terms', u', hcompiles', hupdate'⟩ := h'
  obtain rfl := Option.some.inj (hcompiles.admitted.query.symm.trans hcompiles'.admitted.query)
  have hreached := (hcompiles'.outcome_compileQuery.trans hupdate').symm.trans
    (hcompiles.outcome_compileQuery.trans hupdate)
  obtain ⟨hresult, rfl⟩ := Prod.mk.inj hreached
  exact ⟨Except.ok.inj hresult, rfl⟩

end Runs

end Phases

end SearchRequest

end PagedSearch
