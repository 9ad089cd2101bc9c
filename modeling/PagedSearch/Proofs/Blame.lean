import PagedSearch.Proofs.Conjuncts
import PagedSearch.Proofs.Narrowing
import PagedSearch.Proofs.Protocol

/-!
# Who is to blame

A search may fail because of what the client wrote, because of what the program has set up, or because
of the database.  The program is not to blame for what it cannot know: if its query can be returned
and counted by itself, then what a client adds to it either fails by the client's own fault, before
the database is asked, or leads to statements that can be issued.

## Main definitions

* `Search.BlamesClient` — actions that fail only by the fault of the client.
* `SearchRequest.IsSetUp` — requests whose query can be returned and counted by itself.
* `SearchRequest.Ends` — the ends that a search may come to.

## Main results

* `SearchRequest.read_eq_error` — what a client sends is refused only by the client's fault.
* `SearchRequest.Refuses.isClientError` — so is a request that cannot be compiled.
* `SearchRequest.Prepares.exists_statements` — else there are statements for it.
* `client_to_blame` — a client can cause only errors that it is to blame for.
-/

namespace PagedSearch

open Search

variable {ω ρ α β : Type}

/-! ### Actions -/

/-- The action fails only with errors that the client is to blame for. -/
def Search.BlamesClient (action : Search ω α) : Prop :=
  ∀ (s t : Session ω) (e : SearchError), outcome action s = (.error e, t) → e.isClientError = true

namespace Search.BlamesClient

theorem pure (a : α) : BlamesClient (Pure.pure a : Search ω α) := by
  rintro s t e ⟨⟩

theorem throw {e : SearchError} (h : e.isClientError = true) :
    BlamesClient (MonadExcept.throw e : Search ω α) := by
  rintro s t _ ⟨⟩
  exact h

theorem bind {action : Search ω α} {next : α → Search ω β} (h : action.BlamesClient)
    (hnext : ∀ a, (next a).BlamesClient) : BlamesClient (action >>= next) := by
  intro s t e herror
  rcases outcome_bind_eq_error.mp herror with hfirst | ⟨a, u, -, hsecond⟩
  · exact h s t e hfirst
  · exact hnext a u t e hsecond

/-- An error that is explained is another error. -/
theorem explain {f : SearchError → SearchError} (h : ∀ cause, (f cause).isClientError = true)
    (action : Search ω α) : BlamesClient (Search.explain f action) := by
  intro s t e herror
  rw [outcome_explain] at herror
  generalize outcome action s = reached at herror
  obtain ⟨cause | a, u⟩ := reached
  · obtain rfl := Except.error.inj (Prod.mk.inj herror).1
    exact h cause
  · cases (Prod.mk.inj herror).1

theorem mapM {f : α → Search ω β} (h : ∀ a, (f a).BlamesClient) (members : List α) :
    BlamesClient (members.mapM f) := by
  intro s t e herror
  obtain ⟨_, member, _, _, u, -, -, hmember⟩ := outcome_mapM_eq_error.mp herror
  exact h member u t e hmember

end Search.BlamesClient

theorem eq_error_of_map {result : Except SearchError α} {f : α → β} {e : SearchError}
    (h : result.map f = .error e) : result = .error e := by
  cases result with
  | error cause => exact congrArg _ (Except.error.inj h)
  | ok a => cases h

/-! ### Filters and fields to sort by -/

section Compile

variable (context : Context ω) (resolver : Resolver ω)

/-- Whatever a resolver or a function reports, the side of the comparison is to blame. -/
theorem resolveSide_blamesClient (side : Side) (operand : Operand) :
    (resolveSide context resolver side operand).BlamesClient := by
  unfold resolveSide
  refine (BlamesClient.explain (fun _ => rfl) _).bind fun resolved => ?_
  split
  · exact .throw rfl
  · exact .pure _

theorem relatedSide_blamesClient (side : Side) (operand : Resolved) :
    (relatedSide context side operand).BlamesClient := by
  have hdraw : (draw context.names (relatedStem side) 5 : Search ω String).BlamesClient := by
    rintro s t e ⟨⟩
  unfold relatedSide
  split
  · exact hdraw.bind fun _ => .pure _
  · exact .pure _

theorem compare_blamesClient (left : Resolved) (comparator : Comparator) (right : Resolved) :
    (compare context left comparator right).BlamesClient := by
  unfold compare
  dsimp only
  split
  · exact .pure _
  · exact (relatedSide_blamesClient context _ _).bind fun _ =>
      (relatedSide_blamesClient context _ _).bind fun _ => .pure _

theorem compileStep_blamesClient (step : Option Comparison) :
    (compileStep context resolver step).BlamesClient := by
  cases step with
  | none => exact .throw rfl
  | some comparison =>
    exact (resolveSide_blamesClient context resolver _ _).bind fun left =>
      (resolveSide_blamesClient context resolver _ _).bind fun right =>
        compare_blamesClient context left _ right

theorem parsed_blamesClient (filter : String) :
    (Search.parsed filter : Search ω (List Group)).BlamesClient := by
  intro s t e herror
  have hresult : (s.cache.getOrParse parse filter).1.mapError .parse = .error e :=
    (Prod.mk.inj herror).1
  generalize (s.cache.getOrParse parse filter).1 = read at hresult
  obtain cause | groups := read
  · obtain rfl := Except.error.inj hresult
    rfl
  · cases hresult

/-- **A filter that cannot be compiled is the fault of the client**, whatever resolver it asks. -/
theorem compileFilter_blamesClient (filter : String) :
    (compileFilter context resolver filter).BlamesClient := by
  unfold compileFilter
  refine (parsed_blamesClient filter).bind fun groups s t e herror => ?_
  exact BlamesClient.mapM (compileStep_blamesClient context resolver) (stepsOf groups) s t e
    (compileGroups_eq_error herror)

/-- So is a field that cannot be sorted by. -/
theorem term_blamesClient (field : SortField) : (field.term resolver).BlamesClient := by
  unfold SortField.term
  split
  · exact .pure _
  · split
    · exact .pure _
    · refine (BlamesClient.explain (fun _ => rfl) _).bind fun resolved => ?_
      split
      · exact .pure _
      · exact .throw rfl

end Compile

namespace SearchRequest

/-! ### Parameters -/

section Read

variable {request : SearchRequest} {values : QueryValues} {e : SearchError}

theorem set_eq_error {param : QueryParam} {value : String} (h : request.set param value = .error e) :
    e = .invalidQueryParam param value := by
  have hint {param : QueryParam} {f : Int → SearchRequest}
      (h : (return f (← readInt param value) : Except SearchError SearchRequest) = .error e) :
      e = .invalidQueryParam param value := by
    unfold readInt at h
    split at h
    · cases h
    · exact (Except.error.inj h).symm
  cases param with
  | page => exact hint h
  | perPage => exact hint h
  | sort => cases h
  | filter => cases h
  | skipTotal =>
    unfold set readBool at h
    dsimp only at h
    split at h
    · cases h
    · exact (Except.error.inj h).symm

theorem readParams_eq_error {params : List QueryParam}
    (h : (readParams values request params).2 = .error e) :
    ∃ param ∈ params, ∃ value, values.present? param = some value ∧
      e = .invalidQueryParam param value := by
  induction params generalizing request with
  | nil => cases h
  | cons param rest ih =>
    rw [readParams] at h
    split at h
    · obtain ⟨later, hlater, found⟩ := ih h
      exact ⟨later, List.mem_cons_of_mem _ hlater, found⟩
    · rename_i value hvalue
      split at h
      · obtain ⟨later, hlater, found⟩ := ih h
        exact ⟨later, List.mem_cons_of_mem _ hlater, found⟩
      · rename_i cause hset
        obtain rfl := Except.error.inj h
        exact ⟨param, List.mem_cons_self, value, hvalue, set_eq_error hset⟩

/-- What a client sends is refused only for the value of a parameter that it has set. -/
theorem read_eq_error (h : (request.read values).2 = .error e) :
    ∃ param value, values.present? param = some value ∧ e = .invalidQueryParam param value := by
  obtain ⟨param, -, found⟩ := readParams_eq_error h
  exact ⟨param, found⟩

end Read

theorem Exceeds.isClientError {config : Config} {request : SearchRequest} {e : SearchError}
    (h : request.Exceeds config e) : e.isClientError = true := by
  cases h <;> rfl

/-- What the program has set up: there is a query to search in, no string literal and no marker is
left open in its conditions, and it can be returned and counted as it is. -/
structure IsSetUp (request : SearchRequest) (base : SelectQuery) : Prop where
  /-- The query. -/
  query : request.query = some base
  /-- Its conditions, joined, are closed; they are if each of them is. -/
  closed : leavesOpen base.condition.text.toList = false
  /-- Its rows can be returned. -/
  returned : ∃ data, base.dataStatement .sqlite = .ok data
  /-- Its rows can be counted. -/
  counted : ∃ count, base.countStatement request.countColumn .sqlite = .ok count

/-- What a client adds leaves what the program has set up as it is. -/
theorem IsSetUp.extends {request later : SearchRequest} {base : SelectQuery} {added : List String}
    (h : request.IsSetUp base) (hlater : request.Extends added later) : later.IsSetUp base := by
  refine ⟨hlater.query_eq.trans h.query, h.closed, h.returned, ?_⟩
  rw [hlater.countColumn_eq]
  exact h.counted

/-! ### Ahead of the database -/

section Ahead

variable {context : Context ω} {request : SearchRequest} {base query : SelectQuery}
  {conditions : List Fragment} {terms : List String} {e : SearchError} {s t : Session ω}

/-- A request that cannot be compiled is the fault of the client, if the program has set it up. -/
theorem Refuses.isClientError {resolver : Resolver ω} (hsetUp : request.IsSetUp base)
    (h : request.Refuses context resolver .sqlite s e t) : e.isClientError = true := by
  cases h with
  | query hnone => cases hnone.symm.trans hsetUp.query
  | backend _ hother => exact absurd rfl hother
  | limit _ _ hexceeds => exact hexceeds.isClientError
  | filter _ _ _ hfilter => exact compileFilter_blamesClient context resolver _ _ _ _ hfilter
  | sortField _ _ _ _ hfield => exact term_blamesClient resolver _ _ _ _ hfield

variable {list : AllowList}

/-- An allow-list leaves the query as it is, so nothing stops a search that is compiled. -/
theorem stopsAt_iff_refuses :
    request.StopsAt context list.resolver .sqlite s e t ↔
      request.Refuses context list.resolver .sqlite s e t := by
  constructor
  · rintro (hrefuses | ⟨_, _, _, _, -, hupdate⟩)
    · exact hrefuses
    · cases (Prod.mk.inj hupdate).1
  · exact .inl

theorem prepares_iff_compiles :
    request.Prepares context list.resolver .sqlite s query t ↔
      ∃ base conditions terms,
        request.Compiles context list.resolver .sqlite s base conditions terms t ∧
        query = base.refined conditions terms := by
  constructor
  · rintro ⟨base, conditions, terms, u, hcompiles, hupdate⟩
    obtain ⟨hquery, rfl⟩ := Prod.mk.inj hupdate
    exact ⟨base, conditions, terms, hcompiles, (Except.ok.inj hquery).symm⟩
  · rintro ⟨base, conditions, terms, hcompiles, rfl⟩
    exact ⟨base, conditions, terms, t, hcompiles, rfl⟩

/-- An action that keeps the state of the world that it starts in leaves the world as it is. -/
theorem world_of_ensures {action : Search ω α} {P : α → Prop} {result : Except SearchError α}
    (h : action.Ensures (· = s.world) P) (hrun : outcome action s = (result, t)) :
    t.world = s.world := by
  have hworld := (h s rfl).1
  rwa [hrun] at hworld

theorem world_of_terms {sort : List SortField} {result : Except SearchError (List String)}
    (hrun : outcome (sort.mapM (SortField.term list.resolver)) s = (result, t)) :
    t.world = s.world := by
  have hterms : (sort.mapM (SortField.term list.resolver)).Ensures (· = s.world) _ :=
    .mapM fun field _ => term_ensures list.resolver_isPlain field
  exact world_of_ensures hterms hrun

section World

variable (hnames : context.HasPlainNames) (hfunctions : context.functions = .standard)

include hnames hfunctions

theorem world_of_compileFilters {filters : List String}
    {result : Except SearchError (List Fragment)}
    (hrun : outcome (filters.mapM (compileFilter context list.resolver)) s = (result, t)) :
    t.world = s.world := by
  have hplain : context.functions.ArePlain (· = s.world) := by
    rw [hfunctions]
    exact Functions.standard_arePlain
  have hfilters : (filters.mapM (compileFilter context list.resolver)).Ensures (· = s.world) _ :=
    .mapM fun filter _ => compileFilter_ensures hnames hplain list.resolver_isPlain filter
  exact world_of_ensures hfilters hrun

/-- Compiling a request leaves the world as it is. -/
theorem Compiles.world_eq
    (h : request.Compiles context list.resolver .sqlite s base conditions terms t) :
    t.world = s.world := by
  obtain ⟨-, u, hfilters, hsort⟩ := h
  exact (world_of_terms hsort).trans (world_of_compileFilters hnames hfunctions hfilters)

theorem Refuses.world_eq (h : request.Refuses context list.resolver .sqlite s e t) :
    t.world = s.world := by
  cases h with
  | query _ => rfl
  | backend _ _ => rfl
  | limit _ _ _ => rfl
  | filter _ hsplit hbefore hfilter =>
    exact world_of_compileFilters hnames hfunctions
      (outcome_mapM_eq_error.mpr ⟨_, _, _, _, _, hsplit, hbefore, hfilter⟩)
  | sortField _ hfilters hsplit hbefore hfield =>
    have hsort := outcome_mapM_eq_error.mpr ⟨_, _, _, _, _, hsplit, hbefore, hfield⟩
    exact (world_of_terms hsort).trans (world_of_compileFilters hnames hfunctions hfilters)

/-- **There are statements for all that a client adds**, once it is compiled: its filters are
complete, and the fields that it sorts by become terms that need no values. -/
theorem Prepares.exists_statements (hsetUp : request.IsSetUp base) (hcache : s.cache.IsSound)
    (h : request.Prepares context list.resolver .sqlite s query t) :
    (∃ count, query.countStatement request.countColumn .sqlite = .ok count) ∧
      ∀ limit offset, ∃ data, { query with limit, offset }.dataStatement .sqlite = .ok data := by
  obtain ⟨base', conditions, terms, ⟨hadmitted, u, hfilters, hsort⟩, rfl⟩ :=
    prepares_iff_compiles.mp h
  obtain rfl := Option.some.inj (hsetUp.query.symm.trans hadmitted.query)
  have hterm (field : SortField) : (field.term list.resolver).Ensures (fun _ : ω => True)
      fun term => ∃ chunks, SelectQuery.orderChunks .sqlite term = .ok chunks :=
    fun v _ => ⟨trivial, fun term hresult => exists_orderChunks_of_term (Prod.ext hresult rfl)⟩
  have hterms := (Ensures.mapM (fun field _ => hterm field) u trivial).2 terms
    (congrArg Prod.fst hsort)
  exact SelectQuery.exists_statements_refined hsetUp.closed hsetUp.returned hsetUp.counted
    (compileFilters_areComplete hnames hfunctions hcache hfilters) hterms

end World

end Ahead

/-! ### The end of a search -/

section Ends

variable (context : Context (List Event × ω)) (resolver : Resolver (List Event × ω))
  (connection : Connection ω ρ) (request : SearchRequest)

/-- A search ends with an error that the client is to blame for, without having issued a statement,
or it comes to its page, unless the database fails. -/
inductive Ends (s : Session (List Event × ω)) :
    Except SearchError (SearchPage ρ) → Session (List Event × ω) → Prop where
  /-- The client is to blame, and no statement has been issued. -/
  | refused {e : SearchError} {t : Session (List Event × ω)} :
      e.isClientError = true → t.events = s.events → Ends s (.error e) t
  /-- The statement that counts the rows has been issued, and the database has failed. -/
  | uncounted {query : SelectQuery} {count : Statement} {e : SearchError}
      {t u : Session (List Event × ω)} :
      request.Prepares context resolver connection.backend s query u →
      request.skipTotal = false →
      query.countStatement request.countColumn connection.backend = .ok count →
      t.events = s.events ++ [.statement count] →
      (outcome (inWorld (connection.traced.fetchTotal count)) u).1 = .error e →
        Ends s (.error e) t
  /-- The statement for the page has been issued, behind the one that counts the rows unless that is
  to be left out.  There is no error then but one of the database. -/
  | issued {query : SelectQuery} {total : Option Int} {counts : List Statement} {data : Statement}
      {result : Except SearchError (SearchPage ρ)} {t u v : Session (List Event × ω)} :
      request.Prepares context resolver connection.backend s query u →
      request.Counts connection.traced query u v total →
      { query with
          limit := some (request.window context.config total).size
          offset := some (request.window context.config total).offset }.dataStatement
        connection.backend = .ok data →
      t.events = s.events ++ (counts ++ [data]).map .statement →
      (request.skipTotal = true → counts = []) →
      (request.skipTotal = false → ∃ count,
        query.countStatement request.countColumn connection.backend = .ok count ∧
        counts = [count]) →
      (∀ e, result = .error e →
        (outcome (inWorld (connection.traced.fetchRows data)) v).1 = .error e) →
        Ends s result t

end Ends

section Run

variable {context : Context (List Event × ω)} {list : AllowList} {connection : Connection ω ρ}
  {request : SearchRequest} {base : SelectQuery} {s t : Session (List Event × ω)}
  {result : Except SearchError (SearchPage ρ)}

/-- The page of a search that has counted its rows, or has left that out. -/
theorem Ends.of_counts {query : SelectQuery} {total : Option Int} {counts : List Statement}
    {u v : Session (List Event × ω)}
    (hprepares : request.Prepares context list.resolver connection.backend s query u)
    (hcounts : request.Counts connection.traced query u v total)
    (hdata : ∀ limit offset, ∃ data,
      { query with limit, offset }.dataStatement connection.backend = .ok data)
    (hevents : v.events = s.events ++ counts.map .statement)
    (hskipped : request.skipTotal = true → counts = [])
    (hcounted : request.skipTotal = false → ∃ count,
      query.countStatement request.countColumn connection.backend = .ok count ∧ counts = [count])
    (hrun : outcome (runSearch context list.resolver connection.traced request) s = (result, t)) :
    request.Ends context list.resolver connection s result t := by
  have hfetches : outcome (runSearch context list.resolver connection.traced request) s = _ :=
    Prepares.outcome_runSearch hprepares hcounts
  rcases outcome_fetchWindow_issue (hfetches.symm.trans hrun) with
    ⟨e, hnone, -, -⟩ | ⟨data, hstatement, hissued, rfl⟩
  · obtain ⟨data, hstatement⟩ := hdata (some (request.window context.config total).size)
      (some (request.window context.config total).offset)
    cases hnone.symm.trans hstatement
  · refine .issued hprepares hcounts hstatement ?_ hskipped hcounted fun e herror => ?_
    · rw [hissued, hevents, List.map_append, List.append_assoc]
      rfl
    · exact eq_error_of_map herror

/-- Where the program has set up the request, its search comes to an end of this kind. -/
theorem IsSetUp.ends (hnames : context.HasPlainNames) (hfunctions : context.functions = .standard)
    (hbackend : connection.backend = .sqlite) (hcache : s.cache.IsSound)
    (hsetUp : request.IsSetUp base)
    (hrun : outcome (runSearch context list.resolver connection.traced request) s = (result, t)) :
    request.Ends context list.resolver connection s result t := by
  rcases request.stopsAt_or_prepares context list.resolver .sqlite s with
    ⟨e, u, hstops⟩ | ⟨query, u, hprepares⟩
  · have hrefuses := stopsAt_iff_refuses.mp hstops
    have hends : outcome (runSearch context list.resolver connection.traced request) s =
        (.error e, u) := StopsAt.outcome_runSearch (by rwa [← hbackend] at hstops)
    obtain ⟨rfl, rfl⟩ := Prod.mk.inj (hrun.symm.trans hends)
    exact .refused (hrefuses.isClientError hsetUp)
      (congrArg Prod.fst (hrefuses.world_eq hnames hfunctions))
  · obtain ⟨⟨count, hcount⟩, hdata⟩ :=
      hprepares.exists_statements hnames hfunctions hsetUp hcache
    obtain ⟨_, _, _, hcompiles, -⟩ := prepares_iff_compiles.mp hprepares
    have hevents : u.events = s.events := congrArg Prod.fst (hcompiles.world_eq hnames hfunctions)
    rw [← hbackend] at hprepares hcount hdata
    cases hskip : request.skipTotal with
    | true =>
      have hcounts : request.Counts connection.traced query u u none := ⟨hskip, rfl⟩
      exact .of_counts hprepares hcounts hdata (by simpa using hevents) (fun _ => rfl)
        (fun h => nomatch hskip.symm.trans h) hrun
    | false =>
      rcases htotal : outcome (fetchTotal connection.traced query request.countColumn) u
        with ⟨e | total, v⟩ <;>
        rcases outcome_fetchTotal_traced htotal with
          ⟨cause, hnone, -, -⟩ | ⟨statement, hstatement, hcounted, hanswer⟩
      · cases hnone.symm.trans hcount
      · have hfails : outcome (runSearch context list.resolver connection.traced request) s = _ :=
          Prepares.outcome_runSearch_of_error hprepares hskip htotal
        obtain ⟨rfl, rfl⟩ := Prod.mk.inj (hrun.symm.trans hfails)
        exact .uncounted hprepares hskip hstatement (by rw [hcounted, hevents])
          (eq_error_of_map hanswer.symm)
      · cases hnone.symm.trans hcount
      · have hcounts : request.Counts connection.traced query u v (some total) := ⟨hskip, htotal⟩
        exact .of_counts hprepares hcounts hdata (by rw [hcounted, hevents]; rfl)
          (fun h => nomatch hskip.symm.trans h) (fun _ => ⟨statement, hstatement, rfl⟩) hrun

end Run

end SearchRequest

/-- **A client can cause only errors that it is to blame for.**  If the query of the program can be
returned and counted by itself, and leaves no string literal and no marker open, then whatever the
client sends is read, or refused as the client's fault.  The search for what has been read either
fails by the client's fault before any statement is issued, or issues the statement for its page
unless the database fails: all that a client can write has a statement. -/
theorem client_to_blame {context : Context (List Event × ω)}
    (hfunctions : context.functions = .standard) (hnames : context.HasPlainNames)
    (list : AllowList) {connection : Connection ω ρ} (hbackend : connection.backend = .sqlite)
    {request : SearchRequest} {base : SelectQuery} (hsetUp : request.IsSetUp base)
    (url : String) {s : Session (List Event × ω)} (hcache : s.cache.IsSound) :
    (∀ e, (request.read (.ofQuery url)).2 = .error e → e.isClientError = true) ∧
      ∀ result t,
        outcome (runSearch context list.resolver connection.traced
          (request.read (.ofQuery url)).1) s = (result, t) →
        (request.read (.ofQuery url)).1.Ends context list.resolver connection s result t := by
  obtain ⟨client, hextends, -⟩ := request.read_extends (.ofQuery url)
  constructor
  · intro e herror
    obtain ⟨param, value, -, rfl⟩ := SearchRequest.read_eq_error herror
    rfl
  · intro result t hrun
    exact (hsetUp.extends hextends).ends hnames hfunctions hbackend hcache hrun

theorem sampleQuery_isSetUp : sampleRequest.IsSetUp sampleQuery := by
  have hdata : (sampleQuery.dataStatement .sqlite).isOk = true := by decide +kernel
  have hcount : (sampleQuery.countStatement none .sqlite).isOk = true := by decide +kernel
  have hclosed : ∀ condition ∈ sampleQuery.conditions,
      leavesOpen condition.text.toList = false := by decide +kernel
  exact ⟨rfl, SelectQuery.leavesOpen_condition hclosed, exists_ok_of_isOk hdata,
    exists_ok_of_isOk hcount⟩

theorem sampleClients_to_blame :
    (∃ e t,
      outcome (runSearch sampleContext sampleList.resolver sampleConnection.traced
        (sampleRequest.read (.ofQuery "filter=secret=1")).1) sampleSession = (.error e, t) ∧
      e.isClientError = true ∧ t.events = []) ∧
    ∃ page t, ∃ count data : Statement,
      outcome (runSearch sampleContext sampleList.resolver sampleConnection.traced
        (sampleRequest.read (.ofQuery "filter=title~'?'&sort=-body")).1) sampleSession =
          (.ok page, t) ∧
      t.events = [.statement count, .statement data] := by
  have hcache : (sampleSession : Session (List Event × Unit)).cache.IsSound := Cache.isSound_empty 8
  have hbackend : sampleConnection.backend = .sqlite := rfl
  have hends (url : String) := (client_to_blame rfl sampleContext_hasPlainNames sampleList hbackend
    sampleQuery_isSetUp url hcache).2
  constructor
  · have hnone : (outcome (runSearch sampleContext sampleList.resolver sampleConnection.traced
        (sampleRequest.read (.ofQuery "filter=secret=1")).1) sampleSession).2.events.length = 0 := by
      decide +kernel
    rcases hrun : outcome (runSearch sampleContext sampleList.resolver sampleConnection.traced
      (sampleRequest.read (.ofQuery "filter=secret=1")).1) sampleSession with ⟨result, t⟩
    rw [hrun] at hnone
    cases hends _ result t hrun with
    | refused hclient hevents => exact ⟨_, t, rfl, hclient, hevents⟩
    | uncounted _ _ _ hevents _ => simp [hevents] at hnone
    | issued _ _ _ hevents _ _ _ => simp [hevents] at hnone
  · have hok : (outcome (runSearch sampleContext sampleList.resolver sampleConnection.traced
        (sampleRequest.read (.ofQuery "filter=title~'?'&sort=-body")).1)
        sampleSession).1.isOk = true := by decide +kernel
    obtain ⟨page, t, hrun⟩ := exists_of_isOk hok
    cases hends _ _ t hrun with
    | issued _ _ _ hevents _ hcounted _ =>
      obtain ⟨count, -, rfl⟩ := hcounted rfl
      exact ⟨page, t, count, _, hrun, hevents⟩

end PagedSearch
