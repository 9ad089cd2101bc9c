import PagedSearch.Proofs.Composition
import PagedSearch.Proofs.Phases

/-!
# What a search asks for, and when

A search asks the resolver for fields, shows it the query, and issues statements.  A resolver may
have a memory, such as the tables that the fields need, which goes into the query when the resolver
is shown it: shown too early, the query would lack tables, and shown twice, it would have them twice.
So the order counts.  It is seen by a resolver and a database that note all that they are asked in
one list, which nothing else changes.

## Main definitions

* `Event`, `Event.during` — what a search asks for, and that it is noted.
* `Resolver.traced`, `Connection.traced` — a resolver and a database that share their notes.
* `Search.OnlyAsks` — actions that ask for nothing but fields.
* `SearchRequest.FollowsProtocol` — what a search asks for on its way to its result.

## Main results

* `onlyAsks_isCompositional` — what is put together from actions that ask for fields does so too.
* `runSearch_followsProtocol` — every search follows the protocol.
-/

namespace PagedSearch

open Search

variable {ω ρ α : Type}

/-! ### Events -/

/-- What a search asks of a resolver or a database. -/
inductive Event where
  /-- What a field stands for. -/
  | resolve (field : String)
  /-- What the query lacks. -/
  | update
  /-- What a statement returns. -/
  | statement (statement : Statement)

/-- An action before which an event is noted. -/
def Event.during (event : Event) (action : ExceptT SearchError (StateM ω) α) :
    ExceptT SearchError (StateM (List Event × ω)) α :=
  ExceptT.mk fun (events, world) =>
    let (result, world) := action.run.run world
    (result, (events ++ [event], world))

/-- The same resolver, which notes what it is asked. -/
def Resolver.traced (resolver : Resolver ω) : Resolver (List Event × ω) where
  resolve field := Event.during (.resolve field) (resolver.resolve field)
  updateQuery query := Event.during .update (resolver.updateQuery query)

/-- The same database, which notes what it is asked. -/
def Connection.traced (connection : Connection ω ρ) : Connection (List Event × ω) ρ where
  backend := connection.backend
  fetchTotal statement := Event.during (.statement statement) (connection.fetchTotal statement)
  fetchRows statement := Event.during (.statement statement) (connection.fetchRows statement)

/-- The events that have been noted. -/
def Session.events (s : Session (List Event × ω)) : List Event := s.world.1

theorem events_outcome_during (event : Event) (action : ExceptT SearchError (StateM ω) α)
    (s : Session (List Event × ω)) :
    (outcome (inWorld (event.during action)) s).2.events = s.events ++ [event] := rfl

/-- From one session to the other, nothing but fields has been asked for. -/
def Session.Asks (s t : Session (List Event × ω)) : Prop :=
  ∃ asked : List String, t.events = s.events ++ asked.map .resolve

theorem Session.Asks.of_events_eq {s t : Session (List Event × ω)} (h : t.events = s.events) :
    s.Asks t :=
  ⟨[], by rw [h, List.map_nil, List.append_nil]⟩

theorem Session.Asks.trans {s t u : Session (List Event × ω)} (h : s.Asks t) (h' : t.Asks u) :
    s.Asks u := by
  obtain ⟨asked, hasked⟩ := h
  obtain ⟨more, hmore⟩ := h'
  exact ⟨asked ++ more, by rw [hmore, hasked, List.map_append, List.append_assoc]⟩

/-- The action asks for nothing but fields. -/
def Search.OnlyAsks (α : Type) (action : Search (List Event × ω) α) : Prop :=
  ∀ s : Session (List Event × ω), s.Asks (outcome action s).2

theorem Search.OnlyAsks.asks {action : Search (List Event × ω) α} (h : OnlyAsks α action)
    {s t : Session (List Event × ω)} {result : Except SearchError α}
    (hrun : outcome action s = (result, t)) : s.Asks t := by
  have hasks := h s
  rwa [hrun] at hasks

theorem onlyAsks_isCompositional : IsCompositional (@OnlyAsks ω) where
  pure a := fun _ => .of_events_eq rfl
  throw e := fun _ => .of_events_eq rfl
  draw names stem length := fun _ => .of_events_eq rfl
  bind {α β action next} h hnext := by
    intro s
    have hasks := h s
    rw [outcome_bind]
    generalize outcome action s = reached at hasks
    obtain ⟨_ | a, t⟩ := reached
    · exact hasks
    · exact hasks.trans (hnext a t)
  tryCatch {α action handle} h hhandle := by
    intro s
    have hasks := h s
    rw [outcome_tryCatch]
    generalize outcome action s = reached at hasks
    obtain ⟨e | a, t⟩ := reached
    · exact hasks.trans (hhandle e t)
    · exact hasks

/-! ### Before the database is asked -/

section Compile

variable {context : Context (List Event × ω)} {backend : Backend} {request : SearchRequest}
  {s t : Session (List Event × ω)}

theorem resolve_onlyAsks (resolver : Resolver ω) (field : String) :
    OnlyAsks Resolved (inWorld (resolver.traced.resolve field)) :=
  fun _ => ⟨[field], rfl⟩

theorem compileFilter_onlyAsks (hfunctions : context.functions.Keep (@OnlyAsks ω))
    (resolver : Resolver ω) (filter : String) :
    OnlyAsks Fragment (compileFilter context resolver.traced filter) := by
  have hparsed : OnlyAsks _ (Search.parsed filter : Search (List Event × ω) (List Group)) :=
    fun _ => .of_events_eq rfl
  exact onlyAsks_isCompositional.bind hparsed fun groups =>
    onlyAsks_isCompositional.holds_compileGroups hfunctions (resolve_onlyAsks resolver) groups

theorem term_onlyAsks (resolver : Resolver ω) (field : SortField) :
    OnlyAsks String (field.term resolver.traced) := by
  unfold SortField.term
  split
  · exact onlyAsks_isCompositional.pure _
  · split
    · exact onlyAsks_isCompositional.pure _
    · refine onlyAsks_isCompositional.bind
        (onlyAsks_isCompositional.explain _ (resolve_onlyAsks resolver _)) fun resolved => ?_
      split
      · exact onlyAsks_isCompositional.pure _
      · exact onlyAsks_isCompositional.throw _

variable {resolver : Resolver ω}

/-- A request is compiled by asking for fields. -/
theorem SearchRequest.Compiles.asks (hfunctions : context.functions.Keep (@OnlyAsks ω))
    {base : SelectQuery} {conditions : List Fragment} {terms : List String}
    (h : request.Compiles context resolver.traced backend s base conditions terms t) :
    s.Asks t := by
  obtain ⟨-, u, hfilters, hsort⟩ := h
  have hasks :=
    onlyAsks_isCompositional.mapM (compileFilter_onlyAsks hfunctions resolver) request.filters
  have hasks' := onlyAsks_isCompositional.mapM (term_onlyAsks resolver) request.sort
  exact (hasks.asks hfilters).trans (hasks'.asks hsort)

/-- Then the resolver is shown the query. -/
theorem SearchRequest.Compiles.events_of_update
    (hfunctions : context.functions.Keep (@OnlyAsks ω)) {base query : SelectQuery}
    {conditions : List Fragment} {terms : List String} {u : Session (List Event × ω)}
    {result : Except SearchError SelectQuery}
    (h : request.Compiles context resolver.traced backend s base conditions terms t)
    (hupdate : outcome (inWorld (resolver.traced.updateQuery query)) t = (result, u)) :
    ∃ asked : List String, u.events = s.events ++ (asked.map .resolve ++ [.update]) := by
  obtain ⟨asked, hasked⟩ := h.asks hfunctions
  have hevents := events_outcome_during .update (resolver.updateQuery query) t
  change (outcome (inWorld (resolver.traced.updateQuery query)) t).2.events = _ at hevents
  rw [hupdate, hasked, List.append_assoc] at hevents
  exact ⟨asked, hevents⟩

/-- Where the request is not compiled, nothing but fields has been asked for. -/
theorem SearchRequest.Refuses.asks (hfunctions : context.functions.Keep (@OnlyAsks ω))
    {e : SearchError} (h : request.Refuses context resolver.traced backend s e t) : s.Asks t := by
  have hfilters := onlyAsks_isCompositional.mapM (compileFilter_onlyAsks hfunctions resolver)
  have hfields := onlyAsks_isCompositional.mapM (term_onlyAsks resolver)
  cases h with
  | query _ => exact .of_events_eq rfl
  | backend _ _ => exact .of_events_eq rfl
  | limit _ _ _ => exact .of_events_eq rfl
  | filter _ _ hbefore hfilter =>
    exact ((hfilters _).asks hbefore).trans
      ((compileFilter_onlyAsks hfunctions resolver _).asks hfilter)
  | sortField _ hcompiled _ hbefore hfield =>
    exact (((hfilters _).asks hcompiled).trans ((hfields _).asks hbefore)).trans
      ((term_onlyAsks resolver _).asks hfield)

end Compile

/-! ### Statements -/

section Fetching

variable {connection : Connection ω ρ} {query : SelectQuery} {s t : Session (List Event × ω)}

/-- What comes of issuing a statement: there may be none to issue, and else it is issued before the
database answers, which alone decides the result. -/
theorem outcome_issue {β : Type} {statement? : Except SearchError Statement}
    {ask : Statement → ExceptT SearchError (StateM ω) α} {f : α → β}
    {result : Except SearchError β}
    (hrun : outcome (Search.ofExcept statement? >>= fun statement =>
      inWorld ((Event.statement statement).during (ask statement)) >>= fun a => pure (f a)) s =
        (result, t)) :
    (∃ e, statement? = .error e ∧ result = .error e ∧ t = s) ∨
      ∃ statement, statement? = .ok statement ∧ t.events = s.events ++ [.statement statement] ∧
        result = (outcome (inWorld ((Event.statement statement).during (ask statement))) s).1.map
          f := by
  cases statement? with
  | error e =>
    rw [outcome_bind_of_error (t := s) (by rfl)] at hrun
    obtain ⟨rfl, rfl⟩ := Prod.mk.inj hrun
    exact .inl ⟨e, rfl, rfl, rfl⟩
  | ok statement =>
    rw [outcome_bind_of_ok (t := s) (by rfl), outcome_bind] at hrun
    have hevents := events_outcome_during (.statement statement) (ask statement) s
    refine .inr ⟨statement, rfl, ?_⟩
    generalize outcome (inWorld ((Event.statement statement).during (ask statement))) s = reached
      at hrun hevents ⊢
    obtain ⟨_ | a, u⟩ := reached <;> obtain ⟨rfl, rfl⟩ := Prod.mk.inj hrun <;>
      exact ⟨hevents, rfl⟩

theorem outcome_fetchTotal_traced {column : Option String} {result : Except SearchError Int}
    (hrun : outcome (fetchTotal connection.traced query column) s = (result, t)) :
    (∃ e, query.countStatement column connection.backend = .error e ∧ result = .error e ∧ t = s) ∨
      ∃ statement, query.countStatement column connection.backend = .ok statement ∧
        t.events = s.events ++ [.statement statement] ∧
        result = (outcome (inWorld (connection.traced.fetchTotal statement)) s).1.map (·.getD 0) :=
  outcome_issue hrun

theorem outcome_fetchWindow_issue {window : Window} {total : Option Int}
    {result : Except SearchError (SearchPage ρ)}
    (hrun : outcome (fetchWindow connection.traced query window total) s = (result, t)) :
    (∃ e, { query with limit := some window.size, offset := some window.offset }.dataStatement
        connection.backend = .error e ∧ result = .error e ∧ t = s) ∨
      ∃ data, { query with limit := some window.size, offset := some window.offset }.dataStatement
          connection.backend = .ok data ∧
        t.events = s.events ++ [.statement data] ∧
        result = (outcome (inWorld (connection.traced.fetchRows data)) s).1.map fun items => {
          page := window.number
          perPage := window.size
          totalItems := total.getD (-1)
          totalPages := window.count
          items } := by
  unfold fetchWindow fetchRows at hrun
  rw [bind_assoc] at hrun
  exact outcome_issue hrun

/-- The statement for a page is issued, unless there is none, and then no page is returned. -/
theorem outcome_fetchWindow_traced {window : Window} {total : Option Int}
    {result : Except SearchError (SearchPage ρ)}
    (hrun : outcome (fetchWindow connection.traced query window total) s = (result, t)) :
    ∃ issued : List Statement, t.events = s.events ++ issued.map .statement ∧
      ∀ page, result = .ok page → page.perPage = window.size ∧ page.page = window.number ∧
        ∃ data, { query with limit := some window.size, offset := some window.offset }.dataStatement
          connection.backend = .ok data ∧ issued = [data] := by
  rcases outcome_fetchWindow_issue hrun with ⟨e, -, rfl, rfl⟩ | ⟨data, hdata, hevents, rfl⟩
  · exact ⟨[], by simp, nofun⟩
  · refine ⟨[data], hevents, fun page hpage => ?_⟩
    generalize (outcome (inWorld (connection.traced.fetchRows data)) s).1 = reached at hpage
    cases reached with
    | error e => cases hpage
    | ok items =>
      obtain rfl := Except.ok.inj hpage
      exact ⟨rfl, rfl, data, hdata, rfl⟩

end Fetching

/-! ### The protocol -/

section Protocol

variable (context : Context (List Event × ω)) (resolver : Resolver ω)
  (connection : Connection ω ρ) (request : SearchRequest)

/-- What a search asks for on its way to its result: for fields, then perhaps for what the query
lacks, and then perhaps statements. -/
structure SearchRequest.FollowsProtocol (s : Session (List Event × ω))
    (result : Except SearchError (SearchPage ρ)) (t : Session (List Event × ω))
    (asked : List String) (updates : List Event) (issued : List Statement) : Prop where
  /-- Nothing else is asked for, and not in another order. -/
  events : t.events = s.events ++ (asked.map .resolve ++ updates ++ issued.map .statement)
  /-- The resolver is shown the query once, if the request is compiled. -/
  updated : (∃ base conditions terms u,
      request.Compiles context resolver.traced connection.backend s base conditions terms u) →
    updates = [.update]
  /-- It is never shown the query of a request that is not compiled. -/
  notUpdated : (∀ base conditions terms u,
      ¬ request.Compiles context resolver.traced connection.backend s base conditions terms u) →
    updates = []
  /-- A search that stops before it asks the database fails for the first reason to stop, and
  issues no statement. -/
  stops : ∀ e u, request.StopsAt context resolver.traced connection.backend s e u →
    result = .error e ∧ issued = []
  /-- If there is no statement that counts the rows, the search fails for that reason, and issues
  no statement. -/
  uncountable : ∀ query u e,
    request.Prepares context resolver.traced connection.backend s query u →
    request.skipTotal = false →
    query.countStatement request.countColumn connection.backend = .error e →
      result = .error e ∧ issued = []
  /-- If the database fails to count the rows, the search fails for the same reason, and issues no
  other statement. -/
  uncounted : ∀ query u statement e v,
    request.Prepares context resolver.traced connection.backend s query u →
    request.skipTotal = false →
    query.countStatement request.countColumn connection.backend = .ok statement →
    outcome (inWorld (connection.traced.fetchTotal statement)) u = (.error e, v) →
      result = .error e ∧ issued = [statement]
  /-- A search that returns a page has issued the statement that counts the rows of its query,
  unless that is to be left out, and then the one that returns the page. -/
  returns : ∀ page, result = .ok page → ∃ query u data,
    request.Prepares context resolver.traced connection.backend s query u ∧
    { query with
        limit := some page.perPage
        offset := some (pageOffset page.perPage page.page) }.dataStatement connection.backend =
      .ok data ∧
    (request.skipTotal = true → issued = [data]) ∧
    (request.skipTotal = false → ∃ count,
      query.countStatement request.countColumn connection.backend = .ok count ∧
      issued = [count, data])

variable {context resolver connection request} {s t : Session (List Event × ω)}
  {result : Except SearchError (SearchPage ρ)}

/-- A search that stops before it asks the database. -/
theorem SearchRequest.StopsAt.followsProtocol (hfunctions : context.functions.Keep (@OnlyAsks ω))
    {e : SearchError}
    (h : request.StopsAt context resolver.traced connection.backend s e t) :
    ∃ asked updates issued,
      request.FollowsProtocol context resolver connection s (.error e) t asked updates issued := by
  have hrun : outcome (runSearch context resolver.traced connection.traced request) s =
      (.error e, t) := SearchRequest.StopsAt.outcome_runSearch h
  have hstops : ∀ e' u, request.StopsAt context resolver.traced connection.backend s e' u →
      (.error e : Except SearchError (SearchPage ρ)) = .error e' ∧ ([] : List Statement) = [] := by
    intro e' u h'
    have hrun' : outcome (runSearch context resolver.traced connection.traced request) s =
        (.error e', u) := SearchRequest.StopsAt.outcome_runSearch h'
    exact ⟨(Prod.mk.inj (hrun.symm.trans hrun')).1, rfl⟩
  have hnot := h.not_prepares
  rcases h with hrefuses | ⟨base, conditions, terms, u, hcompiles, hupdate⟩
  · obtain ⟨asked, hasked⟩ := hrefuses.asks hfunctions
    exact ⟨asked, [], [], by simpa using hasked, fun h => absurd h hrefuses.not_compiles,
      fun _ => rfl, hstops, fun query u _ h => absurd ⟨query, u, h⟩ hnot,
      fun query u _ _ _ h => absurd ⟨query, u, h⟩ hnot, nofun⟩
  · obtain ⟨asked, hevents⟩ := hcompiles.events_of_update hfunctions hupdate
    exact ⟨asked, [.update], [], by simpa using hevents, fun _ => rfl,
      fun h => absurd hcompiles (h _ _ _ _), hstops, fun query u _ h => absurd ⟨query, u, h⟩ hnot,
      fun query u _ _ _ h => absurd ⟨query, u, h⟩ hnot, nofun⟩

/-- A search that has a query to ask the database, and what is left to say about it. -/
theorem SearchRequest.Prepares.followsProtocol
    (hfunctions : context.functions.Keep (@OnlyAsks ω)) {query : SelectQuery}
    {u : Session (List Event × ω)}
    (h : request.Prepares context resolver.traced connection.backend s query u)
    (issued : List Statement) (hissued : t.events = u.events ++ issued.map .statement)
    (huncountable : ∀ e, request.skipTotal = false →
      query.countStatement request.countColumn connection.backend = .error e →
        result = .error e ∧ issued = [])
    (huncounted : ∀ statement e v, request.skipTotal = false →
      query.countStatement request.countColumn connection.backend = .ok statement →
      outcome (inWorld (connection.traced.fetchTotal statement)) u = (.error e, v) →
        result = .error e ∧ issued = [statement])
    (hreturns : ∀ page, result = .ok page → ∃ data,
      { query with
          limit := some page.perPage
          offset := some (pageOffset page.perPage page.page) }.dataStatement connection.backend =
        .ok data ∧
      (request.skipTotal = true → issued = [data]) ∧
      (request.skipTotal = false → ∃ count,
        query.countStatement request.countColumn connection.backend = .ok count ∧
        issued = [count, data])) :
    ∃ asked updates issued,
      request.FollowsProtocol context resolver connection s result t asked updates issued := by
  have hprepares := h
  obtain ⟨base, conditions, terms, v, hcompiles, hupdate⟩ := h
  obtain ⟨asked, hevents⟩ := hcompiles.events_of_update hfunctions hupdate
  refine ⟨asked, [.update], issued, ?_, fun _ => rfl, fun h => absurd hcompiles (h _ _ _ _), ?_, ?_,
    ?_, ?_⟩
  · rw [hissued, hevents]
    simp
  · exact fun e u hstops => absurd ⟨query, _, hprepares⟩ hstops.not_prepares
  · intro query' u' e hprepares' hcount hstatement
    obtain ⟨rfl, rfl⟩ := hprepares.unique hprepares'
    exact huncountable e hcount hstatement
  · intro query' u' statement e v hprepares' hcount hstatement hfails
    obtain ⟨rfl, rfl⟩ := hprepares.unique hprepares'
    exact huncounted statement e v hcount hstatement hfails
  · intro page hpage
    obtain ⟨data, hdata, hissues⟩ := hreturns page hpage
    exact ⟨query, u, data, hprepares, hdata, hissues⟩

/-- **Every search follows the protocol**, as long as the functions that filters call ask for fields
only through their arguments.  If something keeps the request from being compiled, or the resolver
fails when it is shown the query, then the search fails for the first such reason and issues no
statement.  The resolver is shown the query once, after all fields have been asked for and before
any statement, if the request is compiled, and never otherwise.  A search that returns a page has
issued the statement that counts the rows, unless that is to be left out, and then the one for the
page; where the count fails, its error is returned and nothing else is issued. -/
theorem runSearch_followsProtocol (hfunctions : context.functions.Keep (@OnlyAsks ω))
    (hrun : outcome (runSearch context resolver.traced connection.traced request) s =
      (result, t)) :
    ∃ asked updates issued,
      request.FollowsProtocol context resolver connection s result t asked updates issued := by
  rcases request.stopsAt_or_prepares context resolver.traced connection.backend s with
    ⟨e, u, hstops⟩ | ⟨query, u, hprepares⟩
  · have hrun' : outcome (runSearch context resolver.traced connection.traced request) s =
        (.error e, u) := SearchRequest.StopsAt.outcome_runSearch hstops
    obtain ⟨rfl, rfl⟩ := Prod.mk.inj (hrun.symm.trans hrun')
    exact hstops.followsProtocol hfunctions
  · cases hskip : request.skipTotal with
    | true =>
      have hnot (h : request.skipTotal = false) : False :=
        Bool.false_ne_true (h.symm.trans hskip)
      have hcounts : request.Counts connection.traced query u u none := ⟨hskip, rfl⟩
      have hrun' := SearchRequest.Prepares.outcome_runSearch hprepares hcounts
      obtain ⟨issued, hevents, hpages⟩ := outcome_fetchWindow_traced (hrun'.symm.trans hrun)
      refine hprepares.followsProtocol hfunctions issued hevents (fun _ h => (hnot h).elim)
        (fun _ _ _ h => (hnot h).elim) fun page hpage => ?_
      obtain ⟨hsize, hnumber, data, hdata, rfl⟩ := hpages page hpage
      rw [hsize, hnumber]
      exact ⟨data, hdata, fun _ => rfl, fun h => (hnot h).elim⟩
    | false =>
      rcases htotal : outcome (fetchTotal connection.traced query request.countColumn) u
        with ⟨e | total, v⟩
      · have hrun' : outcome (runSearch context resolver.traced connection.traced request) s = _ :=
          SearchRequest.Prepares.outcome_runSearch_of_error hprepares hskip htotal
        obtain ⟨rfl, rfl⟩ := Prod.mk.inj (hrun.symm.trans hrun')
        rcases outcome_fetchTotal_traced htotal with
          ⟨e', hstatement, herror, hsession⟩ | ⟨count, hstatement, hevents, herror⟩
        · obtain rfl := Except.error.inj herror
          refine hprepares.followsProtocol hfunctions [] (by simp [hsession]) ?_ ?_ nofun
          · exact fun e' _ h => ⟨by rw [Except.error.inj (hstatement.symm.trans h)], rfl⟩
          · exact fun _ _ _ _ h => nomatch hstatement.symm.trans h
        · refine hprepares.followsProtocol hfunctions [count] hevents ?_ ?_ nofun
          · exact fun _ _ h => nomatch hstatement.symm.trans h
          · intro statement e' w _ h hfails
            obtain rfl := Except.ok.inj (hstatement.symm.trans h)
            rw [hfails] at herror
            exact ⟨by rw [Except.error.inj herror], rfl⟩
      · have hcounts : request.Counts connection.traced query u v (some total) := ⟨hskip, htotal⟩
        have hrun' := SearchRequest.Prepares.outcome_runSearch hprepares hcounts
        obtain ⟨issued, hevents, hpages⟩ := outcome_fetchWindow_traced (hrun'.symm.trans hrun)
        rcases outcome_fetchTotal_traced htotal with
          ⟨e, -, herror, -⟩ | ⟨count, hstatement, hcounted, hanswer⟩
        · cases herror
        · refine hprepares.followsProtocol hfunctions (count :: issued) ?_ ?_ ?_ fun page hpage => ?_
          · rw [hevents, hcounted, List.append_assoc]
            rfl
          · exact fun _ _ h => nomatch hstatement.symm.trans h
          · intro statement e w _ h hfails
            obtain rfl := Except.ok.inj (hstatement.symm.trans h)
            rw [hfails] at hanswer
            cases hanswer
          · obtain ⟨hsize, hnumber, data, hdata, rfl⟩ := hpages page hpage
            rw [hsize, hnumber]
            exact ⟨data, hdata, fun h => absurd (hskip.symm.trans h) Bool.false_ne_true,
              fun _ => ⟨count, hstatement, rfl⟩⟩

end Protocol

/-- A resolver of one field in another table, which joins the table if it has been asked for the
field. -/
def authorResolver : Resolver Bool where
  resolve field := do
    if field ≠ "author" then throw (.unknownField field)
    set true
    return .ofIdentifier (Fragment.columnMarker "author.name")
  updateQuery query := do
    if ← get then
      return query.addJoin
        { kind := .left, table := "author", knownAs := none
          condition := .raw "[[author.id]] = [[post.author]]" .empty }
    return query

/-- A database with one row, which it does not return. -/
def authorConnection : Connection Bool Unit where
  backend := .sqlite
  fetchTotal _ := pure (some 1)
  fetchRows _ := pure []

/-- A search in the table of posts that asks for their authors. -/
def authorRequest : SearchRequest where
  query := some (.ofTable "post")
  filters := ["author != 'a' && author ~ 'b'"]
  sort := [{ name := "author", direction := .ascending }]

theorem authorRequest_followsProtocol :
    ∃ page t, ∃ asked : List String, ∃ count data,
      outcome (runSearch sampleContext authorResolver.traced authorConnection.traced authorRequest)
        sampleSession = (.ok page, t) ∧
      t.events = asked.map Event.resolve ++ [.update] ++ [.statement count, .statement data] := by
  have hok : (outcome (runSearch sampleContext authorResolver.traced authorConnection.traced
      authorRequest) sampleSession).1.isOk = true := by decide +kernel
  obtain ⟨page, t, hrun⟩ := exists_of_isOk hok
  obtain ⟨asked, updates, issued, hfollows⟩ :=
    runSearch_followsProtocol onlyAsks_isCompositional.standard_keep hrun
  obtain ⟨query, u, data, hprepares, -, -, hcounted⟩ := hfollows.returns page rfl
  obtain ⟨count, -, rfl⟩ := hcounted rfl
  obtain ⟨base, conditions, terms, v, hcompiles, -⟩ := hprepares
  obtain rfl := hfollows.updated ⟨base, conditions, terms, v, hcompiles⟩
  exact ⟨page, t, asked, count, data, hrun, hfollows.events⟩

end PagedSearch
