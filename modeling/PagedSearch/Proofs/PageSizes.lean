import PagedSearch.Proofs.Phases

/-!
# The size of pages

A search says how many rows it wants on a page, or leaves that to the configuration.  Two numbers of
the configuration have a say, the usual size and the largest one, and either can be set without the
other.  What is wanted is cut down to the largest size; what is usual is not.

## Main definitions

* `IsPageSize` — the size of pages for a wanted size.
* `SearchRequest.AsksNoPage` — a search that ends before it asks for a page.

## Main results

* `pageSize_isPageSize` — the size is between one row and the largest size, unless the usual size is
  larger than that and none is wanted.
* `runSearch_asks_isPageSize` — so is the size that a search binds and reports.
-/

namespace PagedSearch

open Search

/-- The size of pages, given what is wanted. -/
structure IsPageSize (config : Config) (wanted : Int) (size : Nat) : Prop where
  /-- There is room for a row. -/
  pos : 1 ≤ size
  /-- What is wanted is given, up to the largest size. -/
  eq_of_wanted : 0 < wanted → size = min wanted.toNat (max config.maxPerPage 1)
  /-- If nothing is wanted, the size is the usual one, whatever the largest is. -/
  eq_of_unwanted : wanted ≤ 0 → size = max config.defaultPerPage 1
  /-- So the largest size is kept to exactly if one is wanted or the usual one keeps to it. -/
  le_iff : size ≤ max config.maxPerPage 1 ↔
    0 < wanted ∨ config.defaultPerPage ≤ max config.maxPerPage 1

theorem pageSize_isPageSize (config : Config) (wanted : Int) :
    IsPageSize config wanted (pageSize config wanted) := by
  rcases lt_or_ge 0 wanted with hwanted | hwanted
  · have hsize : pageSize config wanted = min wanted.toNat (max config.maxPerPage 1) := by
      rw [pageSize, if_neg (not_le.mpr hwanted)]
      omega
    refine ⟨pageSize_pos, fun _ => hsize, fun h => absurd h (not_le.mpr hwanted), ?_⟩
    rw [hsize]
    exact iff_of_true (Nat.min_le_right _ _) (.inl hwanted)
  · have hsize : pageSize config wanted = max config.defaultPerPage 1 := by
      rw [pageSize, if_pos hwanted, Nat.max_comm]
    refine ⟨pageSize_pos, fun h => absurd h (not_lt.mpr hwanted), fun _ => hsize, ?_⟩
    rw [hsize]
    omega

section Run

variable {ω ρ : Type} (context : Context ω) (resolver : Resolver ω) (connection : Connection ω ρ)
  (request : SearchRequest) (s : Session ω)

/-- The search ends before it asks for a page: it has no query, or the rows cannot be counted. -/
def SearchRequest.AsksNoPage (e : SearchError) (t : Session ω) : Prop :=
  request.StopsAt context resolver connection.backend s e t ∨
    ∃ query u, request.Prepares context resolver connection.backend s query u ∧
      request.skipTotal = false ∧
      outcome (fetchTotal connection query request.countColumn) u = (.error e, t)

/-- Either the search asks for a page, or it ends before. -/
theorem asksNoPage_or_counts :
    (∃ e t, request.AsksNoPage context resolver connection s e t) ∨
      ∃ query total t u, request.Prepares context resolver connection.backend s query t ∧
        request.Counts connection query t u total := by
  rcases SearchRequest.stopsAt_or_prepares context resolver connection.backend request s with
    ⟨e, t, hstops⟩ | ⟨query, t, hprepares⟩
  · exact .inl ⟨e, t, .inl hstops⟩
  · cases hskip : request.skipTotal with
    | true => exact .inr ⟨query, none, t, t, hprepares, hskip, rfl⟩
    | false =>
      rcases htotal : outcome (fetchTotal connection query request.countColumn) t
        with ⟨e | total, u⟩
      · exact .inl ⟨e, u, .inr ⟨query, t, hprepares, hskip, htotal⟩⟩
      · exact .inr ⟨query, some total, t, u, hprepares, hskip, htotal⟩

variable {context resolver connection request s}

theorem SearchRequest.AsksNoPage.outcome_runSearch {e : SearchError} {t : Session ω}
    (h : request.AsksNoPage context resolver connection s e t) :
    outcome (runSearch context resolver connection request) s = (.error e, t) := by
  rcases h with hstops | ⟨query, u, hprepares, hskip, htotal⟩
  · exact SearchRequest.StopsAt.outcome_runSearch hstops
  · exact SearchRequest.Prepares.outcome_runSearch_of_error hprepares hskip htotal

/-- A page that is fetched has the size that has been asked for. -/
theorem perPage_fetchWindow {query : SelectQuery} {window : Window} {total : Option Int}
    {page : SearchPage ρ} {t : Session ω}
    (h : outcome (fetchWindow connection query window total) s = (.ok page, t)) :
    page.perPage = window.size := by
  obtain ⟨items, u, -, hpage⟩ := outcome_bind_eq_ok.mp h
  obtain ⟨hpage, -⟩ := Prod.mk.inj hpage
  rw [← Except.ok.inj hpage]

variable (context resolver connection request s)

/-- **The size of a page is bounded by what it comes from.**  A search that does not end before asks
for a window of its query, and what it binds as the size of the window is what it reports as the
size of the page.  This is at least one row.  It is within the largest size of the configuration
exactly if the request has asked for a size, of which the largest is the limit, or the usual size is
within it: where the usual size steps in for a missing one, it is taken as it is. -/
theorem runSearch_asks_isPageSize :
    (∃ e t, request.AsksNoPage context resolver connection s e t ∧
      outcome (runSearch context resolver connection request) s = (.error e, t)) ∨
    ∃ query window total u,
      outcome (runSearch context resolver connection request) s =
        outcome (fetchWindow connection query window total) u ∧
      IsPageSize context.config request.perPage window.size ∧
      (∀ statement,
        { query with limit := some window.size, offset := some window.offset }.dataStatement
          connection.backend = .ok statement →
        ∃ values, statement.values =
          values ++ [.unsigned window.size, .unsigned window.offset]) ∧
      ∀ page t, outcome (runSearch context resolver connection request) s = (.ok page, t) →
        page.perPage = window.size := by
  rcases asksNoPage_or_counts context resolver connection request s with
    ⟨e, t, hnone⟩ | ⟨query, total, t, u, hprepares, hcounts⟩
  · exact .inl ⟨e, t, hnone, hnone.outcome_runSearch⟩
  · have hrun := SearchRequest.Prepares.outcome_runSearch hprepares hcounts
    refine .inr ⟨query, request.window context.config total, total, u, hrun,
      pageSize_isPageSize context.config request.perPage,
      fun _ hstatement => values_of_window hstatement, fun page v hpage => ?_⟩
    exact perPage_fetchWindow (hrun.symm.trans hpage)

end Run

/-- A configuration that only says how large a page may be. -/
def cappedConfig : Config := { maxPerPage := 10 }

/-- A search that does not say how large a page it wants gets one that is larger. -/
theorem cappedConfig_exceeded :
    ∃ page t,
      outcome (runSearch { sampleContext with config := cappedConfig } (AllowList.resolver ⟨[]⟩)
        (countingConnection 45) { query := some (.ofTable "article") }) sampleSession =
        (.ok page, t) ∧
      1 ≤ page.perPage ∧ ¬ page.perPage ≤ max cappedConfig.maxPerPage 1 := by
  refine ⟨{ page := 1, perPage := 30, totalItems := 45, totalPages := 2, items := [] },
    sampleSession, rfl, by decide, by decide⟩

end PagedSearch
