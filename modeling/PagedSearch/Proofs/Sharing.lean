import Mathlib.Logic.Function.Basic
import PagedSearch.Proofs.Composition
import PagedSearch.Search.Run

/-!
# A store with many callers

Several callers share one store of parsed filters.  Looking up and storing are single steps, since a
lock is held for them, and a text is parsed between the two without any lock.  So the steps of
different callers can come in any order: two of them may parse the same text, and both may want to
store its tree, or the last place may be taken while a third one still parses.

An order of steps is a list of callers whose turn it is.  A thread that makes several calls is as
many callers, whose turns come one after the other.

## Main definitions

* `Cache.Call`, `Cache.Caller` — a call, and how far it has come.
* `Cache.Caller.advance` — the next step of a call.
* `Cache.Shared`, `Cache.Shared.run` — a store with its callers, and what a list of turns does.
* `Cache.Holds` — stores that hold no more than they can, and nothing but trees of their filters.
* `compileParsed` — the fragment of a filter, without a store.

## Main results

* `Cache.Shared.run_alone` — a caller that is not interrupted does what `Cache.getOrParse` does.
* `Cache.Shared.run_holds`, `Cache.Shared.get?_run` — what no order of steps can break.
* `compileFilter_ignoresStore` — what a filter is compiled to does not depend on the store.
* `shared_store_transparent` — a shared store changes no result, whatever the order of the steps.
-/

namespace PagedSearch

open Search

namespace Cache

/-! ### Calls and their steps -/

/-- What a store is asked for. -/
inductive Call where
  /-- The tree of a filter, if it is stored. -/
  | get (filter : String)
  /-- The tree of a filter, which is parsed if it is not stored. -/
  | getOrParse (filter : String)

/-- The filter that a call is about. -/
def Call.filter : Call → String
  | get filter => filter
  | getOrParse filter => filter

/-- How far a call has come. -/
inductive Progress where
  /-- Nothing has been done. -/
  | waiting
  /-- No tree has been found, and the text is to be parsed. -/
  | missed
  /-- The text has been parsed, and the tree is to be stored. -/
  | parsed (groups : List Group)
  /-- The call has returned. -/
  | returned (result : Option (Except ParseError (List Group)))

/-- How many turns the call needs before it has returned. -/
def Progress.remaining : Progress → Nat
  | waiting => 3
  | missed => 2
  | parsed _ => 1
  | returned _ => 0

/-- A call with what has become of it. -/
structure Caller where
  /-- The call. -/
  call : Call
  /-- How far it has come. -/
  progress : Progress := .waiting
  /-- Whether it has looked for the tree and not found it. -/
  hasMissed : Bool := false
  /-- How often it has run the parser. -/
  parses : Nat := 0

/-- The store and the call after the next step of the call. -/
def Caller.advance (read : String → Except ParseError (List Group)) (cache : Cache)
    (caller : Caller) : Cache × Caller :=
  match caller.progress with
  | .waiting =>
    match caller.call, cache.get? caller.call.filter with
    | _, some groups => (cache, { caller with progress := .returned (some (.ok groups)) })
    | .get _, none => (cache, { caller with progress := .returned none, hasMissed := true })
    | .getOrParse _, none => (cache, { caller with progress := .missed, hasMissed := true })
  | .missed =>
    match read caller.call.filter with
    | .ok groups =>
      (cache, { caller with progress := .parsed groups, parses := caller.parses + 1 })
    | .error error =>
      (cache, { caller with
        progress := .returned (some (.error error)), parses := caller.parses + 1 })
  | .parsed groups =>
    (cache.store caller.call.filter groups,
      { caller with progress := .returned (some (.ok groups)) })
  | .returned _ => (cache, caller)

/-- A store and those who share it. -/
structure Shared (ι : Type) where
  /-- The store. -/
  cache : Cache
  /-- The callers. -/
  callers : ι → Caller

namespace Shared

variable {ι : Type} [DecidableEq ι]

/-- An empty store, and calls for which nothing has been done. -/
def start (capacity : Nat) (calls : ι → Call) : Shared ι where
  cache := .empty capacity
  callers i := { call := calls i }

/-- The next step of one of the callers. -/
def step (read : String → Except ParseError (List Group)) (shared : Shared ι) (i : ι) :
    Shared ι where
  cache := ((shared.callers i).advance read shared.cache).1
  callers := Function.update shared.callers i ((shared.callers i).advance read shared.cache).2

/-- What comes of a list of turns. -/
def run (read : String → Except ParseError (List Group)) (shared : Shared ι) (turns : List ι) :
    Shared ι :=
  turns.foldl (step read) shared

/-- The states that a store and its callers can get into. -/
def Reachable (read : String → Except ParseError (List Group)) (capacity : Nat) (calls : ι → Call)
    (shared : Shared ι) : Prop :=
  ∃ turns, shared = (start capacity calls).run read turns

end Shared

/-! ### Stores -/

variable {read : String → Except ParseError (List Group)}

/-- A store with no more trees than it has room for, each of them the only tree of its filter and
the one that the parser finds. -/
structure Holds (read : String → Except ParseError (List Group)) (cache : Cache) : Prop where
  /-- There is room for all trees. -/
  size_le : cache.size ≤ cache.capacity
  /-- No filter has two trees. -/
  nodup : (cache.entries.map Prod.fst).Nodup
  /-- The trees are those of their filters. -/
  parsed : ∀ entry ∈ cache.entries, read entry.1 = .ok entry.2

section Stores

variable {cache : Cache} {filter : String} {groups : List Group}

theorem holds_empty (capacity : Nat) : (empty capacity).Holds read :=
  ⟨Nat.zero_le _, List.nodup_nil, nofun⟩

theorem Holds.of_get? (h : cache.Holds read) (hget : cache.get? filter = some groups) :
    read filter = .ok groups := by
  obtain ⟨before, after, hentries, -⟩ := List.lookup_eq_some_iff.mp hget
  exact h.parsed (filter, groups) (by rw [hentries]; simp)

theorem get?_store {other : String} :
    (cache.store filter groups).get? other =
      if cache.size < cache.capacity ∧ other = filter then some groups else cache.get? other := by
  unfold store
  split
  · rename_i hlt
    simp only [get?, lookup_insert, hlt, true_and]
  · rename_i hnot
    rw [if_neg fun h => hnot h.1]

theorem capacity_store : (cache.store filter groups).capacity = cache.capacity := by
  unfold store
  split <;> rfl

/-- Storing the tree of a filter breaks nothing, whether there is room for it or not, and whether
someone else has stored it before or not. -/
theorem Holds.store (h : cache.Holds read) (hread : read filter = .ok groups) :
    (cache.store filter groups).Holds read := by
  unfold Cache.store
  split
  · rename_i hlt
    refine ⟨Nat.le_trans length_insert_le hlt, ?_, fun entry hentry => ?_⟩
    · rw [map_fst_insert]
      split
      · exact h.nodup
      · rename_i hnew
        refine List.nodup_append.mpr ⟨h.nodup, by simp, ?_⟩
        rintro key hkey _ hfilter rfl
        rw [List.mem_singleton.mp hfilter] at hkey
        exact hnew hkey
    · rcases mem_insert hentry with rfl | hentry
      · exact hread
      · exact h.parsed entry hentry
  · exact h

/-- What is stored stays, since a second tree of the same filter is the same tree. -/
theorem Holds.get?_store_of_some (h : cache.Holds read) (hread : read filter = .ok groups)
    {other : String} {found : List Group} (hget : cache.get? other = some found) :
    (cache.store filter groups).get? other = some found := by
  rw [get?_store]
  split
  · rename_i hsame
    obtain ⟨-, rfl⟩ := hsame
    rw [← Except.ok.inj ((h.of_get? hget).symm.trans hread)]
  · exact hget

theorem Holds.getOrParse_fst (h : cache.Holds read) (filter : String) :
    (cache.getOrParse read filter).1 = read filter := by
  unfold getOrParse
  split
  · rename_i groups hget
    exact (h.of_get? hget).symm
  · cases hread : read filter <;> rfl

end Stores

/-! ### Callers -/

/-- The states that a caller can be in. -/
inductive Caller.IsFaithful (read : String → Except ParseError (List Group)) : Caller → Prop where
  /-- Nothing has been done. -/
  | waiting (call : Call) : IsFaithful read { call }
  /-- The tree has not been found. -/
  | missed (filter : String) :
    IsFaithful read { call := .getOrParse filter, progress := .missed, hasMissed := true }
  /-- The tree has not been found, and the text has been parsed. -/
  | parsed {filter : String} {groups : List Group} (hread : read filter = .ok groups) :
    IsFaithful read {
      call := .getOrParse filter, progress := .parsed groups, hasMissed := true, parses := 1 }
  /-- The tree has not been found, and what the parser makes of the text has been returned. -/
  | answered (filter : String) :
    IsFaithful read {
      call := .getOrParse filter, progress := .returned (some (read filter)), hasMissed := true,
      parses := 1 }
  /-- The tree has been found. -/
  | found (call : Call) :
    IsFaithful read { call, progress := .returned (some (read call.filter)) }
  /-- The tree has not been found, and nothing more is wanted. -/
  | absent (filter : String) :
    IsFaithful read { call := .get filter, progress := .returned none, hasMissed := true }

section Callers

variable {cache : Cache} {caller : Caller}

theorem Caller.advance_call : (caller.advance read cache).2.call = caller.call := by
  unfold advance
  split
  · split <;> rfl
  · split <;> rfl
  · rfl
  · rfl

/-- The only step that changes the store puts in the tree of the filter. -/
theorem Caller.IsFaithful.advance_store (h : caller.IsFaithful read) (cache : Cache) :
    (caller.advance read cache).1 = cache ∨
      ∃ groups, read caller.call.filter = .ok groups ∧
        (caller.advance read cache).1 = cache.store caller.call.filter groups := by
  cases h with
  | waiting call =>
    left
    unfold advance
    dsimp only
    split <;> rfl
  | missed filter =>
    left
    unfold advance
    dsimp only
    split <;> rfl
  | parsed hread => exact .inr ⟨_, hread, rfl⟩
  | answered filter => exact .inl rfl
  | found call => exact .inl rfl
  | absent filter => exact .inl rfl

/-- A step leads from one of the states of a caller to another one. -/
theorem Caller.IsFaithful.advance (h : caller.IsFaithful read) (hcache : cache.Holds read) :
    (caller.advance read cache).2.IsFaithful read := by
  cases h with
  | waiting call =>
    unfold Caller.advance
    dsimp only
    split
    · rename_i groups hget
      rw [← hcache.of_get? hget]
      exact .found _
    · exact .absent _
    · exact .missed _
  | missed filter =>
    unfold Caller.advance
    dsimp only
    split
    · rename_i groups hread
      exact .parsed hread
    · rename_i error hread
      have hanswered := @IsFaithful.answered read filter
      rw [show read filter = .error error from hread] at hanswered
      exact hanswered
  | @parsed filter groups hread =>
    have hanswered := @IsFaithful.answered read filter
    rw [hread] at hanswered
    exact hanswered
  | answered filter => exact .answered filter
  | found call => exact .found call
  | absent filter => exact .absent filter

/-- Who asks for a tree gets what the parser makes of the text, and runs the parser once if it has
not found the tree, and not otherwise. -/
theorem Caller.IsFaithful.of_getOrParse (h : caller.IsFaithful read) {filter : String}
    (hcall : caller.call = .getOrParse filter) :
    caller.parses ≤ 1 ∧ (caller.parses = 1 → caller.hasMissed = true) ∧
      ∀ result, caller.progress = .returned result →
        result = some (read filter) ∧ (caller.hasMissed = true → caller.parses = 1) := by
  cases h with
  | waiting call => simp
  | missed other => simp
  | parsed hread => simp
  | answered other =>
    obtain rfl := Call.getOrParse.inj hcall
    simp [eq_comm]
  | found call =>
    obtain rfl : call = .getOrParse filter := hcall
    simp [Call.filter, eq_comm]
  | absent other => cases hcall

/-- Who looks for a tree never runs the parser, and what it gets is the tree or nothing. -/
theorem Caller.IsFaithful.of_get (h : caller.IsFaithful read) {filter : String}
    (hcall : caller.call = .get filter) :
    caller.parses = 0 ∧
      ∀ result, caller.progress = .returned result → result = none ∨ result = some (read filter) := by
  cases h with
  | waiting call => simp
  | missed other => cases hcall
  | parsed hread => cases hcall
  | answered other => cases hcall
  | found call =>
    obtain rfl : call = .get filter := hcall
    refine ⟨rfl, ?_⟩
    rintro result hresult
    exact .inr (Progress.returned.inj hresult).symm
  | absent other =>
    refine ⟨rfl, ?_⟩
    rintro result hresult
    exact .inl (Progress.returned.inj hresult).symm

theorem Progress.returned_of_remaining_eq_zero {progress : Progress}
    (h : progress.remaining = 0) : ∃ result, progress = .returned result := by
  cases progress with
  | returned result => exact ⟨result, rfl⟩
  | _ => simp [remaining] at h

theorem Caller.remaining_advance_le :
    (caller.advance read cache).2.progress.remaining ≤ caller.progress.remaining - 1 := by
  obtain ⟨call, progress, hasMissed, parses⟩ := caller
  unfold advance
  cases progress with
  | waiting => dsimp only; split <;> simp [Progress.remaining]
  | missed => dsimp only; split <;> simp [Progress.remaining]
  | parsed groups => exact Nat.le_refl _
  | returned result => exact Nat.le_refl _

end Callers

/-! ### Turns -/

namespace Shared

variable {ι : Type} [DecidableEq ι] {shared : Shared ι}

/-- A store and callers in good order. -/
structure IsSound (read : String → Except ParseError (List Group)) (shared : Shared ι) : Prop where
  /-- The store is in good order. -/
  cache : shared.cache.Holds read
  /-- The callers are. -/
  callers : ∀ i, (shared.callers i).IsFaithful read

omit [DecidableEq ι] in
theorem start_isSound (capacity : Nat) (calls : ι → Call) :
    (start capacity calls).IsSound read :=
  ⟨holds_empty capacity, fun i => .waiting (calls i)⟩

theorem IsSound.step (h : shared.IsSound read) (i : ι) : (shared.step read i).IsSound read := by
  constructor
  · rcases (h.callers i).advance_store shared.cache with hsame | ⟨groups, hread, hstore⟩
    · rw [Shared.step, hsame]
      exact h.cache
    · rw [Shared.step, hstore]
      exact h.cache.store hread
  · intro j
    by_cases hj : j = i
    · subst hj
      simp only [Shared.step, Function.update_self]
      exact (h.callers j).advance h.cache
    · simp only [Shared.step, Function.update_of_ne hj]
      exact h.callers j

/-- No order of turns breaks anything. -/
theorem IsSound.run (h : shared.IsSound read) (turns : List ι) :
    (shared.run read turns).IsSound read := by
  induction turns generalizing shared with
  | nil => exact h
  | cons i turns ih => exact ih (h.step i)

theorem call_step (i j : ι) : ((shared.step read i).callers j).call = (shared.callers j).call := by
  by_cases hj : j = i
  · subst hj
    simp only [step, Function.update_self]
    exact Caller.advance_call
  · simp only [step, Function.update_of_ne hj]

theorem call_run (turns : List ι) (j : ι) :
    ((shared.run read turns).callers j).call = (shared.callers j).call := by
  induction turns generalizing shared with
  | nil => rfl
  | cons i turns ih => exact ih.trans (call_step i j)

theorem capacity_run (h : shared.IsSound read) (turns : List ι) :
    (shared.run read turns).cache.capacity = shared.cache.capacity := by
  induction turns generalizing shared with
  | nil => rfl
  | cons i turns ih =>
    refine (ih (h.step i)).trans ?_
    rcases (h.callers i).advance_store shared.cache with hsame | ⟨groups, -, hstore⟩
    · rw [step, hsame]
    · rw [step, hstore, capacity_store]

/-- What is stored stays as it is. -/
theorem get?_run (h : shared.IsSound read) (turns : List ι) {filter : String}
    {groups : List Group} (hget : shared.cache.get? filter = some groups) :
    (shared.run read turns).cache.get? filter = some groups := by
  induction turns generalizing shared with
  | nil => exact hget
  | cons i turns ih =>
    refine ih (h.step i) ?_
    rcases (h.callers i).advance_store shared.cache with hsame | ⟨found, hread, hstore⟩
    · rwa [step, hsame]
    · rw [step, hstore]
      exact h.cache.get?_store_of_some hread hget

/-- No caller waits for another one: each of its own turns brings a caller nearer to its end. -/
theorem remaining_run_le (turns : List ι) (i : ι) :
    ((shared.run read turns).callers i).progress.remaining ≤
      (shared.callers i).progress.remaining - turns.count i := by
  induction turns generalizing shared with
  | nil => exact Nat.le_refl _
  | cons j turns ih =>
    refine Nat.le_trans (@ih (shared.step read j)) ?_
    by_cases hj : i = j
    · subst hj
      have hstep : ((shared.step read i).callers i).progress.remaining ≤
          (shared.callers i).progress.remaining - 1 := by
        simp only [step, Function.update_self]
        exact Caller.remaining_advance_le
      rw [List.count_cons_self]
      omega
    · have hstep : (shared.step read j).callers i = shared.callers i := by
        simp only [step, Function.update_of_ne hj]
      exact Nat.le_of_eq (by rw [hstep, List.count_cons_of_ne fun h => hj h.symm])

/-- A caller that no one interrupts does what `getOrParse` does. -/
theorem run_alone {i : ι} {filter : String}
    (hcaller : shared.callers i = { call := .getOrParse filter }) :
    ((shared.run read [i, i, i]).callers i).progress =
        .returned (some (shared.cache.getOrParse read filter).1) ∧
      (shared.run read [i, i, i]).cache = (shared.cache.getOrParse read filter).2 := by
  unfold getOrParse
  cases hget : shared.cache.get? filter with
  | some groups => simp [run, step, Caller.advance, hcaller, Call.filter, hget]
  | none =>
    cases hread : read filter with
    | ok groups => simp [run, step, Caller.advance, hcaller, Call.filter, hget, hread]
    | error error => simp [run, step, Caller.advance, hcaller, Call.filter, hget, hread]

/-- A caller has returned after three turns of its own, whatever the others do. -/
theorem returned_of_count {i : ι} {turns : List ι} (h : 3 ≤ turns.count i) :
    ∃ result, ((shared.run read turns).callers i).progress = .returned result := by
  have hle : ((shared.run read turns).callers i).progress.remaining ≤
      (shared.callers i).progress.remaining - turns.count i := remaining_run_le turns i
  have hstart : (shared.callers i).progress.remaining ≤ 3 := by
    cases (shared.callers i).progress <;> simp [Progress.remaining]
  exact Progress.returned_of_remaining_eq_zero (by omega)

theorem Reachable.isSound {capacity : Nat} {calls : ι → Call}
    (h : Reachable read capacity calls shared) : shared.IsSound read := by
  obtain ⟨turns, rfl⟩ := h
  exact (start_isSound capacity calls).run turns

theorem Reachable.call_eq {capacity : Nat} {calls : ι → Call}
    (h : Reachable read capacity calls shared) (i : ι) : (shared.callers i).call = calls i := by
  obtain ⟨turns, rfl⟩ := h
  exact call_run turns i

theorem Reachable.capacity_eq {capacity : Nat} {calls : ι → Call}
    (h : Reachable read capacity calls shared) : shared.cache.capacity = capacity := by
  obtain ⟨turns, rfl⟩ := h
  exact capacity_run (start_isSound capacity calls) turns

end Shared

end Cache

/-! ### Filters -/

section Filters

variable {ω : Type} (context : Context ω) (resolver : Resolver ω)

/-- The fragment of a filter, given what the parser makes of its text. -/
def compileParsed (result : Except ParseError (List Group)) : Search ω Fragment := do
  compileGroups context resolver (← Search.ofExcept (result.mapError .parse))

variable {context resolver}

/-- What a filter is compiled to does not depend on the store, as long as the store holds nothing
but the trees of its filters. -/
theorem compileFilter_ignoresStore (hfunctions : context.functions.Keep (@IgnoresStore ω))
    {s t : Session ω} (hcache : s.cache.Holds parse) (hst : s.Alike t) (filter : String) :
    (outcome (compileFilter context resolver filter) s).1 =
        (outcome (compileParsed context resolver (parse filter)) t).1 ∧
      (outcome (compileFilter context resolver filter) s).2.Alike
        (outcome (compileParsed context resolver (parse filter)) t).2 := by
  obtain ⟨cache, hparsed⟩ : ∃ cache, outcome (Search.parsed filter) s =
      ((parse filter).mapError .parse, { s with cache }) := by
    refine ⟨(s.cache.getOrParse parse filter).2, ?_⟩
    rw [← hcache.getOrParse_fst filter]
    rfl
  unfold compileFilter compileParsed
  cases hread : parse filter with
  | error error =>
    rw [hread] at hparsed
    have hright : outcome (Search.ofExcept ((Except.error error :
        Except ParseError (List Group)).mapError .parse) : Search ω (List Group)) t =
          (.error (.parse error), t) := rfl
    rw [outcome_bind_of_error hparsed, outcome_bind_of_error hright]
    exact ⟨rfl, hst.drawn_eq, hst.world_eq⟩
  | ok groups =>
    rw [hread] at hparsed
    have hright : outcome (Search.ofExcept ((Except.ok groups :
        Except ParseError (List Group)).mapError .parse) : Search ω (List Group)) t =
          (.ok groups, t) := rfl
    rw [outcome_bind_of_ok hparsed, outcome_bind_of_ok hright]
    have hgroups : IgnoresStore (compileGroups context resolver groups) :=
      ignoresStore_isCompositional.holds_compileGroups hfunctions (fun _ _ _ => rfl) groups
    exact hgroups.outcome_alike ⟨hst.drawn_eq, hst.world_eq⟩

end Filters

/-! ### What sharing cannot change -/

open Cache in
/-- **A shared store changes no result.**  Whatever its capacity, whoever shares it, and in whatever
order their steps are taken, in each state that can be reached

* there are no more entries than there is room for, one for a filter, and each of them is the tree
  that the parser finds; so nothing is stored for a text that cannot be parsed;
* what is stored stays as it is, whatever happens later;
* a call for the tree of a filter that has returned, has returned what the parser makes of the text,
  and it has run the parser once if it had not found the tree, and otherwise not at all;
* a call returns after three turns of its own;
* a filter is compiled to what it is compiled to without any store. -/
theorem shared_store_transparent {ι : Type} [DecidableEq ι]
    {read : String → Except ParseError (List Group)} {capacity : Nat} {calls : ι → Call}
    {shared : Shared ι} (h : shared.Reachable read capacity calls) :
    shared.cache.size ≤ capacity ∧
    (shared.cache.entries.map Prod.fst).Nodup ∧
    (∀ entry ∈ shared.cache.entries, read entry.1 = .ok entry.2) ∧
    (∀ filter error, read filter = .error error → shared.cache.get? filter = none) ∧
    (∀ turns filter groups, shared.cache.get? filter = some groups →
      (shared.run read turns).cache.get? filter = some groups) ∧
    (∀ i filter, calls i = .getOrParse filter →
      (shared.callers i).parses ≤ 1 ∧
      ((shared.callers i).parses = 1 → (shared.callers i).hasMissed = true) ∧
      ∀ result, (shared.callers i).progress = .returned result →
        result = some (read filter) ∧
        ((shared.callers i).hasMissed = true → (shared.callers i).parses = 1)) ∧
    (∀ i filter, calls i = .get filter →
      (shared.callers i).parses = 0 ∧
      ∀ result, (shared.callers i).progress = .returned result →
        result = none ∨ result = some (read filter)) ∧
    (∀ i turns, 3 ≤ turns.count i →
      ∃ result, ((shared.run read turns).callers i).progress = .returned result) ∧
    (read = parse → ∀ {ω : Type} (context : Context ω) (resolver : Resolver ω),
      context.functions.Keep (@IgnoresStore ω) →
      ∀ (s t : Session ω) (filter : String), s.cache = shared.cache → s.Alike t →
        (outcome (compileFilter context resolver filter) s).1 =
            (outcome (compileParsed context resolver (parse filter)) t).1 ∧
          (outcome (compileFilter context resolver filter) s).2.Alike
            (outcome (compileParsed context resolver (parse filter)) t).2) := by
  have hsound := h.isSound
  refine ⟨?_, hsound.cache.nodup, hsound.cache.parsed, ?_, ?_, ?_, ?_, ?_, ?_⟩
  · rw [← h.capacity_eq]
    exact hsound.cache.size_le
  · intro filter error herror
    cases hget : shared.cache.get? filter with
    | none => rfl
    | some groups => cases herror.symm.trans (hsound.cache.of_get? hget)
  · intro turns filter groups hget
    exact Shared.get?_run hsound turns hget
  · intro i filter hcall
    exact (hsound.callers i).of_getOrParse ((h.call_eq i).trans hcall)
  · intro i filter hcall
    exact (hsound.callers i).of_get ((h.call_eq i).trans hcall)
  · intro i turns hcount
    exact Shared.returned_of_count hcount
  · rintro rfl ω context resolver hfunctions s t filter hcache hst
    exact compileFilter_ignoresStore hfunctions (hcache ▸ hsound.cache) hst filter

/-- The filters of three callers, two of them the same. -/
def crowdedFilter : Fin 3 → String
  | 0 => "a = 1"
  | 1 => "b = 2"
  | 2 => "a = 1"

/-- All three look for their trees before any of them is stored, and there is room for one. -/
def crowdedTurns : List (Fin 3) := [0, 1, 2, 0, 1, 2, 1, 2, 0]

theorem crowdedStore_transparent :
    ∃ shared : Cache.Shared (Fin 3),
      shared.Reachable parse 1 (fun i => .getOrParse (crowdedFilter i)) ∧
      shared.cache.size ≤ 1 ∧
      (∀ i, (shared.callers i).progress = .returned (some (parse (crowdedFilter i)))) ∧
      ∀ (config : Config) (names : Nat → String) (now : Instant) (resolver : Resolver Unit)
        (filter : String),
        (outcome (compileFilter { config, functions := .standard, names, now } resolver filter)
            { cache := shared.cache, drawn := 0, world := () }).1 =
          (outcome (compileParsed { config, functions := .standard, names, now } resolver
            (parse filter)) { cache := .empty 0, drawn := 0, world := () }).1 := by
  have hstart : (Cache.Shared.start 1 fun i => .getOrParse (crowdedFilter i)).Reachable parse 1
      fun i => .getOrParse (crowdedFilter i) := ⟨[], rfl⟩
  have hend : ((Cache.Shared.start 1 fun i => .getOrParse (crowdedFilter i)).run parse
      crowdedTurns).Reachable parse 1 fun i => .getOrParse (crowdedFilter i) := ⟨crowdedTurns, rfl⟩
  have hturns : ∀ i, 3 ≤ crowdedTurns.count i := by decide
  obtain ⟨-, -, -, -, -, -, -, hreturned, -⟩ := shared_store_transparent hstart
  obtain ⟨hsize, -, -, -, -, hanswers, -, -, hcompile⟩ := shared_store_transparent hend
  refine ⟨_, hend, hsize, fun i => ?_, fun config names now resolver filter => ?_⟩
  · obtain ⟨result, hresult⟩ := hreturned i crowdedTurns (hturns i)
    obtain ⟨-, -, hanswer⟩ := hanswers i (crowdedFilter i) rfl
    rw [hresult, (hanswer result hresult).1]
  · have hsame := hcompile rfl { config, functions := .standard, names, now } resolver
      ignoresStore_isCompositional.standard_keep
    exact (hsame { cache := _, drawn := 0, world := () } { cache := .empty 0, drawn := 0, world := () }
      filter rfl ⟨rfl, rfl⟩).1

end PagedSearch
