import Mathlib.Data.List.Forall2
import PagedSearch.Search.Session

/-!
# Runs of searches

A run of an action starts in a session and ends in a session, with a result or with an error.

Two runs agree if they leave the world in the same state after drawing as many names, and if either
both fail or both have results that belong together.  Actions whose runs agree can be put together
to actions whose runs agree, so a statement about two runs of a long action comes down to the places
in which the actions differ.

## Main definitions

* `Search.outcome` — a run.
* `Search.Ensures` — actions all of whose runs keep a property of the world.
* `Session.Alike` — sessions that differ in nothing but the store of trees.
* `Search.Agrees` — actions whose runs agree.
* `Search.IsCompositional` — properties that are kept when actions are put together.
* `Search.IsSteady` — actions for which nothing counts but how many names have been drawn.
* `Search.IgnoresStore` — actions for which the store of trees does not count.

## Main results

* `Search.outcome_mapM_eq_error` — an action repeated for the members of a list fails at one of
  them.
* `Search.Agrees.bind`, `Search.Agrees.mapM` — how agreement is put together.
-/

namespace PagedSearch

variable {ω α β γ δ : Type}

/-! ### One run -/

namespace Search

/-- The end of a run that starts in a session. -/
def outcome (action : Search ω α) (session : Session ω) : Except SearchError α × Session ω :=
  action.run.run session

variable {action : Search ω α} {s t u : Session ω} {e : SearchError}

theorem exists_ok_of_isOk {ε : Type} {result : Except ε α} (h : result.isOk = true) :
    ∃ a, result = .ok a := by
  cases result with
  | error e => cases h
  | ok a => exact ⟨a, rfl⟩

theorem exists_of_isOk {reached : Except SearchError α × Session ω} (h : reached.1.isOk = true) :
    ∃ a t, reached = (.ok a, t) := by
  obtain ⟨_ | a, t⟩ := reached
  · cases h
  · exact ⟨a, t, rfl⟩

@[simp] theorem outcome_pure (a : α) (s : Session ω) :
    outcome (pure a : Search ω α) s = (.ok a, s) := rfl

@[simp] theorem outcome_throw (e : SearchError) (s : Session ω) :
    outcome (throw e : Search ω α) s = (.error e, s) := rfl

theorem outcome_bind (action : Search ω α) (next : α → Search ω β) (s : Session ω) :
    outcome (action >>= next) s =
      match outcome action s with
      | (.ok a, t) => outcome (next a) t
      | (.error e, t) => (.error e, t) := by
  unfold outcome
  rw [ExceptT.run_bind, StateT.run_bind]
  obtain ⟨result, t⟩ := action.run.run s
  cases result <;> rfl

theorem outcome_bind_of_ok {next : α → Search ω β} {a : α} (h : outcome action s = (.ok a, t)) :
    outcome (action >>= next) s = outcome (next a) t := by
  rw [outcome_bind, h]

theorem outcome_bind_of_error {next : α → Search ω β} (h : outcome action s = (.error e, t)) :
    outcome (action >>= next) s = (.error e, t) := by
  rw [outcome_bind, h]

theorem outcome_bind_eq_ok {next : α → Search ω β} {b : β} :
    outcome (action >>= next) s = (.ok b, u) ↔
      ∃ a t, outcome action s = (.ok a, t) ∧ outcome (next a) t = (.ok b, u) := by
  rw [outcome_bind]
  rcases outcome action s with ⟨_ | a, t⟩
  · simp
  · constructor
    · intro h
      exact ⟨a, t, rfl, h⟩
    · rintro ⟨_, _, heq, h⟩
      obtain ⟨rfl, rfl⟩ : a = _ ∧ t = _ := by simpa using heq
      exact h

theorem outcome_bind_eq_error {next : α → Search ω β} :
    outcome (action >>= next) s = (.error e, u) ↔
      outcome action s = (.error e, u) ∨
        ∃ a t, outcome action s = (.ok a, t) ∧ outcome (next a) t = (.error e, u) := by
  rw [outcome_bind]
  rcases outcome action s with ⟨_ | a, t⟩
  · simp
  · constructor
    · intro h
      exact .inr ⟨a, t, rfl, h⟩
    · rintro (heq | ⟨_, _, heq, h⟩)
      · simp at heq
      · obtain ⟨rfl, rfl⟩ : a = _ ∧ t = _ := by simpa using heq
        exact h

@[simp] theorem outcome_draw (names : Nat → String) (stem : String) (length : Nat)
    (s : Session ω) :
    outcome (draw names stem length) s =
      (.ok (stem ++ String.ofList ((names s.drawn).toList.take length)),
        { s with drawn := s.drawn + 1 }) := rfl

@[simp] theorem outcome_inWorld (action : ExceptT SearchError (StateM ω) α) (s : Session ω) :
    outcome (inWorld action) s =
      ((action.run.run s.world).1, { s with world := (action.run.run s.world).2 }) := rfl

theorem outcome_tryCatch (action : Search ω α) (handle : SearchError → Search ω α)
    (s : Session ω) :
    outcome (tryCatch action handle) s =
      match outcome action s with
      | (.ok a, t) => (.ok a, t)
      | (.error e, t) => outcome (handle e) t := by
  unfold outcome
  rw [ExceptT.run_tryCatch, StateT.run_bind]
  obtain ⟨result, t⟩ := action.run.run s
  cases result <;> rfl

theorem outcome_explain (f : SearchError → SearchError) (action : Search ω α) (s : Session ω) :
    outcome (explain f action) s = ((outcome action s).1.mapError f, (outcome action s).2) := by
  rw [explain, outcome_tryCatch]
  rcases outcome action s with ⟨_ | a, t⟩ <;> rfl

/-- An error that is explained stays an error. -/
theorem outcome_explain_eq_ok {f : SearchError → SearchError} {a : α} :
    outcome (explain f action) s = (.ok a, t) ↔ outcome action s = (.ok a, t) := by
  rw [outcome_explain]
  generalize outcome action s = reached
  obtain ⟨_ | b, u⟩ := reached
  · constructor <;> rintro ⟨⟩
  · exact Iff.rfl

theorem length_of_outcome_mapM {f : α → Search ω β} {members : List α} {results : List β}
    (h : outcome (members.mapM f) s = (.ok results, t)) : results.length = members.length := by
  induction members generalizing s results with
  | nil =>
    obtain ⟨rfl, -⟩ : [] = results ∧ s = t := by simpa using h
    rfl
  | cons first rest ih =>
    rw [List.mapM_cons] at h
    obtain ⟨b, u, -, h⟩ := outcome_bind_eq_ok.mp h
    obtain ⟨bs, v, hrest, h⟩ := outcome_bind_eq_ok.mp h
    obtain ⟨rfl, rfl⟩ : b :: bs = results ∧ v = t := by simpa using h
    rw [List.length_cons, ih hrest, List.length_cons]

/-- What is done for each member of a list is done for the one in a given place. -/
theorem exists_outcome_of_mapM {f : α → Search ω β} {members : List α} {results : List β}
    (h : outcome (members.mapM f) s = (.ok results, t)) {index : Nat} {member : α}
    (hmember : members[index]? = some member) :
    ∃ result u v, results[index]? = some result ∧ outcome (f member) u = (.ok result, v) := by
  induction members generalizing s results index with
  | nil => simp at hmember
  | cons first rest ih =>
    rw [List.mapM_cons] at h
    obtain ⟨b, u, hfirst, h⟩ := outcome_bind_eq_ok.mp h
    obtain ⟨bs, v, hrest, h⟩ := outcome_bind_eq_ok.mp h
    obtain ⟨rfl, rfl⟩ : b :: bs = results ∧ v = t := by simpa using h
    cases index with
    | zero =>
      obtain rfl : first = member := by simpa using hmember
      exact ⟨b, s, u, rfl, hfirst⟩
    | succ index => exact ih hrest (by simpa using hmember)

/-- What is done for each member of a list fails if it fails for one member after succeeding for
those before, and not otherwise. -/
theorem outcome_mapM_eq_error {f : α → Search ω β} {members : List α} :
    outcome (members.mapM f) s = (.error e, t) ↔
      ∃ before member after results u, members = before ++ member :: after ∧
        outcome (before.mapM f) s = (.ok results, u) ∧ outcome (f member) u = (.error e, t) := by
  induction members generalizing s with
  | nil => simp
  | cons first rest ih =>
    rw [List.mapM_cons, outcome_bind_eq_error]
    constructor
    · rintro (hfirst | ⟨b, u, hfirst, h⟩)
      · exact ⟨[], first, rest, [], s, rfl, rfl, hfirst⟩
      · -- the list of results is put together by a step that cannot fail
        rcases outcome_bind_eq_error.mp h with hrest | ⟨_, _, _, h⟩
        · obtain ⟨before, member, after, results, v, rfl, hbefore, hmember⟩ := ih.mp hrest
          refine ⟨first :: before, member, after, b :: results, v, rfl, ?_, hmember⟩
          rw [List.mapM_cons, outcome_bind_of_ok hfirst, outcome_bind_of_ok hbefore, outcome_pure]
        · simp at h
    · rintro ⟨before, member, after, results, v, hsplit, hbefore, hmember⟩
      -- Where nothing comes before the member that fails, it is the first one.
      cases before with
      | nil =>
        obtain ⟨rfl, rfl⟩ := List.cons.inj hsplit
        obtain ⟨-, rfl⟩ : [] = results ∧ s = v := by simpa using hbefore
        exact .inl hmember
      | cons _ before =>
        obtain ⟨rfl, rfl⟩ := List.cons.inj hsplit
        rw [List.mapM_cons] at hbefore
        obtain ⟨b, u, hfirst, hbefore⟩ := outcome_bind_eq_ok.mp hbefore
        obtain ⟨bs, w, hrest, hpure⟩ := outcome_bind_eq_ok.mp hbefore
        obtain ⟨-, rfl⟩ : b :: bs = results ∧ w = v := by simpa using hpure
        refine .inr ⟨b, u, hfirst, outcome_bind_eq_error.mpr (.inl ?_)⟩
        exact ih.mpr ⟨before, member, after, bs, w, rfl, hrest, hmember⟩

/-! ### What every run keeps -/

/-- Every run of the action keeps the property `I` of the world, and its result, if it has one, has
the property `P`. -/
def Ensures (I : ω → Prop) (P : α → Prop) (action : Search ω α) : Prop :=
  ∀ s : Session ω, I s.world →
    I (outcome action s).2.world ∧ ∀ a, (outcome action s).1 = .ok a → P a

namespace Ensures

variable {I : ω → Prop} {P : α → Prop} {Q : β → Prop}

theorem pure {a : α} (h : P a) : Ensures I P (Pure.pure a : Search ω α) := by
  intro s hs
  refine ⟨hs, ?_⟩
  rintro b hb
  obtain rfl := Except.ok.inj hb
  exact h

theorem throw (e : SearchError) : Ensures I P (MonadExcept.throw e : Search ω α) := by
  intro s hs
  refine ⟨hs, ?_⟩
  intro a ha
  cases ha

theorem bind {next : α → Search ω β} (h : Ensures I P action)
    (hnext : ∀ a, P a → Ensures I Q (next a)) : Ensures I Q (action >>= next) := by
  intro s hs
  obtain ⟨hworld, hresult⟩ := h s hs
  rw [outcome_bind]
  generalize outcome action s = reached at hworld hresult
  obtain ⟨_ | a, t⟩ := reached
  · -- a run that has failed has no result to speak of
    refine ⟨hworld, ?_⟩
    intro b hb
    cases hb
  · exact hnext a (hresult a rfl) t hworld

theorem tryCatch {handle : SearchError → Search ω α} (h : Ensures I P action)
    (hhandle : ∀ e, Ensures I P (handle e)) : Ensures I P (MonadExcept.tryCatch action handle) := by
  intro s hs
  obtain ⟨hworld, hresult⟩ := h s hs
  rw [outcome_tryCatch]
  generalize outcome action s = reached at hworld hresult
  obtain ⟨e | a, t⟩ := reached
  · exact hhandle e t hworld
  · exact ⟨hworld, hresult⟩

theorem explain (f : SearchError → SearchError) (h : Ensures I P action) :
    Ensures I P (Search.explain f action) :=
  h.tryCatch fun e => throw (f e)

theorem mapM {f : α → Search ω β} {members : List α} (h : ∀ a ∈ members, Ensures I Q (f a)) :
    Ensures I (fun results => ∀ b ∈ results, Q b) (members.mapM f) := by
  induction members with
  | nil => exact pure (by simp)
  | cons first rest ih =>
    rw [List.mapM_cons]
    refine (h first List.mem_cons_self).bind fun b hb => ?_
    refine (ih fun a ha => h a (List.mem_cons_of_mem _ ha)).bind fun results hresults => ?_
    exact pure (List.forall_mem_cons.mpr ⟨hb, hresults⟩)

end Ensures

end Search

/-! ### Two runs -/

/-- Two sessions that differ in nothing but the store of trees. -/
structure Session.Alike (s t : Session ω) : Prop where
  /-- As many names have been drawn. -/
  drawn_eq : s.drawn = t.drawn
  /-- The world is in the same state. -/
  world_eq : s.world = t.world

theorem Session.Alike.refl (s : Session ω) : s.Alike s := ⟨rfl, rfl⟩

/-- The ends of two runs that agree: `R` holds for the results, or both have failed. -/
inductive Agreement (R : α → β → Prop) :
    Except SearchError α × Session ω → Except SearchError β × Session ω → Prop where
  /-- Both have a result. -/
  | ok {a : α} {b : β} {s t : Session ω} : R a b → s.Alike t → Agreement R (.ok a, s) (.ok b, t)
  /-- Both have failed. -/
  | error {e e' : SearchError} {s t : Session ω} :
    s.Alike t → Agreement R (.error e, s) (.error e', t)

namespace Search

/-- The runs of two actions agree if they start in sessions that are alike. -/
def Agrees (R : α → β → Prop) (action : Search ω α) (action' : Search ω β) : Prop :=
  ∀ s t : Session ω, s.Alike t → Agreement R (action.outcome s) (action'.outcome t)

namespace Agrees

variable {R : α → β → Prop} {S : γ → δ → Prop}

theorem pure {a : α} {b : β} (h : R a b) :
    Agrees R (Pure.pure a : Search ω α) (Pure.pure b : Search ω β) :=
  fun _ _ hst => .ok h hst

theorem throw (e e' : SearchError) :
    Agrees R (MonadExcept.throw e : Search ω α) (MonadExcept.throw e' : Search ω β) :=
  fun _ _ hst => .error hst

theorem bind {action : Search ω α} {action' : Search ω β} {next : α → Search ω γ}
    {next' : β → Search ω δ} (h : Agrees R action action')
    (hnext : ∀ a b, R a b → Agrees S (next a) (next' b)) :
    Agrees S (action >>= next) (action' >>= next') := by
  intro s t hst
  rw [outcome_bind, outcome_bind]
  have hends := h s t hst
  -- Only what the ends have in common counts from here on.
  generalize outcome action s = first, outcome action' t = second at hends
  cases hends with
  | ok hab hst' => exact hnext _ _ hab _ _ hst'
  | error hst' => exact .error hst'

theorem draw (names : Nat → String) (stem : String) (length : Nat) :
    Agrees Eq (Search.draw names stem length : Search ω String)
      (Search.draw names stem length) := by
  intro s t hst
  rw [outcome_draw, outcome_draw, hst.drawn_eq]
  exact .ok rfl ⟨rfl, hst.world_eq⟩

theorem explain (f f' : SearchError → SearchError) {action : Search ω α} {action' : Search ω β}
    (h : Agrees R action action') :
    Agrees R (Search.explain f action) (Search.explain f' action') := by
  intro s t hst
  rw [outcome_explain, outcome_explain]
  have hends := h s t hst
  generalize outcome action s = first, outcome action' t = second at hends
  cases hends with
  | ok hab hst' => exact .ok hab hst'
  | error hst' => exact .error hst'

/-- What is done for the members of two lists agrees if it agrees for the members that stand in the
same places. -/
theorem mapM {f : α → Search ω γ} {f' : β → Search ω δ} {members : List α} {members' : List β}
    (h : List.Forall₂ (fun a b => Agrees S (f a) (f' b)) members members') :
    Agrees (List.Forall₂ S) (members.mapM f) (members'.mapM f') := by
  induction h with
  | nil => exact pure .nil
  | cons hfirst _ ih =>
    rw [List.mapM_cons, List.mapM_cons]
    exact hfirst.bind fun _ _ hab => ih.bind fun _ _ hrest => pure (.cons hab hrest)

end Agrees

/-- A property that an action has if the actions that it is put together from have it. -/
structure IsCompositional (P : (α : Type) → Search ω α → Prop) : Prop where
  /-- It holds for results. -/
  pure {α : Type} (a : α) : P α (Pure.pure a)
  /-- It holds for errors. -/
  throw {α : Type} (e : SearchError) : P α (MonadExcept.throw e)
  /-- It holds for drawing names. -/
  draw (names : Nat → String) (stem : String) (length : Nat) :
    P String (Search.draw names stem length)
  /-- It holds for actions one after the other. -/
  bind {α β : Type} {action : Search ω α} {next : α → Search ω β} :
    P α action → (∀ a, P β (next a)) → P β (action >>= next)
  /-- It holds for actions one in the place of the other. -/
  tryCatch {α : Type} {action : Search ω α} {handle : SearchError → Search ω α} :
    P α action → (∀ e, P α (handle e)) → P α (MonadExcept.tryCatch action handle)

namespace IsCompositional

variable {P : (α : Type) → Search ω α → Prop}

theorem explain (h : IsCompositional P) (f : SearchError → SearchError) {action : Search ω α}
    (haction : P α action) : P α (Search.explain f action) :=
  h.tryCatch haction fun e => h.throw (f e)

theorem mapM (h : IsCompositional P) {f : α → Search ω β} (hf : ∀ a, P β (f a))
    (members : List α) : P (List β) (members.mapM f) := by
  induction members with
  | nil => exact h.pure []
  | cons first rest ih =>
    rw [List.mapM_cons]
    exact h.bind (hf first) fun b => h.bind ih fun results => h.pure (b :: results)

end IsCompositional

/-- Runs that start after as many draws end after as many draws, with the same result or the same
error: neither the world nor the store of trees counts. -/
def IsSteady (action : Search ω α) : Prop :=
  ∀ s t : Session ω, s.drawn = t.drawn →
    (action.outcome s).1 = (action.outcome t).1 ∧
      (action.outcome s).2.drawn = (action.outcome t).2.drawn

theorem IsSteady.outcome_eq_ok {action : Search ω α} (h : IsSteady action) {s t u : Session ω}
    {a : α} (hrun : outcome action s = (.ok a, t)) (hdrawn : u.drawn = s.drawn) :
    ∃ v, outcome action u = (.ok a, v) := by
  obtain ⟨hresult, -⟩ := h u s hdrawn
  rw [hrun] at hresult
  exact ⟨(outcome action u).2, Prod.ext hresult rfl⟩

theorem isSteady_isCompositional : IsCompositional (@IsSteady ω) where
  pure a := fun _ _ hst => ⟨rfl, hst⟩
  throw e := fun _ _ hst => ⟨rfl, hst⟩
  draw names stem length := by
    intro s t hst
    rw [outcome_draw, outcome_draw, hst]
    exact ⟨rfl, rfl⟩
  bind {α β action next} h hnext := by
    intro s t hst
    obtain ⟨hresult, hdrawn⟩ := h s t hst
    rw [outcome_bind, outcome_bind]
    generalize outcome action s = first, outcome action t = second at hresult hdrawn
    obtain ⟨_ | a, u⟩ := first <;> obtain ⟨_ | b, v⟩ := second <;> cases hresult
    · exact ⟨rfl, hdrawn⟩
    · exact hnext a u v hdrawn
  tryCatch {α action handle} h hhandle := by
    intro s t hst
    obtain ⟨hresult, hdrawn⟩ := h s t hst
    rw [outcome_tryCatch, outcome_tryCatch]
    generalize outcome action s = first, outcome action t = second at hresult hdrawn
    obtain ⟨e | a, u⟩ := first <;> obtain ⟨e' | b, v⟩ := second <;> cases hresult
    · exact hhandle e u v hdrawn
    · exact ⟨rfl, hdrawn⟩

/-- What the action does does not depend on the store of trees, and the store stays as it is. -/
def IgnoresStore (action : Search ω α) : Prop :=
  ∀ (s : Session ω) (cache : Cache),
    action.outcome { s with cache } =
      ((action.outcome s).1, { (action.outcome s).2 with cache })

/-- Runs that start in sessions that are alike end alike, with the same result. -/
theorem IgnoresStore.outcome_alike {action : Search ω α} (h : IgnoresStore action)
    {s t : Session ω} (hst : s.Alike t) :
    (action.outcome s).1 = (action.outcome t).1 ∧
      (action.outcome s).2.Alike (action.outcome t).2 := by
  obtain ⟨cache, drawn, world⟩ := t
  obtain ⟨rfl, rfl⟩ := hst
  rw [h s cache]
  exact ⟨rfl, rfl, rfl⟩

theorem ignoresStore_isCompositional : IsCompositional (@IgnoresStore ω) where
  pure a := fun _ _ => rfl
  throw e := fun _ _ => rfl
  draw names stem length := fun _ _ => rfl
  bind {α β action next} h hnext := by
    intro s cache
    rw [outcome_bind, outcome_bind, h]
    rcases outcome action s with ⟨_ | a, t⟩
    · rfl
    · exact hnext a t cache
  tryCatch {α action handle} h hhandle := by
    intro s cache
    rw [outcome_tryCatch, outcome_tryCatch, h]
    rcases outcome action s with ⟨e | a, t⟩
    · exact hhandle e t cache
    · rfl

end Search

end PagedSearch
