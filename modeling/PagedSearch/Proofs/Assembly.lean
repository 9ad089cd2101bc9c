import PagedSearch.Compile.Filter
import PagedSearch.Field.AllowList
import PagedSearch.Proofs.Runs
import PagedSearch.Proofs.Trees

/-!
# From comparisons to filters

A filter is compiled from left to right, and only its comparisons are work: each of them is compiled
by itself, and the fragments are put together as the tree says.  The one thing that can go wrong
beside the comparisons is a list of groups without groups.

## Main definitions

* `fragments` — how the fragments of comparisons are put together.
* `compileStep` — the work for one comparison.

## Main results

* `outcome_compileGroups` — compiling a tree is compiling its comparisons.
-/

namespace PagedSearch

/-- The fragments that trees are compiled to, `leaf` being those of the comparisons. -/
def fragments (leaf : Nat → Fragment) : Interpretation Fragment where
  leaf := leaf
  join := Join.fragment
  enclose := .enclose
  gap := .none

section Compile

variable {ω : Type} (context : Context ω) (resolver : Resolver ω)

/-- What is to be done for a comparison, or for a gap. -/
def compileStep : Option Comparison → Search ω Fragment
  | some comparison => compileComparison context resolver comparison
  | none => throw .emptyExpression

variable {context resolver}

open Search

/-- `leaf` gives the numbers from `start` on to the fragments of a list. -/
def Numbers (leaf : Nat → Fragment) (start : Nat) (leaves : List Fragment) : Prop :=
  ∀ index fragment, leaves[index]? = some fragment → leaf (start + index) = fragment

theorem Numbers.left {leaf : Nat → Fragment} {start : Nat} {first second : List Fragment}
    (h : Numbers leaf start (first ++ second)) : Numbers leaf start first := by
  intro index fragment hget
  obtain ⟨hlt, -⟩ := List.getElem?_eq_some_iff.mp hget
  exact h index fragment (by rwa [List.getElem?_append_left hlt])

theorem Numbers.right {leaf : Nat → Fragment} {start : Nat} {first second : List Fragment}
    (h : Numbers leaf start (first ++ second)) : Numbers leaf (start + first.length) second := by
  intro index fragment hget
  rw [Nat.add_assoc]
  exact h _ fragment (by rwa [List.getElem?_append_right (Nat.le_add_right _ _),
    Nat.add_sub_cancel_left])

theorem outcome_mapM_gap (s : Session ω) :
    outcome (([none] : List (Option Comparison)).mapM (compileStep context resolver)) s =
      (.error .emptyExpression, s) := by
  rw [List.mapM_cons]
  exact outcome_bind_of_error rfl

theorem outcome_mapM_append_eq_ok {α β : Type} {f : α → Search ω β} {first second : List α}
    {s u : Session ω} {results : List β}
    (h : outcome ((first ++ second).mapM f) s = (.ok results, u)) :
    ∃ firstResults secondResults t, results = firstResults ++ secondResults ∧
      outcome (first.mapM f) s = (.ok firstResults, t) ∧
      outcome (second.mapM f) t = (.ok secondResults, u) := by
  rw [List.mapM_append] at h
  obtain ⟨firstResults, t, hfirst, h⟩ := outcome_bind_eq_ok.mp h
  obtain ⟨secondResults, v, hsecond, h⟩ := outcome_bind_eq_ok.mp h
  obtain ⟨rfl, rfl⟩ : firstResults ++ secondResults = results ∧ v = u := by simpa using h
  exact ⟨firstResults, secondResults, t, rfl, hfirst, hsecond⟩

theorem outcome_mapM_append_eq_error {α β : Type} {f : α → Search ω β} {first second : List α}
    {s u : Session ω} {e : SearchError}
    (h : outcome ((first ++ second).mapM f) s = (.error e, u)) :
    outcome (first.mapM f) s = (.error e, u) ∨
      ∃ firstResults t, outcome (first.mapM f) s = (.ok firstResults, t) ∧
        outcome (second.mapM f) t = (.error e, u) := by
  rw [List.mapM_append] at h
  rcases outcome_bind_eq_error.mp h with hfirst | ⟨firstResults, t, hfirst, h⟩
  · exact .inl hfirst
  · rcases outcome_bind_eq_error.mp h with hsecond | ⟨_, _, _, h⟩
    · exact .inr ⟨firstResults, t, hfirst, hsecond⟩
    · simp at h

mutual

/-- A group whose comparisons are compiled is compiled, to the fragment put together from theirs. -/
theorem compileGroup_eq_ok (leaf : Nat → Fragment) (start : Nat) (group : Group)
    {leaves : List Fragment} {s t : Session ω}
    (h : outcome (group.steps.mapM (compileStep context resolver)) s = (.ok leaves, t))
    (hleaf : Numbers leaf start leaves) :
    outcome (compileGroup context resolver group) s =
      (.ok ((fragments leaf).group start group), t) := by
  match group with
  | .comparison join c =>
    rw [Group.steps, List.mapM_cons, List.mapM_nil] at h
    obtain ⟨fragment, u, hfragment, h⟩ := outcome_bind_eq_ok.mp h
    obtain ⟨rfl, rfl⟩ : [fragment] = leaves ∧ u = t := by simpa using h
    have hstart : (fragments leaf).leaf start = fragment := hleaf 0 fragment rfl
    rw [compileGroup, Interpretation.group, hstart]
    exact hfragment
  | .nested join [] =>
    rw [Group.steps, outcome_mapM_gap] at h
    simp at h
  | .nested join (first :: rest) =>
    rw [Group.steps, ← Group.memberSteps] at h
    rw [compileGroup, outcome_bind_of_ok (compileMembers_eq_ok leaf start (first :: rest) h hleaf)]
    rfl

theorem compileMembers_eq_ok (leaf : Nat → Fragment) (start : Nat) (groups : List Group)
    {leaves : List Fragment} {s t : Session ω}
    (h : outcome ((Group.memberSteps groups).mapM (compileStep context resolver)) s =
      (.ok leaves, t))
    (hleaf : Numbers leaf start leaves) :
    outcome (compileMembers context resolver groups) s =
      (.ok ((fragments leaf).members start groups), t) := by
  match groups with
  | [] =>
    obtain ⟨rfl, rfl⟩ : [] = leaves ∧ s = t := by simpa [Group.memberSteps] using h
    rfl
  | group :: groups =>
    rw [Group.memberSteps] at h
    obtain ⟨first, second, u, rfl, hfirst, hsecond⟩ := outcome_mapM_append_eq_ok h
    -- The numbers of the second part go on behind those of the first.
    have hlength := length_of_outcome_mapM hfirst
    have hgroup := compileGroup_eq_ok leaf start group hfirst hleaf.left
    have hgroups := compileMembers_eq_ok leaf (start + first.length) groups hsecond hleaf.right
    rw [compileMembers, outcome_bind_of_ok hgroup, outcome_bind_of_ok hgroups,
      Interpretation.members, ← hlength]
    rfl

end

mutual

/-- A group in which something fails fails with the same error. -/
theorem compileGroup_eq_error (group : Group) {e : SearchError} {s t : Session ω}
    (h : outcome (group.steps.mapM (compileStep context resolver)) s = (.error e, t)) :
    outcome (compileGroup context resolver group) s = (.error e, t) := by
  match group with
  | .comparison join c =>
    rw [Group.steps, List.mapM_cons, List.mapM_nil] at h
    rcases outcome_bind_eq_error.mp h with hfragment | ⟨_, _, _, h⟩
    · exact hfragment
    · simp at h
  | .nested join [] =>
    rw [Group.steps, outcome_mapM_gap] at h
    obtain ⟨rfl, rfl⟩ : SearchError.emptyExpression = e ∧ s = t := by simpa using h
    rfl
  | .nested join (first :: rest) =>
    rw [Group.steps, ← Group.memberSteps] at h
    rw [compileGroup, outcome_bind_of_error (compileMembers_eq_error (first :: rest) h)]

theorem compileMembers_eq_error (groups : List Group) {e : SearchError} {s t : Session ω}
    (h : outcome ((Group.memberSteps groups).mapM (compileStep context resolver)) s =
      (.error e, t)) :
    outcome (compileMembers context resolver groups) s = (.error e, t) := by
  match groups with
  | [] => simp [Group.memberSteps] at h
  | group :: groups =>
    rw [Group.memberSteps] at h
    rw [compileMembers]
    rcases outcome_mapM_append_eq_error h with hfirst | ⟨leaves, u, hfirst, hsecond⟩
    · rw [outcome_bind_of_error (compileGroup_eq_error group hfirst)]
    · -- which numbers the comparisons of the first group have does not matter here
      have hgroup := compileGroup_eq_ok (fun index => leaves.getD index .none) 0 group hfirst
        (fun index fragment hget => by simp [hget])
      rw [outcome_bind_of_ok hgroup,
        outcome_bind_of_error (compileMembers_eq_error groups hsecond)]

end

/-- A filter whose comparisons are compiled is compiled, to the fragment put together from
theirs. -/
theorem compileGroups_of_ok {groups : List Group} {leaves : List Fragment} {s t : Session ω}
    (h : outcome ((stepsOf groups).mapM (compileStep context resolver)) s = (.ok leaves, t)) :
    outcome (compileGroups context resolver groups) s =
      (.ok ((fragments fun index => leaves.getD index .none).row groups), t) := by
  cases groups with
  | nil =>
    rw [stepsOf, outcome_mapM_gap] at h
    simp at h
  | cons first rest =>
    have hmembers := compileMembers_eq_ok (fun index => leaves.getD index .none) 0 (first :: rest) h
      (fun index fragment hget => by simp [hget])
    rw [compileGroups, outcome_bind_of_ok hmembers]
    rfl

theorem compileGroups_of_error {groups : List Group} {e : SearchError} {s t : Session ω}
    (h : outcome ((stepsOf groups).mapM (compileStep context resolver)) s = (.error e, t)) :
    outcome (compileGroups context resolver groups) s = (.error e, t) := by
  cases groups with
  | nil =>
    rw [stepsOf, outcome_mapM_gap] at h
    obtain ⟨rfl, rfl⟩ : SearchError.emptyExpression = e ∧ s = t := by simpa using h
    rfl
  | cons first rest =>
    rw [compileGroups, outcome_bind_of_error (compileMembers_eq_error (first :: rest) h)]

/-- Compiling a filter is compiling its comparisons and putting their fragments together. -/
theorem outcome_compileGroups (groups : List Group) (s : Session ω) :
    outcome (compileGroups context resolver groups) s =
      match outcome ((stepsOf groups).mapM (compileStep context resolver)) s with
      | (.ok leaves, t) => (.ok ((fragments fun index => leaves.getD index .none).row groups), t)
      | (.error e, t) => (.error e, t) := by
  split
  · exact compileGroups_of_ok ‹_›
  · exact compileGroups_of_error ‹_›

theorem compileGroups_eq_ok {groups : List Group} {fragment : Fragment} {s t : Session ω}
    (h : outcome (compileGroups context resolver groups) s = (.ok fragment, t)) :
    ∃ leaves, outcome ((stepsOf groups).mapM (compileStep context resolver)) s = (.ok leaves, t) ∧
      fragment = (fragments fun index => leaves.getD index .none).row groups := by
  rw [outcome_compileGroups] at h
  split at h
  · rename_i leaves u hsteps
    obtain ⟨hfragment, rfl⟩ := Prod.mk.inj h
    exact ⟨leaves, hsteps, (Except.ok.inj hfragment).symm⟩
  · cases (Prod.mk.inj h).1

theorem compileGroups_eq_error {groups : List Group} {e : SearchError} {s t : Session ω}
    (h : outcome (compileGroups context resolver groups) s = (.error e, t)) :
    outcome ((stepsOf groups).mapM (compileStep context resolver)) s = (.error e, t) := by
  rw [outcome_compileGroups] at h
  split at h
  · simp at h
  · rename_i hsteps
    obtain ⟨rfl, rfl⟩ : _ = e ∧ _ = t := by simpa using h
    exact hsteps

end Compile

/-! ### A context to try things in -/

/-- The usual limits and functions, with the names `p0123456789`, at the start of 1970. -/
def sampleContext {ω : Type} : Context ω where
  config := {}
  functions := .standard
  names := fun _ => "0123456789"
  now := .ofMillis 0

/-- A session in which nothing has happened. -/
def sampleSession {ω : Type} [Inhabited ω] : Session ω where
  cache := .empty 8
  drawn := 0
  world := default

/-- A list of two fields. -/
def sampleList : AllowList := ⟨[.named "title", .named "body"]⟩

end PagedSearch
