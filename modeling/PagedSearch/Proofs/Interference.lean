import PagedSearch.Proofs.Sources

/-!
# The values of a filter and those of its comparisons

The values of all comparisons of a filter end up under their names in one map, and of two values
with the same name the last one counts.  The names of the values that a client writes are drawn, and
no other value has them.  The names of the values that a resolver gives are its own, and they come
back with each use of a field.

Where a value is a pattern its wildcards are escaped, and it keeps its name.  So if a field with a
value of its own is a pattern in one place and something else in another, then one of the two places
gets the value of the other.  This is the only way in which comparisons can get at each other's
values.

## Main definitions

* `Params.IsConsistent` — maps in which no name has two values.
* `Comparison.Respects` — comparisons that bind the values of a resolver as a map says.
* `Comparison.IsAlone` — what a comparison is compiled to if it is the whole filter.

## Main results

* `mem_comparisonFragment`, `compare_eq_ok` — the values of a comparison, given its operands.
* `compileComparison_draws` — the values of a comparison.
* `compileFilter_keeps_values` — each comparison keeps the values that it has by itself.
-/

namespace PagedSearch

open Search

variable {ω : Type}

/-! ### Comparisons -/

namespace Params

/-- The values without their names. -/
def values (params : Params) : List Value := params.entries.map Prod.snd

theorem values_eq_nil {params : Params} : params.values = [] ↔ params = .empty := by
  obtain ⟨entries⟩ := params
  simp [values, empty]

theorem map_id (params : Params) : params.map id = params := by
  simp [map]

/-- Values without wildcards can be used in any way. -/
theorem map_apply_of_escapeLike {params : Params} (h : params.map Value.escapeLike = params)
    {use : Use} : params.map use.apply = params := by
  cases use with
  | plain => exact params.map_id
  | pattern => exact h

end Params

/-- A pattern without values has none after they have been escaped, either. -/
theorem mem_likeText {subject pattern : Resolved} {text other : String} {pair : String × Value} :
    pair ∈ (if pattern.params.isEmpty then Fragment.raw text subject.params
      else .raw other (subject.params.merge (pattern.params.map Value.escapeLike))).params.entries ↔
        pair ∈ subject.params.entries ∨ pair ∈ (pattern.params.map Value.escapeLike).entries := by
  split
  · rename_i hempty
    rw [Params.isEmpty_iff.mp hempty]
    simp [Fragment.params, Params.map, Params.empty]
  · rw [Fragment.params, Params.mem_merge]

theorem mem_likeFragment (negated : Bool) {left right : Resolved} {pair : String × Value} :
    pair ∈ (likeFragment negated left right).params.entries ↔
      pair ∈ (left.params.map (Comparator.leftUse (if negated then .notLike else .like)
        right.params.values).apply).entries ∨
          pair ∈ (right.params.map Value.escapeLike).entries := by
  unfold likeFragment
  by_cases hswap : (negated && !left.params.isEmpty && right.params.isEmpty) = true
  · -- The sides change places, and there are no values on the right.
    rw [if_pos hswap]
    simp only [Bool.and_eq_true, Bool.not_eq_true'] at hswap
    obtain ⟨⟨rfl, -⟩, hright⟩ := hswap
    have huse : (Comparator.notLike.leftUse (Params.values .empty)).apply = Value.escapeLike := rfl
    refine mem_likeText.trans ?_
    rw [Params.isEmpty_iff.mp hright, if_pos rfl, huse, or_comm]
    rfl
  · rw [if_neg hswap]
    have huse : left.params.map (Comparator.leftUse (if negated then .notLike else .like)
        right.params.values).apply = left.params := by
      cases negated with
      | false => exact Params.map_id left.params
      | true =>
        by_cases hright : right.params.values = []
        · -- A left side that would be the pattern, but has no values, is not changed either.
          have hleft : left.params = .empty := by
            rw [Params.values_eq_nil.mp hright] at hswap
            simpa [Params.isEmpty_iff] using hswap
          rw [hleft]
          rfl
        · have hplain : Comparator.notLike.leftUse right.params.values = .plain :=
            if_neg fun h => hright h.2
          rw [if_pos rfl, hplain]
          exact Params.map_id left.params
    rw [huse]
    exact mem_likeText

/-- A comparison has the values of its sides, each of them as the operator uses it. -/
theorem mem_comparisonFragment {left right : Resolved} {comparator : Comparator}
    {pair : String × Value} :
    pair ∈ (comparisonFragment left comparator right).params.entries ↔
      pair ∈ (left.params.map (comparator.leftUse right.params.values).apply).entries ∨
        pair ∈ (right.params.map comparator.rightUse.apply).entries := by
  have hplain : Use.plain.apply = id := rfl
  cases comparator with
  | like => exact mem_likeFragment false
  | notLike => exact mem_likeFragment true
  | equal | notEqual | less | lessEqual | greater | greaterEqual =>
    simp [comparisonFragment, equalityFragment, orderFragment, Fragment.params,
      Comparator.leftUse, Comparator.rightUse, hplain, Params.map_id, Params.mem_merge]

/-- A value under its name, as a map says. -/
def IsGiven (given : String → Option Value) (pair : String × Value) : Prop :=
  given pair.1 = some pair.2

/-- The related values of an operand, and what its comparison is put into, bind values as a map
says. -/
structure Resolved.Respects (given : String → Option Value) (operand : Resolved) : Prop where
  /-- The selection of the related values. -/
  related : ∀ selection, operand.related = some selection →
    ∀ pair ∈ selection.params.entries, IsGiven given pair
  /-- What the comparison is put into adds no other values to it. -/
  wrap : ∀ wrap, operand.wrap = some wrap → ∀ fragment, ∀ pair ∈ (wrap fragment).params.entries,
    pair ∈ fragment.params.entries ∨ IsGiven given pair

/-- The values of the left operand are not used in two ways.  With `!~` they would be, if the right
operand had values for the row but none where it stands for its related values; then they must not
have wildcards. -/
def Comparator.UsesOnce (comparator : Comparator) (left right : Resolved) : Prop :=
  comparator = .notLike → left.related = none → right.related ≠ none →
    right.params = .empty ∨ left.params.map Value.escapeLike = left.params

section Compare

variable {context : Context ω} {given : String → Option Value} {left right : Resolved}
  {comparator : Comparator} {s t : Session ω}

theorem Resolved.Respects.mem_wrapped {operand : Resolved} (h : operand.Respects given)
    {fragment : Fragment} {pair : String × Value}
    (hpair : pair ∈ (operand.wrapped fragment).params.entries) :
    pair ∈ fragment.params.entries ∨ IsGiven given pair := by
  unfold Resolved.wrapped at hpair
  split at hpair
  · rename_i wrap hwrap
    exact h.wrap wrap hwrap fragment pair hpair
  · exact .inl hpair

theorem Resolved.Respects.mem_source {operand : Resolved} (h : operand.Respects given)
    {sources : Option (Fragment × String)} (hsources : sources.map Prod.fst = operand.related)
    {source : Fragment × String} (hsource : source ∈ sources.toList) {pair : String × Value}
    (hpair : pair ∈ source.1.params.entries) : IsGiven given pair := by
  rw [Option.mem_toList.mp hsource] at hsources
  exact h.related source.1 hsources.symm pair hpair

theorem relatedSide_eq_ok {side : Side} {operand value : Resolved}
    {source : Option (Fragment × String)}
    (hrun : outcome (relatedSide context side operand) s = (.ok (source, value), t)) :
    s.drawn ≤ t.drawn ∧ source.map Prod.fst = operand.related ∧
      value.params = if operand.related.isSome then .empty else operand.params := by
  unfold relatedSide at hrun
  split at hrun
  · rename_i selection hselection
    obtain ⟨name, u, hname, hrun⟩ := outcome_bind_eq_ok.mp hrun
    rw [outcome_draw] at hname
    obtain ⟨-, rfl⟩ := Prod.mk.inj hname
    obtain ⟨hresult, rfl⟩ := Prod.mk.inj hrun
    obtain ⟨rfl, rfl⟩ := Prod.mk.inj (Except.ok.inj hresult)
    rw [hselection]
    exact ⟨Nat.le_succ _, rfl, rfl⟩
  · rename_i hnone
    obtain ⟨hresult, rfl⟩ := Prod.mk.inj hrun
    obtain ⟨rfl, rfl⟩ := Prod.mk.inj (Except.ok.inj hresult)
    rw [hnone]
    exact ⟨Nat.le_refl _, rfl, rfl⟩

theorem Fragment.mem_sourcesParams {sources : List (Fragment × String)} {pair : String × Value} :
    pair ∈ (sourcesParams sources).entries ↔
      ∃ source ∈ sources, pair ∈ source.1.params.entries := by
  induction sources with
  | nil => simp [sourcesParams, Params.empty]
  | cons first rest ih => simp [sourcesParams, Params.mem_merge, ih]

/-- The condition on related values uses the values on the left as the condition on the row does,
unless it makes no difference to them. -/
theorem Comparator.UsesOnce.leftUse_eq (h : comparator.UsesOnce left right)
    (hleft : left.related = none) {rightValue : Resolved}
    (hright : rightValue.params = if right.related.isSome then .empty else right.params) :
    comparator.leftUse rightValue.params.values = comparator.leftUse right.params.values ∨
      left.params.map Value.escapeLike = left.params := by
  by_cases hcomparator : comparator = .notLike
  · cases hrelated : right.related with
    | none =>
      rw [hrelated] at hright
      rw [hright]
      exact .inl rfl
    | some selection =>
      rw [hrelated] at hright
      refine (h hcomparator hleft (by simp [hrelated])).imp_left fun hempty => ?_
      rw [hright, hempty]
      rfl
  · left
    rw [leftUse, leftUse, if_neg fun hboth => hcomparator hboth.1,
      if_neg fun hboth => hcomparator hboth.1]

/-- The condition on related values binds no values of the operands but those that the condition on
the row binds. -/
theorem mem_comparisonFragment_of_related {leftValue rightValue : Resolved}
    (huses : comparator.UsesOnce left right)
    (hleft : leftValue.params = if left.related.isSome then .empty else left.params)
    (hright : rightValue.params = if right.related.isSome then .empty else right.params)
    {pair : String × Value}
    (hpair : pair ∈ (comparisonFragment leftValue comparator rightValue).params.entries) :
    pair ∈ (comparisonFragment left comparator right).params.entries := by
  rw [mem_comparisonFragment] at hpair ⊢
  rcases hpair with hpair | hpair
  · left
    split at hleft
    · rw [hleft] at hpair
      cases hpair
    · rename_i hrelated
      rw [hleft] at hpair
      rcases huses.leftUse_eq (by simpa using hrelated) hright with huse | hsame
      · rwa [huse] at hpair
      · -- The values may be used in another way, but they have no wildcards.
        rw [Params.map_apply_of_escapeLike hsame] at hpair
        rwa [Params.map_apply_of_escapeLike hsame]
  · right
    split at hright
    · rw [hright] at hpair
      cases hpair
    · rwa [hright] at hpair

/-- What a compiled comparison has been put together from. -/
theorem exists_of_compare (hleft : left.Respects given) (hright : right.Respects given)
    (huses : comparator.UsesOnce left right) {fragment : Fragment}
    (hrun : outcome (compare context left comparator right) s = (.ok fragment, t)) :
    ∃ compared, fragment = right.wrapped (left.wrapped compared) ∧ s.drawn ≤ t.drawn ∧
      ∀ pair ∈ compared.params.entries,
        pair ∈ (comparisonFragment left comparator right).params.entries ∨
          IsGiven given pair := by
  unfold compare at hrun
  dsimp only at hrun
  split at hrun
  · obtain ⟨hfragment, rfl⟩ := Prod.mk.inj hrun
    exact ⟨_, (Except.ok.inj hfragment).symm, Nat.le_refl _, fun pair hpair => .inl hpair⟩
  · obtain ⟨⟨leftSource, leftValue⟩, u, hleftRun, hrun⟩ := outcome_bind_eq_ok.mp hrun
    obtain ⟨⟨rightSource, rightValue⟩, v, hrightRun, hrun⟩ := outcome_bind_eq_ok.mp hrun
    obtain ⟨hfragment, rfl⟩ := Prod.mk.inj hrun
    obtain ⟨hdrawn, hleftSource, hleftValue⟩ := relatedSide_eq_ok hleftRun
    obtain ⟨hdrawn', hrightSource, hrightValue⟩ := relatedSide_eq_ok hrightRun
    refine ⟨_, (Except.ok.inj hfragment).symm, Nat.le_trans hdrawn hdrawn', fun pair hpair => ?_⟩
    rw [Fragment.params, Fragment.params, Fragment.partsParams, Fragment.partsParams,
      Fragment.partsParams, Params.merge_empty, Params.mem_merge] at hpair
    rcases hpair with hplain | hrelated
    · exact .inl hplain
    · rw [Fragment.params] at hrelated
      split at hrelated
      · rw [Params.mem_merge, Fragment.mem_sourcesParams] at hrelated
        rcases hrelated with ⟨source, hsource, hpair⟩ | hcondition
        · rcases List.mem_append.mp hsource with hsource | hsource
          · exact .inr (hleft.mem_source hleftSource hsource hpair)
          · exact .inr (hright.mem_source hrightSource hsource hpair)
        · exact .inl (mem_comparisonFragment_of_related huses hleftValue hrightValue hcondition)
      · cases hrelated

/-- A comparison binds the values that it would bind without related values, and given ones. -/
theorem compare_eq_ok (hleft : left.Respects given) (hright : right.Respects given)
    (huses : comparator.UsesOnce left right) {fragment : Fragment}
    (hrun : outcome (compare context left comparator right) s = (.ok fragment, t)) :
    s.drawn ≤ t.drawn ∧ ∀ pair ∈ fragment.params.entries,
      pair ∈ (comparisonFragment left comparator right).params.entries ∨ IsGiven given pair := by
  obtain ⟨compared, rfl, hdrawn, hmem⟩ := exists_of_compare hleft hright huses hrun
  refine ⟨hdrawn, fun pair hpair => ?_⟩
  rcases hright.mem_wrapped hpair with hpair | hgiven
  · rcases hleft.mem_wrapped hpair with hpair | hgiven
    · exact hmem pair hpair
    · exact .inr hgiven
  · exact .inr hgiven

end Compare

section Comparisons

variable (context : Context ω) (resolver : Resolver ω)

/-- A comparison in which the values of the resolver are bound as a map says: a value that is used
as it is, is in the map as it is, and a value that becomes a pattern is in it without wildcards. -/
structure Comparison.Respects (given : String → Option Value) (c : Comparison) : Prop where
  /-- The values of fields on the left, which are a pattern for `!~` if there are none on the
  right. -/
  left : ∀ right, c.right.Yields context resolver right →
    ∀ name value, resolver.Gives context.now c.left (name, value) →
      given name = some ((c.comparator.leftUse right.params.values).apply value)
  /-- The values of fields on the right, which are a pattern for `~` and `!~`. -/
  right : ∀ name value, resolver.Gives context.now c.right (name, value) →
    given name = some (c.comparator.rightUse.apply value)
  /-- The values on the left are not used in two ways. -/
  usesOnce : ∀ left right, c.left.Yields context resolver left →
    c.right.Yields context resolver right → c.comparator.UsesOnce left right
  /-- What comes with the left operand. -/
  besideLeft : ∀ left, c.left.Yields context resolver left → left.Respects given
  /-- What comes with the right operand. -/
  besideRight : ∀ right, c.right.Yields context resolver right → right.Respects given

variable {context resolver} {given : String → Option Value} {s t : Session ω}

/-- If the answers of a resolver are values without wildcards, then all comparisons bind them as
they are. -/
theorem Comparison.Respects.of_isBare (horderly : context.IsOrderly)
    (hbare : ∀ field answer, resolver.Answers field answer → answer.IsBare)
    (hvalues : ∀ field answer, resolver.Answers field answer → ∀ pair ∈ answer.params.entries,
      IsGiven given pair ∧ pair.2.escapeLike = pair.2) (c : Comparison) :
    c.Respects context resolver given := by
  have hgives {operand : Operand} {use : Use} {name : String} {value : Value}
      (h : resolver.Gives context.now operand (name, value)) :
      given name = some (use.apply value) := by
    obtain ⟨field, -, answer, hanswer, hmem⟩ := h
    obtain ⟨hgiven, hescape⟩ := hvalues field answer hanswer _ hmem
    cases use with
    | plain => exact hgiven
    | pattern => exact hgiven.trans (congrArg some hescape.symm)
  have hrespects {resolved : Resolved} (h : resolved.IsBare) : resolved.Respects given := by
    constructor
    · intro selection hselection
      cases h.related.symm.trans hselection
    · intro wrap hwrap
      cases h.wrap.symm.trans hwrap
  constructor
  · exact fun _ _ _ _ => hgives
  · exact fun _ _ => hgives
  · intro _ right _ hright _ _ hrelated
    exact absurd (hright.isBare horderly hbare).related hrelated
  · exact fun _ hleft => hrespects (hleft.isBare horderly hbare)
  · exact fun _ hright => hrespects (hright.isBare horderly hbare)

theorem compileComparison_steady (horderly : context.IsOrderly) (hsteady : resolver.IsSteady)
    (c : Comparison) : Search.IsSteady (compileComparison context resolver c) :=
  isSteady_isCompositional.holds_compileComparison
    (fun name function hget => (horderly name function hget).steady) hsteady.inWorld c

/-- A comparison binds the given values, and values under the names it draws. -/
theorem compileComparison_draws (horderly : context.IsOrderly) {c : Comparison}
    (hc : c.Respects context resolver given) {fragment : Fragment}
    (hrun : outcome (compileComparison context resolver c) s = (.ok fragment, t)) :
    ∃ values, t.drawn = s.drawn + values.length ∧
      fragment.params.Mixes context (IsGiven given) s.drawn values := by
  unfold compileComparison at hrun
  obtain ⟨left, u, hleftSide, hrun⟩ := outcome_bind_eq_ok.mp hrun
  obtain ⟨right, v, hrightSide, hrun⟩ := outcome_bind_eq_ok.mp hrun
  have hleftRun := outcome_resolveOperand_of_side hleftSide
  have hrightRun := outcome_resolveOperand_of_side hrightSide
  have hleft : c.left.Yields context resolver left := ⟨s, u, hleftRun⟩
  have hright : c.right.Yields context resolver right := ⟨u, v, hrightRun⟩
  obtain ⟨leftValues, hdrawn, hleftValues⟩ := resolveOperand_draws horderly c.left s left u hleftRun
  obtain ⟨rightValues, hdrawn', hrightValues⟩ :=
    resolveOperand_draws horderly c.right u right v hrightRun
  obtain ⟨hle, hmem⟩ := compare_eq_ok (hc.besideLeft left hleft) (hc.besideRight right hright)
    (hc.usesOnce left right hleft hright) hrun
  have hleftBound : Params.Mixes context (IsGiven given) s.drawn _ _ :=
    hleftValues.map (c.comparator.leftUse right.params.values).apply
      fun pair => hc.left right hright pair.1 pair.2
  have hrightBound : Params.Mixes context (IsGiven given) u.drawn _ _ :=
    hrightValues.map c.comparator.rightUse.apply fun pair => hc.right pair.1 pair.2
  -- Names that are drawn for related values are the names of no values, so any will do for them.
  refine ⟨leftValues.map (c.comparator.leftUse right.params.values).apply ++
    (rightValues.map c.comparator.rightUse.apply ++ List.replicate (t.drawn - v.drawn) .null),
    ?_, fun pair hpair => ?_⟩
  · simp only [List.length_append, List.length_map, List.length_replicate]
    omega
  · rcases hmem pair hpair with hpair | hgiven
    · rcases mem_comparisonFragment.mp hpair with hpair | hpair
      · exact hleftBound.left _ pair hpair
      · refine Params.Mixes.right _ ?_ pair hpair
        rw [List.length_map, ← hdrawn]
        exact hrightBound.left _
    · exact .inl hgiven

variable (context resolver) in
/-- The fragment of a comparison that is the whole filter, when `start` names have been drawn. -/
def Comparison.IsAlone (start : Nat) (c : Comparison) (fragment : Fragment) : Prop :=
  ∀ join, ∀ s : Session ω, s.drawn = start →
    ∃ t, outcome (compileGroups context resolver [.comparison join c]) s = (.ok fragment, t)

/-- Wherever a comparison is compiled, it could be the whole filter. -/
theorem isAlone_of_compileComparison (horderly : context.IsOrderly) (hsteady : resolver.IsSteady)
    {c : Comparison} {fragment : Fragment}
    (hrun : outcome (compileComparison context resolver c) s = (.ok fragment, t)) :
    c.IsAlone context resolver s.drawn fragment := by
  intro join u hdrawn
  obtain ⟨v, hrun⟩ := (compileComparison_steady horderly hsteady c).outcome_eq_ok hrun hdrawn
  refine ⟨v, ?_⟩
  have hsteps : outcome ((stepsOf [.comparison join c]).mapM (compileStep context resolver)) u =
      (.ok [fragment], v) := by
    show outcome ([some c].mapM (compileStep context resolver)) u = (.ok [fragment], v)
    rw [List.mapM_cons]
    exact (outcome_bind_of_ok hrun).trans rfl
  rw [compileGroups_of_ok hsteps]
  rfl

/-- The comparisons of a tree bind the given values, and values under the names they draw, one
after the other. -/
theorem compileSteps_draw (horderly : context.IsOrderly) {steps : List (Option Comparison)}
    {leaves : List Fragment} (hsteps : ∀ c, some c ∈ steps → c.Respects context resolver given)
    (hrun : outcome (steps.mapM (compileStep context resolver)) s = (.ok leaves, t)) :
    ∃ values, t.drawn = s.drawn + values.length ∧
      ∀ leaf ∈ leaves, leaf.params.Mixes context (IsGiven given) s.drawn values := by
  induction steps generalizing s leaves with
  | nil =>
    obtain ⟨rfl, rfl⟩ : [] = leaves ∧ s = t := by simpa using hrun
    exact ⟨[], rfl, nofun⟩
  | cons step rest ih =>
    rw [List.mapM_cons] at hrun
    obtain ⟨leaf, u, hleaf, hrun⟩ := outcome_bind_eq_ok.mp hrun
    obtain ⟨others, v, hothers, hrun⟩ := outcome_bind_eq_ok.mp hrun
    obtain ⟨rfl, rfl⟩ : leaf :: others = leaves ∧ v = t := by simpa using hrun
    cases step with
    | none => cases (Prod.mk.inj hleaf).1
    | some c =>
      obtain ⟨values, hdrawn, hvalues⟩ :=
        compileComparison_draws horderly (hsteps c List.mem_cons_self) hleaf
      obtain ⟨more, hdrawn', hmore⟩ :=
        ih (fun c hc => hsteps c (List.mem_cons_of_mem _ hc)) hothers
      rw [hdrawn] at hdrawn' hmore
      refine ⟨values ++ more, by rw [hdrawn', List.length_append, Nat.add_assoc], ?_⟩
      exact List.forall_mem_cons.mpr ⟨hvalues.left more,
        fun leaf hleaf => (hmore leaf hleaf).right values⟩

end Comparisons

/-! ### Maps in which no name has two values -/

namespace Params

theorem mem_of_get?_eq_some {params : Params} {name : String} {value : Value}
    (h : params.get? name = some value) : (name, value) ∈ params.entries := by
  obtain ⟨before, after, hsplit, -⟩ := List.lookup_eq_some_iff.mp h
  rw [hsplit]
  exact List.mem_append_right _ List.mem_cons_self

/-- No name has two values. -/
def IsConsistent (params : Params) : Prop :=
  ∀ name value, (name, value) ∈ params.entries → params.get? name = some value

theorem isConsistent_of_unique {params : Params}
    (h : ∀ name value other, (name, value) ∈ params.entries → (name, other) ∈ params.entries →
      value = other) : params.IsConsistent := by
  intro name value hmem
  have hsome : (params.get? name).isSome = true := by
    rw [get?, List.lookup_isSome_iff]
    exact ⟨(name, value), hmem, by simp⟩
  obtain ⟨other, hother⟩ := Option.isSome_iff_exists.mp hsome
  rw [hother, h name value other hmem (mem_of_get?_eq_some hother)]

end Params

/-! ### Filters -/

/-- The values of a tree are those of its comparisons. -/
theorem mem_fragments_row {groups : List Group} {leaves : List Fragment}
    (hlength : leaves.length = (stepsOf groups).length) (hgap : none ∉ stepsOf groups)
    (pair : String × Value) :
    pair ∈ ((fragments fun index => leaves.getD index .none).row groups).params.entries ↔
      ∃ leaf ∈ leaves, pair ∈ leaf.params.entries := by
  have hlists : (leaves.map (·.params.entries)).length = (stepsOf groups).length := by
    rw [List.length_map, hlength]
  have hrow : pair ∈ ((fragments fun index => leaves.getD index .none).row groups).params.entries ↔
      pair ∈ (gathered fun index => (leaves.map (·.params.entries)).getD index []).row groups := by
    refine Interpretation.row_related
      (R := fun (fragment : Fragment) list => pair ∈ fragment.params.entries ↔ pair ∈ list)
      ⟨?_, id⟩ groups ⟨?_, fun hmem => absurd hmem hgap⟩
    · intro how first second list others hfirst hsecond
      show pair ∈ (how.fragment first second).params.entries ↔ pair ∈ list ++ others
      rw [List.mem_append, ← hfirst, ← hsecond, ← Params.mem_merge]
      cases how <;> rfl
    · intro index _ hlt
      have hindex : index < leaves.length := by omega
      show pair ∈ (leaves.getD index .none).params.entries ↔
        pair ∈ (leaves.map (·.params.entries)).getD index []
      simp [hindex]
  rw [hrow, gathered_row _ hlists hgap, List.mem_flatten]
  simp

section Filters

variable {context : Context ω} {resolver : Resolver ω} {given : String → Option Value}
  {s t : Session ω} {filter : String} {fragment : Fragment}

/-- If the drawn names differ from each other and from the given ones, no name has two values. -/
theorem Params.Mixes.isConsistent {start : Nat} {values : List Value} {params : Params}
    (h : params.Mixes context (IsGiven given) start values)
    (hdiffer : context.NamesDiffer start (start + values.length))
    (hfresh : ∀ index, start ≤ index → index < start + values.length →
      given (context.paramName index) = none) : params.IsConsistent := by
  refine Params.isConsistent_of_unique fun name value other hvalue hother => ?_
  have hdrawn : ∀ value, (name, value) ∈ context.bindings start values → given name = none := by
    intro value hmem
    have hname : name ∈ (context.bindings start values).map Prod.fst := List.mem_map_of_mem hmem
    rw [Context.map_fst_bindings, List.mem_map] at hname
    obtain ⟨index, hindex, rfl⟩ := hname
    rw [List.mem_range'_1] at hindex
    exact hfresh index hindex.1 hindex.2
  rcases h _ hvalue with hgiven | hbound <;> rcases h _ hother with hgiven' | hbound'
  · exact Option.some.inj (hgiven.symm.trans hgiven')
  · exact absurd ((hdrawn other hbound').symm.trans hgiven) nofun
  · exact absurd ((hdrawn value hbound).symm.trans hgiven') nofun
  · exact congrArg Prod.snd (List.inj_on_of_nodup_map hdiffer.nodup hbound hbound' rfl)

/-- **Comparisons do not change the values of each other**, as long as the values of the resolver
are used in one way.  Let the resolver give the same answers every time, let the drawn names differ
from each other and from those of the resolver, and let one map say what is bound under the names of
the resolver in all comparisons of a filter.  Then no name has two values in the filter, and each
comparison has the values that it has if it is the whole filter. -/
theorem compileFilter_keeps_values (horderly : context.IsOrderly) (hsteady : resolver.IsSteady)
    (hcache : s.cache.IsSound)
    (hrun : outcome (compileFilter context resolver filter) s = (.ok fragment, t))
    (hrespects : ∀ groups c, parse filter = .ok groups → some c ∈ stepsOf groups →
      c.Respects context resolver given)
    (hdiffer : context.NamesDiffer s.drawn t.drawn)
    (hfresh : ∀ index, s.drawn ≤ index → index < t.drawn →
      given (context.paramName index) = none) {sql : String} {params : Params}
    (hbuild : fragment.build .empty = (sql, params)) :
    params.IsConsistent ∧
      ∃ (groups : List Group) (leaves : List Fragment), parse filter = .ok groups ∧
        fragment = (fragments fun index => leaves.getD index .none).row groups ∧
        (∀ name value, params.get? name = some value →
          ∃ leaf ∈ leaves, leaf.params.get? name = some value) ∧
        ∀ (index : Nat) (c : Comparison), (stepsOf groups)[index]? = some (some c) →
          ∃ (leaf : Fragment) (start : Nat), leaves[index]? = some leaf ∧
            c.IsAlone context resolver start leaf ∧
            ∀ name value, leaf.params.get? name = some value → params.get? name = some value := by
  rw [Fragment.build_empty] at hbuild
  obtain ⟨rfl, rfl⟩ := Prod.mk.inj hbuild
  obtain ⟨groups, cache, hget, hgroups⟩ := compileFilter_eq_ok hrun
  have hparse := hcache.parse_eq_ok hget
  obtain ⟨leaves, hleaves, rfl⟩ := compileGroups_eq_ok hgroups
  obtain ⟨values, hdrawn, hvalues⟩ :=
    compileSteps_draw horderly (fun c => hrespects groups c hparse) hleaves
  have hmem := mem_fragments_row (length_of_outcome_mapM hleaves) (none_notMem_of_compiled hleaves)
  rw [hdrawn] at hdiffer hfresh
  have hconsistent (params : Params)
      (hmixes : params.Mixes context (IsGiven given) s.drawn values) : params.IsConsistent :=
    hmixes.isConsistent hdiffer hfresh
  have hwhole := hconsistent _ fun pair hpair => by
    obtain ⟨leaf, hleaf, hpair⟩ := (hmem pair).mp hpair
    exact hvalues leaf hleaf pair hpair
  refine ⟨hwhole, groups, leaves, hparse, rfl, fun name value hvalue => ?_, fun index c hc => ?_⟩
  · obtain ⟨leaf, hleaf, hpair⟩ := (hmem _).mp (Params.mem_of_get?_eq_some hvalue)
    exact ⟨leaf, hleaf, hconsistent _ (hvalues leaf hleaf) name value hpair⟩
  · obtain ⟨leaf, u, v, hleaf, hcompiled⟩ := exists_outcome_of_mapM hleaves hc
    refine ⟨leaf, u.drawn, hleaf, isAlone_of_compileComparison horderly hsteady hcompiled,
      fun name value hvalue => hwhole name value ?_⟩
    exact (hmem _).mpr ⟨leaf, List.mem_of_getElem? hleaf, Params.mem_of_get?_eq_some hvalue⟩

end Filters

/-- A resolver of two fields: `title` is a column, and `f` is a text under a name of its own. -/
def fixedTextResolver (text : String) : Resolver Unit where
  resolve field :=
    if field = "title" then pure (.ofIdentifier (Fragment.columnMarker field))
    else if field = "f" then
      pure { identifier := Fragment.paramMarker "v", params := .single "v" (.text text) }
    else throw (.unknownField field)
  updateQuery := pure

theorem fixedTextResolver_answers {text field : String} {answer : Resolved}
    (h : (fixedTextResolver text).Answers field answer) :
    answer.IsBare ∧ ∀ pair ∈ answer.params.entries, pair = ("v", .text text) := by
  obtain ⟨world, h⟩ := h
  unfold fixedTextResolver at h
  dsimp only at h
  split at h
  · obtain rfl := Except.ok.inj h
    exact ⟨⟨rfl, rfl⟩, nofun⟩
  · split at h
    · obtain rfl := Except.ok.inj h
      exact ⟨⟨rfl, rfl⟩, fun pair hpair => List.mem_singleton.mp hpair⟩
    · cases h

/-- A text without wildcards is compared and looked for in one filter. -/
theorem fixedText_kept :
    ∃ fragment t, outcome (compileFilter scatteredContext (fixedTextResolver "ab")
        "f = 'x' && title ~ f") sampleSession = (.ok fragment, t) ∧
      fragment.params.IsConsistent ∧
      ∃ (groups : List Group) (leaves : List Fragment), parse "f = 'x' && title ~ f" = .ok groups ∧
        ∀ (index : Nat) (c : Comparison), (stepsOf groups)[index]? = some (some c) →
          ∃ (leaf : Fragment) (start : Nat), leaves[index]? = some leaf ∧
            c.IsAlone scatteredContext (fixedTextResolver "ab") start leaf ∧
            ∀ name value, leaf.params.get? name = some value →
              fragment.params.get? name = some value := by
  have horderly : scatteredContext.IsOrderly := Context.isOrderly_of_standard rfl
  have hsteady : (fixedTextResolver "ab").IsSteady := fun _ _ _ => rfl
  have hok : (outcome (compileFilter scatteredContext (fixedTextResolver "ab")
      "f = 'x' && title ~ f") sampleSession).1.isOk = true := by decide +kernel
  have hdrawn : (outcome (compileFilter scatteredContext (fixedTextResolver "ab")
      "f = 'x' && title ~ f") sampleSession).2.drawn = 1 := by decide +kernel
  obtain ⟨fragment, t, hrun⟩ := exists_of_isOk hok
  rw [hrun] at hdrawn
  change t.drawn = 1 at hdrawn
  have hrespects (c : Comparison) : c.Respects scatteredContext (fixedTextResolver "ab")
      fun name => if name = "v" then some (.text "ab") else none := by
    refine .of_isBare horderly
      (fun _ _ hanswer => (fixedTextResolver_answers hanswer).1) ?_ c
    intro field answer hanswer pair hpair
    obtain rfl := (fixedTextResolver_answers hanswer).2 pair hpair
    exact ⟨rfl, by decide +kernel⟩
  have hnames : ∀ index < 1, scatteredContext.paramName index ≠ "v" := by decide +kernel
  have hdiffer : scatteredContext.NamesDiffer (sampleSession : Session Unit).drawn t.drawn := by
    intro i j _ hi _ hj
    omega
  obtain ⟨hconsistent, groups, leaves, hparse, -, -, hkept⟩ :=
    compileFilter_keeps_values horderly hsteady (Cache.isSound_empty 8) hrun
      (fun _ c _ _ => hrespects c) hdiffer
      (fun index _ hindex => if_neg (hnames index (by omega))) fragment.build_empty
  exact ⟨fragment, t, hrun, hconsistent, groups, leaves, hparse, hkept⟩

/-- With a wildcard, the text has two values: the comparison with `=` has it as it is, and where it
is looked for it is escaped, under the same name. -/
theorem fixedText_escaped :
    ∃ whole t alone u, outcome (compileFilter scatteredContext (fixedTextResolver "a_b")
        "f = 'x' && title ~ f") sampleSession = (.ok whole, t) ∧
      outcome (compileFilter scatteredContext (fixedTextResolver "a_b") "f = 'x'") sampleSession =
        (.ok alone, u) ∧
      "v" ∈ placeholders alone.text.toList ∧ alone.params.get? "v" = some (.text "a_b") ∧
      whole.params.get? "v" = some (.text "a\\_b") ∧ ¬ whole.params.IsConsistent := by
  have hwhole : (outcome (compileFilter scatteredContext (fixedTextResolver "a_b")
      "f = 'x' && title ~ f") sampleSession).1.toOption.map (fun whole =>
        (whole.params.get? "v", decide (("v", .text "a_b") ∈ whole.params.entries))) =
      some (some (.text "a\\_b"), true) := by decide +kernel
  have halone : (outcome (compileFilter scatteredContext (fixedTextResolver "a_b") "f = 'x'")
      sampleSession).1.toOption.map (fun alone =>
        (alone.params.get? "v", decide ("v" ∈ placeholders alone.text.toList))) =
      some (some (.text "a_b"), true) := by decide +kernel
  have hok : (outcome (compileFilter scatteredContext (fixedTextResolver "a_b")
      "f = 'x' && title ~ f") sampleSession).1.isOk = true := by decide +kernel
  have hok' : (outcome (compileFilter scatteredContext (fixedTextResolver "a_b") "f = 'x'")
      sampleSession).1.isOk = true := by decide +kernel
  obtain ⟨whole, t, hrun⟩ := exists_of_isOk hok
  obtain ⟨alone, u, hrun'⟩ := exists_of_isOk hok'
  rw [hrun] at hwhole
  rw [hrun'] at halone
  obtain ⟨hget, hmem⟩ := Prod.mk.inj (Option.some.inj hwhole)
  obtain ⟨hget', hmem'⟩ := Prod.mk.inj (Option.some.inj halone)
  refine ⟨whole, t, alone, u, hrun, hrun', of_decide_eq_true hmem', hget', hget, ?_⟩
  intro hconsistent
  have hraw := hconsistent _ _ (of_decide_eq_true hmem)
  rw [hget] at hraw
  exact absurd hraw (by decide)

end PagedSearch
