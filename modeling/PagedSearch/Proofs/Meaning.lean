import PagedSearch.Proofs.Assembly
import PagedSearch.Proofs.Emitted

/-!
# What compiled filters mean

The groups of a filter are joined from left to right, while SQL lets `AND` go before `OR`.  Each
join puts its sides in parentheses, so that the text of a compiled filter is read as the tree that
it was compiled from.

## Main definitions

* `treeCondition` — the condition that a tree stands for.

## Main results

* `compileGroups_means` — a compiled filter says what its tree says.
-/

namespace PagedSearch

open Search

variable {ω : Type}

/-- The condition that a tree stands for, with the numbers of its comparisons as atoms: the groups
of each list are joined from left to right, and a nested list is one condition. -/
def treeCondition (groups : List Group) : Condition Nat := (conditions Condition.atom).row groups

/-- Under every assignment of truth values to its comparisons, the condition of a tree has the truth
value that the tree has when its groups are joined from left to right. -/
theorem eval_treeCondition (value : Nat → Truth) (groups : List Group) :
    (treeCondition groups).eval value = (truths value).row groups :=
  eval_conditions_row _ value groups

/-- Two fragments that are joined say what they say, joined. -/
theorem Fragment.Says.join (how : Join) {first second : Fragment}
    {condition condition' : Condition String} (h : first.Says condition)
    (h' : second.Says condition') :
    (how.fragment first second).Says (how.condition condition condition') := by
  cases how with
  | and => exact Fragment.says_all (List.cons_ne_nil _ _) (.cons h (.cons h' .nil))
  | or => exact Fragment.says_any (List.cons_ne_nil _ _) (.cons h (.cons h' .nil))

/-- If its comparisons say something, then a tree says what they say, joined as the tree says. -/
theorem fragments_row_says {groups : List Group} {leaves : List Fragment}
    {readings : List (Condition String)} (hlength : leaves.length = (stepsOf groups).length)
    (hgap : none ∉ stepsOf groups) (h : List.Forall₂ Fragment.Says leaves readings) :
    ((fragments fun index => leaves.getD index .none).row groups).Says
      ((treeCondition groups).bind fun index => readings.getD index (.all [])) := by
  rw [treeCondition, bind_conditions_row]
  -- Joins and parentheses keep what fragments say, so only the comparisons have to be looked at.
  refine Interpretation.row_related ⟨fun how => Fragment.Says.join how, fun hsays => hsays.enclose⟩
    groups ⟨?_, fun hmem => absurd hmem hgap⟩
  intro n _ hlt
  have hn : n < leaves.length := by omega
  have hn' : n < readings.length := by
    rw [← h.length_eq]
    exact hn
  have hsays : (leaves.get ⟨n, hn⟩).Says (readings.get ⟨n, hn'⟩) := h.get hn hn'
  show (leaves.getD n .none).Says (readings.getD n (.all []))
  simpa [hn, hn'] using hsays

/-- Fragments have a property that joins and parentheses keep if the comparisons have it. -/
theorem fragments_row_of_forall {Q : Fragment → Prop}
    (hjoin : ∀ how first second, Q first → Q second → Q (Join.fragment how first second))
    (henclose : ∀ fragment, Q fragment → Q (.enclose fragment)) {groups : List Group}
    {leaves : List Fragment} (hlength : leaves.length = (stepsOf groups).length)
    (hgap : none ∉ stepsOf groups) (h : ∀ leaf ∈ leaves, Q leaf) :
    Q ((fragments fun index => leaves.getD index .none).row groups) := by
  -- The relation does not look at what the other interpretation returns.
  have hrelated : Interpretation.Related (fun fragment (_ : Unit) => Q fragment)
      (fragments fun index => leaves.getD index .none)
      ⟨fun _ => (), fun _ _ _ => (), id, ()⟩ :=
    ⟨fun how {_ _ _ _} hfirst hsecond => hjoin how _ _ hfirst hsecond,
      fun hpart => henclose _ hpart⟩
  refine Interpretation.row_related hrelated groups ⟨?_, fun hmem => absurd hmem hgap⟩
  intro n _ hlt
  have hn : n < leaves.length := by omega
  show Q (leaves.getD n .none)
  rw [List.getD_eq_getElem?_getD, List.getElem?_eq_getElem hn]
  exact h _ (List.getElem_mem hn)

section Compile

variable {I : ω → Prop} {context : Context ω} {resolver : Resolver ω}

/-- A tree that is compiled has no gaps. -/
theorem none_notMem_of_compiled {steps : List (Option Comparison)} {leaves : List Fragment}
    {s t : Session ω}
    (h : outcome (steps.mapM (compileStep context resolver)) s = (.ok leaves, t)) :
    none ∉ steps := by
  intro hmem
  obtain ⟨before, after, rfl⟩ := List.append_of_mem hmem
  -- The run comes to the first gap at the latest, and fails there.
  obtain ⟨_, _, u, -, -, hrest⟩ := outcome_mapM_append_eq_ok h
  rw [List.mapM_cons, outcome_bind_of_error (by rfl)] at hrest
  cases hrest

section Property

variable {Q : Fragment → Prop}
  (hcomparison : ∀ comparison, (compileComparison context resolver comparison).Ensures I Q)

include hcomparison

/-- A tree that is compiled is compiled to comparisons with the property that all comparisons
have. -/
theorem compileSteps_ensures (steps : List (Option Comparison)) :
    Ensures I (fun leaves : List Fragment => ∀ leaf ∈ leaves, Q leaf)
      (steps.mapM (compileStep context resolver)) := by
  refine .mapM fun step _ => ?_
  cases step with
  | none => exact .throw _
  | some comparison => exact hcomparison comparison

variable (hjoin : ∀ how first second, Q first → Q second → Q (Join.fragment how first second))
  (henclose : ∀ fragment, Q fragment → Q (.enclose fragment))

include hjoin henclose

theorem compileGroups_ensures (groups : List Group) :
    (compileGroups context resolver groups).Ensures I Q := by
  intro s hs
  obtain ⟨hworld, hleaves⟩ := compileSteps_ensures hcomparison (stepsOf groups) s hs
  rw [outcome_compileGroups]
  split
  · rename_i leaves t hsteps
    rw [hsteps] at hworld hleaves
    refine ⟨hworld, fun fragment hfragment => ?_⟩
    obtain rfl := Except.ok.inj hfragment
    exact fragments_row_of_forall hjoin henclose (length_of_outcome_mapM hsteps)
      (none_notMem_of_compiled hsteps) (hleaves leaves rfl)
  · rename_i e t hsteps
    rw [hsteps] at hworld
    exact ⟨hworld, nofun⟩

/-- Filters are compiled to fragments with a property that comparisons have, and that joins and
parentheses keep. -/
theorem compileFilter_ensures_of (filter : String) :
    (compileFilter context resolver filter).Ensures I Q := by
  have hparsed : (Search.parsed filter : Search ω (List Group)).Ensures I fun _ => True :=
    fun _ hs => ⟨hs, fun _ _ => trivial⟩
  unfold compileFilter
  exact hparsed.bind fun groups _ => compileGroups_ensures hcomparison hjoin henclose groups

end Property

/-- Filters are compiled to texts that can be read by themselves. -/
theorem compileFilter_ensures (hnames : context.HasPlainNames)
    (hfunctions : context.functions.ArePlain I) (hresolver : resolver.IsPlain I)
    (filter : String) :
    (compileFilter context resolver filter).Ensures I Fragment.IsReadable := by
  refine compileFilter_ensures_of (compileComparison_ensures hnames hfunctions hresolver) ?_ ?_
    filter
  · rintro how first second ⟨_, hfirst⟩ ⟨_, hsecond⟩
    exact ⟨_, hfirst.join how hsecond⟩
  · rintro fragment ⟨_, hsays⟩
    exact ⟨_, hsays.enclose⟩

/-- **A compiled filter says what its tree says.**  Read as SQL is read, its text is the condition
of the tree, with what the texts of the comparisons say in the place of the comparisons.  So
whatever the comparisons come to, the text has the truth value of the tree.  What fields and
functions stand for has to be readable as long as the world has the property `I`, which they
keep. -/
theorem compileGroups_means (hnames : context.HasPlainNames)
    (hfunctions : context.functions.ArePlain I) (hresolver : resolver.IsPlain I)
    {groups : List Group} {s t : Session ω} {fragment : Fragment} (hs : I s.world)
    (h : outcome (compileGroups context resolver groups) s = (.ok fragment, t)) :
    ∃ leaves readings,
      outcome ((stepsOf groups).mapM (compileStep context resolver)) s = (.ok leaves, t) ∧
      List.Forall₂ Fragment.Says leaves readings ∧
      readCondition fragment.text =
        some ((treeCondition groups).bind fun index => readings.getD index (.all [])) ∧
      (∀ value : Nat → Truth, (treeCondition groups).eval value = (truths value).row groups) ∧
      ∀ value : String → Truth,
        ((treeCondition groups).bind fun index => readings.getD index (.all [])).eval value =
          (truths fun index => (readings.getD index (.all [])).eval value).row groups := by
  obtain ⟨leaves, hleaves, rfl⟩ := compileGroups_eq_ok h
  have hreadable : ∀ leaf ∈ leaves, leaf.IsReadable := by
    have hsteps := compileSteps_ensures (compileComparison_ensures hnames hfunctions hresolver)
      (stepsOf groups) s hs
    rw [hleaves] at hsteps
    exact hsteps.2 leaves rfl
  obtain ⟨readings, hreadings⟩ := Fragment.exists_says hreadable
  have hsays := fragments_row_says (length_of_outcome_mapM hleaves)
    (none_notMem_of_compiled hleaves) hreadings
  refine ⟨leaves, readings, hleaves, hreadings, hsays.read, ?_, ?_⟩
  · exact fun value => eval_treeCondition value groups
  · intro value
    rw [Condition.eval_bind, eval_treeCondition]

end Compile

/-- `title < body || body < title && (title < title)` -/
def mixedTree : List Group :=
  [.comparison .and ⟨.identifier "title", .less, .identifier "body"⟩,
    .comparison .or ⟨.identifier "body", .less, .identifier "title"⟩,
    .nested .and [.comparison .and ⟨.identifier "title", .less, .identifier "title"⟩]]

theorem sampleContext_hasPlainNames : (sampleContext : Context ω).HasPlainNames := by
  intro index
  have hdigits : "0123456789".toList.all Char.isAlphanum = true := rfl
  exact List.all_eq_true.mp hdigits

theorem mixedTree_means :
    ∃ (fragment : Fragment) (readings : List (Condition String)),
      outcome (compileGroups sampleContext sampleList.resolver mixedTree) sampleSession =
        (.ok fragment, (sampleSession : Session Unit)) ∧
      fragment.text =
        "(([[title]] < [[body]]) OR ([[body]] < [[title]])) AND (([[title]] < [[title]]))" ∧
      readCondition fragment.text =
        some ((treeCondition mixedTree).bind fun index => readings.getD index (.all [])) := by
  obtain ⟨fragment, hcompiled, htext⟩ : ∃ fragment : Fragment,
      outcome (compileGroups sampleContext sampleList.resolver mixedTree) sampleSession =
        (.ok fragment, (sampleSession : Session Unit)) ∧
      fragment.text =
        "(([[title]] < [[body]]) OR ([[body]] < [[title]])) AND (([[title]] < [[title]]))" :=
    ⟨_, rfl, rfl⟩
  -- the resolver keeps every property of the world, so there is none to ask for
  have hresolver : sampleList.resolver.IsPlain fun _ : Unit => True := sampleList.resolver_isPlain
  obtain ⟨leaves, readings, -, -, hread, -⟩ := compileGroups_means sampleContext_hasPlainNames
    Functions.standard_arePlain hresolver trivial hcompiled
  exact ⟨fragment, readings, hcompiled, htext, hread⟩

end PagedSearch
