import Mathlib.Algebra.Group.Nat.Defs
import Mathlib.Data.List.Nodup
import PagedSearch.Proofs.Bindings
import PagedSearch.Proofs.Meaning

/-!
# The values of a filter

A compiled filter refers to the values that it binds and to no others.  There is one of them for
each text, each number and each name of a time that the client has written, under a name of its own,
and where the text or the number is a side of a comparison, the SQL has its place there.

## Main definitions

* `Cache.IsSound` — stores in which every tree is the tree of its filter.
* `Occurrence`, `occurrencesOf` — the texts, numbers and names of times of a filter, in order.
* `gathered` — the lists that belong to the comparisons of a tree, one behind the other.

## Main results

* `isNamed_of_parse` — the fields of a filter have names.
* `compileSteps_eq_ok`, `fragments_row_binds` — what the comparisons bind, and what the tree does.
* `compileFilter_binds_exactly` — a filter binds what the client has written, and nothing else.
-/

namespace PagedSearch

open Search

variable {ω : Type}

/-! ### The fields of a filter -/

theorem isFieldName_of_splits {text : List Char} {lexemes : List Lexeme}
    (h : Lexing.Splits text lexemes) {name : String} (hmem : Lexeme.identifier name ∈ lexemes) :
    IsFieldName name := by
  induction h with
  | nil => cases hmem
  | blank _ _ ih => exact ih hmem
  | @lexeme word _ lexeme _ hlongest _ ih =>
    rcases List.mem_cons.mp hmem with rfl | hmem
    · cases hlongest.spells with
      | identifier hfirst hmore => exact ⟨_, _, String.toList_ofList, hfirst⟩
    · exact ih hmem

/-- The lexemes of a comparison. -/
def Comparison.lexemes (c : Comparison) : List Lexeme :=
  c.left.lexemes ++ .comparator c.comparator :: c.right.lexemes

mutual

theorem Group.mem_lexemes {group : Group} {c : Comparison} (hc : some c ∈ group.steps)
    {lexeme : Lexeme} (h : lexeme ∈ c.lexemes) : lexeme ∈ group.lexemes := by
  match group with
  | .comparison join other =>
    obtain rfl : c = other := by simpa [Group.steps] using hc
    exact h
  | .nested join [] => simp [Group.steps] at hc
  | .nested join (first :: rest) =>
    rw [Group.steps, List.mem_append] at hc
    rw [Group.lexemes, List.mem_cons, List.mem_append, List.mem_append]
    rcases hc with hc | hc
    · exact .inr (.inl (.inl (Group.mem_lexemes hc h)))
    · exact .inr (.inl (.inr (Group.mem_laterLexemes hc h)))

theorem Group.mem_laterLexemes {groups : List Group} {c : Comparison}
    (hc : some c ∈ Group.memberSteps groups) {lexeme : Lexeme} (h : lexeme ∈ c.lexemes) :
    lexeme ∈ Group.laterLexemes groups := by
  match groups with
  | [] => cases hc
  | first :: rest =>
    rw [Group.memberSteps, List.mem_append] at hc
    rw [Group.laterLexemes, List.mem_cons, List.mem_append]
    rcases hc with hc | hc
    · exact .inr (.inl (Group.mem_lexemes hc h))
    · exact .inr (.inr (Group.mem_laterLexemes hc h))

end

theorem Group.mem_rowLexemes {groups : List Group} {c : Comparison}
    (hc : some c ∈ stepsOf groups) {lexeme : Lexeme} (h : lexeme ∈ c.lexemes) :
    lexeme ∈ Group.rowLexemes groups := by
  cases groups with
  | nil => simp [stepsOf] at hc
  | cons first rest =>
    have hc : some c ∈ Group.memberSteps (first :: rest) := hc
    rw [Group.memberSteps, List.mem_append] at hc
    rw [Group.rowLexemes, List.mem_append]
    rcases hc with hc | hc
    · exact .inl (Group.mem_lexemes hc h)
    · exact .inr (Group.mem_laterLexemes hc h)

/-- The fields of a filter have names. -/
theorem isNamed_of_parse {filter : String} {groups : List Group} (h : parse filter = .ok groups)
    {c : Comparison} (hc : some c ∈ stepsOf groups) : c.IsNamed := by
  obtain ⟨-, hsplits, -⟩ := (parse_eq_ok_iff_derives filter).2.1 groups (parse_eq_ok_iff.mp h)
  constructor
  · intro name hname
    exact isFieldName_of_splits hsplits
      (Group.mem_rowLexemes hc (List.mem_append_left _ hname))
  · intro name hname
    exact isFieldName_of_splits hsplits
      (Group.mem_rowLexemes hc (List.mem_append_right _ (List.mem_cons_of_mem _ hname)))

/-! ### Stored trees -/

/-- Every tree in the store is the tree of its filter. -/
def Cache.IsSound (cache : Cache) : Prop :=
  ∀ filter groups, cache.get? filter = some groups → parse filter = .ok groups

theorem Cache.isSound_empty (capacity : Nat) : (Cache.empty capacity).IsSound := by
  intro filter groups h
  cases h

theorem Cache.IsSound.parse_eq_ok {cache cache' : Cache} (h : cache.IsSound) {filter : String}
    {groups : List Group} (hget : cache.getOrParse parse filter = (.ok groups, cache')) :
    parse filter = .ok groups := by
  unfold Cache.getOrParse at hget
  split at hget
  · rename_i stored hstored
    obtain rfl := Except.ok.inj (Prod.mk.inj hget).1
    exact h filter stored hstored
  · split at hget
    · rename_i found hparse
      obtain rfl := Except.ok.inj (Prod.mk.inj hget).1
      exact hparse
    · cases (Prod.mk.inj hget).1

theorem compileFilter_eq_ok {context : Context ω} {resolver : Resolver ω} {filter : String}
    {fragment : Fragment} {s t : Session ω}
    (h : outcome (compileFilter context resolver filter) s = (.ok fragment, t)) :
    ∃ groups cache, s.cache.getOrParse parse filter = (.ok groups, cache) ∧
      outcome (compileGroups context resolver groups) { s with cache } = (.ok fragment, t) := by
  obtain ⟨groups, u, hparsed, hrun⟩ := outcome_bind_eq_ok.mp h
  change ((s.cache.getOrParse parse filter).1.mapError SearchError.parse,
    { s with cache := (s.cache.getOrParse parse filter).2 }) = (.ok groups, u) at hparsed
  obtain ⟨hgroups, rfl⟩ := Prod.mk.inj hparsed
  generalize s.cache.getOrParse parse filter = found at hgroups hrun
  obtain ⟨_ | stored, cache⟩ := found
  · cases hgroups
  · obtain rfl := Except.ok.inj hgroups
    exact ⟨stored, cache, rfl, hrun⟩

/-! ### Lists along a tree -/

/-- The lists that belong to the comparisons of a tree, one behind the other. -/
def gathered {α : Type} (leaf : Nat → List α) : Interpretation (List α) where
  leaf := leaf
  join := fun _ first second => first ++ second
  enclose := id
  gap := []

theorem foldJoins_gathered {α : Type} (leaf : Nat → List α) (members : List (Join × List α)) :
    (foldJoins (gathered leaf).join members).getD (gathered leaf).gap =
      members.flatMap Prod.snd := by
  cases members with
  | nil => rfl
  | cons first rest =>
    show rest.foldl (fun before (_, value) => before ++ value) first.2 = _
    rw [List.flatMap_cons]
    generalize first.2 = before
    induction rest generalizing before with
    | nil => simp
    | cons next rest ih => rw [List.foldl_cons, ih, List.flatMap_cons, List.append_assoc]

mutual

theorem gathered_group {α : Type} (leaf : Nat → List α) (start : Nat) (group : Group)
    (h : none ∉ group.steps) :
    (gathered leaf).group start group = (List.range' start group.steps.length).flatMap leaf := by
  match group with
  | .comparison join c =>
    rw [Interpretation.group, Group.steps]
    simp [gathered]
  | .nested join [] => simp [Group.steps] at h
  | .nested join (first :: rest) =>
    rw [Group.steps, ← Group.memberSteps] at h
    rw [Interpretation.group, foldJoins_gathered, Group.steps, ← Group.memberSteps]
    exact gathered_members leaf start (first :: rest) h

theorem gathered_members {α : Type} (leaf : Nat → List α) (start : Nat) (groups : List Group)
    (h : none ∉ Group.memberSteps groups) :
    ((gathered leaf).members start groups).flatMap Prod.snd =
      (List.range' start (Group.memberSteps groups).length).flatMap leaf := by
  match groups with
  | [] => rfl
  | first :: rest =>
    rw [Group.memberSteps, List.mem_append, not_or] at h
    rw [Interpretation.members, List.flatMap_cons, gathered_group leaf start first h.1,
      gathered_members leaf _ rest h.2, Group.memberSteps, List.length_append,
      ← List.range'_append_1, List.flatMap_append]

end

/-- Along a tree without gaps, the lists come in the order of the comparisons. -/
theorem gathered_row {α : Type} (lists : List (List α)) {groups : List Group}
    (hlength : lists.length = (stepsOf groups).length) (hgap : none ∉ stepsOf groups) :
    (gathered fun index => lists.getD index []).row groups = lists.flatten := by
  have hlists : (List.range' 0 lists.length).map (fun index => lists.getD index []) = lists := by
    refine List.ext_getElem (by simp) ?_
    intro index _ hindex
    simp [hindex]
  cases groups with
  | nil => simp [stepsOf] at hgap
  | cons first rest =>
    rw [Interpretation.row, foldJoins_gathered, gathered_members _ 0 (first :: rest) hgap]
    rw [show (Group.memberSteps (first :: rest)).length = lists.length from hlength.symm,
      List.flatMap_def, hlists]

/-! ### What a client has written -/

/-- A text, a number or the name of a time in a filter. -/
structure Occurrence where
  /-- Its value. -/
  value : Value
  /-- How the comparison uses the operand that it is, or that it is in. -/
  use : Use
  /-- Whether it is an argument of a function, and not an operand itself. -/
  isArgument : Bool
  deriving DecidableEq

/-- What is bound for it. -/
def Occurrence.bound (occurrence : Occurrence) : Value := occurrence.use.apply occurrence.value

/-- Whether an operand is a function applied to others. -/
def Operand.isCall : Operand → Bool
  | .call _ _ => true
  | _ => false

/-- The texts, numbers and names of times in an operand that is used in the given way. -/
def Operand.occurrences (now : Instant) (use : Use) (operand : Operand) : List Occurrence :=
  (operand.values now).map fun value => { value, use, isArgument := operand.isCall }

/-- The texts, numbers and names of times in a comparison.  The right side of `~` and `!~` is a
pattern, and so is the left side of `!~` if there is no value on its right. -/
def Comparison.occurrences (now : Instant) (c : Comparison) : List Occurrence :=
  c.left.occurrences now (c.comparator.leftUse (c.right.values now)) ++
    c.right.occurrences now c.comparator.rightUse

/-- The texts, numbers and names of times in some comparisons. -/
def stepOccurrences (now : Instant) (steps : List (Option Comparison)) : List Occurrence :=
  steps.flatMap fun step => step.elim [] (Comparison.occurrences now)

/-- The texts, numbers and names of times in a tree, in order. -/
def occurrencesOf (now : Instant) (groups : List Group) : List Occurrence :=
  stepOccurrences now (stepsOf groups)

theorem Comparison.map_bound_occurrences (now : Instant) (c : Comparison) :
    (c.occurrences now).map Occurrence.bound =
      c.comparator.bound (c.left.values now) (c.right.values now) := by
  rw [occurrences, List.map_append, Operand.occurrences, Operand.occurrences, List.map_map,
    List.map_map]
  rfl

section Steps

variable (context : Context ω)

/-- Comparisons are compiled to fragments, the first value of each being bound under the name that
follows those of the comparison before. -/
inductive AreCompiledTo : Nat → List (Option Comparison) → List Fragment → Prop where
  /-- No comparisons. -/
  | nil {start : Nat} : AreCompiledTo start [] []
  /-- One more comparison. -/
  | cons {start : Nat} {c : Comparison} {rest : List (Option Comparison)} {leaf : Fragment}
    {leaves : List Fragment} : c.IsCompiledTo context start leaf →
      AreCompiledTo (start + (c.occurrences context.now).length) rest leaves →
        AreCompiledTo start (some c :: rest) (leaf :: leaves)

variable {context} {start : Nat} {steps : List (Option Comparison)} {leaves : List Fragment}

theorem AreCompiledTo.binds (h : AreCompiledTo context start steps leaves) :
    ∃ lists, List.Forall₂ (fun leaf pairs => Fragment.Binds pairs leaf) leaves lists ∧
      lists.flatten = context.bindings start
        ((stepOccurrences context.now steps).map Occurrence.bound) := by
  induction h with
  | nil => exact ⟨[], .nil, rfl⟩
  | @cons start c rest leaf leaves hleaf _ ih =>
    obtain ⟨lists, hlists, hflatten⟩ := ih
    refine ⟨_ :: lists, .cons hleaf.binds hlists, ?_⟩
    rw [← Comparison.map_bound_occurrences, stepOccurrences, List.flatMap_cons, List.map_append,
      Context.bindings_append, List.length_map, List.flatten_cons, hflatten]
    rfl

/-- Each comparison is compiled somewhere on the way, and what it binds is bound in the end. -/
theorem AreCompiledTo.exists_of_getElem? (h : AreCompiledTo context start steps leaves)
    {index : Nat} {c : Comparison} (hc : steps[index]? = some (some c)) :
    ∃ leaf first, leaves[index]? = some leaf ∧ c.IsCompiledTo context first leaf ∧
      ∀ pair ∈ context.bindings first ((c.occurrences context.now).map Occurrence.bound),
        pair ∈ context.bindings start
          ((stepOccurrences context.now steps).map Occurrence.bound) := by
  induction h generalizing index with
  | nil => simp at hc
  | @cons start first rest leaf leaves hleaf _ ih =>
    have hsplit : context.bindings start
        ((stepOccurrences context.now (some first :: rest)).map Occurrence.bound) =
          context.bindings start ((first.occurrences context.now).map Occurrence.bound) ++
            context.bindings (start + (first.occurrences context.now).length)
              ((stepOccurrences context.now rest).map Occurrence.bound) := by
      rw [stepOccurrences, List.flatMap_cons, List.map_append, Context.bindings_append,
        List.length_map]
      rfl
    rw [hsplit]
    cases index with
    | zero =>
      obtain rfl : first = c := by simpa using hc
      exact ⟨leaf, start, rfl, hleaf, fun pair hpair => List.mem_append_left _ hpair⟩
    | succ index =>
      obtain ⟨later, place, hlater, hcompiled, hmem⟩ := ih (by simpa using hc)
      exact ⟨later, place, hlater, hcompiled, fun pair hpair =>
        List.mem_append_right _ (hmem pair hpair)⟩

/-- The comparisons of a tree are compiled one after the other. -/
theorem compileSteps_eq_ok {list : AllowList} (hnames : context.HasPlainNames)
    (hfunctions : context.functions = .standard) (hsteps : ∀ c, some c ∈ steps → c.IsNamed)
    {s t : Session ω}
    (hrun : outcome (steps.mapM (compileStep context list.resolver)) s = (.ok leaves, t)) :
    t.drawn = s.drawn + (stepOccurrences context.now steps).length ∧
      AreCompiledTo context s.drawn steps leaves := by
  induction steps generalizing s leaves with
  | nil =>
    obtain ⟨rfl, rfl⟩ : [] = leaves ∧ s = t := by simpa using hrun
    exact ⟨rfl, .nil⟩
  | cons step rest ih =>
    rw [List.mapM_cons] at hrun
    obtain ⟨leaf, u, hleaf, hrun⟩ := outcome_bind_eq_ok.mp hrun
    obtain ⟨others, v, hothers, hrun⟩ := outcome_bind_eq_ok.mp hrun
    obtain ⟨rfl, rfl⟩ : leaf :: others = leaves ∧ v = t := by simpa using hrun
    cases step with
    | none => cases (Prod.mk.inj hleaf).1
    | some c =>
      obtain ⟨hdrawn, hcompiled⟩ := compileComparison_eq_ok hnames hfunctions
        (hsteps c List.mem_cons_self) hleaf
      have hcount : u.drawn = s.drawn + (c.occurrences context.now).length := by
        rw [hdrawn, Comparison.occurrences, List.length_append, Operand.occurrences,
          Operand.occurrences, List.length_map, List.length_map, Nat.add_assoc]
      obtain ⟨hrest, hall⟩ := ih (fun c hc => hsteps c (List.mem_cons_of_mem _ hc)) hothers
      rw [hcount] at hall
      refine ⟨?_, .cons hcompiled hall⟩
      rw [hrest, hcount, stepOccurrences, stepOccurrences, List.flatMap_cons, List.length_append,
        Nat.add_assoc]
      rfl

end Steps

/-! ### What a tree binds -/

theorem Fragment.Binds.join (how : Join) {first second : Fragment}
    {pairs others : List (String × Value)} (h : first.Binds pairs) (h' : second.Binds others) :
    (how.fragment first second).Binds (pairs ++ others) := by
  have htext : (how.fragment first second).text.toList =
      '(' :: (first.text.toList ++ [')']) ++
        ((Reading.separator how).toList ++ '(' :: (second.text.toList ++ [')'])) := by
    have hne := h.ne_empty
    have hne' := h'.ne_empty
    cases how <;>
      simp [Join.fragment, Fragment.text, Fragment.texts, Fragment.joinTexts, hne, hne',
        Fragment.parenthesised, Reading.separator, String.intercalate_cons_cons]
  have hmiddle : Divides (Reading.separator how).toList := by
    cases how <;> exact divides_of_isDividing (by decide)
  have hparams : (how.fragment first second).params = .ofList (pairs ++ others) := by
    rw [← Params.merge_ofList, ← h.params_eq, ← h'.params_eq]
    cases how <;> rfl
  have hfirst : Refers first.text.toList (placeholders first.text.toList) := ⟨h.composed, rfl⟩
  have hsecond : Refers second.text.toList (placeholders second.text.toList) := ⟨h'.composed, rfl⟩
  refine Fragment.binds_of_divided htext hfirst.parenthesised hmiddle hsecond.parenthesised hparams
    fun name => ?_
  rw [h.mem_placeholders, h'.mem_placeholders, List.map_append, List.mem_append]

theorem Fragment.Binds.enclose {fragment : Fragment} {pairs : List (String × Value)}
    (h : fragment.Binds pairs) : (Fragment.enclose fragment).Binds pairs := by
  have htext : (Fragment.enclose fragment).text.toList =
      '(' :: (fragment.text.toList ++ [')']) := by
    rw [Fragment.text, if_neg h.ne_empty, Reading.toList_parenthesised]
  have hrefers : Refers fragment.text.toList (placeholders fragment.text.toList) :=
    ⟨h.composed, rfl⟩
  have hparenthesised := hrefers.parenthesised
  rw [← htext] at hparenthesised
  refine ⟨?_, hparenthesised.composed, h.params_eq, fun name => ?_⟩
  · intro hempty
    rw [hempty] at htext
    simp at htext
  · rw [hparenthesised.placeholders_eq, h.mem_placeholders]

/-- A tree binds what its comparisons bind, in their order. -/
theorem fragments_row_binds {groups : List Group} {leaves : List Fragment}
    {lists : List (List (String × Value))} (hlength : leaves.length = (stepsOf groups).length)
    (hgap : none ∉ stepsOf groups)
    (h : List.Forall₂ (fun leaf pairs => Fragment.Binds pairs leaf) leaves lists) :
    ((fragments fun index => leaves.getD index .none).row groups).Binds lists.flatten := by
  rw [← gathered_row lists (h.length_eq ▸ hlength) hgap]
  refine Interpretation.row_related
    (R := fun fragment pairs => Fragment.Binds pairs fragment)
    ⟨fun how => Fragment.Binds.join how, Fragment.Binds.enclose⟩ groups
    ⟨?_, fun hmem => absurd hmem hgap⟩
  intro n _ hlt
  have hn : n < leaves.length := by omega
  have hn' : n < lists.length := by
    rw [← h.length_eq]
    exact hn
  have hbinds := h.get hn hn'
  show Fragment.Binds (lists.getD n []) (leaves.getD n .none)
  simpa [hn, hn'] using hbinds

/-! ### Filters -/

theorem Fragment.build_empty (fragment : Fragment) :
    fragment.build .empty = (fragment.text, fragment.params) := by
  rw [build, Params.empty_merge]

section Filters

variable {context : Context ω} {list : AllowList} {s t : Session ω} {filter : String}
  {fragment : Fragment}

/-- What a compiled filter binds, whether or not its names differ. -/
theorem compileFilter_binds (hnames : context.HasPlainNames)
    (hfunctions : context.functions = .standard) (hcache : s.cache.IsSound)
    (hrun : outcome (compileFilter context list.resolver filter) s = (.ok fragment, t)) :
    ∃ groups leaves, parse filter = .ok groups ∧
      fragment = (fragments fun index => leaves.getD index .none).row groups ∧
      AreCompiledTo context s.drawn (stepsOf groups) leaves ∧
      t.drawn = s.drawn + (occurrencesOf context.now groups).length ∧
      fragment.Binds
        (context.bindings s.drawn ((occurrencesOf context.now groups).map Occurrence.bound)) := by
  obtain ⟨groups, cache, hget, hgroups⟩ := compileFilter_eq_ok hrun
  have hparse := hcache.parse_eq_ok hget
  obtain ⟨leaves, hleaves, rfl⟩ := compileGroups_eq_ok hgroups
  obtain ⟨hdrawn, hall⟩ :=
    compileSteps_eq_ok hnames hfunctions (fun _ => isNamed_of_parse hparse) hleaves
  obtain ⟨lists, hlists, hflatten⟩ := hall.binds
  have hbinds := fragments_row_binds (length_of_outcome_mapM hleaves)
    (none_notMem_of_compiled hleaves) hlists
  rw [hflatten] at hbinds
  exact ⟨groups, leaves, hparse, rfl, hall, hdrawn, hbinds⟩

/-- The names of the values with the numbers from `first` on, up to `last`, differ. -/
def Context.NamesDiffer (context : Context ω) (first last : Nat) : Prop :=
  ∀ i j, first ≤ i → i < last → first ≤ j → j < last →
    context.paramName i = context.paramName j → i = j

theorem Context.NamesDiffer.nodup {first : Nat} {values : List Value}
    (h : context.NamesDiffer first (first + values.length)) :
    ((context.bindings first values).map Prod.fst).Nodup := by
  rw [Context.map_fst_bindings]
  refine List.Nodup.map_on ?_ List.nodup_range'
  intro i hi j hj hname
  rw [List.mem_range'_1] at hi hj
  exact h i j hi.1 hi.2 hj.1 hj.2 hname

/-- What has been written is bound under a name: an operand to its own value, but if it is a
pattern, to its text without wildcards. -/
def Occurrence.IsBound (params : Params) (occurrence : Occurrence) (name : String) : Prop :=
  ∃ value, params.get? name = some value ∧
    (occurrence.isArgument = false → value = occurrence.bound)

/-- If the operand is a text or a number, then the SQL that it stands for is the place of its
value. -/
def Operand.HasPlace (params : Params) (use : Use) (operand : Operand) (resolved : Resolved) :
    Prop :=
  ∀ value, operand.ownValue? = some value →
    ∃ name, resolved.identifier = Fragment.paramMarker name ∧
      params.get? name = some (use.apply value)

theorem forall₂_isBound {params : Params} {start : Nat} {occurrences : List Occurrence}
    (h : ∀ pair ∈ context.bindings start (occurrences.map Occurrence.bound),
      params.get? pair.1 = some pair.2) :
    List.Forall₂ (Occurrence.IsBound params) occurrences
      ((context.bindings start (occurrences.map Occurrence.bound)).map Prod.fst) := by
  induction occurrences generalizing start with
  | nil => exact .nil
  | cons first rest ih =>
    rw [List.map_cons, Context.bindings, List.forall_mem_cons] at h
    exact .cons ⟨first.bound, h.1, fun _ => rfl⟩ (ih h.2)

theorem Operand.values_of_ownValue? {operand : Operand} {value : Value}
    (h : operand.ownValue? = some value) (now : Instant) : operand.values now = [value] := by
  cases operand with
  | text content | number value =>
    obtain rfl := Option.some.inj h
    rw [values]
  | identifier name => cases h
  | call name arguments => cases h

/-- **A filter binds exactly what the client has written.**  Compiled for any allow-list, its text
refers to the values that are bound and to no others; there is one name for each text, each number
and each name of a time in it, and these names are all that are bound.  A text or a number that is
a side of a comparison has its place in the SQL on that side, and is bound as it is, unless it is a
pattern: then it is bound without wildcards. -/
theorem compileFilter_binds_exactly (hnames : context.HasPlainNames)
    (hfunctions : context.functions = .standard) (hcache : s.cache.IsSound)
    (hrun : outcome (compileFilter context list.resolver filter) s = (.ok fragment, t))
    (hdiffer : context.NamesDiffer s.drawn t.drawn) {sql : String} {params : Params}
    (hbuild : fragment.build .empty = (sql, params)) :
    (∀ name, name ∈ placeholders sql.toList ↔ (params.get? name).isSome = true) ∧
      ∃ groups, parse filter = .ok groups ∧
        (∃ names, names.Nodup ∧ (∀ name, (params.get? name).isSome = true ↔ name ∈ names) ∧
          List.Forall₂ (Occurrence.IsBound params) (occurrencesOf context.now groups) names) ∧
        ∃ leaf, fragment = (fragments leaf).row groups ∧
          ∀ index c, (stepsOf groups)[index]? = some (some c) →
            ∃ left right, leaf index = comparisonFragment left c.comparator right ∧
              c.left.HasPlace params (c.comparator.leftUse (c.right.values context.now)) left ∧
              c.right.HasPlace params c.comparator.rightUse right := by
  obtain ⟨groups, leaves, hparse, hrow, hall, hdrawn, hbinds⟩ :=
    compileFilter_binds hnames hfunctions hcache hrun
  rw [Fragment.build_empty] at hbuild
  obtain ⟨rfl, rfl⟩ := Prod.mk.inj hbuild
  have hnodup : ((context.bindings s.drawn
      ((occurrencesOf context.now groups).map Occurrence.bound)).map Prod.fst).Nodup := by
    refine Context.NamesDiffer.nodup ?_
    rwa [List.length_map, ← hdrawn]
  -- No name is drawn twice, so what has been bound is found again.
  have hget : ∀ pair ∈ context.bindings s.drawn
      ((occurrencesOf context.now groups).map Occurrence.bound),
        fragment.params.get? pair.1 = some pair.2 := by
    intro pair hpair
    rw [hbinds.params_eq]
    exact Params.get?_ofList_eq_some hnodup hpair
  have hbound := Params.isSome_get?_ofList
    (context.bindings s.drawn ((occurrencesOf context.now groups).map Occurrence.bound))
  rw [← hbinds.params_eq] at hbound
  refine ⟨fun name => ?_, groups, hparse, ⟨_, hnodup, hbound, forall₂_isBound hget⟩, _, hrow, ?_⟩
  · rw [hbinds.mem_placeholders, hbound]
  · intro index c hc
    obtain ⟨leaf, first, hleaf, ⟨left, right, hleft, hright, rfl⟩, hmem⟩ :=
      hall.exists_of_getElem? hc
    refine ⟨left, right, by rw [List.getD_eq_getElem?_getD, hleaf, Option.getD_some], ?_, ?_⟩
    · intro value hvalue
      refine ⟨_, hleft.place (by rw [hvalue]; rfl), hget (_, _) (hmem _ ?_)⟩
      rw [c.map_bound_occurrences, Comparator.bound, Operand.values_of_ownValue? hvalue]
      exact List.mem_cons_self
    · intro value hvalue
      refine ⟨_, hright.place (by rw [hvalue]; rfl), hget (_, _) (hmem _ ?_)⟩
      rw [c.map_bound_occurrences, Comparator.bound, Context.bindings_append, List.length_map,
        Operand.values_of_ownValue? hvalue]
      exact List.mem_append_right _ List.mem_cons_self

end Filters

/-- The sample context with names that differ. -/
def scatteredContext : Context Unit := { sampleContext with names := scatteredNames 7 }

theorem scatteredContext_hasPlainNames : scatteredContext.HasPlainNames := by
  have hnames : scatteredContext.names = scatteredNames 7 := rfl
  exact Context.hasPlainNames_scattered hnames

/-- A pattern and a number, which are bound under two names. -/
theorem sampleLiterals_bound :
    ∃ fragment t groups names,
      outcome (compileFilter scatteredContext sampleList.resolver "title ~ 'a_b' && body < 3")
        sampleSession = (.ok fragment, t) ∧
      parse "title ~ 'a_b' && body < 3" = .ok groups ∧
      (occurrencesOf scatteredContext.now groups).map Occurrence.bound =
        [.text "a\\_b", .double (.finite false (2 ^ 51 * 3) (-51))] ∧
      names.Nodup ∧
      (∀ name, name ∈ placeholders fragment.text.toList ↔ name ∈ names) ∧
      List.Forall₂ (Occurrence.IsBound fragment.params) (occurrencesOf scatteredContext.now groups)
        names := by
  have hok : (outcome (compileFilter scatteredContext sampleList.resolver
      "title ~ 'a_b' && body < 3") sampleSession).1.isOk = true := by decide +kernel
  have hdrawn : (outcome (compileFilter scatteredContext sampleList.resolver
      "title ~ 'a_b' && body < 3") sampleSession).2.drawn = 2 := by decide +kernel
  obtain ⟨fragment, t, hrun⟩ := exists_of_isOk hok
  rw [hrun] at hdrawn
  have hdiffer : scatteredContext.NamesDiffer (sampleSession : Session Unit).drawn t.drawn := by
    have hnames : ∀ i < 2, ∀ j < 2,
        scatteredContext.paramName i = scatteredContext.paramName j → i = j := by decide +kernel
    intro i j _ hi _ hj
    exact hnames i (hdrawn ▸ hi) j (hdrawn ▸ hj)
  obtain ⟨hplaces, groups, hparse, ⟨names, hnodup, hnames, hbound⟩, -⟩ :=
    compileFilter_binds_exactly scatteredContext_hasPlainNames rfl (Cache.isSound_empty 8) hrun
      hdiffer fragment.build_empty
  have hvalues : (parse "title ~ 'a_b' && body < 3").map
      (fun groups => (occurrencesOf scatteredContext.now groups).map Occurrence.bound) =
        .ok [.text "a\\_b", .double (.finite false (2 ^ 51 * 3) (-51))] := by decide +kernel
  rw [hparse] at hvalues
  exact ⟨fragment, t, groups, names, hrun, hparse, Except.ok.inj hvalues, hnodup,
    fun name => (hplaces name).trans (hnames name), hbound⟩

end PagedSearch
