import PagedSearch.Proofs.Fitting
import PagedSearch.Proofs.Parameters
import PagedSearch.Proofs.Sharing

/-!
# Clients write no marks

Texts and numbers of a client are bound, and names are left with the characters that names have.  So
whatever a client writes, no `?` of it becomes a part of a statement: each `?` there is the place of a
value.  What is compiled from a filter can therefore be printed wherever it is put, and so can what is
compiled from a field to sort by, although nothing is bound for an order.

## Main definitions

* `Resolved.IsUnmarked` — operands whose SQL has no `?`.
* `Fragment.IsComplete` — fragments without a `?` that bind all that they refer to.

## Main results

* `compileFilter_unmarked` — filters are compiled to texts without a `?`.
* `compileFilters_areComplete` — all filters of a request are compiled to complete fragments.
* `exists_orderChunks_of_term` — the terms of an order are printed.
-/

namespace PagedSearch

open Reading Search

variable {ω : Type}

/-! ### Texts without a character -/

section Texts

variable {c : Char} {separator : String} {texts : List String}

theorem notMem_intercalate (hseparator : c ∉ separator.toList)
    (h : ∀ text ∈ texts, c ∉ text.toList) : c ∉ (separator.intercalate texts).toList := by
  induction texts with
  | nil =>
    rw [String.intercalate_nil]
    exact List.not_mem_nil
  | cons first rest ih =>
    obtain ⟨hfirst, hrest⟩ := List.forall_mem_cons.mp h
    cases rest with
    | nil =>
      rw [String.intercalate_singleton]
      exact hfirst
    | cons second more =>
      rw [String.intercalate_cons_cons, String.toList_append, String.toList_append]
      simp only [List.mem_append, not_or]
      exact ⟨⟨hfirst, hseparator⟩, ih hrest⟩

theorem notMem_parenthesised {text : String} (h : c ∉ text.toList) (hopening : c ≠ '(')
    (hclosing : c ≠ ')') : c ∉ (Fragment.parenthesised text).toList := by
  rw [toList_parenthesised]
  simp [h, hopening, hclosing]

theorem notMem_joinTexts (hopening : c ≠ '(') (hclosing : c ≠ ')')
    (hseparator : c ∉ separator.toList) (h : ∀ text ∈ texts, c ∉ text.toList) :
    c ∉ (Fragment.joinTexts separator texts).toList := by
  have hkept : ∀ text ∈ texts.filter (· ≠ ""), c ∉ text.toList :=
    fun text htext => h text (List.mem_filter.mp htext).1
  unfold Fragment.joinTexts
  split
  · exact List.not_mem_nil
  · rename_i text hone
    exact hkept text (by rw [hone]; exact List.mem_singleton_self text)
  · refine notMem_intercalate hseparator fun text htext => ?_
    obtain ⟨inner, hinner, rfl⟩ := List.mem_map.mp htext
    exact notMem_parenthesised (hkept inner hinner) hopening hclosing

end Texts

/-! ### Operands -/

/-- An operand whose SQL has no `?` and is all that the operand stands for. -/
structure Resolved.IsUnmarked (operand : Resolved) : Prop where
  /-- The expression has no `?`. -/
  identifier : '?' ∉ operand.identifier.toList
  /-- There are no related values. -/
  related : operand.related = none
  /-- The comparison is not put into anything. -/
  wrap : operand.wrap = none

section Operands

variable {I : ω → Prop} {context : Context ω}

theorem bindValue_unmarked (hnames : context.HasPlainNames) (value : Value) :
    (bindValue context value).Ensures I Resolved.IsUnmarked := by
  refine (draw_ensures hnames rfl 10).bind fun name hname => .pure ⟨?_, rfl, rfl⟩
  have hmark : '?' ∉ name.toList := fun hmem => absurd (hname _ hmem) (by decide)
  simp [Fragment.paramMarker, hmark]

/-- The SQL of a field has no characters but those of names and those that it is put together
with. -/
theorem AllowList.notMem_fieldSql {c : Char} (hname : isNamePart c = false)
    (hother : c ∉ "JSON_EXTRACT([[]], '$.')".toList) (field : String) :
    c ∉ (AllowList.fieldSql field).identifier.toList := by
  have hkey (part : List Char) : c ∉ sanitisedChars part :=
    fun hmem => ne_of_isNamePart (List.mem_filter.mp hmem).2 hname rfl
  have hpath (parts : List (List Char)) : c ∉ AllowList.jsonPath parts := by
    intro hmem
    refine ne_of_mem_jsonPath hname ?_ hmem rfl
    simp only [List.mem_cons, List.not_mem_nil, or_false, not_or]
    refine ⟨?_, ?_, ?_, ?_⟩ <;> rintro rfl <;> exact hother (by decide)
  have hmarker (name : List Char) (h : c ∉ name) :
      c ∉ (Fragment.columnMarker (String.ofList name)).toList := by
    have hopening : c ≠ '[' := by rintro rfl; exact hother (by decide)
    have hclosing : c ≠ ']' := by rintro rfl; exact hother (by decide)
    simp [Fragment.columnMarker, h, hopening, hclosing]
  unfold AllowList.fieldSql
  split
  · exact hmarker [] List.not_mem_nil
  · exact hmarker _ (hkey _)
  · rename_i column path _ _
    have hcolumn := hmarker _ (hkey column)
    simp only [String.toList_append, String.toList_ofList, List.mem_append, not_or]
    refine ⟨⟨⟨⟨?_, hcolumn⟩, ?_⟩, hpath path⟩, ?_⟩
    all_goals
      intro hmem
      refine hother ?_
      revert hmem
      simp +contextual [or_imp]

theorem constant?_unmarked {name sql : String} (h : constant? name = some sql) :
    (Resolved.ofIdentifier sql).IsUnmarked := by
  refine ⟨?_, rfl, rfl⟩
  unfold constant? at h
  split at h
  · obtain rfl := Option.some.inj h
    show '?' ∉ "NULL".toList
    decide
  · obtain rfl := Option.some.inj h
    show '?' ∉ "1".toList
    decide
  · obtain rfl := Option.some.inj h
    show '?' ∉ "0".toList
    decide
  · cases h

theorem notMem_call {c : Char} {name text : List Char} (hname : c ∉ name) (htext : c ∉ text)
    (hopening : c ≠ '(') (hclosing : c ≠ ')') : c ∉ call name text := by
  simp [call, hname, htext, hopening, hclosing]

theorem strftime_unmarked (arguments : List (CallArgument ω))
    (h : ∀ argument ∈ arguments, argument.resolve.Ensures I Resolved.IsUnmarked) :
    Search.Ensures I Resolved.IsUnmarked (strftime arguments) := by
  unfold strftime
  split
  · exact .throw _
  · refine (resolveChecked_ensures _ 0 h).bind fun results hresults => .pure ⟨?_, rfl, rfl⟩
    have hlist : '?' ∉ (", ".intercalate (results.map (·.identifier))).toList := by
      refine notMem_intercalate (by decide) fun text htext => ?_
      obtain ⟨operand, hoperand, rfl⟩ := List.mem_map.mp htext
      exact (hresults operand hoperand).identifier
    dsimp only
    rw [toList_strftime]
    exact notMem_call (by decide) hlist (by decide) (by decide)
  · exact .throw _

theorem notMem_haversine {lonA latA lonB latB : String} (hlonA : '?' ∉ lonA.toList)
    (hlatA : '?' ∉ latA.toList) (hlonB : '?' ∉ lonB.toList) (hlatB : '?' ∉ latB.toList) :
    '?' ∉ (haversine lonA latA lonB latB).toList := by
  rw [toList_haversine]
  simp [squaredSine, call, hlonA, hlatA, hlonB, hlatB]

theorem geoDistance_unmarked (arguments : List (CallArgument ω))
    (h : ∀ argument ∈ arguments, argument.resolve.Ensures I Resolved.IsUnmarked) :
    Search.Ensures I Resolved.IsUnmarked (geoDistance arguments) := by
  unfold geoDistance
  dsimp only
  by_cases hlength : arguments.length ≠ 4
  · rw [if_pos hlength]
    exact .throw _
  · rw [if_neg hlength]
    refine (resolveChecked_ensures _ 0 h).bind fun results hresults => ?_
    split
    · rename_i lonA latA lonB latB
      refine .pure ⟨?_, rfl, rfl⟩
      exact notMem_haversine (hresults lonA (by simp)).identifier
        (hresults latA (by simp)).identifier (hresults lonB (by simp)).identifier
        (hresults latB (by simp)).identifier
    · exact .throw _

/-- Whatever a client writes, no operand has a `?` of it. -/
theorem provides_isUnmarked (hnames : context.HasPlainNames)
    (hfunctions : context.functions = .standard) (list : AllowList) :
    context.Provides list.resolver I Resolved.IsUnmarked where
  value := bindValue_unmarked hnames
  field name := by
    intro s hs
    rw [AllowList.outcome_resolve]
    refine ⟨hs, fun operand hoperand => ?_⟩
    unfold AllowList.resolve at hoperand
    split at hoperand
    · obtain rfl := Except.ok.inj hoperand
      refine ⟨AllowList.notMem_fieldSql (by decide) (by decide) name, ?_, ?_⟩ <;>
        · unfold AllowList.fieldSql
          split <;> rfl
    · cases hoperand
  constant := constant?_unmarked
  function hget := by
    rw [hfunctions] at hget
    rcases Functions.eq_of_get?_standard hget with rfl | rfl
    · exact strftime_unmarked
    · exact geoDistance_unmarked

/-! ### Comparisons -/

variable {left right : Resolved}

theorem notMem_comparisonFragment (comparator : Comparator) (hleft : '?' ∉ left.identifier.toList)
    (hright : '?' ∉ right.identifier.toList) :
    '?' ∉ (comparisonFragment left comparator right).text.toList := by
  have hequality (negated : Bool) : '?' ∉ (equalityFragment negated left right).text.toList := by
    cases negated <;> unfold equalityFragment <;> dsimp only <;> split <;>
      simp [Fragment.text, hleft, hright]
  have hlike (negated : Bool) : '?' ∉ (likeFragment negated left right).text.toList := by
    unfold likeFragment
    split
    rename_i subject pattern hsides
    have hsubject : '?' ∉ subject.identifier.toList ∧ '?' ∉ pattern.identifier.toList := by
      split at hsides <;> obtain ⟨rfl, rfl⟩ := Prod.mk.inj hsides
      · exact ⟨hright, hleft⟩
      · exact ⟨hleft, hright⟩
    cases negated <;> dsimp only <;> split <;> simp [Fragment.text, likeEscape, hsubject]
  have horder (symbol : String) (h : '?' ∉ symbol.toList) :
      '?' ∉ (orderFragment symbol left right).text.toList := by
    simp [orderFragment, Fragment.text, hleft, hright, h]
  cases comparator with
  | equal => exact hequality false
  | notEqual => exact hequality true
  | like => exact hlike false
  | notLike => exact hlike true
  | less | lessEqual | greater | greaterEqual => exact horder _ (by decide)

/-- Filters are compiled to texts without a `?`. -/
theorem compileFilter_unmarked (hnames : context.HasPlainNames)
    (hfunctions : context.functions = .standard) (list : AllowList) (filter : String) :
    (compileFilter context list.resolver filter).Ensures I
      fun fragment => '?' ∉ fragment.text.toList := by
  have hprovides : context.Provides list.resolver I Resolved.IsUnmarked :=
    provides_isUnmarked hnames hfunctions list
  refine compileFilter_ensures_of (fun comparison => ?_) ?_ ?_ filter
  · unfold compileComparison
    refine (hprovides.resolveSide .left _).bind fun left hleft => ?_
    refine (hprovides.resolveSide .right _).bind fun right hright => ?_
    rw [compare_eq_pure ⟨hleft.related, hleft.wrap⟩ ⟨hright.related, hright.wrap⟩]
    exact .pure (notMem_comparisonFragment _ hleft.identifier hright.identifier)
  · intro how first second hfirst hsecond
    have hboth : ∀ text ∈ Fragment.texts [first, second], '?' ∉ text.toList := by
      simp [Fragment.texts, hfirst, hsecond]
    cases how <;> exact notMem_joinTexts (by decide) (by decide) (by decide) hboth
  · intro fragment hfragment
    rw [Fragment.text]
    split
    · exact List.not_mem_nil
    · exact notMem_parenthesised hfragment (by decide) (by decide)

end Operands

/-! ### Filters -/

/-- A fragment that has a text of its own, without a `?`, and that binds all values that its text
refers to. -/
structure Fragment.IsComplete (fragment : Fragment) : Prop where
  /-- There is a text. -/
  ne_empty : fragment.text ≠ ""
  /-- The text can be read from its pieces. -/
  composed : Composed fragment.text.toList
  /-- All values are bound. -/
  bound : ∀ name ∈ placeholders fragment.text.toList, (fragment.params.get? name).isSome = true
  /-- There is no `?`. -/
  unmarked : '?' ∉ fragment.text.toList

theorem Cache.IsSound.getOrParse {cache : Cache} (h : cache.IsSound) (filter : String) :
    (cache.getOrParse parse filter).2.IsSound := by
  unfold Cache.getOrParse
  split
  · exact h
  · split
    · rename_i groups hparse
      intro other found hfound
      rw [get?_store] at hfound
      split at hfound
      · rename_i hsame
        rw [hsame.2, ← Option.some.inj hfound]
        exact hparse
      · exact h other found hfound
    · exact h

section Filters

variable {context : Context ω} {list : AllowList} {s t : Session ω}

/-- Compiling a filter changes the store of trees by looking up the tree of the filter, and in no
other way. -/
theorem cache_outcome_compileFilter (hfunctions : context.functions = .standard)
    (filter : String) (s : Session ω) :
    (outcome (compileFilter context list.resolver filter) s).2.cache =
      (s.cache.getOrParse parse filter).2 := by
  have hkeep : context.functions.Keep (@IgnoresStore ω) := by
    rw [hfunctions]
    exact ignoresStore_isCompositional.standard_keep
  have hgroups (groups : List Group) (u : Session ω) :
      (outcome (compileGroups context list.resolver groups) u).2.cache = u.cache := by
    have hignores : IgnoresStore (compileGroups context list.resolver groups) :=
      ignoresStore_isCompositional.holds_compileGroups hkeep (fun _ _ _ => rfl) groups
    exact congrArg (·.2.cache) (hignores u u.cache)
  have hparsed : (outcome (Search.parsed filter) s).2.cache =
    (s.cache.getOrParse parse filter).2 := rfl
  unfold compileFilter
  rw [outcome_bind]
  generalize outcome (Search.parsed filter) s = reached at hparsed
  obtain ⟨_ | groups, u⟩ := reached
  · exact hparsed
  · exact (hgroups groups u).trans hparsed

theorem compileFilter_isComplete (hnames : context.HasPlainNames)
    (hfunctions : context.functions = .standard) (hcache : s.cache.IsSound) {filter : String}
    {fragment : Fragment}
    (hrun : outcome (compileFilter context list.resolver filter) s = (.ok fragment, t)) :
    fragment.IsComplete := by
  obtain ⟨groups, leaves, -, -, -, -, hbinds⟩ :=
    compileFilter_binds hnames hfunctions hcache hrun
  have hunmarked : (compileFilter context list.resolver filter).Ensures (fun _ => True) _ :=
    compileFilter_unmarked hnames hfunctions list filter
  refine ⟨hbinds.ne_empty, hbinds.composed, fun name hname => ?_, ?_⟩
  · rw [hbinds.params_eq, Params.isSome_get?_ofList]
    exact (hbinds.mem_placeholders name).mp hname
  · have hresult := (hunmarked s trivial).2 fragment
    rw [hrun] at hresult
    exact hresult rfl

/-- All filters of a request are compiled to complete fragments, one after the other. -/
theorem compileFilters_areComplete (hnames : context.HasPlainNames)
    (hfunctions : context.functions = .standard) (hcache : s.cache.IsSound)
    {filters : List String} {conditions : List Fragment}
    (hrun : outcome (filters.mapM (compileFilter context list.resolver)) s = (.ok conditions, t)) :
    ∀ condition ∈ conditions, condition.IsComplete := by
  induction filters generalizing s conditions with
  | nil =>
    obtain ⟨rfl, -⟩ : [] = conditions ∧ s = t := by simpa using hrun
    nofun
  | cons filter rest ih =>
    rw [List.mapM_cons] at hrun
    obtain ⟨first, u, hfirst, hrun⟩ := outcome_bind_eq_ok.mp hrun
    obtain ⟨others, v, hrest, hrun⟩ := outcome_bind_eq_ok.mp hrun
    obtain ⟨rfl, rfl⟩ : first :: others = conditions ∧ v = t := by simpa using hrun
    have hstore : u.cache.IsSound := by
      have hu : (outcome (compileFilter context list.resolver filter) s).2.cache = _ :=
        cache_outcome_compileFilter hfunctions filter s
      rw [hfirst] at hu
      rw [hu]
      exact hcache.getOrParse filter
    exact List.forall_mem_cons.mpr
      ⟨compileFilter_isComplete hnames hfunctions hcache hfirst, ih hstore hrest⟩

end Filters

/-! ### Orders -/

section Orders

variable {c : Char}

theorem mem_of_mem_trimChars {text : List Char} (h : c ∈ Text.trimChars text) : c ∈ text := by
  rw [Text.trimChars, List.mem_reverse] at h
  exact (List.dropWhile_suffix _).subset
    (List.mem_reverse.mp ((List.dropWhile_suffix _).subset h))

theorem mem_of_mem_splitDirection {term : String} (h : c ∈ (splitDirection term).1.toList) :
    c ∈ term.toList := by
  have hbefore {ending before : List Char}
      (hending : beforeEnding? ending (Text.trimChars term.toList) = some before)
      (hmem : c ∈ (String.ofList before).toList) : c ∈ term.toList := by
    unfold beforeEnding? at hending
    split at hending
    · rw [String.toList_ofList, ← Option.some.inj hending] at hmem
      exact mem_of_mem_trimChars (List.mem_of_mem_take hmem)
    · cases hending
  unfold splitDirection at h
  dsimp only at h
  split at h
  · exact hbefore ‹_› h
  · split at h
    · exact hbefore ‹_› h
    · rw [String.toList_ofList] at h
      exact mem_of_mem_trimChars h

/-- A term without marks that refers to no value is printed. -/
theorem exists_orderChunks {term : String} (hmark : '?' ∉ term.toList)
    (hvalue : '{' ∉ term.toList) : ∃ chunks, SelectQuery.orderChunks .sqlite term = .ok chunks := by
  have hnone : placeholders (splitDirection term).1.toList = [] :=
    placeholders_of_notMem fun hmem => hvalue (mem_of_mem_splitDirection hmem)
  have hprinted : ∃ chunks, printText .sqlite (splitDirection term).1 .empty = .ok chunks :=
    exists_printText_of_notMem (fun hmem => hmark (mem_of_mem_splitDirection hmem))
      (by rw [hnone]; nofun)
  obtain ⟨chunks, hchunks⟩ := hprinted
  show ∃ ordered, (return (← printText .sqlite (splitDirection term).1 .empty) ++
    [SelectQuery.plain (" " ++ (splitDirection term).2.keyword)]) = Except.ok ordered
  rw [hchunks]
  exact ⟨_, rfl⟩

/-- The fields to sort by become terms that are printed without any values. -/
theorem exists_orderChunks_of_term {list : AllowList} {field : SortField} {s t : Session ω}
    {term : String} (hrun : outcome (field.term list.resolver) s = (.ok term, t)) :
    ∃ chunks, SelectQuery.orderChunks .sqlite term = .ok chunks := by
  have hterm {expression : String} (direction : Direction) (hmark : '?' ∉ expression.toList)
      (hvalue : '{' ∉ expression.toList) :
      ∃ chunks, SelectQuery.orderChunks .sqlite (SortField.orderTerm expression direction) =
        .ok chunks := by
    refine exists_orderChunks ?_ ?_ <;>
      cases direction <;> simp [SortField.orderTerm, Direction.keyword, hmark, hvalue]
  unfold SortField.term at hrun
  split at hrun
  · obtain rfl := Except.ok.inj (Prod.mk.inj hrun).1
    exact exists_orderChunks (by decide) (by decide)
  · split at hrun
    · obtain rfl := Except.ok.inj (Prod.mk.inj hrun).1
      exact hterm field.direction (by decide) (by decide)
    · obtain ⟨resolved, u, hresolved, hrun⟩ := outcome_bind_eq_ok.mp hrun
      rw [outcome_explain_eq_ok, AllowList.outcome_resolve] at hresolved
      obtain ⟨hresolved, -⟩ := Prod.mk.inj hresolved
      unfold AllowList.resolve at hresolved
      split at hresolved
      · obtain rfl := Except.ok.inj hresolved
        split at hrun
        · obtain rfl := Except.ok.inj (Prod.mk.inj hrun).1
          exact hterm field.direction (AllowList.notMem_fieldSql (by decide) (by decide) _)
            (AllowList.notMem_fieldSql (by decide) (by decide) _)
        · cases (Prod.mk.inj hrun).1
      · cases hresolved

end Orders

end PagedSearch
