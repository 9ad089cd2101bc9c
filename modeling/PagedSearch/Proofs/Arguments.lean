import PagedSearch.Proofs.Interference
import PagedSearch.Proofs.Wildcards

/-!
# Texts that are given to functions

A text in a filter is an operand itself or an argument of a function, such as the format of
`strftime`.  Both are bound under names of their own.  What a comparison does to the values of an
operand, it does to all of them: if the operand is a pattern, then the arguments of a function in it
are escaped as a text would be that is the pattern.  A format is made of `%`, so a function in a
pattern is given another format than the client has written.

## Main definitions

* `ArePlaced` — arguments that a function has resolved, each with its values behind those of the
  arguments before it.
* `Operand.PassesTexts` — what a function is given for the texts among its arguments.

## Main results

* `resolveChecked_placed` — arguments are resolved in order, and each has passed its check.
* `placesTexts_of_side` — a function is given each text under its own name, in its own place.
* `compileFilter_passes_texts` — a function is given a text as the client has written it exactly if
  it is not in a pattern, or has no character that would be escaped.
-/

namespace PagedSearch

open Search

variable {ω : Type}

theorem Params.mem_ofList {pairs : List (String × Value)} {pair : String × Value} :
    pair ∈ (ofList pairs).entries ↔ pair ∈ pairs := by
  simp [ofList]

/-! ### Texts that escaping keeps -/

theorem length_escapeLikeChars (text : List Char) :
    (escapeLikeChars text).length = text.length + text.countP needsEscape := by
  induction text with
  | nil => rfl
  | cons c text ih =>
    rw [escapeLikeChars_cons, List.length_append, ih, List.length_cons, List.countP_cons]
    cases needsEscape c <;> simp <;> omega

/-- Escaping keeps a text exactly if no character of it needs an escape. -/
theorem escapeLikeChars_eq_self (text : List Char) :
    escapeLikeChars text = text ↔ ∀ c ∈ text, needsEscape c = false := by
  constructor
  · intro h
    have hlength := length_escapeLikeChars text
    rw [h, Nat.left_eq_add, List.countP_eq_zero] at hlength
    exact fun c hc => Bool.eq_false_iff.mpr (hlength c hc)
  · intro h
    induction text with
    | nil => rfl
    | cons c text ih =>
      obtain ⟨hc, htext⟩ := List.forall_mem_cons.mp h
      rw [escapeLikeChars_cons_of_plain hc, ih htext]

/-- A text is bound as it is exactly if it is not used as a pattern, or has no character that needs
an escape. -/
theorem Use.apply_text_eq_self (use : Use) (content : String) :
    use.apply (.text content) = .text content ↔
      use = .plain ∨ ∀ c ∈ content.toList, needsEscape c = false := by
  cases use with
  | plain => exact ⟨fun _ => .inl rfl, fun _ => rfl⟩
  | pattern =>
    rw [← escapeLikeChars_eq_self, or_iff_right nofun, ← toList_escapeLike, String.toList_inj]
    exact ⟨Value.text.inj, congrArg Value.text⟩

/-! ### Arguments of functions -/

section Arguments

variable (context : Context ω)

/-- Arguments that have passed a check, with what they stand for.  The first of them is in the given
place, and its first value is bound under the name drawn after `start` others. -/
inductive ArePlaced (check : Nat → Operand → Option SearchError) :
    Nat → Nat → List Operand → List Resolved → Prop where
  /-- No arguments. -/
  | nil {place start : Nat} : ArePlaced check place start [] []
  /-- One more argument. -/
  | cons {place start : Nat} {operand : Operand} {operands : List Operand} {first : Resolved}
    {rest : List Resolved} : check place operand = none → first.StandsFor context start operand →
      ArePlaced check (place + 1) (start + (operand.values context.now).length) operands rest →
        ArePlaced check place start (operand :: operands) (first :: rest)

variable {context} {check : Nat → Operand → Option SearchError} {place start : Nat}
  {operands : List Operand} {resolved : List Resolved} {list : AllowList}

theorem resolveChecked_placed (hnames : context.HasPlainNames)
    (hfunctions : context.functions = .standard) (hoperands : ∀ one ∈ operands, one.IsNamed)
    {s t : Session ω}
    (hrun : outcome (resolveChecked check place (callArguments context list.resolver operands)) s =
      (.ok resolved, t)) : ArePlaced context check place s.drawn operands resolved := by
  induction operands generalizing place s resolved with
  | nil =>
    obtain ⟨rfl, -⟩ : [] = resolved ∧ s = t := by
      simpa [callArguments, resolveChecked] using hrun
    exact .nil
  | cons operand rest ih =>
    obtain ⟨hoperand, hrest⟩ := List.forall_mem_cons.mp hoperands
    rw [callArguments] at hrun
    unfold resolveChecked at hrun
    cases hcheck : check place operand with
    | some error =>
      rw [hcheck] at hrun
      cases (Prod.mk.inj hrun).1
    | none =>
      rw [hcheck] at hrun
      obtain ⟨first, u, hfirst, hrun⟩ := outcome_bind_eq_ok.mp hrun
      obtain ⟨others, v, hothers, hrun⟩ := outcome_bind_eq_ok.mp hrun
      obtain ⟨rfl, rfl⟩ : first :: others = resolved ∧ v = t := by simpa using hrun
      obtain ⟨hdrawn, hstands⟩ := resolveOperand_eq_ok hnames hfunctions hoperand hfirst
      have hplaced := ih hrest hothers
      rw [hdrawn] at hplaced
      exact .cons hcheck hstands hplaced

namespace ArePlaced

theorem length_eq (h : ArePlaced context check place start operands resolved) :
    resolved.length = operands.length := by
  induction h with
  | nil => rfl
  | cons _ _ _ ih => rw [List.length_cons, ih, List.length_cons]

/-- A check that every argument passes. -/
theorem forall_mem {P : Operand → Prop} (hcheck : ∀ place one, check place one = none → P one)
    (h : ArePlaced context check place start operands resolved) : ∀ one ∈ operands, P one := by
  induction h with
  | nil => nofun
  | cons hfirst _ _ ih => exact List.forall_mem_cons.mpr ⟨hcheck _ _ hfirst, ih⟩

/-- A text stands in its place, behind the values of the arguments before it. -/
theorem place_of_text (h : ArePlaced context check place start operands resolved) {index : Nat}
    {content : String} (htext : operands[index]? = some (.text content)) :
    ∃ before after, Operand.allValues context.now operands = before ++ .text content :: after ∧
      (resolved.map (·.identifier))[index]? =
        some (Fragment.paramMarker (context.paramName (start + before.length))) := by
  induction h generalizing index with
  | nil => simp at htext
  | @cons place start operand operands first rest _ hstands _ ih =>
    rw [Operand.allValues]
    cases index with
    | zero =>
      obtain rfl : operand = .text content := by simpa using htext
      exact ⟨[], Operand.allValues context.now operands, by rw [Operand.values]; rfl,
        congrArg some (hstands.place rfl)⟩
    | succ index =>
      obtain ⟨before, after, hvalues, hplace⟩ := ih (by simpa using htext)
      refine ⟨operand.values context.now ++ before, after, by rw [hvalues, List.append_assoc], ?_⟩
      rw [List.length_append, ← Nat.add_assoc]
      exact hplace

end ArePlaced

end Arguments

/-! ### Functions -/

section Functions

variable {context : Context ω} {list : AllowList}

variable (context) in
/-- What an operand that is a function makes of its arguments, of which none is a function.  If one
is a text, the function is `strftime`: it has as many arguments as the client has written, and the
text is in its own place, as the value that is bound in its turn. -/
def Resolved.PlacesTexts (start : Nat) (operand : Operand) (resolved : Resolved) : Prop :=
  ∀ name arguments, operand = .call name arguments →
    (∀ argument ∈ arguments, argument.isCall = false) ∧
      ∀ (index : Nat) (content : String), arguments[index]? = some (.text content) →
        ∃ places before after,
          resolved.identifier = "strftime(" ++ ", ".intercalate places ++ ")" ∧
          places.length = arguments.length ∧
          operand.values context.now = before ++ .text content :: after ∧
          places[index]? =
            some (Fragment.paramMarker (context.paramName (start + before.length)))

theorem placesTexts_of_strftime (hnames : context.HasPlainNames)
    (hfunctions : context.functions = .standard) {name : String} {arguments : List Operand}
    (hoperands : ∀ one ∈ arguments, one.IsNamed) {s t : Session ω} {resolved : Resolved}
    (hrun : outcome (strftime (callArguments context list.resolver arguments)) s =
      (.ok resolved, t)) :
    resolved.PlacesTexts context s.drawn (.call name arguments) := by
  unfold strftime at hrun
  split at hrun
  · cases (Prod.mk.inj hrun).1
  · obtain ⟨operands, u, hresolved, hrun⟩ := outcome_bind_eq_ok.mp hrun
    have hplaced := resolveChecked_placed hnames hfunctions hoperands hresolved
    obtain rfl := Except.ok.inj (Prod.mk.inj hrun).1
    rintro _ _ ⟨⟩
    refine ⟨hplaced.forall_mem ?_, fun index content htext => ?_⟩
    · intro place one hone
      cases one with
      | call name arguments => cases hone
      | identifier name | text content | number value => rfl
    · obtain ⟨before, after, hvalues, hplace⟩ := hplaced.place_of_text htext
      exact ⟨_, before, after, rfl, by rw [List.length_map, hplaced.length_eq],
        by rw [Operand.values, hvalues], hplace⟩
  · cases (Prod.mk.inj hrun).1

theorem placesTexts_of_geoDistance (hnames : context.HasPlainNames)
    (hfunctions : context.functions = .standard) {name : String} {arguments : List Operand}
    (hoperands : ∀ one ∈ arguments, one.IsNamed) {s t : Session ω} {resolved : Resolved}
    (hrun : outcome (geoDistance (callArguments context list.resolver arguments)) s =
      (.ok resolved, t)) :
    resolved.PlacesTexts context s.drawn (.call name arguments) := by
  unfold geoDistance at hrun
  dsimp only at hrun
  split at hrun
  · cases (Prod.mk.inj hrun).1
  · obtain ⟨operands, u, hresolved, -⟩ := outcome_bind_eq_ok.mp hrun
    have hplaced := resolveChecked_placed hnames hfunctions hoperands hresolved
    -- Its check lets through neither functions nor texts.
    have hchecked : ∀ one ∈ arguments, one.isCall = false ∧ ∀ content, one ≠ .text content := by
      refine hplaced.forall_mem fun place one hone => ?_
      cases one with
      | identifier name | number value => exact ⟨rfl, nofun⟩
      | text content | call name arguments => cases hone
    rintro _ _ ⟨⟩
    exact ⟨fun one hone => (hchecked one hone).1, fun index content htext =>
      absurd rfl ((hchecked _ (List.mem_of_getElem? htext)).2 content)⟩

/-- A function is given each text under its own name, in its own place. -/
theorem placesTexts_of_side (hnames : context.HasPlainNames)
    (hfunctions : context.functions = .standard) {side : Side} {operand : Operand}
    (hoperand : operand.IsNamed) {s t : Session ω} {resolved : Resolved}
    (hrun : outcome (resolveSide context list.resolver side operand) s = (.ok resolved, t)) :
    resolved.PlacesTexts context s.drawn operand := by
  have hrun := outcome_resolveOperand_of_side hrun
  cases operand with
  | identifier name | text content | number value => exact nofun
  | call name arguments =>
    have harguments : ∀ one ∈ arguments, one.IsNamed := fun _ => hoperand.of_mem
    rw [resolveOperand, Functions.call] at hrun
    split at hrun
    · rename_i function hget
      rw [hfunctions] at hget
      rcases Functions.eq_of_get?_standard hget with rfl | rfl
      · exact placesTexts_of_strftime hnames hfunctions harguments hrun
      · exact placesTexts_of_geoDistance hnames hfunctions harguments hrun
    · cases (Prod.mk.inj hrun).1

end Functions

/-! ### Comparisons -/

section Comparisons

variable {context : Context ω} {list : AllowList}

theorem Context.mem_bindings (context : Context ω) (start : Nat) (before : List Value)
    (value : Value) (after : List Value) :
    (context.paramName (start + before.length), value) ∈
      context.bindings start (before ++ value :: after) := by
  rw [Context.bindings_append, Context.bindings]
  exact List.mem_append_right _ List.mem_cons_self

/-- What the function is given that an operand is, all of its values being used in one way.  It is
`strftime` if it has texts, and no argument is a function.  Each text is in its place, as what is
bound for it, and that is the text itself only if it is not used as a pattern or has nothing that
would be escaped. -/
def Operand.PassesTexts (params : Params) (use : Use) (operand : Operand) (resolved : Resolved) :
    Prop :=
  ∀ name arguments, operand = .call name arguments →
    (∀ argument ∈ arguments, argument.isCall = false) ∧
      ∀ (index : Nat) (content : String), arguments[index]? = some (.text content) →
        ∃ places bound,
          resolved.identifier = "strftime(" ++ ", ".intercalate places ++ ")" ∧
          places.length = arguments.length ∧
          places[index]? = some (Fragment.paramMarker bound) ∧
          params.get? bound = some (use.apply (.text content)) ∧
          (params.get? bound = some (.text content) ↔
            use = .plain ∨ ∀ c ∈ content.toList, needsEscape c = false)

theorem Resolved.PlacesTexts.passesTexts {start : Nat} {operand : Operand} {resolved : Resolved}
    (h : resolved.PlacesTexts context start operand) {params : Params} {use : Use}
    (hget : ∀ pair ∈ context.bindings start ((operand.values context.now).map use.apply),
      params.get? pair.1 = some pair.2) :
    operand.PassesTexts params use resolved := by
  intro name arguments hoperand
  obtain ⟨hcalls, htexts⟩ := h name arguments hoperand
  refine ⟨hcalls, fun index content htext => ?_⟩
  obtain ⟨places, before, after, hidentifier, hlength, hvalues, hplace⟩ :=
    htexts index content htext
  have hbound : params.get? (context.paramName (start + before.length)) =
      some (use.apply (.text content)) := by
    rw [hvalues, List.map_append, List.map_cons] at hget
    have hmem := context.mem_bindings start (before.map use.apply)
      (use.apply (.text content)) (after.map use.apply)
    rw [List.length_map] at hmem
    exact hget _ hmem
  refine ⟨places, _, hidentifier, hlength, hplace, hbound, ?_⟩
  rw [hbound, Option.some.injEq, use.apply_text_eq_self]

theorem Resolved.StandsFor.hasPlace {start : Nat} {operand : Operand} {resolved : Resolved}
    (h : resolved.StandsFor context start operand) {params : Params} {use : Use}
    (hget : ∀ pair ∈ context.bindings start ((operand.values context.now).map use.apply),
      params.get? pair.1 = some pair.2) : operand.HasPlace params use resolved := by
  intro value hvalue
  refine ⟨_, h.place (by rw [hvalue]; rfl), hget (_, _) ?_⟩
  rw [Operand.values_of_ownValue? hvalue]
  exact List.mem_cons_self

/-- What is bound for a comparison has been bound for its sides. -/
theorem Comparison.places_of_compileComparison (hnames : context.HasPlainNames)
    (hfunctions : context.functions = .standard) {c : Comparison} (hc : c.IsNamed)
    {s t : Session ω} {fragment : Fragment}
    (hrun : outcome (compileComparison context list.resolver c) s = (.ok fragment, t))
    {params : Params} (hget : ∀ pair ∈ fragment.params.entries, params.get? pair.1 = some pair.2) :
    ∃ left right, fragment = comparisonFragment left c.comparator right ∧
      (c.left.HasPlace params (c.comparator.leftUse (c.right.values context.now)) left ∧
        c.left.PassesTexts params (c.comparator.leftUse (c.right.values context.now)) left) ∧
      c.right.HasPlace params c.comparator.rightUse right ∧
        c.right.PassesTexts params c.comparator.rightUse right := by
  unfold compileComparison at hrun
  obtain ⟨left, u, hleftSide, hrun⟩ := outcome_bind_eq_ok.mp hrun
  obtain ⟨right, v, hrightSide, hrun⟩ := outcome_bind_eq_ok.mp hrun
  obtain ⟨hdrawn, hleft⟩ :=
    resolveOperand_eq_ok hnames hfunctions hc.left (outcome_resolveOperand_of_side hleftSide)
  obtain ⟨-, hright⟩ :=
    resolveOperand_eq_ok hnames hfunctions hc.right (outcome_resolveOperand_of_side hrightSide)
  have hleftTexts := placesTexts_of_side hnames hfunctions hc.left hleftSide
  have hrightTexts := placesTexts_of_side hnames hfunctions hc.right hrightSide
  rw [hleft.binds.outcome_compare hright.binds] at hrun
  obtain rfl := Except.ok.inj (Prod.mk.inj hrun).1
  rw [hdrawn] at hright hrightTexts
  have hbinds := comparisonFragment_binds c.comparator hleft.binds hright.binds
  -- What is bound for the left side comes first.
  rw [hbinds.params_eq, Comparator.bound, Context.bindings_append, List.length_map] at hget
  have hgetLeft :=
    fun pair hpair => hget pair (Params.mem_ofList.mpr (List.mem_append_left _ hpair))
  have hgetRight :=
    fun pair hpair => hget pair (Params.mem_ofList.mpr (List.mem_append_right _ hpair))
  exact ⟨left, right, rfl, ⟨hleft.hasPlace hgetLeft, hleftTexts.passesTexts hgetLeft⟩,
    hright.hasPlace hgetRight, hrightTexts.passesTexts hgetRight⟩

/-- **A function is given the texts that the client has written, unless it is in a pattern.**  In a
filter that is compiled for any allow-list, let an operand be a function.  None of its arguments is
a function, and if one is a text then it is `strftime`, whose SQL has as many arguments as the
client has written.  The text is bound under the name in its place: as it is, if the operand is not
a pattern, and else with its wildcards escaped, which leaves it as it is only if it has none.  An
operand that is a text itself is used in the same way. -/
theorem compileFilter_passes_texts {s t : Session ω} {filter : String} {fragment : Fragment}
    (hnames : context.HasPlainNames) (hfunctions : context.functions = .standard)
    (hcache : s.cache.IsSound)
    (hrun : outcome (compileFilter context list.resolver filter) s = (.ok fragment, t))
    (hdiffer : context.NamesDiffer s.drawn t.drawn) {sql : String} {params : Params}
    (hbuild : fragment.build .empty = (sql, params)) :
    ∃ groups leaf, parse filter = .ok groups ∧ fragment = (fragments leaf).row groups ∧
      ∀ index c, (stepsOf groups)[index]? = some (some c) →
        ∃ left right, leaf index = comparisonFragment left c.comparator right ∧
          (c.left.HasPlace params (c.comparator.leftUse (c.right.values context.now)) left ∧
            c.left.PassesTexts params (c.comparator.leftUse (c.right.values context.now)) left) ∧
          c.right.HasPlace params c.comparator.rightUse right ∧
            c.right.PassesTexts params c.comparator.rightUse right := by
  obtain ⟨bound, -, -, -, -, hdrawn, hbinds⟩ := compileFilter_binds hnames hfunctions hcache hrun
  obtain ⟨groups, cache, hfound, hgroups⟩ := compileFilter_eq_ok hrun
  have hparse := hcache.parse_eq_ok hfound
  obtain ⟨leaves, hleaves, rfl⟩ := compileGroups_eq_ok hgroups
  rw [Fragment.build_empty] at hbuild
  obtain ⟨rfl, rfl⟩ := Prod.mk.inj hbuild
  refine ⟨groups, _, hparse, rfl, fun index c hc => ?_⟩
  obtain ⟨leaf, u, v, hleaf, hcompiled⟩ := exists_outcome_of_mapM hleaves hc
  rw [List.getD_eq_getElem?_getD, hleaf, Option.getD_some]
  refine Comparison.places_of_compileComparison hnames hfunctions
    (isNamed_of_parse hparse (List.mem_of_getElem? hc)) hcompiled fun pair hpair => ?_
  have hmem := (mem_fragments_row (length_of_outcome_mapM hleaves)
    (none_notMem_of_compiled hleaves) pair).mpr ⟨leaf, List.mem_of_getElem? hleaf, hpair⟩
  rw [hbinds.params_eq] at hmem ⊢
  refine Params.get?_ofList_eq_some (Context.NamesDiffer.nodup ?_) (Params.mem_ofList.mp hmem)
  rwa [List.length_map, ← hdrawn]

end Comparisons

/-- The year of a row is compared with a title: the format is bound as it is. -/
theorem comparedYear_formatted :
    ∃ (fragment : Fragment) (t : Session Unit) (left right : Resolved) (places : List String)
        (bound : String),
      outcome (compileFilter scatteredContext sampleList.resolver "strftime('%Y', body) = title")
        sampleSession = (.ok fragment, t) ∧
      fragment = comparisonFragment left .equal right ∧
      left.identifier = "strftime(" ++ ", ".intercalate places ++ ")" ∧ places.length = 2 ∧
      places[0]? = some (Fragment.paramMarker bound) ∧
      fragment.params.get? bound = some (.text "%Y") := by
  have hok : (outcome (compileFilter scatteredContext sampleList.resolver
      "strftime('%Y', body) = title") sampleSession).1.isOk = true := by decide +kernel
  have hdrawn : (outcome (compileFilter scatteredContext sampleList.resolver
      "strftime('%Y', body) = title") sampleSession).2.drawn = 1 := by decide +kernel
  obtain ⟨fragment, t, hrun⟩ := exists_of_isOk hok
  rw [hrun] at hdrawn
  change t.drawn = 1 at hdrawn
  have hdiffer : scatteredContext.NamesDiffer (sampleSession : Session Unit).drawn t.drawn := by
    intro i j _ hi _ hj
    omega
  obtain ⟨groups, leaf, hparse, hrow, hall⟩ := compileFilter_passes_texts
    scatteredContext_hasPlainNames rfl (Cache.isSound_empty 8) hrun hdiffer fragment.build_empty
  have hgroups : parse "strftime('%Y', body) = title" = .ok [.comparison .and
      ⟨.call "strftime" [.text "%Y", .identifier "body"], .equal, .identifier "title"⟩] := by
    decide +kernel
  rw [hgroups] at hparse
  obtain rfl := Except.ok.inj hparse
  obtain ⟨left, right, hleaf, ⟨-, hleft⟩, -⟩ := hall 0 _ rfl
  obtain ⟨-, htexts⟩ := hleft _ _ rfl
  obtain ⟨places, bound, hidentifier, hlength, hplace, hbound, -⟩ := htexts 0 "%Y" rfl
  exact ⟨fragment, t, left, right, places, bound, hrun, hrow.trans hleaf, hidentifier, hlength,
    hplace, hbound⟩

/-- The year of a row is looked for in a title: `strftime` is given the escaped format. -/
theorem soughtYear_misformatted :
    parse "title ~ strftime('%Y', body)" = .ok [.comparison .and
        ⟨.identifier "title", .like, .call "strftime" [.text "%Y", .identifier "body"]⟩] ∧
      ∃ fragment t name,
        outcome (compileFilter scatteredContext sampleList.resolver "title ~ strftime('%Y', body)")
          sampleSession = (.ok fragment, t) ∧
        fragment.text = "[[title]] LIKE strftime(" ++ Fragment.paramMarker name ++
          ", [[body]]) ESCAPE '\\'" ∧
        fragment.params.get? name = some (.text "\\%Y") ∧
        fragment.params.get? name ≠ some (.text "%Y") := by
  refine ⟨by decide +kernel, ?_⟩
  have hcompiled : (outcome (compileFilter scatteredContext sampleList.resolver
      "title ~ strftime('%Y', body)") sampleSession).1.toOption.map (fun fragment =>
        (fragment.text, fragment.params.get? (scatteredContext.paramName 0))) =
      some ("[[title]] LIKE strftime(" ++
        Fragment.paramMarker (scatteredContext.paramName 0) ++ ", [[body]]) ESCAPE '\\'",
        some (.text "\\%Y")) := by decide +kernel
  have hok : (outcome (compileFilter scatteredContext sampleList.resolver
      "title ~ strftime('%Y', body)") sampleSession).1.isOk = true := by decide +kernel
  obtain ⟨fragment, t, hrun⟩ := exists_of_isOk hok
  rw [hrun] at hcompiled
  obtain ⟨htext, hget⟩ := Prod.mk.inj (Option.some.inj hcompiled)
  exact ⟨fragment, t, _, hrun, htext, hget, by rw [hget]; decide⟩

end PagedSearch
