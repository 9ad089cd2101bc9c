import PagedSearch.Proofs.Emitted
import PagedSearch.Proofs.Language
import PagedSearch.Proofs.Pieces

/-!
# What comparisons bind

Each text, each number and each name of a time in a comparison is bound under a name of its own.
The names are drawn in the order in which the operands are written, whatever the operator does with
the sides, and the SQL of an operand refers to the values of that operand and to no others.

## Main definitions

* `Context.paramName`, `Context.bindings` — the names in the order in which they are drawn, and
  values under these names.
* `Operand.values`, `Comparator.bound` — the values that are bound, in this order.
* `Resolved.Binds`, `Search.Supplies` — operands that bind given values, and actions that resolve
  to such operands.
* `Fragment.Binds` — fragments with given values.
* `Comparison.IsCompiledTo` — what a compiled comparison looks like.

## Main results

* `resolveOperand_supplies` — what an operand binds.
* `comparisonFragment_binds` — what a comparison makes of it.
* `compileComparison_eq_ok` — comparisons are compiled to what they look like.
-/

namespace PagedSearch

open Reading Search

variable {ω : Type}

/-! ### Lists of values -/

namespace Params

theorem merge_ofList (older newer : List (String × Value)) :
    (ofList older).merge (ofList newer) = ofList (older ++ newer) := by
  simp [ofList, merge]

theorem map_ofList (f : Value → Value) (pairs : List (String × Value)) :
    (ofList pairs).map f = ofList (pairs.map fun (name, value) => (name, f value)) := by
  simp [ofList, map]

theorem isEmpty_ofList (pairs : List (String × Value)) : (ofList pairs).isEmpty = pairs.isEmpty := by
  simp [ofList, isEmpty]

/-- If no name occurs twice, then each value is found under its name. -/
theorem get?_ofList_eq_some {pairs : List (String × Value)} (h : (pairs.map Prod.fst).Nodup)
    {name : String} {value : Value} (hmem : (name, value) ∈ pairs) :
    (ofList pairs).get? name = some value := by
  obtain ⟨before, after, rfl⟩ := List.append_of_mem hmem
  rw [List.map_append, List.map_cons, List.nodup_append, List.nodup_cons] at h
  rw [get?, List.lookup_eq_some_iff]
  -- the newest entry is looked at first, and no entry behind this one has its name
  refine ⟨after.reverse, before.reverse, by simp [ofList], ?_⟩
  intro pair hpair
  rw [bne_iff_ne]
  intro hname
  have hmem' := List.mem_map_of_mem (f := Prod.fst) (List.mem_reverse.mp hpair)
  rw [← hname] at hmem'
  exact h.2.1.1 hmem'

theorem isSome_get?_ofList (pairs : List (String × Value)) (name : String) :
    ((ofList pairs).get? name).isSome = true ↔ name ∈ pairs.map Prod.fst := by
  rw [get?, List.lookup_isSome_iff]
  simp [ofList]

end Params

/-! ### Names in the order in which they are drawn -/

namespace Context

variable (context : Context ω)

/-- The name of a value before which `index` names have been drawn. -/
def paramName (index : Nat) : String :=
  paramStem ++ String.ofList ((context.names index).toList.take 10)

/-- The values under names of which the first is drawn after `start` others. -/
def bindings (start : Nat) : List Value → List (String × Value)
  | [] => []
  | value :: rest => (context.paramName start, value) :: bindings (start + 1) rest

variable {context}

@[simp] theorem bindings_nil (start : Nat) : context.bindings start [] = [] := rfl

@[simp] theorem length_bindings (start : Nat) (values : List Value) :
    (context.bindings start values).length = values.length := by
  induction values generalizing start with
  | nil => rfl
  | cons value rest ih => rw [bindings, List.length_cons, ih, List.length_cons]

theorem bindings_append (start : Nat) (values more : List Value) :
    context.bindings start (values ++ more) =
      context.bindings start values ++ context.bindings (start + values.length) more := by
  induction values generalizing start with
  | nil => rfl
  | cons value rest ih =>
    rw [List.cons_append, bindings, bindings, ih, List.cons_append, List.length_cons,
      Nat.add_right_comm, Nat.add_assoc]

theorem map_bindings (f : Value → Value) (start : Nat) (values : List Value) :
    (context.bindings start values).map (fun (name, value) => (name, f value)) =
      context.bindings start (values.map f) := by
  induction values generalizing start with
  | nil => rfl
  | cons value rest ih =>
    rw [bindings, List.map_cons, ih, List.map_cons, bindings]

theorem map_fst_bindings (start : Nat) (values : List Value) :
    (context.bindings start values).map Prod.fst =
      (List.range' start values.length).map context.paramName := by
  induction values generalizing start with
  | nil => rfl
  | cons value rest ih =>
    rw [bindings, List.map_cons, ih, List.length_cons, List.range'_succ, List.map_cons]

/-- A name that is drawn can stand in a marker. -/
theorem refers_paramName (hnames : context.HasPlainNames) (index : Nat) :
    Refers (Fragment.paramMarker (context.paramName index)).toList [context.paramName index] := by
  refine refers_paramMarker ?_ ?_
  · intro hempty
    have := congrArg String.toList hempty
    simp [paramName, paramStem] at this
  · intro c hc
    have halphanum : c.isAlphanum = true := by
      rw [paramName, String.toList_append, String.toList_ofList] at hc
      rcases List.mem_append.mp hc with hc | hc
      · obtain rfl : c = 'p' := by simpa [paramStem] using hc
        rfl
      · exact hnames index c (List.mem_of_mem_take hc)
    refine ⟨?_, ?_, ?_⟩ <;> rintro rfl <;> exact absurd halphanum (by decide)

end Context

/-! ### What operands bind -/

mutual

/-- The values that an operand binds at an instant, in order. -/
def Operand.values (now : Instant) : Operand → List Value
  | .identifier name => ((TimeName.ofText? name).bind (·.value? now)).toList
  | .text content => [.text content]
  | .number value => [.double value]
  | .call _ arguments => Operand.allValues now arguments

/-- The values that several operands bind. -/
def Operand.allValues (now : Instant) : List Operand → List Value
  | [] => []
  | first :: rest => first.values now ++ Operand.allValues now rest

end

theorem Operand.allValues_eq_flatten (now : Instant) (operands : List Operand) :
    Operand.allValues now operands = (operands.map (·.values now)).flatten := by
  induction operands with
  | nil => rfl
  | cons first rest ih => rw [allValues, ih, List.map_cons, List.flatten_cons]

section Binds

variable (context : Context ω)

/-- An operand whose SQL refers to the given values and to no others, of which the first is bound
under the name drawn after `start` others. -/
structure Resolved.Binds (start : Nat) (values : List Value) (operand : Resolved) : Prop where
  /-- The SQL can be read from its pieces. -/
  composed : Composed operand.identifier.toList
  /-- The values are bound under the names that are drawn one after the other. -/
  params_eq : operand.params = .ofList (context.bindings start values)
  /-- The SQL refers to all of these names and to no others. -/
  mem_placeholders : ∀ name, name ∈ placeholders operand.identifier.toList ↔
    name ∈ (context.bindings start values).map Prod.fst
  /-- There are no related values. -/
  related : operand.related = none
  /-- The comparison is not put into anything. -/
  wrap : operand.wrap = none

/-- An action that draws one name for each of the values, and resolves to an operand that binds
them. -/
def Search.Supplies (values : List Value) (action : Search ω Resolved) : Prop :=
  ∀ s operand t, outcome action s = (.ok operand, t) →
    t.drawn = s.drawn + values.length ∧ operand.Binds context s.drawn values

/-- Operands that bind one list of values each, one behind the other. -/
inductive BindAll : Nat → List (List Value) → List Resolved → Prop where
  /-- No operands. -/
  | nil {start : Nat} : BindAll start [] []
  /-- One more operand. -/
  | cons {start : Nat} {values : List Value} {more : List (List Value)} {first : Resolved}
    {rest : List Resolved} : first.Binds context start values →
      BindAll (start + values.length) more rest → BindAll start (values :: more) (first :: rest)

variable {context}

/-- An operand without values. -/
theorem Resolved.binds_nil {operand : Resolved} (h : Refers operand.identifier.toList [])
    (hparams : operand.params = .empty) (hrelated : operand.related = none)
    (hwrap : operand.wrap = none) (start : Nat) : operand.Binds context start [] where
  composed := h.composed
  params_eq := hparams
  mem_placeholders name := by rw [h.placeholders_eq]; rfl
  related := hrelated
  wrap := hwrap

theorem outcome_bindValue (value : Value) (s : Session ω) :
    outcome (bindValue context value) s =
      (.ok
        { identifier := Fragment.paramMarker (context.paramName s.drawn)
          params := .single (context.paramName s.drawn) value },
        { s with drawn := s.drawn + 1 }) := rfl

theorem bindValue_supplies (hnames : context.HasPlainNames) (value : Value) :
    (bindValue context value).Supplies context [value] := by
  intro s operand t hrun
  rw [outcome_bindValue] at hrun
  obtain ⟨hoperand, rfl⟩ := Prod.mk.inj hrun
  obtain rfl := Except.ok.inj hoperand
  have hrefers := Context.refers_paramName hnames s.drawn
  refine ⟨rfl, hrefers.composed, rfl, fun name => ?_, rfl, rfl⟩
  rw [hrefers.placeholders_eq]
  rfl

namespace BindAll

variable {start : Nat} {values : List (List Value)} {operands : List Resolved}

theorem composed (h : BindAll context start values operands) :
    ∀ operand ∈ operands, Composed operand.identifier.toList := by
  induction h with
  | nil => simp
  | cons hfirst _ ih => exact List.forall_mem_cons.mpr ⟨hfirst.composed, ih⟩

theorem mem_placeholders (h : BindAll context start values operands) (name : String) :
    name ∈ operands.flatMap (fun operand => placeholders operand.identifier.toList) ↔
      name ∈ (context.bindings start values.flatten).map Prod.fst := by
  induction h with
  | nil => rfl
  | cons hfirst _ ih =>
    rw [List.flatMap_cons, List.flatten_cons, Context.bindings_append, List.map_append,
      List.mem_append, List.mem_append, ih, hfirst.mem_placeholders]

theorem foldl_merge (h : BindAll context start values operands) (before : List (String × Value)) :
    (operands.map (·.params)).foldl Params.merge (.ofList before) =
      .ofList (before ++ context.bindings start values.flatten) := by
  induction h generalizing before with
  | nil => simp
  | cons hfirst _ ih =>
    rw [List.map_cons, List.foldl_cons, hfirst.params_eq, Params.merge_ofList, ih,
      List.flatten_cons, Context.bindings_append, List.append_assoc]

theorem paramsOf_eq (h : BindAll context start values operands) :
    paramsOf operands = .ofList (context.bindings start values.flatten) :=
  h.foldl_merge []

end BindAll

/-! ### Functions -/

/-- A function that binds what its arguments bind. -/
def SearchFunction.PassesValues (context : Context ω) (function : SearchFunction ω) : Prop :=
  ∀ arguments values,
    List.Forall₂ (fun argument values => argument.resolve.Supplies context values) arguments
      values → Search.Supplies context values.flatten (function arguments)

theorem resolveChecked_eq_ok (check : Nat → Operand → Option SearchError) (index : Nat)
    {arguments : List (CallArgument ω)} {values : List (List Value)}
    (h : List.Forall₂ (fun argument values => argument.resolve.Supplies context values) arguments
      values) {s t : Session ω} {operands : List Resolved}
    (hrun : outcome (resolveChecked check index arguments) s = (.ok operands, t)) :
    t.drawn = s.drawn + values.flatten.length ∧ BindAll context s.drawn values operands := by
  induction h generalizing index s operands with
  | nil =>
    obtain ⟨rfl, rfl⟩ : [] = operands ∧ s = t := by simpa [resolveChecked] using hrun
    exact ⟨rfl, .nil⟩
  | @cons argument values rest more hfirst _ ih =>
    unfold resolveChecked at hrun
    cases hcheck : check index argument.operand with
    | some error =>
      rw [hcheck] at hrun
      cases (Prod.mk.inj hrun).1
    | none =>
      rw [hcheck] at hrun
      obtain ⟨first, u, hargument, hrun⟩ := outcome_bind_eq_ok.mp hrun
      obtain ⟨others, v, hrest, hrun⟩ := outcome_bind_eq_ok.mp hrun
      obtain ⟨rfl, rfl⟩ : first :: others = operands ∧ v = t := by simpa using hrun
      obtain ⟨hdrawn, hbinds⟩ := hfirst s first u hargument
      obtain ⟨hdrawn', hall⟩ := ih (index + 1) hrest
      rw [hdrawn] at hall
      refine ⟨?_, .cons hbinds hall⟩
      rw [hdrawn', hdrawn, List.flatten_cons, List.length_append, Nat.add_assoc]

theorem refers_radians {text : List Char} {names : List String} (h : Refers text names) :
    Refers (call "RADIANS".toList text) names := by
  have hname : Refers "RADIANS".toList [] := by decide
  exact hname.call h

theorem refers_squaredSine {a b : List Char} {names others : List String} (ha : Refers a names)
    (hb : Refers b others) : Refers (squaredSine a b) (others ++ names) := by
  have hminus : Divides " - ".toList := divides_of_isDividing (by decide)
  have hhalf : Refers " / 2".toList [] := by decide
  have htwo : Refers ", 2".toList [] := by decide
  have hsin : Refers "SIN".toList [] := by decide
  have hpower : Refers "POWER".toList [] := by decide
  have hdifference := ((refers_radians hb).divided hminus (refers_radians ha)).parenthesised
  have hsine := hsin.call (hdifference.append hhalf (.inr ⟨_, _, rfl, rfl⟩))
  have hsquare := hpower.call (hsine.append htwo (.inr ⟨_, _, rfl, rfl⟩))
  rwa [List.append_nil, List.append_nil] at hsquare

theorem refers_haversine {lonA latA lonB latB : String} {a b c d : List String}
    (hlonA : Refers lonA.toList a) (hlatA : Refers latA.toList b) (hlonB : Refers lonB.toList c)
    (hlatB : Refers latB.toList d) :
    Refers (haversine lonA latA lonB latB).toList (d ++ b ++ (b ++ d ++ (c ++ a))) := by
  have htimes : Divides " * ".toList := divides_of_isDividing (by decide)
  have hplus : Divides " + ".toList := divides_of_isDividing (by decide)
  have hradius : Refers "12742 * ".toList [] := by decide
  have hcos : Refers "COS".toList [] := by decide
  have hsqrt : Refers "SQRT".toList [] := by decide
  have hasin : Refers "ASIN".toList [] := by decide
  have hsum := (refers_squaredSine hlatA hlatB).divided hplus
    (((hcos.call (refers_radians hlatA)).divided htimes
      (hcos.call (refers_radians hlatB))).divided htimes (refers_squaredSine hlonA hlonB))
  have hdistance :=
    (hradius.append (hasin.call (hsqrt.call hsum)) (.inl ⟨_, rfl, rfl⟩)).parenthesised
  rw [toList_haversine]
  exact hdistance

theorem geoDistance_passesValues :
    SearchFunction.PassesValues context (geoDistance : SearchFunction ω) := by
  intro arguments values harguments s operand t hrun
  unfold geoDistance at hrun
  dsimp only at hrun
  by_cases hlength : arguments.length ≠ 4
  · rw [if_pos hlength] at hrun
    cases (Prod.mk.inj hrun).1
  · rw [if_neg hlength] at hrun
    obtain ⟨resolved, u, hresolved, hrun⟩ := outcome_bind_eq_ok.mp hrun
    obtain ⟨hdrawn, hall⟩ := resolveChecked_eq_ok _ 0 harguments hresolved
    split at hrun
    · rename_i lonA latA lonB latB
      obtain ⟨hoperand, rfl⟩ := Prod.mk.inj hrun
      obtain rfl := Except.ok.inj hoperand
      have hrefers (one : Resolved) (hone : one ∈ [lonA, latA, lonB, latB]) :
          Refers one.identifier.toList (placeholders one.identifier.toList) :=
        ⟨hall.composed one hone, rfl⟩
      have hdistance := refers_haversine (hrefers lonA (by simp)) (hrefers latA (by simp))
        (hrefers lonB (by simp)) (hrefers latB (by simp))
      refine ⟨hdrawn, hdistance.composed, hall.paramsOf_eq, fun name => ?_, rfl, rfl⟩
      -- The latitudes are written twice and all four in another order, but no other name is there.
      rw [hdistance.placeholders_eq, ← hall.mem_placeholders]
      simp only [List.mem_append, List.flatMap_cons, List.flatMap_nil, List.not_mem_nil]
      tauto
    · cases (Prod.mk.inj hrun).1

theorem strftime_passesValues :
    SearchFunction.PassesValues context (strftime : SearchFunction ω) := by
  intro arguments values harguments s operand t hrun
  unfold strftime at hrun
  split at hrun
  · cases (Prod.mk.inj hrun).1
  · obtain ⟨resolved, u, hresolved, hrun⟩ := outcome_bind_eq_ok.mp hrun
    obtain ⟨hdrawn, hall⟩ := resolveChecked_eq_ok _ 0 harguments hresolved
    obtain ⟨hoperand, rfl⟩ := Prod.mk.inj hrun
    obtain rfl := Except.ok.inj hoperand
    have hcomma : Divides ", ".toList := divides_of_isDividing (by decide)
    have hname : Refers "strftime".toList [] := by decide
    have hcomposed : ∀ text ∈ resolved.map (·.identifier), Composed text.toList := by
      intro text htext
      obtain ⟨one, hone, rfl⟩ := List.mem_map.mp htext
      exact hall.composed one hone
    have hcall := hname.call (refers_intercalate hcomma hcomposed)
    rw [← toList_strftime] at hcall
    refine ⟨hdrawn, hcall.composed, hall.paramsOf_eq, fun name => ?_, rfl, rfl⟩
    rw [hcall.placeholders_eq, List.flatMap_map, ← hall.mem_placeholders]
  · cases (Prod.mk.inj hrun).1

/-! ### Fields -/

/-- A name that a filter can have: it starts with a character that starts names. -/
def IsFieldName (name : String) : Prop :=
  ∃ first more, name.toList = first :: more ∧ Lexing.isIdentifierStart first = true

theorem isNamePart_of_isIdentifierStart {c : Char} (h : Lexing.isIdentifierStart c = true) :
    isNamePart c = true := by
  simp only [Lexing.isIdentifierStart, Bool.or_eq_true, beq_iff_eq] at h
  rcases h with ((h | rfl) | rfl) | rfl
  · have halphanumeric : Text.isAlphanumeric c = true := by
      unfold Text.isAlphabetic at h
      unfold Text.isAlphanumeric
      split
      · rw [if_pos ‹_›] at h
        rw [Char.isAlphanum, h, Bool.true_or]
      · rw [if_neg ‹_›] at h
        rw [h, Bool.true_or]
    rw [isNamePart, halphanumeric, Bool.true_or]
  all_goals decide

theorem not_isBlank_of_isNamePart {c : Char} (h : isNamePart c = true) : Text.isBlank c = false := by
  refine Bool.eq_false_iff.mpr fun hblank => ?_
  have hnot := Lexing.eq_false_of_isBlank (p := isNamePart) (by decide +kernel) hblank
  rw [h] at hnot
  cases hnot

theorem trimChars_sanitisedChars (name : List Char) :
    Text.trimChars (sanitisedChars name) = sanitisedChars name := by
  have hblank : ∀ c ∈ sanitisedChars name, Text.isBlank c = false := fun c hc =>
    not_isBlank_of_isNamePart (List.mem_filter.mp hc).2
  have hkept {text : List Char} (h : ∀ c ∈ text, Text.isBlank c = false) :
      text.dropWhile Text.isBlank = text := by
    cases text with
    | nil => rfl
    | cons c rest => rw [List.dropWhile_cons_of_neg (by simp [h c List.mem_cons_self])]
  rw [Text.trimChars, hkept hblank, hkept (by simpa using hblank), List.reverse_reverse]

theorem refers_sanitised {name : List Char} (h : sanitisedChars name ≠ []) :
    Refers (Fragment.columnMarker (String.ofList (sanitisedChars name))).toList [] := by
  refine refers_columnMarker h (fun c hc => ?_) (trimChars_sanitisedChars name)
  have hpart := (List.mem_filter.mp hc).2
  exact ⟨ne_of_isNamePart hpart (by decide), ne_of_isNamePart hpart (by decide),
    ne_of_isNamePart hpart (by decide)⟩

/-- The column that a field is in has a name. -/
theorem sanitisedChars_ne_nil {field : String} (h : IsFieldName field) {column : List Char}
    {path : List (List Char)} (hsplit : Text.split '.' field.toList = column :: path) :
    sanitisedChars column ≠ [] := by
  obtain ⟨first, more, hfield, hfirst⟩ := h
  have hdot : first ≠ '.' := by
    rintro rfl
    exact absurd hfirst (by decide)
  have hmem : first ∈ column := by
    rw [hfield, Text.split, if_neg hdot] at hsplit
    split at hsplit <;> obtain ⟨rfl, -⟩ := List.cons.inj hsplit <;> exact List.mem_cons_self
  have hkept : first ∈ sanitisedChars column :=
    List.mem_filter.mpr ⟨hmem, isNamePart_of_isIdentifierStart hfirst⟩
  exact List.ne_nil_of_mem hkept

theorem AllowList.fieldSql_binds {field : String} (h : IsFieldName field) (start : Nat) :
    (AllowList.fieldSql field).Binds context start [] := by
  unfold AllowList.fieldSql
  split
  · rename_i hsplit
    exact absurd hsplit (Text.split_ne_nil _ _)
  · rename_i hsplit
    have hcolumn := refers_sanitised (sanitisedChars_ne_nil h hsplit)
    refine Resolved.binds_nil ?_ rfl rfl rfl start
    exact hcolumn
  · rename_i column path _ hsplit
    have hcomma : Divides ", ".toList := divides_of_isDividing (by decide)
    have hpath : '\'' ∉ (String.ofList (AllowList.jsonPath path)).toList := by
      rw [String.toList_ofList]
      exact fun hmem => ne_of_mem_jsonPath (by decide) (by decide) hmem rfl
    have hname : Refers "JSON_EXTRACT".toList [] := by decide
    have hcolumn := refers_sanitised (sanitisedChars_ne_nil h hsplit)
    have hcall := hname.call (hcolumn.divided hcomma (refers_literal hpath))
    refine Resolved.binds_nil ?_ rfl rfl rfl start
    rw [toList_jsonExtract]
    exact hcall

theorem constant?_binds {name sql : String} (h : constant? name = some sql) (start : Nat) :
    (Resolved.ofIdentifier sql).Binds context start [] := by
  refine Resolved.binds_nil ?_ rfl rfl rfl start
  unfold constant? at h
  split at h
  · obtain rfl := Option.some.inj h
    show Refers "NULL".toList []
    decide
  · obtain rfl := Option.some.inj h
    show Refers "1".toList []
    decide
  · obtain rfl := Option.some.inj h
    show Refers "0".toList []
    decide
  · cases h

/-! ### Operands -/

variable {list : AllowList}

theorem AllowList.outcome_resolve (list : AllowList) (name : String) (s : Session ω) :
    outcome (inWorld (list.resolver.resolve name)) s = (list.resolve name, s) := rfl

theorem resolveIdentifier_supplies (hnames : context.HasPlainNames) {name : String}
    (hname : IsFieldName name) :
    (resolveIdentifier context list.resolver name).Supplies context
      ((Operand.identifier name).values context.now) := by
  unfold resolveIdentifier Operand.values
  split
  · rename_i value hvalue
    rw [hvalue]
    exact bindValue_supplies hnames value
  · rename_i hvalue
    rw [hvalue]
    intro s operand t hrun
    rw [outcome_tryCatch, AllowList.outcome_resolve] at hrun
    split at hrun
    · rename_i resolved u hresolve
      obtain ⟨hresolved, rfl⟩ := Prod.mk.inj hresolve
      obtain ⟨hoperand, rfl⟩ := Prod.mk.inj hrun
      obtain rfl := Except.ok.inj hoperand
      unfold AllowList.resolve at hresolved
      split at hresolved
      · obtain rfl := Except.ok.inj hresolved
        exact ⟨rfl, AllowList.fieldSql_binds hname _⟩
      · cases hresolved
    · rename_i error u hresolve
      obtain ⟨-, rfl⟩ := Prod.mk.inj hresolve
      split at hrun
      · rename_i sql hsql
        obtain ⟨hoperand, rfl⟩ := Prod.mk.inj hrun
        obtain rfl := Except.ok.inj hoperand
        exact ⟨rfl, constant?_binds hsql _⟩
      · cases (Prod.mk.inj hrun).1

/-- All fields in the operand have names that a filter can have. -/
def Operand.IsNamed (operand : Operand) : Prop :=
  ∀ name, Lexeme.identifier name ∈ operand.lexemes → IsFieldName name

theorem Operand.mem_laterLexemes {operands : List Operand} {operand : Operand} {lexeme : Lexeme}
    (hmem : operand ∈ operands) (h : lexeme ∈ operand.lexemes) :
    lexeme ∈ Operand.laterLexemes operands := by
  induction operands with
  | nil => cases hmem
  | cons first rest ih =>
    rw [laterLexemes, List.mem_cons, List.mem_append]
    rcases List.mem_cons.mp hmem with rfl | hmem
    · exact .inr (.inl h)
    · exact .inr (.inr (ih hmem))

theorem Operand.IsNamed.of_mem {name : String} {arguments : List Operand} {operand : Operand}
    (h : (Operand.call name arguments).IsNamed) (hmem : operand ∈ arguments) : operand.IsNamed := by
  intro field hfield
  refine h field ?_
  cases arguments with
  | nil => cases hmem
  | cons first rest =>
    rw [Operand.lexemes, List.mem_cons, List.mem_append, List.mem_append]
    rcases List.mem_cons.mp hmem with rfl | hmem
    · exact .inr (.inl (.inl hfield))
    · exact .inr (.inl (.inr (Operand.mem_laterLexemes hmem hfield)))

theorem Functions.call_supplies (hfunctions : context.functions = .standard) (name : String)
    {arguments : List (CallArgument ω)} {values : List (List Value)}
    (h : List.Forall₂ (fun argument values => argument.resolve.Supplies context values) arguments
      values) :
    Search.Supplies context values.flatten (context.functions.call name arguments) := by
  rw [hfunctions]
  unfold Functions.call
  cases hget : (Functions.standard : Functions ω).get? name with
  | none =>
    intro s operand t hrun
    cases (Prod.mk.inj hrun).1
  | some function =>
    rcases Functions.eq_of_get?_standard hget with rfl | rfl
    · exact strftime_passesValues arguments values h
    · exact geoDistance_passesValues arguments values h

mutual

/-- An operand binds the values in it, each under a name of its own. -/
theorem resolveOperand_supplies (hnames : context.HasPlainNames)
    (hfunctions : context.functions = .standard) (operand : Operand) (hoperand : operand.IsNamed) :
    (resolveOperand context list.resolver operand).Supplies context
      (operand.values context.now) := by
  match operand with
  | .identifier name =>
    rw [resolveOperand]
    exact resolveIdentifier_supplies hnames (hoperand name (by simp [Operand.lexemes]))
  | .text content =>
    rw [resolveOperand]
    exact bindValue_supplies hnames _
  | .number value =>
    rw [resolveOperand]
    exact bindValue_supplies hnames _
  | .call name arguments =>
    have harguments := callArguments_supply hnames hfunctions arguments fun _ => hoperand.of_mem
    rw [resolveOperand, Operand.values, Operand.allValues_eq_flatten]
    exact Functions.call_supplies hfunctions name harguments

theorem callArguments_supply (hnames : context.HasPlainNames)
    (hfunctions : context.functions = .standard) (operands : List Operand)
    (hoperands : ∀ operand ∈ operands, operand.IsNamed) :
    List.Forall₂ (fun argument values => argument.resolve.Supplies context values)
      (callArguments context list.resolver operands)
      (operands.map (·.values context.now)) := by
  match operands with
  | [] => exact .nil
  | operand :: rest =>
    obtain ⟨hfirst, hrest⟩ := List.forall_mem_cons.mp hoperands
    rw [callArguments]
    exact .cons (resolveOperand_supplies hnames hfunctions operand hfirst)
      (callArguments_supply hnames hfunctions rest hrest)

end

/-- The value of a text or a number. -/
def Operand.ownValue? : Operand → Option Value
  | .text content => some (.text content)
  | .number value => some (.double value)
  | _ => none

variable (context) in
/-- What an operand stands for whose first value is bound under the name drawn after `start`
others. -/
structure Resolved.StandsFor (start : Nat) (operand : Operand) (resolved : Resolved) : Prop where
  /-- It binds the values of the operand. -/
  binds : resolved.Binds context start (operand.values context.now)
  /-- A text or a number is nothing but the place of its value. -/
  place : operand.ownValue?.isSome = true →
    resolved.identifier = Fragment.paramMarker (context.paramName start)

theorem resolveOperand_eq_ok (hnames : context.HasPlainNames)
    (hfunctions : context.functions = .standard) {operand : Operand} (hoperand : operand.IsNamed)
    {s t : Session ω} {resolved : Resolved}
    (hrun : outcome (resolveOperand context list.resolver operand) s = (.ok resolved, t)) :
    t.drawn = s.drawn + (operand.values context.now).length ∧
      resolved.StandsFor context s.drawn operand := by
  obtain ⟨hdrawn, hbinds⟩ :=
    resolveOperand_supplies hnames hfunctions operand hoperand s resolved t hrun
  refine ⟨hdrawn, hbinds, fun hown => ?_⟩
  cases operand with
  | identifier name => cases hown
  | call name arguments => cases hown
  | text content | number value =>
    rw [resolveOperand, outcome_bindValue] at hrun
    rw [← Except.ok.inj (Prod.mk.inj hrun).1]

/-- A side of a comparison stands for what its operand does; only an empty text is refused. -/
theorem outcome_resolveOperand_of_side {resolver : Resolver ω} {side : Side} {operand : Operand}
    {s t : Session ω} {resolved : Resolved}
    (hrun : outcome (resolveSide context resolver side operand) s = (.ok resolved, t)) :
    outcome (resolveOperand context resolver operand) s = (.ok resolved, t) := by
  unfold resolveSide at hrun
  obtain ⟨found, u, hfound, hrun⟩ := outcome_bind_eq_ok.mp hrun
  split at hrun
  · cases (Prod.mk.inj hrun).1
  · obtain ⟨rfl, rfl⟩ : found = resolved ∧ u = t := by simpa using hrun
    exact outcome_explain_eq_ok.mp hfound

end Binds

/-! ### Comparisons -/

/-- How a comparison uses the values of an operand. -/
inductive Use where
  /-- As they are. -/
  | plain
  /-- As a pattern, in which no character is to be a wildcard. -/
  | pattern
  deriving DecidableEq

/-- What is bound for a value that is used in the given way. -/
def Use.apply : Use → Value → Value
  | plain, value => value
  | pattern, value => value.escapeLike

/-- How an operator uses the values on its left, `right` being those on its right. -/
def Comparator.leftUse (comparator : Comparator) (right : List Value) : Use :=
  if comparator = .notLike ∧ right = [] then .pattern else .plain

/-- How an operator uses the values on its right. -/
def Comparator.rightUse (comparator : Comparator) : Use :=
  if comparator = .like ∨ comparator = .notLike then .pattern else .plain

/-- The values that a comparison binds, given those of its sides. -/
def Comparator.bound (comparator : Comparator) (left right : List Value) : List Value :=
  left.map (comparator.leftUse right).apply ++ right.map comparator.rightUse.apply

/-- A fragment with a text, which refers to the given values and to no others. -/
structure Fragment.Binds (pairs : List (String × Value)) (fragment : Fragment) : Prop where
  /-- There is a text. -/
  ne_empty : fragment.text ≠ ""
  /-- The text can be read from its pieces. -/
  composed : Composed fragment.text.toList
  /-- These are the values. -/
  params_eq : fragment.params = .ofList pairs
  /-- The text refers to all of them and to no others. -/
  mem_placeholders : ∀ name, name ∈ placeholders fragment.text.toList ↔ name ∈ pairs.map Prod.fst

section Comparisons

variable {context : Context ω} {left right : Resolved} {start : Nat}
  {leftValues rightValues : List Value}

/-- A fragment whose text is that of two operands, each perhaps within a text of its own, with a
text between them. -/
theorem Fragment.binds_of_divided {fragment : Fragment} {pairs : List (String × Value)}
    {first middle second : List Char} {names others : List String}
    (htext : fragment.text.toList = first ++ (middle ++ second)) (hfirst : Refers first names)
    (hmiddle : Divides middle) (hsecond : Refers second others)
    (hparams : fragment.params = .ofList pairs)
    (hnames : ∀ name, name ∈ names ∨ name ∈ others ↔ name ∈ pairs.map Prod.fst) :
    fragment.Binds pairs := by
  have hrefers := hfirst.divided hmiddle hsecond
  rw [← htext] at hrefers
  refine ⟨?_, hrefers.composed, hparams, fun name => ?_⟩
  · intro hempty
    obtain ⟨c, rest, rfl, -⟩ := hmiddle.starts
    rw [hempty] at htext
    simp at htext
  · rw [hrefers.placeholders_eq, List.mem_append, hnames]

theorem refers_coalesce {text : String} {names : List String} (h : Refers text.toList names) :
    Refers ("COALESCE(" ++ text ++ ", '')").toList names := by
  have hdefault : Refers ", ''".toList [] := by decide
  have hname : Refers "COALESCE".toList [] := by decide
  have hcall := hname.call (h.append hdefault (.inr ⟨_, _, rfl, rfl⟩))
  rw [toList_coalesce]
  rwa [List.append_nil] at hcall

theorem refers_wildcards {text : String} {names : List String} (h : Refers text.toList names) :
    Refers ("('%' || " ++ text ++ " || '%')").toList names := by
  have hbefore : Refers "'%' || ".toList [] := by decide
  have hafter : Refers " || '%'".toList [] := by decide
  have hinside := (hbefore.append (h.append hafter (.inr ⟨_, _, rfl, rfl⟩))
    (.inl ⟨_, rfl, rfl⟩)).parenthesised
  rw [toList_wildcards]
  rwa [List.append_nil] at hinside

theorem Resolved.Binds.refers {operand : Resolved} {values : List Value}
    (h : operand.Binds context start values) :
    Refers operand.identifier.toList (placeholders operand.identifier.toList) :=
  ⟨h.composed, rfl⟩

/-- The names of two operands are those of all their values, however these are changed. -/
theorem Resolved.Binds.mem_placeholders_or (hleft : left.Binds context start leftValues)
    (hright : right.Binds context (start + leftValues.length) rightValues) (f g : Value → Value)
    (name : String) :
    name ∈ placeholders left.identifier.toList ∨ name ∈ placeholders right.identifier.toList ↔
      name ∈ (context.bindings start (leftValues.map f ++ rightValues.map g)).map Prod.fst := by
  rw [hleft.mem_placeholders, hright.mem_placeholders, ← List.mem_append, ← List.map_append,
    ← Context.bindings_append, Context.map_fst_bindings, Context.map_fst_bindings]
  simp

theorem Resolved.Binds.merge_params (hleft : left.Binds context start leftValues)
    (hright : right.Binds context (start + leftValues.length) rightValues) :
    left.params.merge right.params =
      .ofList (context.bindings start (leftValues ++ rightValues)) := by
  rw [hleft.params_eq, hright.params_eq, Params.merge_ofList, Context.bindings_append]

theorem Resolved.Binds.isEmpty_params {operand : Resolved} {values : List Value}
    (h : operand.Binds context start values) : operand.params.isEmpty = values.isEmpty := by
  rw [h.params_eq, Params.isEmpty_ofList]
  cases values <;> rfl

/-- The operators that use all values as they are. -/
theorem Comparator.bound_of_plain {comparator : Comparator} (hlike : comparator ≠ .like)
    (hnotLike : comparator ≠ .notLike) (leftValues rightValues : List Value) :
    comparator.bound leftValues rightValues = leftValues ++ rightValues := by
  have happly : Use.plain.apply = id := rfl
  simp [bound, leftUse, rightUse, hlike, hnotLike, happly]

theorem equalityFragment_binds (negated : Bool) (hleft : left.Binds context start leftValues)
    (hright : right.Binds context (start + leftValues.length) rightValues) :
    (equalityFragment negated left right).Binds
      (context.bindings start (leftValues ++ rightValues)) := by
  have hparams := hleft.merge_params hright
  have hmem := hleft.mem_placeholders_or hright id id
  rw [List.map_id, List.map_id] at hmem
  by_cases hnulls : comparesNulls left right = true
  · have hmiddle : Divides (if negated then " IS NOT " else " IS ").toList := by
      cases negated <;> exact divides_of_isDividing (by decide)
    refine Fragment.binds_of_divided ?_ hleft.refers hmiddle hright.refers hparams hmem
    simp [equalityFragment, hnulls, Fragment.text]
  · have hmiddle : Divides (if negated then " != " else " = ").toList := by
      cases negated <;> exact divides_of_isDividing (by decide)
    refine Fragment.binds_of_divided ?_ (refers_coalesce hleft.refers) hmiddle
      (refers_coalesce hright.refers) hparams hmem
    simp [equalityFragment, hnulls, Fragment.text]

theorem orderFragment_binds (comparator : Comparator)
    (hleft : left.Binds context start leftValues)
    (hright : right.Binds context (start + leftValues.length) rightValues) :
    (orderFragment comparator.symbol left right).Binds
      (context.bindings start (leftValues ++ rightValues)) := by
  have hmem := hleft.mem_placeholders_or hright id id
  rw [List.map_id, List.map_id] at hmem
  have hmiddle : Divides (" " ++ comparator.symbol ++ " ").toList := by
    cases comparator <;> exact divides_of_isDividing (by decide)
  refine Fragment.binds_of_divided ?_ hleft.refers hmiddle hright.refers
    (hleft.merge_params hright) hmem
  simp [orderFragment, Fragment.text]

/-- The values of a pattern are changed where they are bound, so a pattern without values leaves
those of its subject. -/
theorem likeText_binds {subject pattern : Resolved} (negated : Bool)
    {pairs : List (String × Value)} (hsubject : Composed subject.identifier.toList)
    (hpattern : Composed pattern.identifier.toList)
    (hparams : subject.params.merge (pattern.params.map Value.escapeLike) = .ofList pairs)
    (hnames : ∀ name, name ∈ placeholders subject.identifier.toList ∨
      name ∈ placeholders pattern.identifier.toList ↔ name ∈ pairs.map Prod.fst) :
    Fragment.Binds pairs
      (if pattern.params.isEmpty then
        .raw (subject.identifier ++ (if negated then " NOT LIKE " else " LIKE ") ++
          "('%' || " ++ pattern.identifier ++ " || '%')" ++ likeEscape) subject.params
      else
        .raw (subject.identifier ++ (if negated then " NOT LIKE " else " LIKE ") ++
          pattern.identifier ++ likeEscape)
          (subject.params.merge (pattern.params.map Value.escapeLike))) := by
  have hmiddle : Divides (if negated then " NOT LIKE " else " LIKE ").toList := by
    cases negated <;> exact divides_of_isDividing (by decide)
  have hescape : Refers likeEscape.toList [] := by decide
  have hends : StartsApart likeEscape.toList := ⟨_, _, rfl, rfl⟩
  have hpattern' : Refers pattern.identifier.toList (placeholders pattern.identifier.toList) :=
    ⟨hpattern, rfl⟩
  split
  · rename_i hempty
    rw [Params.isEmpty_iff.mp hempty] at hparams
    refine Fragment.binds_of_divided ?_ ⟨hsubject, rfl⟩ hmiddle
      ((refers_wildcards hpattern').append hescape (.inr hends)) hparams (by simpa using hnames)
    simp [Fragment.text]
  · refine Fragment.binds_of_divided ?_ ⟨hsubject, rfl⟩ hmiddle
      (hpattern'.append hescape (.inr hends)) hparams (by simpa using hnames)
    simp [Fragment.text]

theorem likeFragment_binds (negated : Bool) (hleft : left.Binds context start leftValues)
    (hright : right.Binds context (start + leftValues.length) rightValues) :
    (likeFragment negated left right).Binds
      (context.bindings start
        ((if negated then Comparator.notLike else .like).bound leftValues rightValues)) := by
  have hmem := hleft.mem_placeholders_or hright
  unfold likeFragment
  rw [hleft.isEmpty_params, hright.isEmpty_params]
  by_cases hswap : (negated && !leftValues.isEmpty && rightValues.isEmpty) = true
  · -- The sides change places, and there are no values on the right.
    rw [if_pos hswap]
    simp only [Bool.and_eq_true, Bool.not_eq_true', List.isEmpty_iff] at hswap
    obtain ⟨⟨rfl, -⟩, rfl⟩ := hswap
    have hbound : Comparator.notLike.bound leftValues [] = leftValues.map Value.escapeLike := by
      rw [Comparator.bound, List.map_nil, List.append_nil]
      rfl
    rw [if_pos rfl, hbound]
    refine likeText_binds true hright.composed hleft.composed ?_ fun name => ?_
    · rw [hright.params_eq, hleft.params_eq, Params.map_ofList, Context.map_bindings,
        Params.merge_ofList]
      rfl
    · have hname := hmem Value.escapeLike id name
      rw [List.map_nil, List.append_nil] at hname
      rw [or_comm, hname]
  · rw [if_neg hswap]
    have hbound : (if negated then Comparator.notLike else .like).bound leftValues rightValues =
        leftValues.map id ++ rightValues.map Value.escapeLike := by
      cases negated with
      | false => rfl
      | true =>
        -- A left side that would be the pattern, but has no values, is not changed either.
        cases rightValues with
        | nil =>
          cases leftValues with
          | nil => rfl
          | cons value rest => simp at hswap
        | cons value rest => rfl
    rw [hbound]
    refine likeText_binds negated hleft.composed hright.composed ?_ (hmem id Value.escapeLike)
    rw [hleft.params_eq, hright.params_eq, Params.map_ofList, Context.map_bindings,
      Params.merge_ofList, List.map_id, Context.bindings_append]

/-- A comparison binds the values of its sides, those of a pattern without wildcards. -/
theorem comparisonFragment_binds (comparator : Comparator)
    (hleft : left.Binds context start leftValues)
    (hright : right.Binds context (start + leftValues.length) rightValues) :
    (comparisonFragment left comparator right).Binds
      (context.bindings start (comparator.bound leftValues rightValues)) := by
  have hplain (hlike : comparator ≠ .like) (hnotLike : comparator ≠ .notLike) :=
    Comparator.bound_of_plain hlike hnotLike leftValues rightValues
  cases comparator with
  | like => exact likeFragment_binds false hleft hright
  | notLike => exact likeFragment_binds true hleft hright
  | equal =>
    rw [hplain nofun nofun]
    exact equalityFragment_binds false hleft hright
  | notEqual =>
    rw [hplain nofun nofun]
    exact equalityFragment_binds true hleft hright
  | less =>
    rw [hplain nofun nofun]
    exact orderFragment_binds .less hleft hright
  | lessEqual =>
    rw [hplain nofun nofun]
    exact orderFragment_binds .lessEqual hleft hright
  | greater =>
    rw [hplain nofun nofun]
    exact orderFragment_binds .greater hleft hright
  | greaterEqual =>
    rw [hplain nofun nofun]
    exact orderFragment_binds .greaterEqual hleft hright

/-- A comparison whose fields have names that a filter can have. -/
structure Comparison.IsNamed (c : Comparison) : Prop where
  /-- The left side. -/
  left : c.left.IsNamed
  /-- The right side. -/
  right : c.right.IsNamed

variable (context) in
/-- **What a compiled comparison looks like** whose first value is bound under the name drawn after
`start` others: two operands, one with the values behind those of the other, put together as the
operator says. -/
def Comparison.IsCompiledTo (start : Nat) (c : Comparison) (fragment : Fragment) : Prop :=
  ∃ left right, left.StandsFor context start c.left ∧
    right.StandsFor context (start + (c.left.values context.now).length) c.right ∧
    fragment = comparisonFragment left c.comparator right

theorem Comparison.IsCompiledTo.binds {c : Comparison} {fragment : Fragment}
    (h : c.IsCompiledTo context start fragment) :
    fragment.Binds (context.bindings start
      (c.comparator.bound (c.left.values context.now) (c.right.values context.now))) := by
  obtain ⟨left, right, hleft, hright, rfl⟩ := h
  exact comparisonFragment_binds c.comparator hleft.binds hright.binds

theorem Resolved.Binds.outcome_compare {start' : Nat} (hleft : left.Binds context start leftValues)
    (hright : right.Binds context start' rightValues) (comparator : Comparator) (s : Session ω) :
    outcome (compare context left comparator right) s =
      (.ok (comparisonFragment left comparator right), s) := by
  rw [compare_eq_pure ⟨hleft.related, hleft.wrap⟩ ⟨hright.related, hright.wrap⟩, outcome_pure]

theorem compileComparison_eq_ok {list : AllowList} (hnames : context.HasPlainNames)
    (hfunctions : context.functions = .standard) {c : Comparison} (hc : c.IsNamed)
    {s t : Session ω} {fragment : Fragment}
    (hrun : outcome (compileComparison context list.resolver c) s = (.ok fragment, t)) :
    t.drawn = s.drawn + (c.left.values context.now).length +
        (c.right.values context.now).length ∧
      c.IsCompiledTo context s.drawn fragment := by
  unfold compileComparison at hrun
  obtain ⟨left, u, hleft, hrun⟩ := outcome_bind_eq_ok.mp hrun
  obtain ⟨right, v, hright, hrun⟩ := outcome_bind_eq_ok.mp hrun
  obtain ⟨hdrawn, hleft⟩ :=
    resolveOperand_eq_ok hnames hfunctions hc.left (outcome_resolveOperand_of_side hleft)
  obtain ⟨hdrawn', hright⟩ :=
    resolveOperand_eq_ok hnames hfunctions hc.right (outcome_resolveOperand_of_side hright)
  rw [hleft.binds.outcome_compare hright.binds] at hrun
  obtain ⟨hfragment, rfl⟩ := Prod.mk.inj hrun
  rw [hdrawn] at hdrawn' hright
  exact ⟨hdrawn', left, right, hleft, hright, (Except.ok.inj hfragment).symm⟩

end Comparisons

end PagedSearch
