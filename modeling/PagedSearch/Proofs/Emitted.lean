import PagedSearch.Compile.Filter
import PagedSearch.Field.AllowList
import PagedSearch.Proofs.Closed
import PagedSearch.Proofs.Runs
import PagedSearch.Search.Names

/-!
# What comparisons are compiled to is closed

Names of bound values, columns and paths have no character that closes the marker or the quotes they
stand in, and comparisons and functions put closed operands into closed texts.  So if fields and
functions stand for closed texts, comparisons do.

## Main definitions

* `Context.HasPlainNames` — the names that can be drawn have only letters and digits.
* `Resolved.IsPlain`, `Resolver.IsPlain`, `Functions.ArePlain` — operands, resolvers and functions
  whose SQL is closed.
* `Context.Provides` — a property that operands have since what they are made of has it.

## Main results

* `standard_arePlain` — the functions that every filter can call keep texts closed.
* `AllowList.resolver_isPlain` — so do allow-lists, whatever the client writes.
* `compileComparison_ensures` — comparisons are compiled to closed texts.
-/

namespace PagedSearch

open Reading

variable {ω : Type} {I : ω → Prop}

/-- An operand whose SQL can be read by itself, and which leaves its comparison as it is. -/
structure Resolved.IsPlain (operand : Resolved) : Prop where
  /-- The expression can be read by itself. -/
  identifier : (readCondition operand.identifier).isSome = true
  /-- So can the selection of related values. -/
  related : ∀ selection, operand.related = some selection →
    (readCondition selection.text).isSome = true
  /-- The comparison is not put into anything. -/
  wrap : operand.wrap = none

theorem Resolved.IsPlain.closed {operand : Resolved} (h : operand.IsPlain) :
    Closed operand.identifier.toList :=
  isSome_readCondition.mp h.identifier

theorem Resolved.isPlain_of_closed {operand : Resolved} (h : Closed operand.identifier.toList)
    (hrelated : operand.related = none) (hwrap : operand.wrap = none) : operand.IsPlain := by
  refine ⟨isSome_readCondition.mpr h, ?_, hwrap⟩
  intro selection hselection
  rw [hrelated] at hselection
  cases hselection

/-! ### Comparisons -/

theorem toList_coalesce (text : String) : ("COALESCE(" ++ text ++ ", '')").toList =
    call "COALESCE".toList (text.toList ++ ", ''".toList) := by
  simp [call]

/-- A text that is put into `COALESCE`. -/
theorem settled_coalesce {text : String} (h : Closed text.toList) :
    Settled ("COALESCE(" ++ text ++ ", '')").toList := by
  have hdefault : Separates ", ''".toList := separates_of_isSeparating rfl
  have hname : Closed "COALESCE".toList := isSome_readCondition.mp rfl
  have hcall := hname.call (h.append hdefault).closed
  rw [toList_coalesce]
  exact hcall

variable {left right : Resolved}

theorem equalityFragment_isReadable (negated : Bool) (hleft : Closed left.identifier.toList)
    (hright : Closed right.identifier.toList) :
    (equalityFragment negated left right).IsReadable := by
  by_cases hnulls : comparesNulls left right = true
  · have hmiddle : Separates (if negated then " IS NOT " else " IS ").toList := by
      cases negated <;> exact separates_of_isSeparating rfl
    refine Fragment.isReadable_of_separated ?_ hleft hmiddle hright
    simp [equalityFragment, hnulls, Fragment.text]
  · have hmiddle : Separates (if negated then " != " else " = ").toList := by
      cases negated <;> exact separates_of_isSeparating rfl
    refine Fragment.isReadable_of_separated ?_ (settled_coalesce hleft).closed hmiddle
      (settled_coalesce hright).closed
    simp [equalityFragment, hnulls, Fragment.text]

theorem toList_wildcards (text : String) : ("('%' || " ++ text ++ " || '%')").toList =
    '(' :: ("'%' || ".toList ++ (text.toList ++ " || '%'".toList) ++ [')']) := by
  simp

/-- A column that is looked for within a text. -/
theorem settled_wildcards {text : String} (h : Closed text.toList) :
    Settled ("('%' || " ++ text ++ " || '%')").toList := by
  have hbefore : Settled "'%' || ".toList := settled_of_isSettled rfl
  have hafter : Separates " || '%'".toList := separates_of_isSeparating rfl
  have hinside := (hbefore.append_closed (h.append hafter).closed).parenthesised
  rw [toList_wildcards]
  exact hinside

theorem likeFragment_isReadable (negated : Bool) (hleft : Closed left.identifier.toList)
    (hright : Closed right.identifier.toList) : (likeFragment negated left right).IsReadable := by
  have hmiddle : Separates (if negated then " NOT LIKE " else " LIKE ").toList := by
    cases negated <;> exact separates_of_isSeparating rfl
  have hescape : Separates likeEscape.toList := separates_of_isSeparating rfl
  -- The sides may change places, so neither is taken for the pattern here.
  have key (subject pattern : Resolved) (hsubject : Closed subject.identifier.toList)
      (hpattern : Closed pattern.identifier.toList) :
      Fragment.IsReadable
        (if pattern.params.isEmpty then
          .raw (subject.identifier ++ (if negated then " NOT LIKE " else " LIKE ") ++
            "('%' || " ++ pattern.identifier ++ " || '%')" ++ likeEscape) subject.params
        else
          .raw (subject.identifier ++ (if negated then " NOT LIKE " else " LIKE ") ++
            pattern.identifier ++ likeEscape)
            (subject.params.merge (pattern.params.map Value.escapeLike))) := by
    split
    · refine Fragment.isReadable_of_separated ?_ hsubject hmiddle
        ((settled_wildcards hpattern).closed.append hescape).closed
      simp [Fragment.text]
    · refine Fragment.isReadable_of_separated ?_ hsubject hmiddle (hpattern.append hescape).closed
      simp [Fragment.text]
  unfold likeFragment
  split
  rename_i subject pattern hsides
  split at hsides
  · obtain ⟨rfl, rfl⟩ := Prod.mk.inj hsides
    exact key right left hright hleft
  · obtain ⟨rfl, rfl⟩ := Prod.mk.inj hsides
    exact key left right hleft hright

theorem orderFragment_isReadable (comparator : Comparator)
    (hleft : Closed left.identifier.toList) (hright : Closed right.identifier.toList) :
    (orderFragment comparator.symbol left right).IsReadable := by
  have hmiddle : Separates (" " ++ comparator.symbol ++ " ").toList := by
    cases comparator <;> exact separates_of_isSeparating rfl
  refine Fragment.isReadable_of_separated ?_ hleft hmiddle hright
  simp [orderFragment, Fragment.text]

theorem comparisonFragment_isReadable (comparator : Comparator)
    (hleft : Closed left.identifier.toList) (hright : Closed right.identifier.toList) :
    (comparisonFragment left comparator right).IsReadable := by
  cases comparator with
  | equal => exact equalityFragment_isReadable false hleft hright
  | notEqual => exact equalityFragment_isReadable true hleft hright
  | like => exact likeFragment_isReadable false hleft hright
  | notLike => exact likeFragment_isReadable true hleft hright
  | less => exact orderFragment_isReadable .less hleft hright
  | lessEqual => exact orderFragment_isReadable .lessEqual hleft hright
  | greater => exact orderFragment_isReadable .greater hleft hright
  | greaterEqual => exact orderFragment_isReadable .greaterEqual hleft hright

/-! ### Names -/

/-- The names that can be drawn have only letters and digits. -/
def Context.HasPlainNames (context : Context ω) : Prop :=
  ∀ index, ∀ c ∈ (context.names index).toList, c.isAlphanum = true

theorem isAlphanum_of_mem_hexDigits {n : Nat} {c : Char} (h : c ∈ Text.hexDigits n) :
    c.isAlphanum = true := by
  have hdigit : ∀ digit < 16, (Nat.digitChar digit).isAlphanum = true := by decide
  unfold Text.hexDigits at h
  induction n using Nat.strongRecOn with
  | _ n ih =>
    rw [Nat.toDigits_eq_if (by decide)] at h
    split at h
    · rename_i hlt
      rw [List.mem_singleton.mp h]
      exact hdigit n hlt
    · rename_i hge
      rcases List.mem_append.mp h with h | h
      · exact ih (n / 16) (by omega) h
      · rw [List.mem_singleton.mp h]
        exact hdigit _ (Nat.mod_lt _ (by decide))

theorem Context.hasPlainNames_scattered {context : Context ω} {seed : Nat}
    (h : context.names = scatteredNames seed) : context.HasPlainNames := by
  intro index c hc
  rw [h, scatteredNames, nameOfCode, String.toList_ofList] at hc
  rcases List.mem_append.mp hc with hc | hc
  · rw [List.eq_of_mem_replicate hc]
    decide
  · exact isAlphanum_of_mem_hexDigits hc

/-- The names that are drawn are words. -/
theorem draw_ensures {context : Context ω} (hnames : context.HasPlainNames) {stem : String}
    (hstem : stem.toList.all isWordPart = true) (length : Nat) :
    (Search.draw context.names stem length : Search ω String).Ensures I
      fun name => ∀ c ∈ name.toList, isWordPart c = true := by
  intro s hs
  refine ⟨hs, ?_⟩
  rintro name hname c hc
  obtain rfl := Except.ok.inj hname
  rw [String.toList_append, String.toList_ofList] at hc
  rcases List.mem_append.mp hc with hc | hc
  · exact List.all_eq_true.mp hstem c hc
  · have halphanum := hnames s.drawn c (List.mem_of_mem_take hc)
    simp [isWordPart, halphanum]

theorem bindValue_ensures {context : Context ω} (hnames : context.HasPlainNames) (value : Value) :
    (bindValue context value).Ensures I Resolved.IsPlain := by
  refine (draw_ensures hnames rfl 10).bind fun name hname => Search.Ensures.pure ?_
  refine Resolved.isPlain_of_closed (settled_paramMarker ?_).closed rfl rfl
  rintro c hc rfl
  exact absurd (hname _ hc) (by decide)

/-! ### Functions -/

/-- A function that keeps the property `I` of the world, and whose results are plain, if its
arguments do and are. -/
def SearchFunction.IsPlain (I : ω → Prop) (function : SearchFunction ω) : Prop :=
  ∀ arguments, (∀ argument ∈ arguments, argument.resolve.Ensures I Resolved.IsPlain) →
    Search.Ensures I Resolved.IsPlain (function arguments)

/-- Functions that keep the property `I` of the world, and whose results are plain, if their
arguments do and are. -/
def Functions.ArePlain (I : ω → Prop) (functions : Functions ω) : Prop :=
  ∀ name function, functions.get? name = some function → SearchFunction.IsPlain I function

theorem resolveChecked_ensures {P : Resolved → Prop} (check : Nat → Operand → Option SearchError)
    (index : Nat) {arguments : List (CallArgument ω)}
    (h : ∀ argument ∈ arguments, argument.resolve.Ensures I P) :
    (resolveChecked check index arguments).Ensures I fun results =>
      ∀ operand ∈ results, P operand := by
  induction arguments generalizing index with
  | nil => exact .pure (by simp)
  | cons argument rest ih =>
    unfold resolveChecked
    cases check index argument.operand with
    | some error => exact .throw _
    | none =>
      refine (h argument List.mem_cons_self).bind fun operand hoperand => ?_
      refine (ih (index + 1) fun other hother => h other (List.mem_cons_of_mem _ hother)).bind ?_
      exact fun results hresults => .pure (List.forall_mem_cons.mpr ⟨hoperand, hresults⟩)

theorem settled_radians {text : List Char} (h : Closed text) :
    Settled (call "RADIANS".toList text) :=
  Closed.call (isSome_readCondition.mp rfl) h

/-- The square of the sine of half the difference of two angles. -/
def squaredSine (a b : List Char) : List Char :=
  call "POWER".toList (call "SIN".toList ('(' :: (call "RADIANS".toList b ++
    (" - ".toList ++ call "RADIANS".toList a) ++ [')']) ++ " / 2".toList) ++ ", 2".toList)

theorem settled_squaredSine {a b : List Char} (ha : Closed a) (hb : Closed b) :
    Settled (squaredSine a b) := by
  have hminus : Separates " - ".toList := separates_of_isSeparating rfl
  have hhalf : Closed " / 2".toList := isSome_readCondition.mp rfl
  have htwo : Closed ", 2".toList := isSome_readCondition.mp rfl
  have hsin : Closed "SIN".toList := isSome_readCondition.mp rfl
  have hpower : Closed "POWER".toList := isSome_readCondition.mp rfl
  have hdifference := (settled_radians hb).closed.separated hminus (settled_radians ha).closed
  have hangle := hdifference.parenthesised.closed.append_closed ⟨_, _, rfl, rfl⟩ hhalf
  exact hpower.call ((hsin.call hangle).closed.append_closed ⟨_, _, rfl, rfl⟩ htwo)

/-- The distance is put together from two squares, their sum, and calls around it. -/
theorem toList_haversine (lonA latA lonB latB : String) : (haversine lonA latA lonB latB).toList =
    '(' :: ("12742 * ".toList ++ call "ASIN".toList (call "SQRT".toList
      (squaredSine latA.toList latB.toList ++ (" + ".toList ++
        ((call "COS".toList (call "RADIANS".toList latA.toList) ++ (" * ".toList ++
          call "COS".toList (call "RADIANS".toList latB.toList))) ++
          (" * ".toList ++ squaredSine lonA.toList lonB.toList))))) ++ [')']) := by
  unfold haversine
  simp [squaredSine, call]

theorem closed_haversine {lonA latA lonB latB : String} (hlonA : Closed lonA.toList)
    (hlatA : Closed latA.toList) (hlonB : Closed lonB.toList) (hlatB : Closed latB.toList) :
    Closed (haversine lonA latA lonB latB).toList := by
  have htimes : Separates " * ".toList := separates_of_isSeparating rfl
  have hplus : Separates " + ".toList := separates_of_isSeparating rfl
  have hradius : Settled "12742 * ".toList := settled_of_isSettled rfl
  have hcos : Closed "COS".toList := isSome_readCondition.mp rfl
  have hsqrt : Closed "SQRT".toList := isSome_readCondition.mp rfl
  have hasin : Closed "ASIN".toList := isSome_readCondition.mp rfl
  have hcosines := (hcos.call (settled_radians hlatA).closed).closed.separated htimes
    (hcos.call (settled_radians hlatB).closed).closed
  have hsum := (settled_squaredSine hlatA hlatB).closed.separated hplus
    (hcosines.separated htimes (settled_squaredSine hlonA hlonB).closed)
  have hdistance := (hradius.append (hasin.call (hsqrt.call hsum).closed)).closed.parenthesised
  rw [toList_haversine]
  exact hdistance.closed

theorem geoDistance_isPlain : SearchFunction.IsPlain I (geoDistance : SearchFunction ω) := by
  intro arguments harguments
  unfold geoDistance
  dsimp only
  by_cases hlength : arguments.length ≠ 4
  · rw [if_pos hlength]
    exact .throw _
  · rw [if_neg hlength]
    refine (resolveChecked_ensures _ 0 harguments).bind fun results hresults => ?_
    split
    · rename_i lonA latA lonB latB
      refine .pure (Resolved.isPlain_of_closed ?_ rfl rfl)
      exact closed_haversine (hresults lonA (by simp)).closed (hresults latA (by simp)).closed
        (hresults lonB (by simp)).closed (hresults latB (by simp)).closed
    · exact .throw _

theorem toList_strftime (arguments : String) :
    ("strftime(" ++ arguments ++ ")").toList = call "strftime".toList arguments.toList := by
  rw [String.toList_append, String.toList_append, List.append_assoc]
  rfl

theorem strftime_isPlain : SearchFunction.IsPlain I (strftime : SearchFunction ω) := by
  intro arguments harguments
  unfold strftime
  split
  · exact .throw _
  · refine (resolveChecked_ensures _ 0 harguments).bind fun results hresults => ?_
    refine .pure (Resolved.isPlain_of_closed ?_ rfl rfl)
    have hname : Closed "strftime".toList := isSome_readCondition.mp rfl
    have hcomma : Separates ", ".toList := separates_of_isSeparating rfl
    have hlist : Closed (", ".intercalate (results.map (·.identifier))).toList := by
      refine closed_intercalate hcomma fun text htext => ?_
      obtain ⟨operand, hoperand, rfl⟩ := List.mem_map.mp htext
      exact (hresults operand hoperand).closed
    dsimp only
    rw [toList_strftime]
    exact (hname.call hlist).closed
  · exact .throw _

/-- The functions that every filter can call unless told otherwise are plain. -/
theorem Functions.standard_arePlain : (Functions.standard : Functions ω).ArePlain I := by
  intro name function hfunction
  rcases Functions.eq_of_get?_standard hfunction with rfl | rfl
  · exact strftime_isPlain
  · exact geoDistance_isPlain

/-! ### Operands -/

/-- What operands are made of has the property `P`: bound values, fields, constants, and the results
of functions whose arguments have it.  All of this keeps the property `I` of the world. -/
structure Context.Provides (context : Context ω) (resolver : Resolver ω) (I : ω → Prop)
    (P : Resolved → Prop) : Prop where
  /-- Bound values have it. -/
  value (value : Value) : (bindValue context value).Ensures I P
  /-- Fields have it. -/
  field (name : String) : (Search.inWorld (resolver.resolve name)).Ensures I P
  /-- Constants have it. -/
  constant {name sql : String} : constant? name = some sql → P (.ofIdentifier sql)
  /-- Functions pass it on. -/
  function {name : String} {function : SearchFunction ω} :
    context.functions.get? name = some function → ∀ arguments,
      (∀ argument ∈ arguments, argument.resolve.Ensures I P) →
        Search.Ensures I P (function arguments)

namespace Context.Provides

variable {context : Context ω} {resolver : Resolver ω} {P : Resolved → Prop}

theorem resolveIdentifier (h : context.Provides resolver I P) (name : String) :
    (PagedSearch.resolveIdentifier context resolver name).Ensures I P := by
  unfold PagedSearch.resolveIdentifier
  split
  · exact h.value _
  · refine (h.field name).tryCatch fun error => ?_
    split
    · rename_i sql hsql
      exact .pure (h.constant hsql)
    · exact .throw _

mutual

/-- Operands have what they are made of. -/
theorem resolveOperand (h : context.Provides resolver I P) (operand : Operand) :
    (PagedSearch.resolveOperand context resolver operand).Ensures I P := by
  match operand with
  | .identifier name =>
    rw [PagedSearch.resolveOperand]
    exact h.resolveIdentifier name
  | .text content =>
    rw [PagedSearch.resolveOperand]
    exact h.value _
  | .number value =>
    rw [PagedSearch.resolveOperand]
    exact h.value _
  | .call name arguments =>
    -- Which arguments the function resolves, and how often, is up to the function.
    have harguments := h.callArguments arguments
    rw [PagedSearch.resolveOperand]
    unfold Functions.call
    cases hget : context.functions.get? name with
    | none => exact .throw _
    | some function => exact h.function hget _ harguments

theorem callArguments (h : context.Provides resolver I P) (operands : List Operand) :
    ∀ argument ∈ PagedSearch.callArguments context resolver operands,
      argument.resolve.Ensures I P := by
  match operands with
  | [] => simp [PagedSearch.callArguments]
  | operand :: rest =>
    rw [PagedSearch.callArguments, List.forall_mem_cons]
    exact ⟨h.resolveOperand operand, h.callArguments rest⟩

end

/-- So do the sides of comparisons. -/
theorem resolveSide (h : context.Provides resolver I P) (side : Side) (operand : Operand) :
    (PagedSearch.resolveSide context resolver side operand).Ensures I P := by
  unfold PagedSearch.resolveSide
  refine ((h.resolveOperand operand).explain _).bind fun resolved hresolved => ?_
  split
  · exact .throw _
  · exact .pure hresolved

end Context.Provides

/-- A resolver that keeps the property `I` of the world, and whose fields stand for plain operands
while the world has it. -/
def Resolver.IsPlain (I : ω → Prop) (resolver : Resolver ω) : Prop :=
  ∀ name world, I world → I ((resolver.resolve name).run.run world).2 ∧
    ∀ operand, ((resolver.resolve name).run.run world).1 = .ok operand → operand.IsPlain

section Operands

variable {context : Context ω} {resolver : Resolver ω}

theorem constant?_isPlain {name sql : String} (h : constant? name = some sql) :
    (Resolved.ofIdentifier sql).IsPlain := by
  refine Resolved.isPlain_of_closed ?_ rfl rfl
  unfold constant? at h
  split at h
  · obtain rfl := Option.some.inj h
    exact isSome_readCondition.mp rfl
  · obtain rfl := Option.some.inj h
    exact isSome_readCondition.mp rfl
  · obtain rfl := Option.some.inj h
    exact isSome_readCondition.mp rfl
  · simp at h

/-- Operands stand for plain SQL if fields and functions do. -/
theorem provides_isPlain (hnames : context.HasPlainNames)
    (hfunctions : context.functions.ArePlain I) (hresolver : resolver.IsPlain I) :
    context.Provides resolver I Resolved.IsPlain where
  value := bindValue_ensures hnames
  field name := by
    intro s hs
    rw [Search.outcome_inWorld]
    exact hresolver name s.world hs
  constant := constant?_isPlain
  function hget := hfunctions _ _ hget

/-! ### Comparisons with related values -/

/-- Operands of which neither has related values or a wrapper leave nothing to do but to compare
them. -/
theorem compare_eq_pure {left right : Resolved} (hleft : left.related = none ∧ left.wrap = none)
    (hright : right.related = none ∧ right.wrap = none) (comparator : Comparator) :
    compare context left comparator right =
      pure (comparisonFragment left comparator right) := by
  unfold compare
  simp only [hleft.1, hright.1, hleft.2, hright.2, Resolved.wrapped]
  rfl

theorem relatedSide_ensures (hnames : context.HasPlainNames) (side : Side) {operand : Resolved}
    (hoperand : operand.IsPlain) :
    (relatedSide context side operand).Ensures I fun (source, value) =>
      Closed value.identifier.toList ∧ ∀ selection name, source = some (selection, name) →
        Closed selection.text.toList ∧ ∀ c ∈ name.toList, isWordPart c = true := by
  unfold relatedSide
  split
  · rename_i selection hselection
    have hstem : (relatedStem side).toList.all isWordPart = true := by
      cases side <;> rfl
    refine (draw_ensures hnames hstem 5).bind fun name hname => .pure ⟨?_, ?_⟩
    · -- neither the name nor what is put behind it can close the marker
      refine (settled_columnMarker ?_).closed
      rintro c hc rfl
      rw [String.toList_append, String.toList_append, List.append_assoc] at hc
      rcases List.mem_append.mp hc with hc | hc
      · exact absurd (hname _ hc) (by decide)
      · exact absurd hc (by decide)
    · intro selection' name' hsource
      obtain ⟨rfl, rfl⟩ := Prod.mk.inj (Option.some.inj hsource)
      exact ⟨isSome_readCondition.mp (hoperand.related _ hselection), hname⟩
  · refine .pure ⟨hoperand.closed, ?_⟩
    intro selection name hsource
    cases hsource

theorem someRelated_isReadable {sources : List (Fragment × String)} {condition : Fragment}
    (hsources : ∀ selection name, (selection, name) ∈ sources →
      Closed selection.text.toList ∧ ∀ c ∈ name.toList, isWordPart c = true)
    (hcondition : condition.IsReadable) :
    (Fragment.someRelated sources condition).IsReadable := by
  have hexists : Closed "EXISTS".toList := isSome_readCondition.mp rfl
  have hspace : Separates " ".toList := separates_of_isSeparating rfl
  have hselect : Settled "SELECT 1 FROM ".toList := settled_of_isSettled rfl
  have hcomma : Separates ", ".toList := separates_of_isSeparating rfl
  have hwhere : Separates " WHERE ".toList := separates_of_isSeparating rfl
  by_cases hyield : Fragment.canYield (Fragment.sourceTexts sources) = true
  · have hlist : Closed (", ".intercalate ((Fragment.sourceTexts sources).map fun source =>
        Fragment.parenthesised source.1 ++ " " ++ Fragment.tableMarker source.2)).toList := by
      rw [Fragment.sourceTexts_eq_map, List.map_map]
      refine closed_intercalate hcomma fun text htext => ?_
      obtain ⟨⟨selection, name⟩, hmem, rfl⟩ := List.mem_map.mp htext
      obtain ⟨hselection, hname⟩ := hsources selection name hmem
      have hmarker : Settled (Fragment.tableMarker name).toList := by
        refine settled_tableMarker ?_
        rintro c hc rfl
        exact absurd (hname _ hc) (by decide)
      have hsource := hselection.parenthesised.closed.separated hspace hmarker.closed
      rw [Function.comp_apply, String.toList_append, String.toList_append, toList_parenthesised,
        List.append_assoc]
      exact hsource
    have hinside := (hselect.append_closed
      (hlist.separated hwhere hcondition.closed)).parenthesised
    refine Fragment.isReadable_of_separated ?_ hexists hspace hinside.closed
    rw [Fragment.text, Fragment.someRelatedText, if_pos hyield]
    simp
  · have hnever : (Fragment.someRelated sources condition).text = Fragment.never := by
      rw [Fragment.text, Fragment.someRelatedText, if_neg hyield]
    refine Fragment.isReadable_of_closed ?_ ?_
    · rw [hnever]
      decide
    · rw [hnever]
      exact isSome_readCondition.mp rfl

theorem compare_ensures (hnames : context.HasPlainNames) (comparator : Comparator)
    {left right : Resolved} (hleft : left.IsPlain) (hright : right.IsPlain) :
    (compare context left comparator right).Ensures I Fragment.IsReadable := by
  have hplain := comparisonFragment_isReadable comparator hleft.closed hright.closed
  have hwrapped (fragment : Fragment) : right.wrapped (left.wrapped fragment) = fragment := by
    rw [Resolved.wrapped, Resolved.wrapped, hleft.wrap, hright.wrap]
  unfold compare
  dsimp only
  by_cases hrelated : (left.related.isNone && right.related.isNone) = true
  · rw [if_pos hrelated]
    refine (Search.Ensures.pure hplain).bind fun compared hcompared => .pure ?_
    rw [hwrapped]
    exact hcompared
  · rw [if_neg hrelated]
    -- Both the plain comparison and the one of related values are conjuncts in parentheses.
    refine (relatedSide_ensures hnames .left hleft).bind ?_
    rintro ⟨leftSource, leftValue⟩ ⟨hleftValue, hleftSource⟩
    refine (relatedSide_ensures hnames .right hright).bind ?_
    rintro ⟨rightSource, rightValue⟩ ⟨hrightValue, hrightSource⟩
    have hcondition := comparisonFragment_isReadable comparator hleftValue hrightValue
    have hsources : ∀ selection name,
        (selection, name) ∈ leftSource.toList ++ rightSource.toList →
          Closed selection.text.toList ∧ ∀ c ∈ name.toList, isWordPart c = true := by
      intro selection name hmem
      rcases List.mem_append.mp hmem with hmem | hmem
      · exact hleftSource selection name (by simpa using hmem)
      · exact hrightSource selection name (by simpa using hmem)
    obtain ⟨plainCondition, hplainSays⟩ := hplain
    obtain ⟨relatedCondition, hrelatedSays⟩ := someRelated_isReadable hsources hcondition
    have hboth := Fragment.says_all (List.cons_ne_nil _ _)
      (.cons hplainSays (.cons hrelatedSays .nil))
    have henclosed : Fragment.IsReadable _ := ⟨_, hboth.enclose⟩
    refine (Search.Ensures.pure henclosed).bind fun compared hcompared => .pure ?_
    rw [hwrapped]
    exact hcompared

/-- A comparison is compiled to a text that can be read by itself. -/
theorem compileComparison_ensures (hnames : context.HasPlainNames)
    (hfunctions : context.functions.ArePlain I) (hresolver : resolver.IsPlain I)
    (comparison : Comparison) :
    (compileComparison context resolver comparison).Ensures I Fragment.IsReadable := by
  have hprovides := provides_isPlain hnames hfunctions hresolver
  unfold compileComparison
  refine (hprovides.resolveSide .left _).bind fun left hleft => ?_
  refine (hprovides.resolveSide .right _).bind fun right hright => ?_
  exact compare_ensures hnames comparison.comparator hleft hright

end Operands

/-! ### Allow-lists -/

theorem ne_of_isNamePart {c mark : Char} (h : isNamePart c = true)
    (hmark : isNamePart mark = false) : c ≠ mark := by
  rintro rfl
  rw [h] at hmark
  cases hmark

/-- A path has no characters but those of names and those that it is put together with. -/
theorem ne_of_mem_jsonPath {mark : Char} (hmark : isNamePart mark = false)
    (hpath : mark ∉ ['$', '.', '[', ']']) {parts : List (List Char)} {c : Char}
    (h : c ∈ AllowList.jsonPath parts) : c ≠ mark := by
  rintro rfl
  obtain ⟨hdollar, hdot, hopening, hclosing⟩ : c ≠ '$' ∧ c ≠ '.' ∧ c ≠ '[' ∧ c ≠ ']' := by
    simpa using hpath
  have hkey (part : List Char) : c ∉ sanitisedChars part :=
    fun hmem => ne_of_isNamePart (List.mem_filter.mp hmem).2 hmark rfl
  obtain ⟨part, -, hc⟩ := List.mem_flatMap.mp ((List.mem_cons.mp h).resolve_left hdollar)
  -- A step of a path is an index in brackets, or a key behind a dot.
  unfold AllowList.pathStep at hc
  dsimp only at hc
  split at hc
  · rcases List.mem_append.mp ((List.mem_cons.mp hc).resolve_left hopening) with hc | hc
    · exact hkey part hc
    · exact hclosing (List.mem_singleton.mp hc)
  · exact hkey part ((List.mem_cons.mp hc).resolve_left hdot)

theorem toList_jsonExtract (column path : String) :
    ("JSON_EXTRACT(" ++ column ++ ", '" ++ path ++ "')").toList =
      call "JSON_EXTRACT".toList
        (column.toList ++ (", ".toList ++ '\'' :: (path.toList ++ ['\'']))) := by
  simp [call]

theorem settled_jsonExtract {column path : String} (hcolumn : Closed column.toList)
    (hpath : ∀ c ∈ path.toList, c ≠ '\'') :
    Settled ("JSON_EXTRACT(" ++ column ++ ", '" ++ path ++ "')").toList := by
  have hname : Closed "JSON_EXTRACT".toList := isSome_readCondition.mp rfl
  have hcomma : Separates ", ".toList := separates_of_isSeparating rfl
  have hcall := hname.call (hcolumn.separated hcomma (settled_literal hpath).closed)
  rw [toList_jsonExtract]
  exact hcall

/-- Whatever a client writes, it stands for plain SQL. -/
theorem AllowList.fieldSql_isPlain (field : String) : (AllowList.fieldSql field).IsPlain := by
  have hcolumn (name : List Char) :
      Settled (Fragment.columnMarker (String.ofList (sanitisedChars name))).toList := by
    refine settled_columnMarker fun c hc => ?_
    rw [String.toList_ofList, sanitisedChars] at hc
    exact ne_of_isNamePart (List.mem_filter.mp hc).2 (by decide)
  unfold AllowList.fieldSql
  split
  · exact Resolved.isPlain_of_closed (isSome_readCondition.mp rfl) rfl rfl
  · exact Resolved.isPlain_of_closed (hcolumn _).closed rfl rfl
  · rename_i column path _ _
    have hpath : ∀ c ∈ (String.ofList (AllowList.jsonPath path)).toList, c ≠ '\'' := by
      intro c hc
      rw [String.toList_ofList] at hc
      exact ne_of_mem_jsonPath (by decide) (by decide) hc
    have hvalue := settled_jsonExtract (hcolumn column).closed hpath
    exact Resolved.isPlain_of_closed hvalue.closed rfl rfl

theorem AllowList.resolver_isPlain (list : AllowList) :
    (list.resolver : Resolver ω).IsPlain I := by
  intro name world hworld
  refine ⟨hworld, ?_⟩
  intro operand hoperand
  have hresolve : list.resolve name = .ok operand := hoperand
  unfold AllowList.resolve at hresolve
  split at hresolve
  · obtain rfl := Except.ok.inj hresolve
    exact AllowList.fieldSql_isPlain name
  · cases hresolve

end PagedSearch
