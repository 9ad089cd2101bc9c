import PagedSearch.Proofs.Assembly

/-!
# What compiled filters are put together from

Compiling a filter draws names, asks the resolver for fields and calls functions, and puts all that
together.  So a property that is kept when actions are put together holds for compiling a filter, if
it holds for what the resolver does, and if the functions that can be called keep it.

## Main definitions

* `SearchFunction.Keeps`, `Functions.Keep` — functions that keep a property of actions.

## Main results

* `Search.IsCompositional.standard_keep` — the usual functions keep every property.
* `Search.IsCompositional.holds_compileComparison`, `Search.IsCompositional.holds_compileGroups` —
  what holds for compiling comparisons and trees.
-/

namespace PagedSearch

open Search

variable {ω : Type} {P : (α : Type) → Search ω α → Prop}

/-- A function that has the property if its arguments have it. -/
def SearchFunction.Keeps (P : (α : Type) → Search ω α → Prop) (function : SearchFunction ω) : Prop :=
  ∀ arguments : List (CallArgument ω), (∀ argument ∈ arguments, P Resolved argument.resolve) →
    P Resolved (function arguments)

/-- All functions keep the property. -/
def Functions.Keep (P : (α : Type) → Search ω α → Prop) (functions : Functions ω) : Prop :=
  ∀ name function, functions.get? name = some function → function.Keeps P

namespace Search.IsCompositional

/-! ### Functions -/

section Functions

variable (h : IsCompositional P)

include h

theorem holds_resolveChecked (check : Nat → Operand → Option SearchError) (index : Nat)
    {arguments : List (CallArgument ω)}
    (harguments : ∀ argument ∈ arguments, P Resolved argument.resolve) :
    P (List Resolved) (resolveChecked check index arguments) := by
  induction arguments generalizing index with
  | nil => exact h.pure []
  | cons argument rest ih =>
    obtain ⟨hfirst, hrest⟩ := List.forall_mem_cons.mp harguments
    unfold resolveChecked
    cases check index argument.operand with
    | some error => exact h.throw error
    | none =>
      exact h.bind hfirst fun first => h.bind (ih (index + 1) hrest) fun others => h.pure _

theorem geoDistance_keeps : (geoDistance : SearchFunction ω).Keeps P := by
  intro arguments harguments
  unfold geoDistance
  dsimp only
  split
  · exact h.throw _
  · refine h.bind (h.holds_resolveChecked _ 0 harguments) fun operands => ?_
    split
    · exact h.pure _
    · exact h.throw _

theorem strftime_keeps : (strftime : SearchFunction ω).Keeps P := by
  intro arguments harguments
  unfold strftime
  split
  · exact h.throw _
  · exact h.bind (h.holds_resolveChecked _ 0 harguments) fun operands => h.pure _
  · exact h.throw _

theorem standard_keep : (Functions.standard : Functions ω).Keep P := by
  intro name function hget
  rcases Functions.eq_of_get?_standard hget with rfl | rfl
  · exact h.strftime_keeps
  · exact h.geoDistance_keeps

end Functions

/-! ### Operands -/

variable {context : Context ω} {resolver : Resolver ω}

theorem holds_bindValue (h : IsCompositional P) (value : Value) :
    P Resolved (bindValue context value) :=
  h.bind (h.draw _ _ _) fun _ => h.pure _

theorem holds_resolveIdentifier (h : IsCompositional P)
    (hresolver : ∀ name, P Resolved (Search.inWorld (resolver.resolve name))) (name : String) :
    P Resolved (resolveIdentifier context resolver name) := by
  unfold resolveIdentifier
  split
  · exact h.holds_bindValue _
  · refine h.tryCatch (hresolver name) fun error => ?_
    split
    · exact h.pure _
    · exact h.throw _

mutual

theorem holds_resolveOperand (h : IsCompositional P) (hfunctions : context.functions.Keep P)
    (hresolver : ∀ name, P Resolved (Search.inWorld (resolver.resolve name))) (operand : Operand) :
    P Resolved (resolveOperand context resolver operand) := by
  match operand with
  | .identifier name =>
    rw [resolveOperand]
    exact h.holds_resolveIdentifier hresolver name
  | .text content =>
    rw [resolveOperand]
    exact h.holds_bindValue _
  | .number value =>
    rw [resolveOperand]
    exact h.holds_bindValue _
  | .call name arguments =>
    rw [resolveOperand, Functions.call]
    split
    · rename_i function hget
      exact hfunctions name function hget _ (h.holds_callArguments hfunctions hresolver arguments)
    · exact h.throw _

theorem holds_callArguments (h : IsCompositional P) (hfunctions : context.functions.Keep P)
    (hresolver : ∀ name, P Resolved (Search.inWorld (resolver.resolve name)))
    (operands : List Operand) :
    ∀ argument ∈ callArguments context resolver operands, P Resolved argument.resolve := by
  match operands with
  | [] => exact nofun
  | operand :: rest =>
    rw [callArguments]
    exact List.forall_mem_cons.mpr ⟨h.holds_resolveOperand hfunctions hresolver operand,
      h.holds_callArguments hfunctions hresolver rest⟩

end

theorem holds_resolveSide (h : IsCompositional P) (hfunctions : context.functions.Keep P)
    (hresolver : ∀ name, P Resolved (Search.inWorld (resolver.resolve name))) (side : Side)
    (operand : Operand) : P Resolved (resolveSide context resolver side operand) := by
  unfold resolveSide
  refine h.bind (h.explain _ (h.holds_resolveOperand hfunctions hresolver operand))
    fun resolved => ?_
  dsimp only
  split
  · exact h.throw _
  · exact h.pure _

/-! ### Comparisons and trees -/

theorem holds_relatedSide (h : IsCompositional P) (side : Side) (operand : Resolved) :
    P _ (relatedSide context side operand) := by
  unfold relatedSide
  split
  · exact h.bind (h.draw _ _ _) fun _ => h.pure _
  · exact h.pure _

theorem holds_compare (h : IsCompositional P) (left : Resolved) (comparator : Comparator)
    (right : Resolved) : P Fragment (compare context left comparator right) := by
  unfold compare
  dsimp only
  split
  · exact h.pure _
  · exact h.bind (h.holds_relatedSide _ _) fun _ =>
      h.bind (h.holds_relatedSide _ _) fun _ => h.pure _

theorem holds_compileComparison (h : IsCompositional P) (hfunctions : context.functions.Keep P)
    (hresolver : ∀ name, P Resolved (Search.inWorld (resolver.resolve name))) (c : Comparison) :
    P Fragment (compileComparison context resolver c) := by
  unfold compileComparison
  exact h.bind (h.holds_resolveSide hfunctions hresolver _ _) fun _ =>
    h.bind (h.holds_resolveSide hfunctions hresolver _ _) fun _ => h.holds_compare _ _ _

theorem holds_joinedGroups (h : IsCompositional P) (groups : List (Join × Fragment)) :
    P Fragment (joinedGroups groups) := by
  unfold joinedGroups
  split
  · exact h.pure _
  · exact h.throw _

mutual

theorem holds_compileGroup (h : IsCompositional P) (hfunctions : context.functions.Keep P)
    (hresolver : ∀ name, P Resolved (Search.inWorld (resolver.resolve name))) (group : Group) :
    P Fragment (compileGroup context resolver group) := by
  match group with
  | .comparison join c =>
    rw [compileGroup]
    exact h.holds_compileComparison hfunctions hresolver c
  | .nested join groups =>
    rw [compileGroup]
    exact h.bind (h.holds_compileMembers hfunctions hresolver groups) fun members =>
      h.bind (h.holds_joinedGroups members) fun _ => h.pure _

theorem holds_compileMembers (h : IsCompositional P) (hfunctions : context.functions.Keep P)
    (hresolver : ∀ name, P Resolved (Search.inWorld (resolver.resolve name)))
    (groups : List Group) : P _ (compileMembers context resolver groups) := by
  match groups with
  | [] =>
    rw [compileMembers]
    exact h.pure []
  | group :: groups =>
    rw [compileMembers]
    exact h.bind (h.holds_compileGroup hfunctions hresolver group) fun _ =>
      h.bind (h.holds_compileMembers hfunctions hresolver groups) fun _ => h.pure _

end

theorem holds_compileGroups (h : IsCompositional P) (hfunctions : context.functions.Keep P)
    (hresolver : ∀ name, P Resolved (Search.inWorld (resolver.resolve name)))
    (groups : List Group) : P Fragment (compileGroups context resolver groups) := by
  unfold compileGroups
  exact h.bind (h.holds_compileMembers hfunctions hresolver groups) fun members =>
    h.holds_joinedGroups members

end Search.IsCompositional

end PagedSearch
