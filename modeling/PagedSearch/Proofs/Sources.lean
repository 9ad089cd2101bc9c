import PagedSearch.Proofs.Composition
import PagedSearch.Proofs.Parameters

/-!
# Where values come from

An operand has values of two kinds.  Those that the client has written are bound under names that
are drawn for them.  Those that the resolver gives for a field have names that the resolver has
chosen, and they come back each time the field is asked for.  A function adds none of its own.

If the resolver gives the same answers every time, then asking it depends on nothing but the number
of names that have been drawn, and so does all that is put together from its answers.

## Main definitions

* `Params.Mixes` — values of which some are bound under drawn names.
* `Resolver.Answers`, `Resolver.IsSteady` — the answers of a resolver, and resolvers that stick to
  them.
* `Resolver.Gives` — the values that a resolver gives for the fields in an operand.
* `SearchFunction.IsOrderly` — functions that have no values but those of their arguments.

## Main results

* `Context.isOrderly_of_standard` — the usual functions are orderly.
* `resolveOperand_draws` — the values of operands.
-/

namespace PagedSearch

open Search

variable {ω : Type}

/-! ### Values and where they come from -/

namespace Params

theorem mem_merge {older newer : Params} {pair : String × Value} :
    pair ∈ (older.merge newer).entries ↔ pair ∈ older.entries ∨ pair ∈ newer.entries := by
  rw [merge, List.mem_append, or_comm]

theorem mem_map {f : Value → Value} {params : Params} {pair : String × Value} :
    pair ∈ (params.map f).entries ↔
      ∃ value, (pair.1, value) ∈ params.entries ∧ f value = pair.2 := by
  rw [map, List.mem_map]
  constructor
  · rintro ⟨⟨name, value⟩, hmem, rfl⟩
    exact ⟨value, hmem, rfl⟩
  · rintro ⟨value, hmem, hvalue⟩
    exact ⟨_, hmem, Prod.ext rfl hvalue⟩

theorem mem_paramsOf {operands : List Resolved} {pair : String × Value} :
    pair ∈ (paramsOf operands).entries ↔ ∃ operand ∈ operands, pair ∈ operand.params.entries := by
  -- What has been merged so far is kept, whatever it is.
  have hfold (before : Params) :
      pair ∈ ((operands.map (·.params)).foldl merge before).entries ↔
        pair ∈ before.entries ∨ ∃ operand ∈ operands, pair ∈ operand.params.entries := by
    induction operands generalizing before with
    | nil => simp
    | cons first rest ih => simp [ih, mem_merge, or_assoc]
  rw [paramsOf, mergeAll, hfold]
  simp [empty]

/-- Values of which some belong to `own` and the others are bound under names that are drawn one
after the other, the first one after `start` others. -/
def Mixes (context : Context ω) (own : String × Value → Prop) (start : Nat) (values : List Value)
    (params : Params) : Prop :=
  ∀ pair ∈ params.entries, own pair ∨ pair ∈ context.bindings start values

namespace Mixes

variable {context : Context ω} {own own' : String × Value → Prop} {start : Nat}
  {values more : List Value} {params : Params}

theorem mono (h : params.Mixes context own start values) (hown : ∀ pair, own pair → own' pair) :
    params.Mixes context own' start values :=
  fun pair hpair => (h pair hpair).imp_left (hown pair)

theorem left (h : params.Mixes context own start values) (more : List Value) :
    params.Mixes context own start (values ++ more) := by
  intro pair hpair
  rw [Context.bindings_append, List.mem_append]
  exact (h pair hpair).imp_right .inl

theorem right (values : List Value) (h : params.Mixes context own (start + values.length) more) :
    params.Mixes context own start (values ++ more) := by
  intro pair hpair
  rw [Context.bindings_append, List.mem_append]
  exact (h pair hpair).imp_right .inr

theorem map (f : Value → Value) (h : params.Mixes context own start values)
    (hown : ∀ pair, own pair → own' (pair.1, f pair.2)) :
    (params.map f).Mixes context own' start (values.map f) := by
  rintro ⟨name, value⟩ hpair
  obtain ⟨before, hmem, rfl⟩ := mem_map.mp hpair
  rw [← Context.map_bindings]
  exact (h _ hmem).imp (hown _) fun hbound => List.mem_map_of_mem hbound

end Mixes

end Params

/-! ### Resolvers -/

namespace Resolver

/-- What a field can stand for. -/
def Answers (resolver : Resolver ω) (field : String) (answer : Resolved) : Prop :=
  ∃ world, ((resolver.resolve field).run.run world).1 = .ok answer

/-- Each field stands for the same thing every time it is asked for. -/
def IsSteady (resolver : Resolver ω) : Prop :=
  ∀ field world other, ((resolver.resolve field).run.run world).1 =
    ((resolver.resolve field).run.run other).1

theorem IsSteady.inWorld {resolver : Resolver ω} (h : resolver.IsSteady) (name : String) :
    Search.IsSteady (Search.inWorld (resolver.resolve name)) := by
  intro s t hst
  rw [outcome_inWorld, outcome_inWorld]
  exact ⟨h name s.world t.world, hst⟩

end Resolver

mutual

/-- The fields in an operand at an instant: the names that do not stand for times. -/
def Operand.fields (now : Instant) : Operand → List String
  | .identifier name => if ((TimeName.ofText? name).bind (·.value? now)).isSome then [] else [name]
  | .text _ => []
  | .number _ => []
  | .call _ arguments => Operand.allFields now arguments

/-- The fields in several operands. -/
def Operand.allFields (now : Instant) : List Operand → List String
  | [] => []
  | first :: rest => first.fields now ++ Operand.allFields now rest

end

/-- A value under a name that the resolver gives for a field in the operand. -/
def Resolver.Gives (resolver : Resolver ω) (now : Instant) (operand : Operand)
    (pair : String × Value) : Prop :=
  ∃ field ∈ operand.fields now, ∃ answer, resolver.Answers field answer ∧
    pair ∈ answer.params.entries

/-- A value of an argument is a value of the call. -/
theorem Resolver.Gives.call {resolver : Resolver ω} {now : Instant} {name : String}
    {arguments : List Operand} {operand : Operand} {pair : String × Value}
    (hmem : operand ∈ arguments) (h : resolver.Gives now operand pair) :
    resolver.Gives now (.call name arguments) pair := by
  obtain ⟨field, hfield, hanswer⟩ := h
  refine ⟨field, ?_, hanswer⟩
  rw [Operand.fields]
  induction arguments with
  | nil => cases hmem
  | cons first rest ih =>
    rw [Operand.allFields, List.mem_append]
    rcases List.mem_cons.mp hmem with rfl | hmem
    · exact .inl hfield
    · exact .inr (ih hmem)

/-! ### Functions -/

section Functions

variable (context : Context ω)

/-- An action whose result has values that belong to `own`, and values that are bound under the
names it draws. -/
def Search.Draws (own : String × Value → Prop) (action : Search ω Resolved) : Prop :=
  ∀ s resolved t, outcome action s = (.ok resolved, t) →
    ∃ values, t.drawn = s.drawn + values.length ∧
      resolved.params.Mixes context own s.drawn values

/-- An operand that is compared by itself: it has no related values, and puts its comparison into
nothing. -/
structure Resolved.IsBare (operand : Resolved) : Prop where
  /-- There are no related values. -/
  related : operand.related = none
  /-- The comparison is not put into anything. -/
  wrap : operand.wrap = none

/-- A function that looks at nothing but its arguments, and whose values are theirs. -/
structure SearchFunction.IsOrderly (function : SearchFunction ω) : Prop where
  /-- It depends on nothing else. -/
  steady : ∀ arguments : List (CallArgument ω),
    (∀ argument ∈ arguments, argument.resolve.IsSteady) → Search.IsSteady (function arguments)
  /-- It has no other values. -/
  draws : ∀ own, ∀ arguments : List (CallArgument ω),
    (∀ argument ∈ arguments, argument.resolve.Draws context own) →
      Search.Draws context own (function arguments)
  /-- It adds nothing else to a comparison. -/
  bare : ∀ arguments s resolved t, outcome (function arguments) s = (.ok resolved, t) →
    resolved.IsBare

/-- All functions are orderly. -/
def Context.IsOrderly : Prop :=
  ∀ name function, context.functions.get? name = some function → function.IsOrderly context

variable {context}

theorem resolveChecked_draws (check : Nat → Operand → Option SearchError) (index : Nat)
    {own : String × Value → Prop} {arguments : List (CallArgument ω)}
    (h : ∀ argument ∈ arguments, argument.resolve.Draws context own) {s t : Session ω}
    {operands : List Resolved}
    (hrun : outcome (resolveChecked check index arguments) s = (.ok operands, t)) :
    ∃ values, t.drawn = s.drawn + values.length ∧
      (paramsOf operands).Mixes context own s.drawn values := by
  induction arguments generalizing index s operands with
  | nil =>
    obtain ⟨rfl, rfl⟩ : [] = operands ∧ s = t := by simpa [resolveChecked] using hrun
    refine ⟨[], rfl, fun pair hpair => ?_⟩
    cases hpair
  | cons argument rest ih =>
    obtain ⟨hfirst, hrest⟩ := List.forall_mem_cons.mp h
    unfold resolveChecked at hrun
    cases hcheck : check index argument.operand with
    | some error =>
      rw [hcheck] at hrun
      cases (Prod.mk.inj hrun).1
    | none =>
      rw [hcheck] at hrun
      obtain ⟨first, u, hargument, hrun⟩ := outcome_bind_eq_ok.mp hrun
      obtain ⟨others, v, hothers, hrun⟩ := outcome_bind_eq_ok.mp hrun
      obtain ⟨rfl, rfl⟩ : first :: others = operands ∧ v = t := by simpa using hrun
      obtain ⟨values, hdrawn, hvalues⟩ := hfirst s first u hargument
      obtain ⟨more, hdrawn', hmore⟩ := ih (index + 1) hrest hothers
      rw [hdrawn] at hdrawn' hmore
      refine ⟨values ++ more, by rw [hdrawn', List.length_append, Nat.add_assoc], ?_⟩
      intro pair hpair
      obtain ⟨operand, hoperand, hmem⟩ := Params.mem_paramsOf.mp hpair
      rcases List.mem_cons.mp hoperand with rfl | hoperand
      · exact hvalues.left more pair hmem
      · exact hmore.right values pair (Params.mem_paramsOf.mpr ⟨operand, hoperand, hmem⟩)

/-- What a function returns that has its arguments checked and resolved. -/
def Resolved.Gathers (arguments : List (CallArgument ω)) (s : Session ω)
    (t : Session ω) (resolved : Resolved) : Prop :=
  resolved.IsBare ∧ ∃ check operands,
    outcome (resolveChecked check 0 arguments) s = (.ok operands, t) ∧
      resolved.params = paramsOf operands

theorem geoDistance_eq_ok {arguments : List (CallArgument ω)} {s t : Session ω}
    {resolved : Resolved} (hrun : outcome (geoDistance arguments) s = (.ok resolved, t)) :
    resolved.Gathers arguments s t := by
  unfold geoDistance at hrun
  dsimp only at hrun
  split at hrun
  · cases (Prod.mk.inj hrun).1
  · obtain ⟨operands, u, hoperands, hrun⟩ := outcome_bind_eq_ok.mp hrun
    split at hrun
    · obtain ⟨hresolved, rfl⟩ := Prod.mk.inj hrun
      obtain rfl := Except.ok.inj hresolved
      exact ⟨⟨rfl, rfl⟩, _, _, hoperands, rfl⟩
    · cases (Prod.mk.inj hrun).1

theorem strftime_eq_ok {arguments : List (CallArgument ω)} {s t : Session ω}
    {resolved : Resolved} (hrun : outcome (strftime arguments) s = (.ok resolved, t)) :
    resolved.Gathers arguments s t := by
  unfold strftime at hrun
  split at hrun
  · cases (Prod.mk.inj hrun).1
  · obtain ⟨operands, u, hoperands, hrun⟩ := outcome_bind_eq_ok.mp hrun
    obtain ⟨hresolved, rfl⟩ := Prod.mk.inj hrun
    obtain rfl := Except.ok.inj hresolved
    exact ⟨⟨rfl, rfl⟩, _, _, hoperands, rfl⟩
  · cases (Prod.mk.inj hrun).1

theorem SearchFunction.IsOrderly.of_gathers {function : SearchFunction ω}
    (hsteady : function.Keeps (@Search.IsSteady ω))
    (h : ∀ arguments s resolved t, outcome (function arguments) s = (.ok resolved, t) →
      resolved.Gathers arguments s t) : function.IsOrderly context where
  steady := hsteady
  draws own arguments harguments := by
    intro s resolved t hrun
    obtain ⟨-, check, operands, hoperands, hparams⟩ := h arguments s resolved t hrun
    rw [hparams]
    exact resolveChecked_draws check 0 harguments hoperands
  bare arguments s resolved t hrun := (h arguments s resolved t hrun).1

theorem geoDistance_isOrderly : (geoDistance : SearchFunction ω).IsOrderly context :=
  .of_gathers isSteady_isCompositional.geoDistance_keeps fun _ _ _ _ => geoDistance_eq_ok

theorem strftime_isOrderly : (strftime : SearchFunction ω).IsOrderly context :=
  .of_gathers isSteady_isCompositional.strftime_keeps fun _ _ _ _ => strftime_eq_ok

/-- The functions that filters can call unless told otherwise are orderly. -/
theorem Context.isOrderly_of_standard (h : context.functions = .standard) : context.IsOrderly := by
  intro name function hget
  rw [h] at hget
  rcases Functions.eq_of_get?_standard hget with rfl | rfl
  · exact strftime_isOrderly
  · exact geoDistance_isOrderly

end Functions

/-! ### Operands -/

section Operands

variable {context : Context ω} {resolver : Resolver ω}

theorem bindValue_draws (own : String × Value → Prop) (value : Value) :
    Search.Draws context own (bindValue context value) := by
  intro s operand t hrun
  rw [outcome_bindValue] at hrun
  obtain ⟨hoperand, rfl⟩ := Prod.mk.inj hrun
  obtain rfl := Except.ok.inj hoperand
  exact ⟨[value], rfl, fun pair hpair => .inr hpair⟩

/-- What an identifier can stand for: a time, a field or a constant. -/
theorem resolveIdentifier_eq_ok {name : String} {s t : Session ω} {resolved : Resolved}
    (hrun : outcome (resolveIdentifier context resolver name) s = (.ok resolved, t)) :
    (∃ value, outcome (bindValue context value) s = (.ok resolved, t)) ∨
      t.drawn = s.drawn ∧
        ((Operand.identifier name).fields context.now = [name] ∧ resolver.Answers name resolved ∨
          ∃ sql, resolved = .ofIdentifier sql) := by
  unfold resolveIdentifier at hrun
  split at hrun
  · rename_i value _
    exact .inl ⟨value, hrun⟩
  · rename_i hname
    rw [outcome_tryCatch, outcome_inWorld] at hrun
    split at hrun
    · rename_i answer u hanswer
      obtain ⟨hresolved, rfl⟩ := Prod.mk.inj hrun
      obtain rfl := Except.ok.inj hresolved
      obtain ⟨hresult, rfl⟩ := Prod.mk.inj hanswer
      refine .inr ⟨rfl, .inl ⟨?_, _, hresult⟩⟩
      rw [Operand.fields, hname]
      rfl
    · rename_i error u hanswer
      obtain ⟨-, rfl⟩ := Prod.mk.inj hanswer
      split at hrun
      · rename_i sql _
        obtain ⟨hresolved, rfl⟩ := Prod.mk.inj hrun
        exact .inr ⟨rfl, .inr ⟨sql, (Except.ok.inj hresolved).symm⟩⟩
      · cases (Prod.mk.inj hrun).1

theorem resolveIdentifier_draws (name : String) :
    Search.Draws context (resolver.Gives context.now (.identifier name))
      (resolveIdentifier context resolver name) := by
  intro s resolved t hrun
  rcases resolveIdentifier_eq_ok hrun with ⟨value, hrun⟩ | ⟨hdrawn, ⟨hfields, hanswer⟩ | ⟨sql, rfl⟩⟩
  · exact bindValue_draws _ value s resolved t hrun
  · refine ⟨[], hdrawn, fun pair hpair => .inl ⟨name, ?_, resolved, hanswer, hpair⟩⟩
    rw [hfields]
    exact List.mem_singleton_self name
  · exact ⟨[], hdrawn, nofun⟩

mutual

/-- The values of an operand are those that the resolver gives for the fields in it, and those that
are bound under the names it draws. -/
theorem resolveOperand_draws (horderly : context.IsOrderly) (operand : Operand) :
    Search.Draws context (resolver.Gives context.now operand)
      (resolveOperand context resolver operand) := by
  match operand with
  | .identifier name =>
    rw [resolveOperand]
    exact resolveIdentifier_draws name
  | .text content =>
    rw [resolveOperand]
    exact bindValue_draws _ _
  | .number value =>
    rw [resolveOperand]
    exact bindValue_draws _ _
  | .call name arguments =>
    have harguments := callArguments_draw horderly arguments
      (resolver.Gives context.now (.call name arguments)) fun _ hmem _ => .call hmem
    rw [resolveOperand, Functions.call]
    split
    · rename_i function hget
      exact (horderly name function hget).draws _ _ harguments
    · intro s operand t hrun
      cases (Prod.mk.inj hrun).1

theorem callArguments_draw (horderly : context.IsOrderly) (operands : List Operand)
    (own : String × Value → Prop)
    (hown : ∀ operand ∈ operands, ∀ pair, resolver.Gives context.now operand pair → own pair) :
    ∀ argument ∈ callArguments context resolver operands, argument.resolve.Draws context own := by
  match operands with
  | [] => exact nofun
  | operand :: rest =>
    obtain ⟨hfirst, hrest⟩ := List.forall_mem_cons.mp hown
    rw [callArguments]
    refine List.forall_mem_cons.mpr ⟨?_, callArguments_draw horderly rest own hrest⟩
    intro s resolved t hrun
    obtain ⟨values, hdrawn, hvalues⟩ := resolveOperand_draws horderly operand s resolved t hrun
    exact ⟨values, hdrawn, hvalues.mono hfirst⟩

end

variable (context resolver) in
/-- What an operand can stand for. -/
def Operand.Yields (operand : Operand) (resolved : Resolved) : Prop :=
  ∃ s t, outcome (resolveOperand context resolver operand) s = (.ok resolved, t)

theorem isBare_of_bindValue {value : Value} {s t : Session ω} {resolved : Resolved}
    (hrun : outcome (bindValue context value) s = (.ok resolved, t)) : resolved.IsBare := by
  rw [outcome_bindValue] at hrun
  obtain rfl := Except.ok.inj (Prod.mk.inj hrun).1
  exact ⟨rfl, rfl⟩

/-- Only fields can have related values, and put their comparisons into something. -/
theorem Operand.Yields.isBare (horderly : context.IsOrderly)
    (hbare : ∀ field answer, resolver.Answers field answer → answer.IsBare) {operand : Operand}
    {resolved : Resolved} (h : operand.Yields context resolver resolved) : resolved.IsBare := by
  obtain ⟨s, t, hrun⟩ := h
  cases operand with
  | identifier name =>
    rw [resolveOperand] at hrun
    rcases resolveIdentifier_eq_ok hrun with ⟨value, hrun⟩ | ⟨-, ⟨-, hanswer⟩ | ⟨sql, rfl⟩⟩
    · exact isBare_of_bindValue hrun
    · exact hbare name resolved hanswer
    · exact ⟨rfl, rfl⟩
  | text content =>
    rw [resolveOperand] at hrun
    exact isBare_of_bindValue hrun
  | number value =>
    rw [resolveOperand] at hrun
    exact isBare_of_bindValue hrun
  | call name arguments =>
    rw [resolveOperand, Functions.call] at hrun
    split at hrun
    · rename_i function hget
      exact (horderly name function hget).bare _ s resolved t hrun
    · cases (Prod.mk.inj hrun).1

end Operands

end PagedSearch
