import PagedSearch.Proofs.Calls
import PagedSearch.Proofs.Literals
import PagedSearch.Proofs.Sources

/-!
# The fields that a filter asks for

Fields are asked for as the client has written them, from left to right, and the arguments of
functions are no exception; the first failure ends it.  The answers decide where a run ends and what
every operand stands for, whatever else the resolver does.

## Main definitions

* `refusal?`, `Applied` — the first argument that a function refuses, and what it makes of its
  arguments if it refuses none.
* `Operand.Means`, `Operand.Stops` — what an operand stands for, and how it fails.
* `StepsMean`, `StepsStop` — the same for comparisons, one after the other.
* `fieldsOf` — the fields of a tree.

## Main results

* `resolveOperand_consults`, `resolveSide_consults`, `compileSteps_consults` — the calls decide what
  comes of operands, sides and comparisons.
* `compileGroups_asks_in_order` — what a filter asks for, and where it stops.
-/

namespace PagedSearch

open Search

variable {ω : Type}

/-! ### What operands stand for -/

/-- The first argument that a function refuses, by its number counted from zero, and the reason.  A
function that does not exist refuses the first one, and so does one that refuses the number of
its arguments. -/
def refusal? (name : String) (arguments : List Operand) : Option (Nat × CallFault) :=
  if name = strftimeName then
    match arguments with
    | [] => some (0, .noArgument)
    | .text _ :: _ => (arguments.findIdx? Operand.isCall).map fun index => (index, .nestedCall index)
    | _ => some (0, .firstNotText)
  else if name = geoDistanceName then
    if arguments.length ≠ 4 then some (0, .argumentCount 4 arguments.length)
    else
      (arguments.findIdx? fun | .identifier _ | .number _ => false | _ => true).map
        fun index => (index, .notIdentifierOrNumber index)
  else some (0, .unknown)

theorem refusal?_geoDistance (arguments : List Operand) :
    refusal? geoDistanceName arguments =
      if arguments.length ≠ 4 then some (0, .argumentCount 4 arguments.length)
      else
        (arguments.findIdx? fun | .identifier _ | .number _ => false | _ => true).map
          fun index => (index, .notIdentifierOrNumber index) := by
  unfold refusal?
  rw [if_neg (by decide), if_pos rfl]

theorem get?_standard (name : String) :
    (Functions.standard : Functions ω).get? name =
      if name = strftimeName then some strftime
      else if name = geoDistanceName then some geoDistance else none := by
  have hentries : (Functions.standard : Functions ω).get? name =
      [(strftimeName, strftime), (geoDistanceName, geoDistance)].lookup name := rfl
  rw [hentries, List.lookup_cons, List.lookup_cons, List.lookup_nil]
  by_cases hstrftime : name = strftimeName
  · rw [if_pos hstrftime, beq_iff_eq.mpr hstrftime]
  by_cases hgeoDistance : name = geoDistanceName
  · rw [if_neg hstrftime, if_pos hgeoDistance, beq_eq_false_iff_ne.mpr hstrftime,
      beq_iff_eq.mpr hgeoDistance]
  · rw [if_neg hstrftime, if_neg hgeoDistance, beq_eq_false_iff_ne.mpr hstrftime,
      beq_eq_false_iff_ne.mpr hgeoDistance]

/-- What a function makes of its arguments. -/
inductive Applied : String → List Resolved → Resolved → Prop where
  /-- The format of a time. -/
  | strftime {parts : List Resolved} :
    Applied strftimeName parts
      { identifier := "strftime(" ++ ", ".intercalate (parts.map (·.identifier)) ++ ")"
        params := paramsOf parts }
  /-- The distance of two points. -/
  | geoDistance {lonA latA lonB latB : Resolved} :
    Applied geoDistanceName [lonA, latA, lonB, latB]
      { identifier :=
          haversine lonA.identifier latA.identifier lonB.identifier latB.identifier
        params := paramsOf [lonA, latA, lonB, latB]
        nullPolicy := .disabled }

section Meanings

variable (now : Instant)

/-- What an operand that is no function stands for, given the calls for it. -/
inductive Operand.MeansDirectly : Operand → List FieldCall → Resolved → Prop where
  /-- A time is bound, and nothing is asked. -/
  | time {name param : String} {value : Value} :
    (TimeName.ofText? name).bind (·.value? now) = some value →
      MeansDirectly (.identifier name) []
        { identifier := Fragment.paramMarker param, params := .single param value }
  /-- A field is asked for. -/
  | field {call : FieldCall} {resolved : Resolved} :
    (TimeName.ofText? call.field).bind (·.value? now) = none → call.result = .ok resolved →
      MeansDirectly (.identifier call.field) [call] resolved
  /-- A text is bound. -/
  | text {content param : String} :
    MeansDirectly (.text content) []
      { identifier := Fragment.paramMarker param, params := .single param (.text content) }
  /-- A number is bound. -/
  | number {value : Double} {param : String} :
    MeansDirectly (.number value) []
      { identifier := Fragment.paramMarker param, params := .single param (.double value) }

/-- What the arguments of a function stand for, given the calls for them. -/
inductive ArgumentsMean : List Operand → List FieldCall → List Resolved → Prop where
  /-- There are none. -/
  | nil : ArgumentsMean [] [] []
  /-- One more argument, which is no function. -/
  | cons {operand : Operand} {operands : List Operand} {calls more : List FieldCall}
    {part : Resolved} {parts : List Resolved} : operand.MeansDirectly now calls part →
      ArgumentsMean operands more parts →
        ArgumentsMean (operand :: operands) (calls ++ more) (part :: parts)

/-- What an operand stands for, given the calls for it. -/
inductive Operand.Means : Operand → List FieldCall → Resolved → Prop where
  /-- It is no function. -/
  | direct {operand : Operand} {calls : List FieldCall} {resolved : Resolved} :
    operand.MeansDirectly now calls resolved → Means operand calls resolved
  /-- It is a function that refuses none of its arguments. -/
  | call {name : String} {arguments : List Operand} {calls : List FieldCall}
    {parts : List Resolved} {resolved : Resolved} : refusal? name arguments = none →
      ArgumentsMean now arguments calls parts → Applied name parts resolved →
        Means (.call name arguments) calls resolved

/-- The fields that can be asked for in an operand before a function refuses an argument. -/
def Operand.reached : Operand → List String
  | .call name arguments =>
    Operand.allFields now
      (arguments.take ((refusal? name arguments).elim arguments.length Prod.fst))
  | operand => operand.fields now

/-- An operand fails, given the calls for it. -/
inductive Operand.Stops : Operand → List FieldCall → SearchError → Prop where
  /-- The resolver has rejected a field in it. -/
  | rejected {operand : Operand} {calls : List FieldCall} {error : SearchError} :
    RejectedAmong (operand.reached now) calls error → Stops operand calls error
  /-- A function has refused an argument, after those before it have been asked for. -/
  | refused {name : String} {arguments : List Operand} {index : Nat} {fault : CallFault}
    {calls : List FieldCall} : refusal? name arguments = some (index, fault) →
      AskedFor (Operand.allFields now (arguments.take index)) calls →
        Stops (.call name arguments) calls (.function name fault)

/-- A side of a comparison fails, given the calls for it. -/
inductive Operand.StopsSide (side : Side) : Operand → List FieldCall → SearchError → Prop where
  /-- The operand fails. -/
  | operand {operand : Operand} {calls : List FieldCall} {cause : SearchError} :
    operand.Stops now calls cause →
      StopsSide side operand calls (.invalidOperand side operand.literal cause)
  /-- The operand is a field that stands for an empty expression. -/
  | empty {call : FieldCall} {resolved : Resolved} :
    (TimeName.ofText? call.field).bind (·.value? now) = none → call.result = .ok resolved →
      resolved.identifier = "" →
        StopsSide side (.identifier call.field) [call]
          (.invalidOperand side call.field (.unknownField call.field))

/-- The fields of a comparison, from left to right; a gap has none. -/
def stepFields : Option Comparison → List String
  | some c => c.left.fields now ++ c.right.fields now
  | none => []

/-- The fields of a list of groups, from left to right. -/
def fieldsOf (groups : List Group) : List String := (stepsOf groups).flatMap (stepFields now)

variable {now}

theorem Operand.MeansDirectly.askedFor {operand : Operand} {calls : List FieldCall}
    {resolved : Resolved} (h : operand.MeansDirectly now calls resolved) :
    AskedFor (operand.fields now) calls := by
  cases h with
  | time hvalue =>
    rw [Operand.fields, hvalue]
    exact .nil
  | field hname hresult =>
    rw [Operand.fields, hname]
    exact .single hresult
  | text | number => exact .nil

theorem ArgumentsMean.askedFor {operands : List Operand} {calls : List FieldCall}
    {parts : List Resolved} (h : ArgumentsMean now operands calls parts) :
    AskedFor (Operand.allFields now operands) calls := by
  induction h with
  | nil => exact .nil
  | cons hfirst _ ih => exact hfirst.askedFor.append ih

theorem ArgumentsMean.length_eq {operands : List Operand} {calls : List FieldCall}
    {parts : List Resolved} (h : ArgumentsMean now operands calls parts) :
    parts.length = operands.length := by
  induction h with
  | nil => rfl
  | cons _ _ ih => rw [List.length_cons, ih, List.length_cons]

theorem Operand.Means.askedFor {operand : Operand} {calls : List FieldCall} {resolved : Resolved}
    (h : operand.Means now calls resolved) : AskedFor (operand.fields now) calls := by
  cases h with
  | direct h => exact h.askedFor
  | call _ harguments _ => exact harguments.askedFor

end Meanings

/-! ### Operands -/

section Operands

variable {context : Context ω} {resolver : Resolver ω}

theorem bindValue_consults {P : List FieldCall → Resolved → Prop}
    {Q : List FieldCall → SearchError → Prop} {value : Value}
    (h : ∀ param, P [] { identifier := Fragment.paramMarker param, params := .single param value }) :
    Consults resolver P Q (bindValue context value) := by
  rintro s _ _ ⟨⟩
  exact ⟨[], .nil, h _⟩

/-- Where a field is asked for, the answer decides what comes of it. -/
theorem resolveIdentifier_consults {name : String}
    (hname : (TimeName.ofText? name).bind (·.value? context.now) = none) :
    Consults resolver
      (fun calls resolved => ∃ call, calls = [call] ∧ call.field = name ∧ call.result = .ok resolved)
      (fun calls error => ∃ call, calls = [call] ∧ call.field = name ∧ call.result = .error error)
      (resolveIdentifier context resolver name) := by
  intro s t result hrun
  unfold resolveIdentifier at hrun
  rw [hname] at hrun
  dsimp only at hrun
  rw [outcome_tryCatch, outcome_inWorld] at hrun
  cases hreached : (resolver.resolve name).run.run s.world with
  | mk answer world =>
    have hreplies : resolver.Replies s.world [⟨name, answer⟩] world := .cons hreached .nil
    have hresult : (FieldCall.mk name answer).result = result ∧ t.world = world := by
      unfold FieldCall.result
      rw [hreached] at hrun
      cases answer with
      | ok resolved =>
        obtain ⟨rfl, rfl⟩ := Prod.mk.inj hrun
        exact ⟨rfl, rfl⟩
      | error error =>
        dsimp only at hrun ⊢
        cases hconstant : constant? name with
        | some sql =>
          rw [hconstant] at hrun
          obtain ⟨rfl, rfl⟩ := Prod.mk.inj hrun
          exact ⟨rfl, rfl⟩
        | none =>
          rw [hconstant] at hrun
          obtain ⟨rfl, rfl⟩ := Prod.mk.inj hrun
          exact ⟨rfl, rfl⟩
    obtain ⟨hresult, rfl⟩ := hresult
    refine ⟨_, hreplies, ?_⟩
    cases result with
    | ok resolved => exact ⟨_, rfl, rfl, hresult⟩
    | error error => exact ⟨_, rfl, rfl, hresult⟩

/-- An operand that is no function fails only as a field that is rejected. -/
theorem resolveOperand_direct {operand : Operand} (hoperand : operand.isCall = false) :
    Consults resolver (operand.MeansDirectly context.now)
      (RejectedAmong (operand.fields context.now)) (resolveOperand context resolver operand) := by
  cases operand with
  | call name arguments => cases hoperand
  | text content =>
    rw [resolveOperand]
    exact bindValue_consults fun _ => .text
  | number value =>
    rw [resolveOperand]
    exact bindValue_consults fun _ => .number
  | identifier name =>
    rw [resolveOperand]
    cases hname : (TimeName.ofText? name).bind (·.value? context.now) with
    | some value =>
      unfold resolveIdentifier
      rw [hname]
      exact bindValue_consults fun _ => .time hname
    | none =>
      refine (resolveIdentifier_consults hname).mono ?_ ?_
      · rintro _ resolved ⟨call, rfl, rfl, hresult⟩
        exact .field hname hresult
      · rintro _ error ⟨call, rfl, rfl, hresult⟩
        rw [Operand.fields, hname]
        exact .single hresult

/-- A function that refuses its first argument, or has another reason to refuse, asks for nothing. -/
theorem Operand.Stops.at_once {now : Instant} {name : String} {arguments : List Operand}
    {fault : CallFault} (h : refusal? name arguments = some (0, fault)) :
    (Operand.call name arguments).Stops now [] (.function name fault) :=
  .refused h .nil

/-- Arguments are checked and resolved in turn, up to the first one that is refused. -/
theorem resolveChecked_consults {check : Nat → Operand → Option SearchError}
    {refused : Operand → Bool} {refusal : Nat → SearchError}
    (hcheck : ∀ index operand, check index operand =
      if refused operand then some (refusal index) else none)
    (hcalls : ∀ operand, operand.isCall = true → refused operand = true)
    (arguments : List Operand) (start : Nat) :
    Consults resolver
      (fun calls parts =>
        arguments.findIdx? refused = none ∧ ArgumentsMean context.now arguments calls parts)
      (fun calls error =>
        RejectedAmong (Operand.allFields context.now
            (arguments.take (arguments.findIdx refused))) calls error ∨
          ∃ index, arguments.findIdx? refused = some index ∧ error = refusal (start + index) ∧
            AskedFor (Operand.allFields context.now (arguments.take index)) calls)
      (resolveChecked check start (callArguments context resolver arguments)) := by
  induction arguments generalizing start with
  | nil =>
    rw [callArguments, resolveChecked]
    exact .pure ⟨rfl, .nil⟩
  | cons operand rest ih =>
    rw [callArguments]
    unfold resolveChecked
    dsimp only
    rw [hcheck]
    cases hrefused : refused operand with
    | true =>
      exact .throw (.inr ⟨0, by rw [List.findIdx?_cons, hrefused]; rfl, rfl, .nil⟩)
    | false =>
      have hoperand : operand.isCall = false :=
        Bool.eq_false_iff.mpr fun h => by simp [hcalls operand h] at hrefused
      have hfind : (operand :: rest).findIdx? refused = (rest.findIdx? refused).map (· + 1) := by
        rw [List.findIdx?_cons, hrefused]
        rfl
      have hreached : (operand :: rest).take ((operand :: rest).findIdx refused) =
          operand :: rest.take (rest.findIdx refused) := by
        rw [List.findIdx_cons, hrefused, cond_false, List.take_succ_cons]
      rw [hfind, hreached]
      refine ((resolveOperand_direct hoperand).mono (fun _ _ => id) fun _ _ h => ?_).bind
        fun calls first hfirst => ((ih (start + 1)).mono (fun _ _ => id) fun more _ h => ?_).bind
        fun more parts hparts => .pure ?_
      · exact .inl (h.mono _)
      · rcases h with h | ⟨index, hindex, rfl, hasked⟩
        · exact .inl (hfirst.askedFor.rejectedAmong h)
        · refine .inr ⟨index + 1, by rw [hindex]; rfl, by rw [Nat.add_right_comm, Nat.add_assoc], ?_⟩
          rw [List.take_succ_cons]
          exact hfirst.askedFor.append hasked
      · obtain ⟨hnone, hmean⟩ := hparts
        rw [hnone, List.append_nil]
        exact ⟨rfl, .cons hfirst hmean⟩

theorem length_callArguments (arguments : List Operand) :
    (callArguments context resolver arguments).length = arguments.length := by
  induction arguments with
  | nil => rfl
  | cons _ _ ih => rw [callArguments, List.length_cons, ih, List.length_cons]

/-- A function that has its arguments checked refuses the first one that does not pass. -/
theorem checked_consults {name : String} {arguments : List Operand}
    {check : Nat → Operand → Option SearchError} (refused : Operand → Bool)
    (fault : Nat → CallFault)
    (hrefusal : refusal? name arguments =
      (arguments.findIdx? refused).map fun index => (index, fault index))
    (hcheck : ∀ index operand, check index operand =
      if refused operand then some (.function name (fault index)) else none)
    (hcalls : ∀ operand, operand.isCall = true → refused operand = true)
    {next : List Resolved → Search ω Resolved}
    (hnext : ∀ parts : List Resolved, parts.length = arguments.length →
      ∃ resolved, Applied name parts resolved ∧ next parts = pure resolved) :
    Consults resolver ((Operand.call name arguments).Means context.now)
      ((Operand.call name arguments).Stops context.now)
      (resolveChecked check 0 (callArguments context resolver arguments) >>= next) := by
  have hreached : (refusal? name arguments).elim arguments.length Prod.fst =
      arguments.findIdx refused := by
    rw [hrefusal, List.findIdx_eq_getD_findIdx?]
    cases arguments.findIdx? refused <;> rfl
  refine ((resolveChecked_consults hcheck hcalls arguments 0).mono (fun _ _ => id) ?_).bind ?_
  · rintro calls error (hrejected | ⟨index, hindex, rfl, hasked⟩)
    · refine .rejected ?_
      rw [Operand.reached, hreached]
      exact hrejected
    · rw [Nat.zero_add]
      exact .refused (by rw [hrefusal, hindex]; rfl) hasked
  · rintro calls parts ⟨hnone, hmean⟩
    obtain ⟨resolved, happlied, hpure⟩ := hnext parts hmean.length_eq
    rw [hpure]
    refine .pure ?_
    rw [List.append_nil]
    exact .call (by rw [hrefusal, hnone]; rfl) hmean happlied

theorem strftime_consults (arguments : List Operand) :
    Consults resolver ((Operand.call strftimeName arguments).Means context.now)
      ((Operand.call strftimeName arguments).Stops context.now)
      (strftime (callArguments context resolver arguments)) := by
  unfold strftime
  match arguments with
  | [] => exact .throw (.at_once rfl)
  | .identifier _ :: _ => exact .throw (.at_once rfl)
  | .number _ :: _ => exact .throw (.at_once rfl)
  | .call _ _ :: _ => exact .throw (.at_once rfl)
  | .text content :: rest =>
    refine checked_consults Operand.isCall .nestedCall rfl ?_
      (fun _ => id) fun parts _ => ⟨_, .strftime, rfl⟩
    intro index operand
    cases operand <;> rfl

theorem geoDistance_consults (arguments : List Operand) :
    Consults resolver ((Operand.call geoDistanceName arguments).Means context.now)
      ((Operand.call geoDistanceName arguments).Stops context.now)
      (geoDistance (callArguments context resolver arguments)) := by
  unfold geoDistance
  dsimp only
  rw [length_callArguments]
  by_cases hlength : arguments.length ≠ 4
  · rw [if_pos hlength]
    exact .throw (.at_once (by rw [refusal?_geoDistance, if_pos hlength]))
  · rw [if_neg hlength]
    refine checked_consults (fun | .identifier _ | .number _ => false | _ => true)
      .notIdentifierOrNumber ?_ ?_ ?_ ?_
    · rw [refusal?_geoDistance, if_neg hlength]
    · intro index operand
      cases operand <;> rfl
    · intro operand hcall
      cases operand with
      | call name arguments => rfl
      | identifier name | text content | number value => cases hcall
    · intro parts hparts
      -- there are as many of them as points have coordinates
      match parts, hparts.trans (not_not.mp hlength) with
      | [_, _, _, _], _ => exact ⟨_, .geoDistance, rfl⟩

/-- An operand means something, or it fails. -/
theorem resolveOperand_consults (hfunctions : context.functions = .standard) (operand : Operand) :
    Consults resolver (operand.Means context.now) (operand.Stops context.now)
      (resolveOperand context resolver operand) := by
  have hdirect (hoperand : operand.isCall = false)
      (hreached : operand.reached context.now = operand.fields context.now) :
      Consults resolver (operand.Means context.now) (operand.Stops context.now)
        (resolveOperand context resolver operand) :=
    (resolveOperand_direct hoperand).mono (fun _ _ => .direct) fun _ _ h =>
      .rejected (by rw [hreached]; exact h)
  cases operand with
  | identifier name | text content | number value => exact hdirect rfl rfl
  | call name arguments =>
    rw [resolveOperand, Functions.call, hfunctions, get?_standard]
    by_cases hstrftime : name = strftimeName
    · rw [if_pos hstrftime, hstrftime]
      exact strftime_consults arguments
    by_cases hgeoDistance : name = geoDistanceName
    · rw [if_neg hstrftime, if_pos hgeoDistance, hgeoDistance]
      exact geoDistance_consults arguments
    · rw [if_neg hstrftime, if_neg hgeoDistance]
      refine .throw (.at_once ?_)
      unfold refusal?
      rw [if_neg hstrftime, if_neg hgeoDistance]

end Operands

/-! ### Comparisons and trees -/

section Comparisons

variable (context : Context ω)

/-- What a comparison is compiled to, given the calls for it: its sides mean something, and their
expressions are not empty. -/
inductive Comparison.Means (c : Comparison) : List FieldCall → Fragment → Prop where
  /-- The calls for the right side come after those for the left side. -/
  | sides {calls more : List FieldCall} {left right : Resolved} {fragment : Fragment}
    {s t : Session ω} : c.left.Means context.now calls left → left.identifier ≠ "" →
      c.right.Means context.now more right → right.identifier ≠ "" →
        outcome (compare context left c.comparator right) s = (.ok fragment, t) →
          Means c (calls ++ more) fragment

/-- What comparisons are compiled to, given the calls for them; a gap cannot be compiled. -/
inductive StepsMean : List (Option Comparison) → List FieldCall → List Fragment → Prop where
  /-- There are none. -/
  | nil : StepsMean [] [] []
  /-- One more comparison. -/
  | cons {c : Comparison} {steps : List (Option Comparison)} {calls more : List FieldCall}
    {leaf : Fragment} {leaves : List Fragment} : c.Means context calls leaf →
      StepsMean steps more leaves → StepsMean (some c :: steps) (calls ++ more) (leaf :: leaves)

/-- A comparison, or a gap, fails, given the calls for it. -/
inductive StepStops : Option Comparison → List FieldCall → SearchError → Prop where
  /-- There is no group where there must be one. -/
  | gap : StepStops none [] .emptyExpression
  /-- The left side fails. -/
  | left {c : Comparison} {calls : List FieldCall} {error : SearchError} :
    c.left.StopsSide context.now .left calls error → StepStops (some c) calls error
  /-- The left side means something, but the right side fails. -/
  | right {c : Comparison} {calls more : List FieldCall} {left : Resolved} {error : SearchError} :
    c.left.Means context.now calls left → left.identifier ≠ "" →
      c.right.StopsSide context.now .right more error → StepStops (some c) (calls ++ more) error

/-- Of some comparisons and gaps, one fails after those before it have been compiled, given the
calls for them. -/
def StepsStop (steps : List (Option Comparison)) (calls : List FieldCall) (error : SearchError) :
    Prop :=
  ∃ before step after done here leaves, steps = before ++ step :: after ∧ calls = done ++ here ∧
    StepsMean context before done leaves ∧ StepStops context step here error

variable {context} {resolver : Resolver ω}

theorem Comparison.Means.askedFor {c : Comparison} {calls : List FieldCall} {fragment : Fragment}
    (h : c.Means context calls fragment) : AskedFor (stepFields context.now (some c)) calls := by
  cases h with
  | sides hleft _ hright _ _ => exact hleft.askedFor.append hright.askedFor

theorem StepsMean.askedFor {steps : List (Option Comparison)} {calls : List FieldCall}
    {leaves : List Fragment} (h : StepsMean context steps calls leaves) :
    AskedFor (steps.flatMap (stepFields context.now)) calls := by
  induction h with
  | nil => exact .nil
  | cons hfirst _ ih =>
    rw [List.flatMap_cons]
    exact hfirst.askedFor.append ih

/-- Only a field can stand for an empty expression. -/
theorem Operand.Means.of_empty {now : Instant} {operand : Operand} {calls : List FieldCall}
    {resolved : Resolved} (h : operand.Means now calls resolved) (hempty : resolved.identifier = "") :
    ∃ call, operand = .identifier call.field ∧ calls = [call] ∧
      (TimeName.ofText? call.field).bind (·.value? now) = none ∧ call.result = .ok resolved := by
  cases h with
  | call _ _ happlied =>
    cases happlied with
    | strftime => exact absurd (String.append_eq_empty_iff.mp hempty).2 (by decide)
    | geoDistance =>
      unfold haversine at hempty
      exact absurd (String.append_eq_empty_iff.mp hempty).2 (by decide)
  | direct h =>
    cases h with
    | field hname hresult => exact ⟨_, rfl, rfl, hname, hresult⟩
    | time | text | number => exact absurd (String.append_eq_empty_iff.mp hempty).2 (by decide)

theorem resolveSide_consults (hfunctions : context.functions = .standard) (side : Side)
    (operand : Operand) :
    Consults resolver
      (fun calls resolved => operand.Means context.now calls resolved ∧ resolved.identifier ≠ "")
      (operand.StopsSide context.now side) (resolveSide context resolver side operand) := by
  unfold resolveSide
  refine ((resolveOperand_consults hfunctions operand).explain fun _ _ => .operand).bind
    fun calls resolved hmeans => ?_
  by_cases hempty : resolved.identifier = ""
  · obtain ⟨call, rfl, rfl, hname, hresult⟩ := hmeans.of_empty hempty
    rw [if_pos hempty]
    exact .throw (.empty hname hresult hempty)
  · rw [if_neg hempty]
    refine .pure ?_
    rw [List.append_nil]
    exact ⟨hmeans, hempty⟩

/-- Comparing asks for nothing. -/
theorem compare_consults (left : Resolved) (comparator : Comparator) (right : Resolved) :
    Consults resolver
      (fun calls fragment => calls = [] ∧ ∃ s t : Session ω,
        outcome (compare context left comparator right) s = (.ok fragment, t))
      (fun _ _ => False) (compare context left comparator right) := by
  have hside (side : Side) (operand : Resolved) :
      Consults resolver (fun calls _ => calls = []) (fun _ _ => False)
        (relatedSide context side operand) := by
    unfold relatedSide
    cases operand.related with
    | none => exact .pure rfl
    | some selection =>
      rintro s _ _ ⟨⟩
      exact ⟨[], .nil, rfl⟩
  have hcompare : Consults resolver (fun calls _ => calls = []) (fun _ _ => False)
      (compare context left comparator right) := by
    unfold compare
    dsimp only
    split
    · exact .pure rfl
    · refine (hside .left left).bind ?_
      rintro _ _ rfl
      refine (hside .right right).bind ?_
      rintro _ _ rfl
      exact .pure rfl
  intro s t result hrun
  obtain ⟨calls, hreplies, hended⟩ := hcompare s t result hrun
  refine ⟨calls, hreplies, ?_⟩
  cases result with
  | ok fragment => exact ⟨hended, s, t, hrun⟩
  | error error => exact hended

theorem compileStep_consults (hfunctions : context.functions = .standard)
    (step : Option Comparison) :
    Consults resolver (fun calls fragment => ∃ c, step = some c ∧ c.Means context calls fragment)
      (StepStops context step) (compileStep context resolver step) := by
  cases step with
  | none => exact .throw .gap
  | some c =>
    refine ((resolveSide_consults hfunctions .left c.left).mono (fun _ _ => id)
      fun _ _ => .left).bind fun calls left hleft => ?_
    refine ((resolveSide_consults hfunctions .right c.right).mono (fun _ _ => id)
      fun _ _ => .right hleft.1 hleft.2).bind fun more right hright => ?_
    refine (compare_consults left c.comparator right).mono ?_ fun _ _ => False.elim
    rintro _ fragment ⟨rfl, s, t, hrun⟩
    rw [List.append_nil]
    exact ⟨c, rfl, .sides hleft.1 hleft.2 hright.1 hright.2 hrun⟩

/-- A run that compiles comparisons compiles all of them, or it stops at one of them. -/
theorem compileSteps_consults (hfunctions : context.functions = .standard)
    (steps : List (Option Comparison)) :
    Consults resolver (StepsMean context steps) (StepsStop context steps)
      (steps.mapM (compileStep context resolver)) := by
  induction steps with
  | nil => exact .pure .nil
  | cons step rest ih =>
    rw [List.mapM_cons]
    refine ((compileStep_consults hfunctions step).mono (fun _ _ => id) fun calls _ h => ?_).bind ?_
    · exact ⟨[], step, rest, [], calls, [], rfl, rfl, .nil, h⟩
    rintro calls leaf ⟨c, rfl, hleaf⟩
    refine (ih.mono (fun _ _ => id) ?_).bind fun more leaves hleaves => .pure ?_
    · rintro _ error ⟨before, step, after, done, here, leaves, rfl, rfl, hdone, hhere⟩
      exact ⟨some c :: before, step, after, calls ++ done, here, leaf :: leaves, rfl,
        (List.append_assoc _ _ _).symm, .cons hleaf hdone, hhere⟩
    · rw [List.append_nil]
      exact .cons hleaf hleaves

theorem compileGroups_consults (hfunctions : context.functions = .standard) (groups : List Group) :
    Consults resolver
      (fun calls fragment => ∃ leaves, StepsMean context (stepsOf groups) calls leaves ∧
        fragment = (fragments fun index => leaves.getD index .none).row groups)
      (StepsStop context (stepsOf groups)) (compileGroups context resolver groups) := by
  intro s t result hrun
  cases result with
  | ok fragment =>
    obtain ⟨leaves, hleaves, hrow⟩ := compileGroups_eq_ok hrun
    obtain ⟨calls, hreplies, hended⟩ := compileSteps_consults hfunctions _ s t _ hleaves
    exact ⟨calls, hreplies, leaves, hended, hrow⟩
  | error error =>
    exact compileSteps_consults hfunctions _ s t _ (compileGroups_eq_error hrun)

end Comparisons

/-! ### The order of the calls -/

section Order

variable {now : Instant}

theorem Operand.allFields_append (first second : List Operand) :
    Operand.allFields now (first ++ second) =
      Operand.allFields now first ++ Operand.allFields now second := by
  induction first with
  | nil => rfl
  | cons operand rest ih =>
    rw [List.cons_append, Operand.allFields, Operand.allFields, ih, List.append_assoc]

theorem Operand.allFields_take_prefix (operands : List Operand) (count : Nat) :
    Operand.allFields now (operands.take count) <+: Operand.allFields now operands := by
  conv_rhs => rw [← List.take_append_drop count operands, Operand.allFields_append]
  exact List.prefix_append _ _

theorem Operand.Stops.fields_prefix {operand : Operand} {calls : List FieldCall}
    {error : SearchError} (h : operand.Stops now calls error) :
    calls.map (·.field) <+: operand.fields now := by
  cases h with
  | rejected h =>
    obtain ⟨-, -, -, hprefix, -⟩ := h
    refine hprefix.trans ?_
    cases operand with
    | call name arguments => exact Operand.allFields_take_prefix _ _
    | identifier name | text content | number value => exact List.prefix_refl _
  | refused _ hasked =>
    rw [hasked.fields_eq]
    exact Operand.allFields_take_prefix _ _

theorem Operand.StopsSide.fields_prefix {side : Side} {operand : Operand} {calls : List FieldCall}
    {error : SearchError} (h : operand.StopsSide now side calls error) :
    calls.map (·.field) <+: operand.fields now := by
  cases h with
  | operand h => exact h.fields_prefix
  | empty hname _ _ =>
    rw [Operand.fields, hname]
    exact List.prefix_refl _

theorem StepStops.fields_prefix {context : Context ω} {step : Option Comparison}
    {calls : List FieldCall} {error : SearchError} (h : StepStops context step calls error) :
    calls.map (·.field) <+: stepFields context.now step := by
  cases h with
  | gap => exact List.prefix_refl _
  | left h => exact h.fields_prefix.trans (List.prefix_append _ _)
  | right hleft _ h =>
    rw [List.map_append, hleft.askedFor.fields_eq]
    exact (List.prefix_append_right_inj _).mpr h.fields_prefix

theorem StepsStop.fields_prefix {context : Context ω} {steps : List (Option Comparison)}
    {calls : List FieldCall} {error : SearchError} (h : StepsStop context steps calls error) :
    calls.map (·.field) <+: steps.flatMap (stepFields context.now) := by
  obtain ⟨before, step, after, done, here, leaves, rfl, rfl, hdone, hhere⟩ := h
  rw [List.flatMap_append, List.flatMap_cons, List.map_append, hdone.askedFor.fields_eq]
  exact (List.prefix_append_right_inj _).mpr (hhere.fields_prefix.trans (List.prefix_append _ _))

mutual

theorem Operand.value?_of_mem_fields {field : String} (operand : Operand)
    (h : field ∈ operand.fields now) : (TimeName.ofText? field).bind (·.value? now) = none := by
  match operand with
  | .identifier name =>
    rw [Operand.fields] at h
    split at h
    · cases h
    · rename_i hname
      obtain rfl := List.mem_singleton.mp h
      simpa using hname
  | .text _ | .number _ => cases h
  | .call _ arguments => exact Operand.value?_of_mem_allFields arguments h

theorem Operand.value?_of_mem_allFields {field : String} (operands : List Operand)
    (h : field ∈ Operand.allFields now operands) :
    (TimeName.ofText? field).bind (·.value? now) = none := by
  match operands with
  | [] => cases h
  | first :: rest =>
    rw [Operand.allFields, List.mem_append] at h
    exact h.elim (Operand.value?_of_mem_fields first) (Operand.value?_of_mem_allFields rest)

end

theorem value?_of_mem_fieldsOf {field : String} {groups : List Group}
    (h : field ∈ fieldsOf now groups) : (TimeName.ofText? field).bind (·.value? now) = none := by
  obtain ⟨step, -, hstep⟩ := List.mem_flatMap.mp h
  cases step with
  | none => cases hstep
  | some c =>
    exact (List.mem_append.mp hstep).elim (Operand.value?_of_mem_fields _)
      (Operand.value?_of_mem_fields _)

/-- Every name of a time has a value, but for the end of a month with which the calendar ends. -/
theorem TimeName.value?_eq_none {name : TimeName} (h : name.value? now = none) :
    name = .monthEnd ∧ Date.lastYear < now.date.nextMonthStart.year := by
  cases name with
  | monthEnd =>
    refine ⟨rfl, Int.not_le.mp fun hle => ?_⟩
    have hvalue : TimeName.monthEnd.value? now =
        if now.date.nextMonthStart.year ≤ Date.lastYear then _ else none := rfl
    rw [hvalue, if_pos hle] at h
    cases h
  | _ => cases h

end Order

/-- **Fields are asked for in the order in which the client has written them, up to the first
failure.**  For any tree and any resolver, whatever it remembers, the calls that the resolver gets
are for fields of the tree, from the first one on; a name of a time is none, unless it names the end
of a month with which the calendar ends.

* If the tree is compiled, they are all of its fields, each of them as often as it stands there.
  Each is accepted, and stands for the answer or, only if that is a rejection, for the constant with
  its name.
* If not, either a list has no groups, or a side of a comparison fails, and the error names the side
  and what the client has written there.  The last call is for the field that is rejected, or for the
  last one before an argument that a function refuses, or for a field that stands for an empty
  expression. -/
theorem compileGroups_asks_in_order {context : Context (List FieldCall × ω)}
    (hfunctions : context.functions = .standard) (resolver : Resolver ω) (groups : List Group)
    {s t : Session (List FieldCall × ω)} {result : Except SearchError Fragment}
    (hrun : outcome (compileGroups context resolver.logged groups) s = (result, t)) :
    ∃ calls, t.world.1 = s.world.1 ++ calls ∧ resolver.Replies s.world.2 calls t.world.2 ∧
      calls.map (·.field) <+: fieldsOf context.now groups ∧
      (∀ call ∈ calls, ∀ time, TimeName.ofText? call.field = some time →
        time = .monthEnd ∧ Date.lastYear < context.now.date.nextMonthStart.year) ∧
      (∀ fragment, result = .ok fragment →
        AskedFor (fieldsOf context.now groups) calls ∧
          ∃ leaves, StepsMean context (stepsOf groups) calls leaves ∧
            fragment = (fragments fun index => leaves.getD index .none).row groups) ∧
      ∀ error, result = .error error → StepsStop context (stepsOf groups) calls error := by
  obtain ⟨calls, hreplies, hended⟩ :=
    compileGroups_consults hfunctions groups s t result hrun
  obtain ⟨hlog, hreplies⟩ := hreplies.of_logged
  have hstart : calls.map (·.field) <+: fieldsOf context.now groups := by
    cases result with
    | ok fragment =>
      obtain ⟨leaves, hleaves, -⟩ := hended
      rw [hleaves.askedFor.fields_eq]
      exact List.prefix_refl _
    | error error => exact StepsStop.fields_prefix hended
  refine ⟨calls, hlog, hreplies, hstart, fun call hcall time htime => ?_, ?_, ?_⟩
  · have hvalue := value?_of_mem_fieldsOf (hstart.subset (List.mem_map_of_mem hcall))
    rw [htime] at hvalue
    exact TimeName.value?_eq_none hvalue
  · rintro fragment rfl
    obtain ⟨leaves, hleaves, hrow⟩ := hended
    exact ⟨hleaves.askedFor, leaves, hleaves, hrow⟩
  · rintro error rfl
    exact hended

/-- A comparison with a constant and one with a function. -/
def monthlyTree : List Group :=
  [.comparison .and ⟨.identifier "title", .notEqual, .identifier "NULL"⟩,
    .comparison .or
      ⟨.call "strftime" [.text "%Y", .identifier "body"], .equal, .identifier "@year"⟩]

/-- A session in which nothing has been asked for. -/
def silentSession : Session (List FieldCall × Unit) := sampleSession

theorem monthlyTree_asked :
    ∃ calls,
      (outcome (compileGroups sampleContext sampleList.resolver.logged monthlyTree)
        silentSession).2.world.1 = calls ∧
      AskedFor ["title", "NULL", "body"] calls := by
  have hok : (outcome (compileGroups sampleContext sampleList.resolver.logged monthlyTree)
      silentSession).1.isOk = true := by decide +kernel
  obtain ⟨fragment, t, hrun⟩ := exists_of_isOk hok
  obtain ⟨calls, hlog, -, -, -, hcompiled, -⟩ :=
    compileGroups_asks_in_order rfl sampleList.resolver monthlyTree hrun
  obtain ⟨hasked, -⟩ := hcompiled fragment rfl
  have hfields : fieldsOf (.ofMillis 0) monthlyTree = ["title", "NULL", "body"] := by decide +kernel
  rw [hrun]
  exact ⟨calls, hlog, hfields ▸ hasked⟩

/-- An instant in the last month that dates are computed for. -/
def lastMonth : Instant := .ofMillis 8210265494399000

/-- A list of a field whose name is that of a time, and of another one. -/
def monthEndList : AllowList := ⟨[.named "@monthEnd", .named "title"]⟩

/-- A tree without groups fails without an operand that the error could name, and in the last month
the end of the month is a field. -/
theorem monthEnd_asked_in_lastMonth :
    (outcome (compileGroups sampleContext sampleList.resolver.logged []) silentSession).1 =
        .error .emptyExpression ∧
      (∀ side literal cause,
        (outcome (compileGroups sampleContext sampleList.resolver.logged []) silentSession).1 ≠
          .error (.invalidOperand side literal cause)) ∧
      TimeName.ofText? "@monthEnd" = some .monthEnd ∧
      (outcome (compileGroups { sampleContext with now := lastMonth } monthEndList.resolver.logged
          [.comparison .and ⟨.identifier "@monthEnd", .equal, .identifier "title"⟩])
        silentSession).2.world.1.map (·.field) = ["@monthEnd", "title"] := by
  refine ⟨rfl, ?_, by decide, by decide +kernel⟩
  rintro side literal cause ⟨⟩

end PagedSearch
