import PagedSearch.Proofs.Asking

/-!
# Fields that stand for nothing

A resolver may answer with an empty expression, which is no SQL.  A side of a comparison that is such
a field is refused, as if there were no such field.  An argument of a function is not: the function
puts it into its own SQL, and the place between two commas stays empty.

## Main definitions

* `FieldCall.IsEmpty` — the resolver has answered with an empty expression.
* `GetsTo` — the sides that a run gets to.
* `Operand.IsFilled` — what a side of a compiled comparison stands for.

## Main results

* `ArgumentsMean.empty_iff` — an argument is empty exactly if it is a field that is answered so.
* `compileGroups_refuses_empty_sides` — no tree with an empty side is compiled, and the functions in
  a compiled tree have empty arguments exactly where the resolver has answered so.
-/

namespace PagedSearch

open Search

variable {ω : Type}

/-! ### Empty answers -/

/-- The resolver has answered with an empty expression. -/
def FieldCall.IsEmpty (call : FieldCall) : Prop :=
  ∃ resolved, call.answer = .ok resolved ∧ resolved.identifier = ""

theorem constant?_ne_empty {name sql : String} (h : constant? name = some sql) : sql ≠ "" := by
  unfold constant? at h
  split at h
  · obtain rfl := Option.some.inj h
    decide
  · obtain rfl := Option.some.inj h
    decide
  · obtain rfl := Option.some.inj h
    decide
  · cases h

/-- What comes of a call is empty only as an answer. -/
theorem FieldCall.isEmpty_iff {call : FieldCall} {resolved : Resolved}
    (h : call.result = .ok resolved) : resolved.identifier = "" ↔ call.IsEmpty := by
  obtain ⟨field, error | answer⟩ := call
  · unfold FieldCall.result at h
    dsimp only at h
    cases hconstant : constant? field with
    | none =>
      rw [hconstant] at h
      cases h
    | some sql =>
      rw [hconstant] at h
      obtain rfl := Except.ok.inj h
      refine ⟨fun hempty => absurd hempty (constant?_ne_empty hconstant), ?_⟩
      rintro ⟨_, hanswer, -⟩
      cases hanswer
  · obtain rfl : answer = resolved := Except.ok.inj h
    refine ⟨fun hempty => ⟨answer, rfl, hempty⟩, ?_⟩
    rintro ⟨_, hanswer, hempty⟩
    obtain rfl := Except.ok.inj hanswer
    exact hempty

section Meanings

variable {now : Instant}

theorem Operand.MeansDirectly.empty_iff {operand : Operand} {calls : List FieldCall}
    {resolved : Resolved} (h : operand.MeansDirectly now calls resolved) :
    resolved.identifier = "" ↔ ∃ call ∈ calls, call.IsEmpty := by
  cases h with
  | field _ hresult => simpa using FieldCall.isEmpty_iff hresult
  | time | text | number =>
    refine ⟨fun hempty => ?_, nofun⟩
    exact absurd (String.append_eq_empty_iff.mp hempty).2 (by decide)

/-- Of the arguments of a function, one is empty exactly if it is a field that is answered so. -/
theorem ArgumentsMean.empty_iff {operands : List Operand} {calls : List FieldCall}
    {parts : List Resolved} (h : ArgumentsMean now operands calls parts) :
    (∃ part ∈ parts, part.identifier = "") ↔ ∃ call ∈ calls, call.IsEmpty := by
  induction h with
  | nil => exact ⟨nofun, nofun⟩
  | cons hfirst _ ih =>
    simp only [List.mem_cons, List.mem_append, or_and_right, exists_or, exists_eq_left]
    exact or_congr hfirst.empty_iff ih

end Meanings

/-! ### Sides of comparisons -/

/-- The operand on a side of a comparison. -/
def Comparison.operand (c : Comparison) : Side → Operand
  | .left => c.left
  | .right => c.right

section Compile

variable {context : Context ω} {resolver : Resolver ω}

variable (context resolver) in
/-- A run that compiles the groups, and that starts in session `s`, gets to a side of a comparison
in another session. -/
inductive GetsTo (groups : List Group) (s : Session ω) (c : Comparison) :
    Side → Session ω → Prop where
  /-- All comparisons before are compiled. -/
  | left {before after : List (Option Comparison)} {leaves : List Fragment} {t : Session ω} :
    stepsOf groups = before ++ some c :: after →
      outcome (before.mapM (compileStep context resolver)) s = (.ok leaves, t) →
        GetsTo groups s c .left t
  /-- Then the left side is resolved. -/
  | right {t u : Session ω} {left : Resolved} : GetsTo groups s c .left t →
    outcome (resolveSide context resolver .left c.left) t = (.ok left, u) →
      GetsTo groups s c .right u

theorem resolveSide_of_empty {side : Side} {operand : Operand} {s t : Session ω}
    {resolved : Resolved}
    (hrun : outcome (resolveOperand context resolver operand) s = (.ok resolved, t))
    (hempty : resolved.identifier = "") :
    outcome (resolveSide context resolver side operand) s =
      (.error (.invalidOperand side operand.literal (.unknownField operand.literal)), t) := by
  unfold resolveSide
  rw [outcome_bind_of_ok (outcome_explain_eq_ok.mpr hrun), if_pos hempty]
  rfl

/-- A run ends where a side that it gets to fails. -/
theorem GetsTo.compileGroups_eq_error {groups : List Group} {s t u : Session ω} {c : Comparison}
    {side : Side} {error : SearchError} (h : GetsTo context resolver groups s c side t)
    (hrun : outcome (resolveSide context resolver side (c.operand side)) t = (.error error, u)) :
    outcome (compileGroups context resolver groups) s = (.error error, u) := by
  have hfail {v : Session ω} (hleft : GetsTo context resolver groups s c .left v)
      (hstep : outcome (compileStep context resolver (some c)) v = (.error error, u)) :
      outcome (compileGroups context resolver groups) s = (.error error, u) := by
    obtain ⟨hsteps, hbefore⟩ := hleft
    refine compileGroups_of_error (outcome_mapM_eq_error.mpr ?_)
    exact ⟨_, some c, _, _, v, hsteps, hbefore, hstep⟩
  cases h with
  | left hsteps hbefore => exact hfail (.left hsteps hbefore) (outcome_bind_of_error hrun)
  | right hleft hside =>
    refine hfail hleft ?_
    rw [compileStep, compileComparison, outcome_bind_of_ok hside]
    exact outcome_bind_of_error hrun

/-! ### Compiled comparisons -/

/-- What a side of a compiled comparison stands for, given the calls for it.  Its expression is not
empty.  But if it is a function, then one of its arguments is empty exactly if the resolver has
answered with an empty expression. -/
structure Operand.IsFilled (now : Instant) (operand : Operand) (calls : List FieldCall)
    (resolved : Resolved) : Prop where
  /-- It is what the operand stands for. -/
  means : operand.Means now calls resolved
  /-- It is not empty. -/
  ne_empty : resolved.identifier ≠ ""
  /-- Arguments are put into the expression of the function as they are. -/
  arguments : ∀ name arguments, operand = .call name arguments →
    ∃ parts, ArgumentsMean now arguments calls parts ∧ Applied name parts resolved ∧
      ((∃ part ∈ parts, part.identifier = "") ↔ ∃ call ∈ calls, call.IsEmpty)

theorem Operand.Means.isFilled {now : Instant} {operand : Operand} {calls : List FieldCall}
    {resolved : Resolved} (h : operand.Means now calls resolved) (hne : resolved.identifier ≠ "") :
    operand.IsFilled now calls resolved := by
  refine ⟨h, hne, ?_⟩
  rintro name arguments rfl
  cases h with
  | direct h => cases h
  | call _ harguments happlied => exact ⟨_, harguments, happlied, harguments.empty_iff⟩

variable (context) in
/-- What a compiled comparison is, given the calls for it: its sides compared. -/
def Comparison.IsFilled (c : Comparison) (calls : List FieldCall) (leaf : Fragment) : Prop :=
  ∃ leftCalls rightCalls left right u v, calls = leftCalls ++ rightCalls ∧
    c.left.IsFilled context.now leftCalls left ∧ c.right.IsFilled context.now rightCalls right ∧
    outcome (compare context left c.comparator right) u = (.ok leaf, v)

theorem Comparison.Means.isFilled {c : Comparison} {calls : List FieldCall} {leaf : Fragment}
    (h : c.Means context calls leaf) : c.IsFilled context calls leaf := by
  cases h with
  | sides hleft hleftNe hright hrightNe hcompare =>
    exact ⟨_, _, _, _, _, _, rfl, hleft.isFilled hleftNe, hright.isFilled hrightNe, hcompare⟩

theorem StepsMean.getElem? {steps : List (Option Comparison)} {calls : List FieldCall}
    {leaves : List Fragment} (h : StepsMean context steps calls leaves) {index : Nat}
    {c : Comparison} (hc : steps[index]? = some (some c)) :
    ∃ leaf own, leaves[index]? = some leaf ∧ own <:+: calls ∧ c.Means context own leaf := by
  induction h generalizing index with
  | nil => simp at hc
  | @cons first steps calls more leaf leaves hfirst _ ih =>
    cases index with
    | zero =>
      obtain rfl : first = c := by simpa using hc
      exact ⟨leaf, calls, rfl, (List.prefix_append _ _).isInfix, hfirst⟩
    | succ index =>
      obtain ⟨leaf', own, hleaf, hown, hmeans⟩ := ih (by simpa using hc)
      exact ⟨leaf', own, hleaf, hown.trans (List.suffix_append _ _).isInfix, hmeans⟩

end Compile

/-- **An empty expression is refused as a side of a comparison, and only there.**

* If the resolver answers with an empty expression when a run gets to a side, the run fails, and the
  error names the side and the operand.
* If a tree is compiled, none of the sides is empty.  But a function in it has an empty argument
  exactly if the resolver has answered with an empty expression when it was asked for the fields of
  that function; so without such an answer no argument is empty either. -/
theorem compileGroups_refuses_empty_sides {context : Context (List FieldCall × ω)}
    (hfunctions : context.functions = .standard) (resolver : Resolver ω) (groups : List Group)
    (s : Session (List FieldCall × ω)) :
    (∀ c side t u resolved, GetsTo context resolver.logged groups s c side t →
      outcome (resolveOperand context resolver.logged (c.operand side)) t = (.ok resolved, u) →
      resolved.identifier = "" →
        (∃ call, c.operand side = .identifier call.field ∧ call.IsEmpty ∧
          u.world.1 = t.world.1 ++ [call]) ∧
        outcome (compileGroups context resolver.logged groups) s =
          (.error (.invalidOperand side (c.operand side).literal
            (.unknownField (c.operand side).literal)), u)) ∧
    ∀ fragment t, outcome (compileGroups context resolver.logged groups) s = (.ok fragment, t) →
      ∃ (calls : List FieldCall) (leaves : List Fragment), t.world.1 = s.world.1 ++ calls ∧
        fragment = (fragments fun index => leaves.getD index .none).row groups ∧
        ∀ (index : Nat) (c : Comparison), (stepsOf groups)[index]? = some (some c) →
          ∃ leaf own, leaves[index]? = some leaf ∧ own <:+: calls ∧ c.IsFilled context own leaf := by
  refine ⟨fun c side t u resolved hgets hrun hempty => ⟨?_, ?_⟩, fun fragment t hrun => ?_⟩
  · obtain ⟨calls, hreplies, hmeans⟩ :=
      resolveOperand_consults hfunctions _ t u _ hrun
    obtain ⟨call, hoperand, rfl, -, hresult⟩ := Operand.Means.of_empty hmeans hempty
    exact ⟨call, hoperand, (FieldCall.isEmpty_iff hresult).mp hempty, hreplies.of_logged.1⟩
  · exact hgets.compileGroups_eq_error (resolveSide_of_empty hrun hempty)
  · obtain ⟨calls, hreplies, leaves, hleaves, hrow⟩ :=
      compileGroups_consults hfunctions groups s t _ hrun
    refine ⟨calls, leaves, hreplies.of_logged.1, hrow, fun index c hc => ?_⟩
    obtain ⟨leaf, own, hleaf, hown, hmeans⟩ := hleaves.getElem? hc
    exact ⟨leaf, own, hleaf, hown, hmeans.isFilled⟩

/-- A resolver that knows one field, which stands for nothing. -/
def emptyResolver : Resolver Unit where
  resolve name :=
    if name = "e" then pure (.ofIdentifier "") else throw (.unknownField name)
  updateQuery query := pure query

/-- The field that stands for nothing as a side of a comparison. -/
def emptySide : List Group :=
  [.comparison .and ⟨.identifier "e", .equal, .number (.zero false)⟩]

/-- The same field as an argument. -/
def emptyArgument : List Group :=
  [.comparison .and
    ⟨.call "strftime" [.text "%Y", .identifier "e"], .equal, .number (.zero false)⟩]

theorem emptySide_refused :
    (outcome (compileGroups sampleContext emptyResolver.logged emptySide) silentSession).1 =
      .error (.invalidOperand .left "e" (.unknownField "e")) := by
  have hgets : GetsTo sampleContext emptyResolver.logged emptySide silentSession
      ⟨.identifier "e", .equal, .number (.zero false)⟩ .left silentSession :=
    .left (show stepsOf emptySide = [] ++ some _ :: [] from rfl) rfl
  have hfunctions : (sampleContext : Context (List FieldCall × Unit)).functions = .standard := rfl
  obtain ⟨hrefuses, -⟩ :=
    compileGroups_refuses_empty_sides hfunctions emptyResolver emptySide silentSession
  obtain ⟨-, hrun⟩ := hrefuses _ _ _ _ (.ofIdentifier "") hgets rfl rfl
  exact congrArg Prod.fst hrun

/-- A tree with an empty argument is compiled, with nothing in its place. -/
theorem emptyArgument_compiled :
    (outcome (compileGroups sampleContext emptyResolver.logged emptyArgument)
        silentSession).2.world.1.map (·.field) = ["e"] ∧
      (outcome (inWorld (emptyResolver.resolve "e")) sampleSession).1.toOption.map (·.identifier) =
        some "" ∧
      (outcome (compileGroups sampleContext emptyResolver.logged emptyArgument)
        silentSession).1.toOption.map Fragment.text =
        some ("COALESCE(strftime(" ++ Fragment.paramMarker "p0123456789" ++
          ", ), '') = COALESCE(" ++ Fragment.paramMarker "p0123456789" ++ ", '')") := by
  refine ⟨by decide +kernel, by decide +kernel, by decide +kernel⟩

end PagedSearch
