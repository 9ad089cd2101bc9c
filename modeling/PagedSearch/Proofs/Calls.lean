import PagedSearch.Compile.Filter
import PagedSearch.Proofs.Runs

/-!
# Calls of a resolver

A resolver may change with every field that it is asked for, so it counts which fields it is asked
for, in which order, and where that stops.  A run is described by the calls that the resolver gets.
They are known from outside: a resolver can note them.

## Main definitions

* `FieldCall`, `FieldCall.result` — a field that a resolver is asked for, with the answer, and what
  comes of it.
* `Resolver.Replies`, `Resolver.logged` — resolvers that give these answers, and their log.
* `AskedFor`, `RejectedAmong` — calls that are accepted, and calls of which the last one is not.
* `Search.Consults` — actions whose calls decide what comes of them.

## Main results

* `Resolver.Replies.of_logged` — the log is the list of the calls.
* `Search.Consults.bind` — the calls of an action come after those of the action before it.
-/

namespace PagedSearch

open Search

variable {ω : Type}

/-! ### Calls -/

/-- A field that a resolver is asked for, and what it answers. -/
structure FieldCall where
  /-- The field. -/
  field : String
  /-- The answer. -/
  answer : Except SearchError Resolved

namespace FieldCall

/-- What comes of it: the answer or, only if the resolver has rejected the field, the constant with
its name. -/
def result (call : FieldCall) : Except SearchError Resolved :=
  match call.answer with
  | .ok resolved => .ok resolved
  | .error error =>
    match constant? call.field with
    | some sql => .ok (.ofIdentifier sql)
    | none => .error error

/-- The search goes on. -/
def IsAccepted (call : FieldCall) : Prop := ∃ resolved, call.result = .ok resolved

end FieldCall

namespace Resolver

variable (resolver : Resolver ω)

/-- In a world, the resolver gives these answers one after the other, and leaves it for another. -/
inductive Replies : ω → List FieldCall → ω → Prop where
  /-- It is not asked. -/
  | nil {world : ω} : Replies world [] world
  /-- It is asked once more. -/
  | cons {world next last : ω} {call : FieldCall} {calls : List FieldCall} :
    (resolver.resolve call.field).run.run world = (call.answer, next) → Replies next calls last →
      Replies world (call :: calls) last

/-- The same resolver, which notes what it is asked and what it answers. -/
def logged : Resolver (List FieldCall × ω) where
  resolve field := ExceptT.mk fun (calls, world) =>
    let (answer, world) := (resolver.resolve field).run.run world
    (answer, (calls ++ [⟨field, answer⟩], world))
  updateQuery query := ExceptT.mk fun (calls, world) =>
    let (result, world) := (resolver.updateQuery query).run.run world
    (result, (calls, world))

variable {resolver}

theorem Replies.append {first second third : ω} {calls more : List FieldCall}
    (h : resolver.Replies first calls second) (h' : resolver.Replies second more third) :
    resolver.Replies first (calls ++ more) third := by
  induction h with
  | nil => exact h'
  | cons hcall _ ih => exact .cons hcall (ih h')

/-- The log is the list of the calls. -/
theorem Replies.of_logged {calls : List FieldCall} {s t : List FieldCall × ω}
    (h : resolver.logged.Replies s calls t) :
    t.1 = s.1 ++ calls ∧ resolver.Replies s.2 calls t.2 := by
  induction h with
  | nil => exact ⟨(List.append_nil _).symm, .nil⟩
  | @cons s next t call calls hcall _ ih =>
    obtain ⟨hlog, hreplies⟩ := ih
    obtain ⟨log, world⟩ := s
    -- what the logging resolver answers is what the resolver answers
    obtain ⟨hanswer, rfl⟩ := Prod.mk.inj hcall
    refine ⟨hlog.trans ?_, .cons (Prod.ext hanswer rfl) hreplies⟩
    have hnoted : FieldCall.mk call.field ((resolver.resolve call.field).run.run world).1 = call :=
      congrArg (FieldCall.mk call.field) hanswer
    show (log ++ [FieldCall.mk call.field ((resolver.resolve call.field).run.run world).1]) ++
      calls = log ++ call :: calls
    rw [hnoted, List.append_assoc, List.singleton_append]

end Resolver

/-- These fields have been asked for, in order, and no failure has come of it. -/
structure AskedFor (fields : List String) (calls : List FieldCall) : Prop where
  /-- The fields are those of the calls. -/
  fields_eq : calls.map (·.field) = fields
  /-- Each call has come to something. -/
  accepted : ∀ call ∈ calls, call.IsAccepted

/-- Some of these fields have been asked for, from the first one on, until the last one of them has
been rejected for the given reason. -/
def RejectedAmong (fields : List String) (calls : List FieldCall) (error : SearchError) : Prop :=
  ∃ before call, calls = before ++ [call] ∧ calls.map (·.field) <+: fields ∧
    (∀ one ∈ before, one.IsAccepted) ∧ call.result = .error error

section Asked

variable {fields more : List String} {calls others : List FieldCall} {error : SearchError}

theorem AskedFor.nil : AskedFor [] [] := ⟨rfl, nofun⟩

theorem AskedFor.single {call : FieldCall} {resolved : Resolved}
    (h : call.result = .ok resolved) : AskedFor [call.field] [call] :=
  ⟨rfl, List.forall_mem_singleton.mpr ⟨resolved, h⟩⟩

theorem AskedFor.append (h : AskedFor fields calls) (h' : AskedFor more others) :
    AskedFor (fields ++ more) (calls ++ others) := by
  refine ⟨by rw [List.map_append, h.fields_eq, h'.fields_eq], fun call hcall => ?_⟩
  exact (List.mem_append.mp hcall).elim (h.accepted call) (h'.accepted call)

theorem RejectedAmong.single {call : FieldCall} (h : call.result = .error error) :
    RejectedAmong [call.field] [call] error :=
  ⟨[], call, rfl, List.prefix_refl _, nofun, h⟩

theorem RejectedAmong.mono (h : RejectedAmong fields calls error) (more : List String) :
    RejectedAmong (fields ++ more) calls error := by
  obtain ⟨before, call, hcalls, hprefix, h⟩ := h
  exact ⟨before, call, hcalls, hprefix.trans (List.prefix_append _ _), h⟩

theorem AskedFor.rejectedAmong (h : AskedFor fields calls) (h' : RejectedAmong more others error) :
    RejectedAmong (fields ++ more) (calls ++ others) error := by
  obtain ⟨before, call, rfl, hprefix, hbefore, hcall⟩ := h'
  refine ⟨calls ++ before, call, (List.append_assoc _ _ _).symm, ?_, ?_, hcall⟩
  · rw [List.map_append, h.fields_eq]
    exact (List.prefix_append_right_inj _).mpr hprefix
  · exact fun one hone => (List.mem_append.mp hone).elim (h.accepted one) (hbefore one)

end Asked

/-! ### Runs and their calls -/

/-- A value is as `P` says, and an error as `Q` says. -/
def Ended {α : Type} (P : α → Prop) (Q : SearchError → Prop) : Except SearchError α → Prop
  | .ok a => P a
  | .error error => Q error

/-- Every run of the action consults the resolver: some calls lead from the world that it starts in
to the one that it ends in, and what comes of it is as `P` says for these calls if it is a value, and
as `Q` says if it is an error. -/
def Search.Consults {α : Type} (resolver : Resolver ω) (P : List FieldCall → α → Prop)
    (Q : List FieldCall → SearchError → Prop) (action : Search ω α) : Prop :=
  ∀ s t result, outcome action s = (result, t) →
    ∃ calls, resolver.Replies s.world calls t.world ∧ Ended (P calls) (Q calls) result

namespace Search.Consults

variable {α β : Type} {resolver : Resolver ω} {P P' : List FieldCall → α → Prop}
  {Q Q' : List FieldCall → SearchError → Prop} {R : List FieldCall → β → Prop}
  {action : Search ω α}

theorem pure {a : α} (h : P [] a) : Consults resolver P Q (Pure.pure a : Search ω α) := by
  rintro s _ _ ⟨⟩
  exact ⟨[], .nil, h⟩

theorem throw {error : SearchError} (h : Q [] error) :
    Consults resolver P Q (MonadExcept.throw error : Search ω α) := by
  rintro s _ _ ⟨⟩
  exact ⟨[], .nil, h⟩

theorem mono (h : Consults resolver P Q action) (hvalue : ∀ calls a, P calls a → P' calls a)
    (herror : ∀ calls error, Q calls error → Q' calls error) :
    Consults resolver P' Q' action := by
  intro s t result hrun
  obtain ⟨calls, hreplies, hended⟩ := h s t result hrun
  refine ⟨calls, hreplies, ?_⟩
  cases result with
  | ok a => exact hvalue calls a hended
  | error error => exact herror calls error hended

/-- The calls of a second action come after those of the first one. -/
theorem bind {next : α → Search ω β} (h : Consults resolver P Q action)
    (hnext : ∀ calls a, P calls a →
      Consults resolver (fun more => R (calls ++ more)) (fun more => Q (calls ++ more)) (next a)) :
    Consults resolver R Q (action >>= next) := by
  intro s t result hrun
  rw [outcome_bind] at hrun
  cases hfirst : outcome action s with
  | mk first u =>
    obtain ⟨calls, hreplies, hended⟩ := h s u first hfirst
    rw [hfirst] at hrun
    cases first with
    | error error =>
      obtain ⟨rfl, rfl⟩ := Prod.mk.inj hrun
      exact ⟨calls, hreplies, hended⟩
    | ok a =>
      obtain ⟨more, hmore, hended⟩ := hnext calls a hended u t result hrun
      exact ⟨calls ++ more, hreplies.append hmore, hended⟩

theorem explain {f : SearchError → SearchError} (h : Consults resolver P Q action)
    (hexplained : ∀ calls error, Q calls error → Q' calls (f error)) :
    Consults resolver P Q' (Search.explain f action) := by
  intro s t result hrun
  rw [outcome_explain] at hrun
  cases hfirst : outcome action s with
  | mk first u =>
    rw [hfirst] at hrun
    obtain ⟨rfl, rfl⟩ := Prod.mk.inj hrun
    obtain ⟨calls, hreplies, hended⟩ := h s _ first hfirst
    refine ⟨calls, hreplies, ?_⟩
    cases first with
    | ok a => exact hended
    | error error => exact hexplained calls error hended

end Search.Consults

end PagedSearch
