import PagedSearch.Proofs.Trees

/-!
# Conditions

What a condition in SQL says once its parentheses and its precedence are settled: it is an atom, or
a conjunction, or a disjunction.  Its truth value is that of SQL, where a comparison with a missing
value is neither true nor false.

## Main definitions

* `Truth` — the truth values of SQL.
* `Condition`, `Condition.eval` — conditions, and their truth values.
* `Condition.bind` — conditions in the place of atoms.
* `conditions`, `truths` — what trees of groups stand for, as conditions and as truth values.

## Main results

* `Condition.eval_all_eq_yes` — a conjunction is true if and only if all its parts are.
* `Condition.eval_conjunction`, `Condition.eval_disjunction` — the truth value of several conditions
  as one.
* `Condition.eval_bind` — the truth value of a condition in whose atoms there are conditions.
* `eval_conditions_row` — the condition of a tree has the truth value of the tree.
-/

namespace PagedSearch

/-- The truth values of SQL. -/
inductive Truth where
  /-- True. -/
  | yes
  /-- False. -/
  | no
  /-- Neither. -/
  | null
  deriving DecidableEq

namespace Truth

/-- `AND` -/
def and : Truth → Truth → Truth
  | no, _ => no
  | _, no => no
  | yes, yes => yes
  | _, _ => null

/-- `OR` -/
def or : Truth → Truth → Truth
  | yes, _ => yes
  | _, yes => yes
  | no, no => no
  | _, _ => null

@[simp] theorem and_yes (t : Truth) : t.and yes = t := by cases t <;> rfl

@[simp] theorem or_no (t : Truth) : t.or no = t := by cases t <;> rfl

end Truth

/-- What a join makes of two truth values. -/
def Join.truth : Join → Truth → Truth → Truth
  | .and => Truth.and
  | .or => Truth.or

/-- A condition with atoms of type `α`. -/
inductive Condition (α : Type) where
  /-- An atom. -/
  | atom (a : α)
  /-- All parts hold. -/
  | all (parts : List (Condition α))
  /-- One of the parts holds. -/
  | any (parts : List (Condition α))

namespace Condition

variable {α β : Type}

mutual

/-- The truth value of a condition, `value` being those of its atoms. -/
def eval (value : α → Truth) : Condition α → Truth
  | atom a => value a
  | all parts => evalAll value parts
  | any parts => evalAny value parts

/-- The truth value of a conjunction. -/
def evalAll (value : α → Truth) : List (Condition α) → Truth
  | [] => .yes
  | part :: parts => (eval value part).and (evalAll value parts)

/-- The truth value of a disjunction. -/
def evalAny (value : α → Truth) : List (Condition α) → Truth
  | [] => .no
  | part :: parts => (eval value part).or (evalAny value parts)

end

mutual

/-- A condition with a condition in the place of each atom. -/
def bind (f : α → Condition β) : Condition α → Condition β
  | atom a => f a
  | all parts => all (bindList f parts)
  | any parts => any (bindList f parts)

/-- Conditions with a condition in the place of each atom. -/
def bindList (f : α → Condition β) : List (Condition α) → List (Condition β)
  | [] => []
  | part :: parts => bind f part :: bindList f parts

end

theorem evalAll_eq_foldr (value : α → Truth) (parts : List (Condition α)) :
    evalAll value parts = (parts.map (eval value)).foldr Truth.and .yes := by
  induction parts with
  | nil => rfl
  | cons first rest ih => rw [evalAll, ih, List.map_cons, List.foldr_cons]

theorem evalAny_eq_foldr (value : α → Truth) (parts : List (Condition α)) :
    evalAny value parts = (parts.map (eval value)).foldr Truth.or .no := by
  induction parts with
  | nil => rfl
  | cons first rest ih => rw [evalAny, ih, List.map_cons, List.foldr_cons]

mutual

/-- The truth value of a condition in whose atoms there are conditions. -/
theorem eval_bind (value : β → Truth) (f : α → Condition β) (c : Condition α) :
    (c.bind f).eval value = c.eval fun a => (f a).eval value := by
  match c with
  | atom a => rfl
  | all parts => rw [bind, eval, eval, (eval_bindList value f parts).1]
  | any parts => rw [bind, eval, eval, (eval_bindList value f parts).2]

theorem eval_bindList (value : β → Truth) (f : α → Condition β) (parts : List (Condition α)) :
    evalAll value (bindList f parts) = evalAll (fun a => (f a).eval value) parts ∧
      evalAny value (bindList f parts) = evalAny (fun a => (f a).eval value) parts := by
  match parts with
  | [] => exact ⟨rfl, rfl⟩
  | first :: rest =>
    have ih := eval_bindList value f rest
    simp only [bindList, evalAll, evalAny, eval_bind value f first, ih.1, ih.2, and_self]

end

/-- Some conditions as one; a single one stays as it is. -/
def conjunction : List (Condition α) → Condition α
  | [part] => part
  | parts => all parts

/-- One of some conditions; a single one stays as it is. -/
def disjunction : List (Condition α) → Condition α
  | [part] => part
  | parts => any parts

/-- A conjunction has the truth value of its parts under `AND`, a single part its own. -/
theorem eval_conjunction (value : α → Truth) (parts : List (Condition α)) :
    (conjunction parts).eval value = (parts.map (eval value)).foldr Truth.and .yes := by
  unfold conjunction
  split
  · simp
  · rw [eval, evalAll_eq_foldr]

/-- A disjunction has the truth value of its parts under `OR`, a single part its own. -/
theorem eval_disjunction (value : α → Truth) (parts : List (Condition α)) :
    (disjunction parts).eval value = (parts.map (eval value)).foldr Truth.or .no := by
  unfold disjunction
  split
  · simp
  · rw [eval, evalAny_eq_foldr]

end Condition

/-! ### Trees as conditions -/

/-- Two conditions joined. -/
def Join.condition {α : Type} (join : Join) (a b : Condition α) : Condition α :=
  match join with
  | .and => .all [a, b]
  | .or => .any [a, b]

theorem Join.eval_condition {α : Type} (join : Join) (value : α → Truth) (a b : Condition α) :
    (join.condition a b).eval value = join.truth (a.eval value) (b.eval value) := by
  cases join <;> simp [Join.condition, Join.truth, Condition.eval, Condition.evalAll,
    Condition.evalAny]

/-- The conditions that trees stand for, `leaf` being those of the comparisons. -/
def conditions {α : Type} (leaf : Nat → Condition α) : Interpretation (Condition α) where
  leaf := leaf
  join := Join.condition
  enclose := id
  gap := .all []

/-- The truth values of trees, `value` being those of the comparisons. -/
def truths (value : Nat → Truth) : Interpretation Truth where
  leaf := value
  join := Join.truth
  enclose := id
  gap := .yes

/-- The condition of a tree has the truth value of the tree. -/
theorem eval_conditions_row {α : Type} (leaf : Nat → Condition α) (value : α → Truth)
    (groups : List Group) :
    ((conditions leaf).row groups).eval value =
      (truths fun index => (leaf index).eval value).row groups := by
  refine Interpretation.row_related
    (R := fun (condition : Condition α) truth => condition.eval value = truth) ⟨?_, fun h => h⟩
    groups ⟨fun _ _ _ => rfl, fun _ => rfl⟩
  rintro how a a' _ _ rfl rfl
  exact how.eval_condition value a a'

/-- Conditions in the place of the comparisons of a tree. -/
theorem bind_conditions_row {α β : Type} (leaf : Nat → Condition α) (f : α → Condition β)
    (groups : List Group) :
    ((conditions leaf).row groups).bind f =
      (conditions fun index => (leaf index).bind f).row groups := by
  refine Interpretation.row_related
    (R := fun (condition : Condition α) bound => condition.bind f = bound) ⟨?_, fun h => h⟩
    groups ⟨fun _ _ _ => rfl, fun _ => rfl⟩
  rintro how a a' _ _ rfl rfl
  cases how <;> rfl

end PagedSearch
