import Mathlib.Data.List.Forall2
import PagedSearch.Filter.Syntax

/-!
# Trees of groups

What a tree stands for depends on its comparisons, on how two values are joined, and on what
parentheses do.  An interpretation says these three things; a tree then has a value, in which the
comparisons are numbered from left to right and the groups of each level are joined from left to
right.

Fragments, conditions and truth values are all found in this way, so that statements about two of
them need no induction of their own.

## Main definitions

* `Group.steps`, `stepsOf` — the comparisons of a tree, in order.
* `Interpretation` — what comparisons, joins and parentheses stand for.
* `Interpretation.row` — what a list of groups stands for.

## Main results

* `Interpretation.row_related` — a relation that joins and parentheses keep holds for trees.
-/

namespace PagedSearch

variable {α β : Type}

/-! ### The comparisons of a tree -/

mutual

/-- The comparisons of a group, in order, and a gap for each list of groups without groups. -/
def Group.steps : Group → List (Option Comparison)
  | .comparison _ c => [some c]
  | .nested _ [] => [none]
  | .nested _ (first :: rest) => first.steps ++ Group.memberSteps rest

/-- The comparisons of the members of a list, in order, and the gaps in the members. -/
def Group.memberSteps : List Group → List (Option Comparison)
  | [] => []
  | group :: groups => group.steps ++ Group.memberSteps groups

end

/-- The comparisons of a list of groups, in order, and a gap for each list without groups. -/
def stepsOf : List Group → List (Option Comparison)
  | [] => [none]
  | groups => Group.memberSteps groups

/-! ### Interpretations -/

/-- What the values of several groups come to, each joined to those before it. -/
def foldJoins (join : Join → α → α → α) : List (Join × α) → Option α
  | [] => none
  | (_, first) :: rest =>
    some (rest.foldl (fun before (how, value) => join how before value) first)

/-- What the parts of a tree stand for. -/
structure Interpretation (α : Type) where
  /-- What the comparison with a number stands for. -/
  leaf : Nat → α
  /-- What two groups joined stand for. -/
  join : Join → α → α → α
  /-- What a group in parentheses stands for. -/
  enclose : α → α
  /-- What a list without groups stands for. -/
  gap : α

namespace Interpretation

mutual

/-- What a group stands for whose comparisons have the numbers from `start` on. -/
def group (i : Interpretation α) (start : Nat) : Group → α
  | .comparison _ _ => i.leaf start
  | .nested _ groups => i.enclose ((foldJoins i.join (i.members start groups)).getD i.gap)

/-- What the members of a list stand for whose comparisons have the numbers from `start` on. -/
def members (i : Interpretation α) (start : Nat) : List Group → List (Join × α)
  | [] => []
  | first :: rest =>
    (first.join, i.group start first) :: i.members (start + first.steps.length) rest

end

/-- What a list of groups stands for. -/
def row (i : Interpretation α) (groups : List Group) : α :=
  (foldJoins i.join (i.members 0 groups)).getD i.gap

/-! ### Two interpretations -/

/-- Joins and parentheses keep the relation `R` between what two interpretations return. -/
structure Related (R : α → β → Prop) (i : Interpretation α) (i' : Interpretation β) : Prop where
  /-- Joins keep the relation. -/
  join : ∀ how {a a' b b'}, R a b → R a' b' → R (i.join how a a') (i'.join how b b')
  /-- Parentheses keep the relation. -/
  enclose : ∀ {a b}, R a b → R (i.enclose a) (i'.enclose b)

/-- Members of two lists that carry the same join and are related. -/
def RelatedMembers (R : α → β → Prop) (a : Join × α) (b : Join × β) : Prop :=
  a.1 = b.1 ∧ R a.2 b.2

variable {R : α → β → Prop} {i : Interpretation α} {i' : Interpretation β}

theorem Related.foldJoins (h : Related R i i') {members : List (Join × α)}
    {others : List (Join × β)} (hmembers : List.Forall₂ (RelatedMembers R) members others)
    (hgap : members = [] → R i.gap i'.gap) :
    R ((PagedSearch.foldJoins i.join members).getD i.gap)
      ((PagedSearch.foldJoins i'.join others).getD i'.gap) := by
  cases hmembers with
  | nil => exact hgap rfl
  | @cons first first' rest rest' hfirst hrest =>
    -- The relation holds for what has been joined so far, whatever that is.
    have hfold : ∀ {before before'}, R before before' →
        R (rest.foldl (fun before (how, value) => i.join how before value) before)
          (rest'.foldl (fun before (how, value) => i'.join how before value) before') := by
      clear hfirst hgap
      induction hrest with
      | nil => exact id
      | @cons member member' _ _ hmember _ ih =>
        obtain ⟨hhow, hvalue⟩ := hmember
        intro before before' hbefore
        refine ih ?_
        show R (i.join member.1 before member.2) (i'.join member'.1 before' member'.2)
        rw [hhow]
        exact h.join _ hbefore hvalue
    exact hfold hfirst.2

/-- The numbers of the comparisons in a list of steps that starts with the number `start`. -/
def RelatedLeaves (R : α → β → Prop) (i : Interpretation α) (i' : Interpretation β) (start : Nat)
    (steps : List (Option Comparison)) : Prop :=
  (∀ n, start ≤ n → n < start + steps.length → R (i.leaf n) (i'.leaf n)) ∧
    (none ∈ steps → R i.gap i'.gap)

theorem RelatedLeaves.left {start : Nat} {first second : List (Option Comparison)}
    (h : RelatedLeaves R i i' start (first ++ second)) : RelatedLeaves R i i' start first := by
  refine ⟨fun n hge hlt => h.1 n hge ?_, fun hgap => h.2 (List.mem_append_left _ hgap)⟩
  rw [List.length_append]
  omega

theorem RelatedLeaves.right {start : Nat} {first second : List (Option Comparison)}
    (h : RelatedLeaves R i i' start (first ++ second)) :
    RelatedLeaves R i i' (start + first.length) second := by
  refine ⟨fun n hge hlt => h.1 n ?_ ?_, fun hgap => h.2 (List.mem_append_right _ hgap)⟩
  · omega
  · rw [List.length_append]
    omega

mutual

theorem group_related (h : Related R i i') (start : Nat) (group : Group)
    (hleaves : RelatedLeaves R i i' start group.steps) :
    R (i.group start group) (i'.group start group) := by
  match group with
  | .comparison join c =>
    rw [Interpretation.group, Interpretation.group]
    exact hleaves.1 start (Nat.le_refl _) (by simp [Group.steps])
  | .nested join [] =>
    rw [Interpretation.group, Interpretation.group]
    exact h.enclose (h.foldJoins .nil fun _ => hleaves.2 (by simp [Group.steps]))
  | .nested join (first :: rest) =>
    rw [Interpretation.group, Interpretation.group]
    refine h.enclose (h.foldJoins (members_related h start (first :: rest) ?_) nofun)
    rwa [Group.steps, ← Group.memberSteps] at hleaves

theorem members_related (h : Related R i i') (start : Nat) (groups : List Group)
    (hleaves : RelatedLeaves R i i' start (Group.memberSteps groups)) :
    List.Forall₂ (RelatedMembers R) (i.members start groups) (i'.members start groups) := by
  match groups with
  | [] => exact .nil
  | first :: rest =>
    rw [Group.memberSteps] at hleaves
    rw [members, members]
    exact .cons ⟨rfl, group_related h start first hleaves.left⟩
      (members_related h _ rest hleaves.right)

end

/-- A relation that joins and parentheses keep holds for a tree if it holds for its comparisons and,
should a list in it have no groups, for gaps. -/
theorem row_related (h : Related R i i') (groups : List Group)
    (hleaves : RelatedLeaves R i i' 0 (stepsOf groups)) : R (i.row groups) (i'.row groups) := by
  cases groups with
  | nil => exact h.foldJoins .nil fun _ => hleaves.2 (by simp [stepsOf])
  | cons first rest => exact h.foldJoins (members_related h 0 (first :: rest) hleaves) nofun

end Interpretation

end PagedSearch
