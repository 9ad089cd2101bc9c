import PagedSearch.Proofs.Closed

/-!
# Conjunctions, disjunctions and parentheses

Fragments are nested: there are conjunctions and disjunctions of any number of parts, and parts in
parentheses, down to the leaves.  A leaf without text does not count, and neither does a part in
which no leaf has a text.  Whether a part is put in parentheses depends on how many of its
neighbours count, at every level above it; but it always is where it must be, so that the text is
read as the fragment is nested, whatever `AND` and `OR` there is in the leaves.  Every leaf adds its
values to those of the surroundings, also one without text.

## Main definitions

* `Fragment.leaves` — the leaves of a fragment.
* `Fragment.Sense`, `Fragment.sense?` — what a fragment stands for, given what its leaves and its
  connectives stand for.
* `Fragment.Sense.conditions`, `Fragment.Sense.truths` — fragments as conditions and as truth values.
* `Fragment.buildEach` — fragments built one after the other.

## Main results

* `Fragment.sense?_map` — a map that keeps the connectives keeps what fragments stand for.
* `Fragment.sense?_says` — a fragment says what its leaves say, connected as it is nested.
* `Fragment.snd_build` — each leaf in turn adds its values.
* `Fragment.build_isHomomorphism` — what comes out when a fragment is built.
-/

namespace PagedSearch

open Reading

namespace Fragment

/-! ### Leaves -/

mutual

/-- The leaves of a fragment, from left to right: verbatim texts, selections of related values and
conditions on them. -/
def leaves : Fragment → List Fragment
  | all parts => leavesOf parts
  | any parts => leavesOf parts
  | enclose part => part.leaves
  | leaf => [leaf]

/-- The leaves of several fragments. -/
def leavesOf : List Fragment → List Fragment
  | [] => []
  | part :: parts => part.leaves ++ leavesOf parts

end

/-! ### What fragments stand for -/

/-- What leaves and connectives stand for. -/
structure Sense (α : Type) where
  /-- What a leaf stands for. -/
  leaf : Fragment → α
  /-- What a conjunction stands for. -/
  all : List α → α
  /-- What a disjunction stands for. -/
  any : List α → α

section Sense

variable {α β : Type}

/-- What a connective makes of some values; of none it makes nothing. -/
def connect? (connective : List α → α) : List α → Option α
  | [] => .none
  | values => some (connective values)

mutual

/-- What a fragment stands for.  A leaf without text does not count, and neither does a part in which
nothing counts; parentheses change nothing. -/
def sense? (s : Sense α) : Fragment → Option α
  | all parts => connect? s.all (senses s parts)
  | any parts => connect? s.any (senses s parts)
  | enclose part => part.sense? s
  | leaf => if leaf.text = "" then .none else some (s.leaf leaf)

/-- What those of several fragments stand for that count. -/
def senses (s : Sense α) : List Fragment → List α
  | [] => []
  | part :: parts => (part.sense? s).toList ++ senses s parts

end

theorem connect?_eq_none_iff {connective : List α → α} {values : List α} :
    connect? connective values = .none ↔ values = [] := by
  cases values <;> simp [connect?]

theorem connect?_eq_some_iff {connective : List α → α} {values : List α} {value : α} :
    connect? connective values = some value ↔ values ≠ [] ∧ connective values = value := by
  cases values <;> simp [connect?]

mutual

/-- A fragment stands for nothing if and only if none of its leaves has a text. -/
theorem sense?_eq_none_iff (s : Sense α) (fragment : Fragment) :
    fragment.sense? s = .none ↔ ∀ leaf ∈ fragment.leaves, leaf.text = "" := by
  match fragment with
  | .all parts =>
    rw [sense?, leaves, connect?_eq_none_iff]
    exact senses_eq_nil_iff s parts
  | .any parts =>
    rw [sense?, leaves, connect?_eq_none_iff]
    exact senses_eq_nil_iff s parts
  | .enclose part =>
    rw [sense?, leaves]
    exact sense?_eq_none_iff s part
  | .raw _ _ | .related _ _ _ _ _ _ | .someRelated _ _ => simp [sense?, leaves]

theorem senses_eq_nil_iff (s : Sense α) (parts : List Fragment) :
    senses s parts = [] ↔ ∀ leaf ∈ leavesOf parts, leaf.text = "" := by
  match parts with
  | [] => simp [senses, leavesOf]
  | part :: parts =>
    rw [senses, leavesOf, List.append_eq_nil_iff, Option.toList_eq_nil_iff, List.forall_mem_append,
      sense?_eq_none_iff s part, senses_eq_nil_iff s parts]

end

/-! ### Two senses -/

/-- What `f` makes of the one sense is the other. -/
structure Sense.Maps (f : α → β) (s : Sense α) (s' : Sense β) : Prop where
  /-- `f` keeps leaves. -/
  leaf : ∀ leaf, f (s.leaf leaf) = s'.leaf leaf
  /-- `f` keeps conjunctions. -/
  all : ∀ values, f (s.all values) = s'.all (values.map f)
  /-- `f` keeps disjunctions. -/
  any : ∀ values, f (s.any values) = s'.any (values.map f)

theorem map_connect? {f : α → β} {connective : List α → α} {connective' : List β → β}
    (h : ∀ values, f (connective values) = connective' (values.map f)) (values : List α) :
    (connect? connective values).map f = connect? connective' (values.map f) := by
  cases values with
  | nil => rfl
  | cons first rest => exact congrArg some (h _)

variable {f : α → β} {s : Sense α} {s' : Sense β}

mutual

/-- A map that keeps leaves and connectives keeps what fragments stand for. -/
theorem sense?_map (h : s.Maps f s') (fragment : Fragment) :
    (fragment.sense? s).map f = fragment.sense? s' := by
  match fragment with
  | .all parts => rw [sense?, sense?, map_connect? h.all, senses_map h parts]
  | .any parts => rw [sense?, sense?, map_connect? h.any, senses_map h parts]
  | .enclose part =>
    rw [sense?, sense?]
    exact sense?_map h part
  | .raw _ _ | .related _ _ _ _ _ _ | .someRelated _ _ =>
    simp only [sense?, apply_ite (Option.map f), Option.map_none, Option.map_some, h.leaf]

theorem senses_map (h : s.Maps f s') (parts : List Fragment) :
    (senses s parts).map f = senses s' parts := by
  match parts with
  | [] => rfl
  | part :: parts =>
    rw [senses, senses, List.map_append, ← Option.toList_map, sense?_map h part, senses_map h parts]

end

end Sense

namespace Sense

/-- Fragments as conditions, `reading` being what their leaves say.  A connective with a single part
is that part, and any other keeps its parts together. -/
def conditions {α : Type} (reading : Fragment → Condition α) : Sense (Condition α) where
  leaf := reading
  all := .conjunction
  any := .disjunction

/-- Fragments as truth values, `value` being those of their leaves. -/
def truths (value : Fragment → Truth) : Sense Truth where
  leaf := value
  all := List.foldr Truth.and .yes
  any := List.foldr Truth.or .no

/-- The truth value of a fragment as a condition is its truth value. -/
theorem maps_eval {α : Type} (reading : Fragment → Condition α) (value : α → Truth) :
    (conditions reading).Maps (Condition.eval value)
      (truths fun leaf => (reading leaf).eval value) where
  leaf _ := rfl
  all := Condition.eval_conjunction value
  any := Condition.eval_disjunction value

end Sense

/-! ### What the texts say -/

section Says

variable {reading : Fragment → Condition String}

/-- Joined fragments say what the connective makes of what those with a text say; if none of them has
a text, then together they have none. -/
theorem says_connected (how : Join) {fragment : Fragment} {parts : List Fragment}
    {conditions : List (Condition String)}
    (htext : fragment.text = joinTexts (separator how) (parts.map text))
    (h : List.Forall₂ Says (parts.filter (·.text ≠ "")) conditions) :
    (connect? (merge how) conditions = .none → fragment.text = "") ∧
      ∀ condition, connect? (merge how) conditions = some condition →
        fragment.Says condition := by
  obtain ⟨hnone, hsome⟩ := says_filtered how htext h
  rw [connect?_eq_none_iff]
  refine ⟨hnone, fun condition hcondition => ?_⟩
  obtain ⟨hne, rfl⟩ := connect?_eq_some_iff.mp hcondition
  exact hsome hne

mutual

/-- A fragment says what it stands for as a condition, if its leaves say what they stand for; if it
stands for nothing, it has no text. -/
theorem sense?_says {fragment : Fragment}
    (h : ∀ leaf ∈ fragment.leaves, leaf.text = "" ∨ leaf.Says (reading leaf)) :
    (fragment.sense? (.conditions reading) = .none → fragment.text = "") ∧
      ∀ condition, fragment.sense? (.conditions reading) = some condition →
        fragment.Says condition := by
  match fragment with
  | .all parts =>
    rw [leaves] at h
    rw [sense?]
    exact says_connected .and (text_all parts) (senses_say h)
  | .any parts =>
    rw [leaves] at h
    rw [sense?]
    exact says_connected .or (text_any parts) (senses_say h)
  | .enclose part =>
    -- there are no parentheses around a part without text, and others change nothing
    rw [leaves] at h
    obtain ⟨hnone, hsome⟩ := sense?_says h
    rw [sense?]
    refine ⟨fun hpart => ?_, fun condition hcondition => (hsome condition hcondition).enclose⟩
    rw [text, if_pos (hnone hpart)]
  | .raw _ _ | .related _ _ _ _ _ _ | .someRelated _ _ =>
    simp only [leaves, List.forall_mem_singleton] at h
    simp only [sense?]
    rcases h with hempty | hsays
    · rw [if_pos hempty]
      exact ⟨fun _ => hempty, nofun⟩
    · rw [if_neg hsays.ne_empty]
      refine ⟨nofun, fun condition hcondition => ?_⟩
      obtain rfl := Option.some.inj hcondition
      exact hsays

/-- Those of several fragments that have a text say what they stand for. -/
theorem senses_say {parts : List Fragment}
    (h : ∀ leaf ∈ leavesOf parts, leaf.text = "" ∨ leaf.Says (reading leaf)) :
    List.Forall₂ Says (parts.filter (·.text ≠ "")) (senses (.conditions reading) parts) := by
  match parts with
  | [] => exact .nil
  | part :: parts =>
    rw [leavesOf, List.forall_mem_append] at h
    obtain ⟨hnone, hsome⟩ := sense?_says h.1
    have hrest := senses_say h.2
    -- the parts that stand for something are those that have a text
    rw [senses]
    cases hpart : part.sense? (.conditions reading) with
    | none =>
      rw [List.filter_cons_of_neg (by simpa using hnone hpart)]
      exact hrest
    | some condition =>
      have hsays := hsome condition hpart
      rw [List.filter_cons_of_pos (by simpa using hsays.ne_empty)]
      exact .cons hsays hrest

end

end Says

/-! ### Building -/

/-- Fragments built one after the other: their texts, and the values of the surroundings, to which
each of them has added its own. -/
def buildEach : List Fragment → Params → List String × Params
  | [], surroundings => ([], surroundings)
  | part :: parts, surroundings =>
    let (text, surroundings) := part.build surroundings
    let (texts, surroundings) := buildEach parts surroundings
    (text :: texts, surroundings)

theorem buildEach_eq (parts : List Fragment) (surroundings : Params) :
    buildEach parts surroundings = (texts parts, surroundings.merge (partsParams parts)) := by
  induction parts generalizing surroundings with
  | nil => rfl
  | cons part parts ih =>
    rw [buildEach, build]
    dsimp only
    rw [ih, Params.merge_assoc]
    rfl

/-- A conjunction is built part by part. -/
theorem build_all (parts : List Fragment) (surroundings : Params) :
    (all parts).build surroundings =
      let (texts, surroundings) := buildEach parts surroundings
      (joinTexts " AND " texts, surroundings) := by
  rw [buildEach_eq]
  rfl

/-- A disjunction is built part by part. -/
theorem build_any (parts : List Fragment) (surroundings : Params) :
    (any parts).build surroundings =
      let (texts, surroundings) := buildEach parts surroundings
      (joinTexts " OR " texts, surroundings) := by
  rw [buildEach_eq]
  rfl

mutual

/-- Each leaf in turn adds its values to those of the surroundings, also if it has no text. -/
theorem snd_build (fragment : Fragment) (surroundings : Params) :
    (fragment.build surroundings).2 =
      (fragment.leaves.map params).foldl Params.merge surroundings := by
  match fragment with
  | .all parts =>
    rw [build_all, leaves]
    exact snd_buildEach parts surroundings
  | .any parts =>
    rw [build_any, leaves]
    exact snd_buildEach parts surroundings
  | .enclose part =>
    rw [leaves]
    exact snd_build part surroundings
  | .raw _ _ | .related _ _ _ _ _ _ | .someRelated _ _ => rfl

theorem snd_buildEach (parts : List Fragment) (surroundings : Params) :
    (buildEach parts surroundings).2 =
      ((leavesOf parts).map params).foldl Params.merge surroundings := by
  match parts with
  | [] => rfl
  | part :: parts =>
    rw [leavesOf, List.map_append, List.foldl_append, ← snd_build part surroundings,
      ← snd_buildEach parts]
    rfl

end

/-- **Building a fragment keeps how it is nested.**  If each leaf is empty or can be read by itself,
then the text of the fragment is empty exactly if all leaves are; and if it is not, it is read as
what the leaves say, connected as the fragment connects those parts that are not empty: nothing that
a leaf or a part says is torn apart, and each has the truth value that the fragment gives it.  The
values are those of the surroundings, with those of each leaf added from left to right, empty ones
included: of several values with one name, the last counts. -/
theorem build_isHomomorphism {fragment : Fragment} {reading : Fragment → Condition String}
    (h : ∀ leaf ∈ fragment.leaves, leaf.text = "" ∨ leaf.Says (reading leaf))
    (surroundings : Params) :
    ∃ text built, fragment.build surroundings = (text, built) ∧
      (text = "" ↔ ∀ leaf ∈ fragment.leaves, leaf.text = "") ∧
      (text ≠ "" → ∃ condition, fragment.sense? (.conditions reading) = some condition ∧
        readCondition text = some condition ∧
        ∀ value : String → Truth,
          fragment.sense? (.truths fun leaf => (reading leaf).eval value) =
            some (condition.eval value)) ∧
      built = (fragment.leaves.map params).foldl Params.merge surroundings ∧
      ∀ name, built.get? name =
        ((fragment.leaves.map params).reverse.findSome? (·.get? name)).or
          (surroundings.get? name) := by
  obtain ⟨hnone, hsome⟩ := sense?_says h
  refine ⟨_, _, rfl, ?_, ?_, snd_build fragment surroundings, fun name => ?_⟩
  · rw [← sense?_eq_none_iff (.conditions reading)]
    refine ⟨fun hempty => ?_, hnone⟩
    -- what a fragment with a text says is read from that text
    by_contra hcounts
    obtain ⟨condition, hcondition⟩ := Option.ne_none_iff_exists'.mp hcounts
    exact (hsome condition hcondition).ne_empty hempty
  · intro hfilled
    obtain ⟨condition, hcondition⟩ := Option.ne_none_iff_exists'.mp fun hempty =>
      hfilled (hnone hempty)
    refine ⟨condition, hcondition, (hsome condition hcondition).read, fun value => ?_⟩
    rw [← sense?_map (Sense.maps_eval reading value), hcondition]
    rfl
  · rw [← Params.get?_foldl_merge, ← snd_build]
    rfl

/-- A conjunction of three parts: one alternative with `OR` in it whose neighbour has a value but no
text, nothing at all, and two alternatives. -/
def sampleNesting : Fragment :=
  .all [
    .any [.raw "" (.single "x" (.int 1)), .raw "a = \x7b:x\x7d OR b = 2" (.single "x" (.int 2))],
    .enclose (.any []),
    .any [
      .all [.raw "c = 3" .empty, .raw "" (.single "x" (.int 3))],
      .enclose (.raw "d = 4 AND e = 5" .empty)]]

/-- What the leaves of the sample say. -/
def sampleReading (leaf : Fragment) : Condition String :=
  (readCondition leaf.text).getD (.all [])

/-- The alternative that is left of the first part is put in parentheses for the conjunction, and the
conjunction in the third part keeps its own.  The value that counts is that of a leaf without
text. -/
theorem sampleNesting_built :
    (∀ leaf ∈ sampleNesting.leaves, leaf.text = "" ∨ leaf.Says (sampleReading leaf)) ∧
      ∃ text built, sampleNesting.build (.single "y" .null) = (text, built) ∧
        text = "(a = \x7b:x\x7d OR b = 2) AND ((c = 3) OR ((d = 4 AND e = 5)))" ∧
        readCondition text = some (.all [
          .any [.atom "a = \x7b:x\x7d", .atom "b = 2"],
          .any [.atom "c = 3", .all [.atom "d = 4", .atom "e = 5"]]]) ∧
        built.get? "x" = some (.int 3) ∧ built.get? "y" = some .null := by
  have hreadable : sampleNesting.leaves.all (fun leaf => (readCondition leaf.text).isSome) = true :=
    rfl
  have hleaves : ∀ leaf ∈ sampleNesting.leaves,
      leaf.text = "" ∨ leaf.Says (sampleReading leaf) := by
    intro leaf hleaf
    obtain ⟨condition, hcondition⟩ :=
      Option.isSome_iff_exists.mp (List.all_eq_true.mp hreadable leaf hleaf)
    refine or_iff_not_imp_left.mpr fun hne => ⟨hne, ?_⟩
    rw [sampleReading, hcondition]
    rfl
  obtain ⟨text, built, hbuild, -, hreads, -, hvalues⟩ :=
    build_isHomomorphism hleaves (.single "y" .null)
  obtain rfl : _ = text := congrArg Prod.fst hbuild
  obtain ⟨condition, hcondition, hread, -⟩ := hreads (by decide)
  obtain rfl := Option.some.inj hcondition
  refine ⟨hleaves, _, built, hbuild, rfl, hread, ?_, ?_⟩
  · rw [hvalues]
    rfl
  · rw [hvalues]
    rfl

end Fragment

end PagedSearch
