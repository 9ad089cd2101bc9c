import Mathlib.Data.List.Basic
import PagedSearch.Field.Pattern.Matching

/-!
# What patterns match

A pattern is a relation between the places of a text: from where to where it matches.  Matches are
computed forwards, all places at once, and a repetition is followed until it reaches no new place.
That finds every match, since a repetition gets on in each round that counts.

## Main definitions

* `Steps` — a relation a given number of times.
* `Pattern.Matches` — where a pattern matches.

## Main results

* `Pattern.mem_spread` — what is reached by rounds of which each starts from the new places only.
* `Pattern.mem_reach` — the places that are reached are the ends of matches.
* `Pattern.isFoundIn_iff` — a pattern is found where it matches.
-/

namespace PagedSearch

/-! ### Repeated steps -/

/-- A relation, `count` times. -/
inductive Steps (R : Nat → Nat → Prop) : Nat → Nat → Nat → Prop where
  /-- No step. -/
  | none {i : Nat} : Steps R 0 i i
  /-- A step, and more of them. -/
  | more {count i k j : Nat} : R i k → Steps R count k j → Steps R (count + 1) i j

namespace Steps

variable {R Q : Nat → Nat → Prop} {count more i j k : Nat}

theorem zero_iff : Steps R 0 i j ↔ j = i := by
  constructor
  · rintro ⟨⟩
    rfl
  · rintro rfl
    exact .none

theorem succ_iff : Steps R (count + 1) i j ↔ ∃ k, R i k ∧ Steps R count k j := by
  constructor
  · rintro (_ | ⟨hstep, hsteps⟩)
    exact ⟨_, hstep, hsteps⟩
  · rintro ⟨k, hstep, hsteps⟩
    exact .more hstep hsteps

theorem add_iff : Steps R (count + more) i j ↔ ∃ k, Steps R count i k ∧ Steps R more k j := by
  induction count generalizing i with
  | zero => simp [zero_iff]
  | succ count ih =>
    rw [Nat.succ_add, Nat.succ_eq_add_one, succ_iff]
    constructor
    · rintro ⟨k, hstep, hsteps⟩
      obtain ⟨l, hfirst, hsecond⟩ := ih.mp hsteps
      exact ⟨l, .more hstep hfirst, hsecond⟩
    · rintro ⟨l, hfirst, hsecond⟩
      obtain ⟨k, hstep, hfirst⟩ := succ_iff.mp hfirst
      exact ⟨k, hstep, ih.mpr ⟨l, hfirst, hsecond⟩⟩

/-- What holds along each step holds along all of them. -/
theorem of_forall (hrefl : ∀ i, Q i i) (htrans : ∀ i k j, Q i k → Q k j → Q i j)
    (h : ∀ i j, R i j → Q i j) (hsteps : Steps R count i j) : Q i j := by
  induction hsteps with
  | none => exact hrefl _
  | more hstep _ ih => exact htrans _ _ _ (h _ _ hstep) ih

/-- Where no step goes back, those that do not move can be left out. -/
theorem shortened (h : ∀ i j, R i j → i ≤ j) (hsteps : Steps R count i j) :
    ∃ fewer, i + fewer ≤ j ∧ Steps R fewer i j := by
  induction hsteps with
  | none => exact ⟨0, Nat.le_refl _, .none⟩
  | @more count i k j hstep _ ih =>
    obtain ⟨fewer, hle, hfewer⟩ := ih
    rcases Nat.eq_or_lt_of_le (h _ _ hstep) with rfl | hlt
    · exact ⟨fewer, hle, hfewer⟩
    · exact ⟨fewer + 1, by omega, .more hstep hfewer⟩

end Steps

namespace Pattern

/-! ### Rounds -/

section Rounds

variable {step : List Nat → List Nat} {R : Nat → Nat → Prop}

theorem mem_iterate (hstep : ∀ places j, j ∈ step places ↔ ∃ i ∈ places, R i j) (count : Nat)
    (places : List Nat) (j : Nat) :
    j ∈ iterate step count places ↔ ∃ i ∈ places, Steps R count i j := by
  induction count generalizing places with
  | zero => simp [iterate, Steps.zero_iff]
  | succ count ih =>
    rw [iterate, ih]
    constructor
    · rintro ⟨k, hk, hsteps⟩
      obtain ⟨i, hi, hfirst⟩ := (hstep _ _).mp hk
      exact ⟨i, hi, .more hfirst hsteps⟩
    · rintro ⟨i, hi, hsteps⟩
      obtain ⟨k, hfirst, hsteps⟩ := Steps.succ_iff.mp hsteps
      exact ⟨k, (hstep _ _).mpr ⟨i, hi, hfirst⟩, hsteps⟩

/-- Places from which a step leads to one of them, unless it starts from one of the last ones. -/
def IsClosedBut (R : Nat → Nat → Prop) (seen latest : List Nat) : Prop :=
  ∀ i ∈ seen, i ∉ latest → ∀ j, R i j → j ∈ seen

/-- The way out of a set of places leads through the last ones. -/
theorem IsClosedBut.exists_latest {seen latest : List Nat} (h : IsClosedBut R seen latest)
    {count i j : Nat} (hi : i ∈ seen) (hsteps : Steps R count i j) :
    j ∈ seen ∨ ∃ fewer ≤ count, ∃ k ∈ latest, Steps R fewer k j := by
  induction hsteps with
  | none => exact .inl hi
  | @more count i k j hstep hsteps ih =>
    by_cases hlatest : i ∈ latest
    · exact .inr ⟨count + 1, Nat.le_refl _, i, hlatest, .more hstep hsteps⟩
    · rcases ih (h i hi hlatest k hstep) with hj | ⟨fewer, hle, k, hk, hfewer⟩
      · exact .inl hj
      · exact .inr ⟨fewer, Nat.le_succ_of_le hle, k, hk, hfewer⟩

/-- The new places of a round: where a step leads from the last ones. -/
def AreNew (R : Nat → Nat → Prop) (seen latest found : List Nat) : Prop :=
  ∀ k, k ∈ found ↔ (∃ i ∈ latest, R i k) ∧ k ∉ seen

section Round

variable {seen latest found : List Nat}

/-- With the new places, all steps from the last ones have been made. -/
theorem IsClosedBut.append (h : IsClosedBut R seen latest) (hfound : AreNew R seen latest found) :
    IsClosedBut R (seen ++ found) found := by
  intro i hi hnot k hk
  rw [List.mem_append]
  have hseen := (List.mem_append.mp hi).resolve_right hnot
  by_cases hlatest : i ∈ latest
  · by_cases hk' : k ∈ seen
    · exact .inl hk'
    · exact .inr ((hfound k).mpr ⟨⟨i, hlatest, hk⟩, hk'⟩)
  · exact .inl (h i hseen hlatest k hk)

/-- After a round there is one round less to make, from the new places on. -/
theorem IsClosedBut.reached_iff (h : IsClosedBut R seen latest) (hlatest : latest ⊆ seen)
    (hfound : AreNew R seen latest found) (rounds j : Nat) :
    (j ∈ seen ++ found ∨ ∃ count ≤ rounds, ∃ k ∈ found, Steps R count k j) ↔
      j ∈ seen ∨ ∃ count ≤ rounds + 1, ∃ i ∈ latest, Steps R count i j := by
  constructor
  · rintro (hj | ⟨count, hcount, k, hk, hsteps⟩)
    · rcases List.mem_append.mp hj with hj | hj
      · exact .inl hj
      · obtain ⟨⟨i, hi, hij⟩, -⟩ := (hfound j).mp hj
        exact .inr ⟨1, Nat.succ_le_succ (Nat.zero_le _), i, hi, .more hij .none⟩
    · obtain ⟨⟨i, hi, hik⟩, -⟩ := (hfound k).mp hk
      exact .inr ⟨count + 1, Nat.succ_le_succ hcount, i, hi, .more hik hsteps⟩
  · rintro (hj | ⟨count, hcount, i, hi, hsteps⟩)
    · exact .inl (List.mem_append_left _ hj)
    · cases hsteps with
      | none => exact .inl (List.mem_append_left _ (hlatest hi))
      | @more count _ k _ hik hsteps =>
        have hk : k ∈ seen ++ found := by
          rw [List.mem_append]
          by_cases hk : k ∈ seen
          · exact .inl hk
          · exact .inr ((hfound k).mpr ⟨⟨i, hi, hik⟩, hk⟩)
        rcases (h.append hfound).exists_latest hk hsteps with hj | ⟨fewer, hle, more⟩
        · exact .inl hj
        · exact .inr ⟨fewer, Nat.le_trans hle (Nat.le_of_succ_le_succ hcount), more⟩

end Round

/-- **What is reached in some rounds**, if all steps from older places have been made. -/
theorem mem_spread (hstep : ∀ places j, j ∈ step places ↔ ∃ i ∈ places, R i j) (rounds : Nat)
    {seen latest : List Nat} (hlatest : latest ⊆ seen) (hclosed : IsClosedBut R seen latest)
    (j : Nat) :
    j ∈ spread step rounds seen latest ↔
      j ∈ seen ∨ ∃ count ≤ rounds, ∃ i ∈ latest, Steps R count i j := by
  induction rounds generalizing seen latest with
  | zero =>
    rw [spread]
    refine ⟨.inl, ?_⟩
    rintro (hj | ⟨count, hcount, i, hi, hsteps⟩)
    · exact hj
    · obtain rfl := Nat.le_zero.mp hcount
      obtain rfl := Steps.zero_iff.mp hsteps
      exact hlatest hi
  | succ rounds ih =>
    have hfound : AreNew R seen latest
        ((step latest).filter fun place => !seen.contains place) := by
      intro k
      rw [List.mem_filter, hstep]
      simp
    rw [spread, ← hclosed.reached_iff hlatest hfound]
    generalize (step latest).filter (fun place => !seen.contains place) = found at hfound
    cases found with
    | nil => simp
    | cons => exact ih (List.subset_append_right _ _) (hclosed.append hfound)

/-- Some rounds behind those that have to be. -/
theorem mem_rounds (hstep : ∀ places j, j ∈ step places ↔ ∃ i ∈ places, R i j)
    (least rounds : Nat) (places : List Nat) (j : Nat) :
    j ∈ spread step rounds (iterate step least places) (iterate step least places) ↔
      ∃ i ∈ places, ∃ more ≤ rounds, Steps R (least + more) i j := by
  have hstart := mem_iterate hstep least places
  rw [mem_spread hstep rounds (List.Subset.refl _) fun i hi hnot => absurd hi hnot]
  constructor
  · rintro (hj | ⟨more, hmore, k, hk, hsecond⟩)
    · obtain ⟨i, hi, hsteps⟩ := (hstart j).mp hj
      exact ⟨i, hi, 0, Nat.zero_le _, hsteps⟩
    · obtain ⟨i, hi, hfirst⟩ := (hstart k).mp hk
      exact ⟨i, hi, more, hmore, Steps.add_iff.mpr ⟨k, hfirst, hsecond⟩⟩
  · rintro ⟨i, hi, more, hmore, hsteps⟩
    obtain ⟨k, hfirst, hsecond⟩ := Steps.add_iff.mp hsteps
    exact .inr ⟨more, hmore, k, (hstart k).mpr ⟨i, hi, hfirst⟩, hsecond⟩

end Rounds

/-! ### Matches -/

section Matches

variable {text : List Char}

/-- Whether the pattern matches the text from one place to another. -/
def Matches (text : List Char) : Pattern → Nat → Nat → Prop
  | .empty, i, j => j = i
  | .one set, i, j => (∃ c, text[i]? = some c ∧ set.contains c = true) ∧ j = i + 1
  | .anchor condition, i, j => condition.holds (charBefore text i) text[i]? = true ∧ j = i
  | .sequence a b, i, j => ∃ k, Matches text a i k ∧ Matches text b k j
  | .choice a b, i, j => Matches text a i j ∨ Matches text b i j
  | .repeated body least most, i, j =>
    ∃ count, least ≤ count ∧ (∀ bound ∈ most, count ≤ max least bound) ∧
      Steps (Matches text body) count i j

/-- A match does not go back, and goes on only within the text. -/
theorem Matches.le {pattern : Pattern} {i j : Nat} (h : Matches text pattern i j) :
    i ≤ j ∧ (i = j ∨ j ≤ text.length) := by
  induction pattern generalizing i j with
  | empty => exact ⟨Nat.le_of_eq h.symm, .inl h.symm⟩
  | one set =>
    obtain ⟨⟨c, hc, -⟩, rfl⟩ := h
    have hlt := (List.getElem?_eq_some_iff.mp hc).1
    exact ⟨Nat.le_succ i, .inr hlt⟩
  | anchor condition => exact ⟨Nat.le_of_eq h.2.symm, .inl h.2.symm⟩
  | sequence a b iha ihb =>
    obtain ⟨k, hfirst, hsecond⟩ := h
    have := iha hfirst
    have := ihb hsecond
    omega
  | choice a b iha ihb => exact h.elim iha ihb
  | repeated body least most ih =>
    obtain ⟨count, -, -, hsteps⟩ := h
    exact hsteps.of_forall (Q := fun i j => i ≤ j ∧ (i = j ∨ j ≤ text.length))
      (fun i => ⟨Nat.le_refl i, .inl rfl⟩) (fun i k j _ _ => by omega) fun i j => ih

/-- A match within a text does not end behind it. -/
theorem Matches.le_length {pattern : Pattern} {i j : Nat} (h : Matches text pattern i j)
    (hi : i ≤ text.length) : j ≤ text.length := by
  have hle := h.le
  omega

/-- A bounded repetition has all its rounds, and an unbounded one has more of them than it can get
on. -/
theorem mem_reach_repeated {body : Pattern} {least : Nat} {most : Option Nat}
    (hbody : ∀ places j, j ∈ reach text body places ↔ ∃ i ∈ places, Matches text body i j)
    (places : List Nat) (j : Nat) :
    j ∈ reach text (.repeated body least most) places ↔
      ∃ i ∈ places, Matches text (.repeated body least most) i j := by
  unfold reach
  cases most with
  | some bound =>
    rw [mem_rounds hbody]
    dsimp only
    refine exists_congr fun i => and_congr_right fun _ => ?_
    constructor
    · rintro ⟨more, hmore, hsteps⟩
      refine ⟨least + more, Nat.le_add_right _ _, ?_, hsteps⟩
      rintro _ ⟨⟩
      omega
    · rintro ⟨count, hleast, hmost, hsteps⟩
      obtain ⟨more, rfl⟩ := Nat.exists_eq_add_of_le hleast
      have hbound := hmost bound rfl
      exact ⟨more, by omega, hsteps⟩
  | none =>
    rw [mem_rounds hbody]
    dsimp only
    refine exists_congr fun i => and_congr_right fun _ => ?_
    constructor
    · rintro ⟨more, -, hsteps⟩
      exact ⟨least + more, Nat.le_add_right _ _, nofun, hsteps⟩
    · rintro ⟨count, hleast, -, hsteps⟩
      obtain ⟨more, rfl⟩ := Nat.exists_eq_add_of_le hleast
      obtain ⟨k, hfirst, hsecond⟩ := Steps.add_iff.mp hsteps
      obtain ⟨fewer, hle, hfewer⟩ := hsecond.shortened fun i j h => h.le.1
      have hrange := hsecond.of_forall (Q := fun i j => i ≤ j ∧ (i = j ∨ j ≤ text.length))
        (fun i => ⟨Nat.le_refl i, .inl rfl⟩) (fun i k j _ _ => by omega) fun i j h => h.le
      exact ⟨fewer, by omega, Steps.add_iff.mpr ⟨k, hfirst, hfewer⟩⟩

/-- **The places that are reached are the ends of matches.** -/
theorem mem_reach (pattern : Pattern) (places : List Nat) (j : Nat) :
    j ∈ reach text pattern places ↔ ∃ i ∈ places, Matches text pattern i j := by
  induction pattern generalizing places j with
  | empty => simp [reach, Matches]
  | one set =>
    rw [reach, List.mem_filterMap]
    refine exists_congr fun i => and_congr_right fun _ => ?_
    rw [Matches]
    cases text[i]? with
    | none => simp
    | some c => by_cases hc : set.contains c = true <;> simp [hc, @eq_comm _ j]
  | anchor condition =>
    simp only [reach, Matches, List.mem_filter]
    constructor
    · exact fun ⟨hj, hholds⟩ => ⟨j, hj, hholds, rfl⟩
    · rintro ⟨i, hi, hholds, rfl⟩
      exact ⟨hi, hholds⟩
  | sequence a b iha ihb =>
    rw [reach, ihb]
    constructor
    · rintro ⟨k, hk, hsecond⟩
      obtain ⟨i, hi, hfirst⟩ := (iha _ _).mp hk
      exact ⟨i, hi, k, hfirst, hsecond⟩
    · rintro ⟨i, hi, k, hfirst, hsecond⟩
      exact ⟨k, (iha _ _).mpr ⟨i, hi, hfirst⟩, hsecond⟩
  | choice a b iha ihb =>
    have hmem : j ∈ reach text (.choice a b) places ↔
        j ∈ reach text a places ∨ j ∈ reach text b places := by
      rw [reach, List.mem_append, List.mem_filter]
      constructor
      · exact fun h => h.imp_right And.left
      · rintro (h | h)
        · exact .inl h
        · by_cases hj : j ∈ reach text a places
          · exact .inl hj
          · exact .inr ⟨h, by simpa using hj⟩
    rw [hmem, iha, ihb]
    constructor
    · rintro (⟨i, hi, h⟩ | ⟨i, hi, h⟩)
      · exact ⟨i, hi, .inl h⟩
      · exact ⟨i, hi, .inr h⟩
    · rintro ⟨i, hi, h | h⟩
      · exact .inl ⟨i, hi, h⟩
      · exact .inr ⟨i, hi, h⟩
  | repeated body least most ih => exact mem_reach_repeated ih places j

instance (pattern : Pattern) (i j : Nat) : Decidable (Matches text pattern i j) :=
  decidable_of_iff (j ∈ reach text pattern [i]) (by simp [mem_reach])

/-- **A pattern is found where it matches**, from any place to any other. -/
theorem isFoundIn_iff {pattern : Pattern} :
    pattern.isFoundIn text = true ↔ ∃ i j, i ≤ text.length ∧ Matches text pattern i j := by
  have hplaces (i : Nat) : i ∈ List.range (text.length + 1) ↔ i ≤ text.length := by
    rw [List.mem_range, Nat.lt_succ_iff]
  rw [isFoundIn, Bool.not_eq_true', List.isEmpty_eq_false_iff_exists_mem]
  constructor
  · rintro ⟨j, hj⟩
    obtain ⟨i, hi, h⟩ := (mem_reach _ _ _).mp hj
    exact ⟨i, j, (hplaces i).mp hi, h⟩
  · rintro ⟨i, j, hi, h⟩
    exact ⟨j, (mem_reach _ _ _).mpr ⟨i, (hplaces i).mpr hi, h⟩⟩

/-! ### Several patterns -/

theorem matches_sequenceAll_cons (pattern : Pattern) (patterns : List Pattern) {i j : Nat} :
    Matches text (sequenceAll (pattern :: patterns)) i j ↔
      ∃ k, Matches text pattern i k ∧ Matches text (sequenceAll patterns) k j := by
  cases patterns with
  | nil => simp [sequenceAll, Matches]
  | cons next patterns => exact Iff.rfl

theorem matches_sequenceAll_concat (patterns : List Pattern) (pattern : Pattern) {i j : Nat} :
    Matches text (sequenceAll (patterns ++ [pattern])) i j ↔
      ∃ k, Matches text (sequenceAll patterns) i k ∧ Matches text pattern k j := by
  induction patterns generalizing i with
  | nil => simp [sequenceAll, Matches]
  | cons first patterns ih =>
    simp only [List.cons_append, matches_sequenceAll_cons, ih]
    constructor
    · rintro ⟨k, hfirst, l, hrest, hlast⟩
      exact ⟨l, ⟨k, hfirst, hrest⟩, hlast⟩
    · rintro ⟨l, ⟨k, hfirst, hrest⟩, hlast⟩
      exact ⟨k, hfirst, l, hrest, hlast⟩

theorem matches_choiceAll {patterns : List Pattern} (hne : patterns ≠ []) {i j : Nat} :
    Matches text (choiceAll patterns) i j ↔ ∃ pattern ∈ patterns, Matches text pattern i j := by
  induction patterns with
  | nil => exact absurd rfl hne
  | cons first patterns ih =>
    cases patterns with
    | nil => simp [choiceAll]
    | cons next patterns =>
      have hchoice : Matches text (choiceAll (first :: next :: patterns)) i j ↔
          Matches text first i j ∨ Matches text (choiceAll (next :: patterns)) i j := Iff.rfl
      rw [hchoice, ih (List.cons_ne_nil _ _)]
      simp only [List.mem_cons, exists_eq_or_imp]

theorem isFoundIn_choiceAll {patterns : List Pattern} (hne : patterns ≠ []) :
    (choiceAll patterns).isFoundIn text = true ↔
      ∃ pattern ∈ patterns, pattern.isFoundIn text = true := by
  simp only [isFoundIn_iff, matches_choiceAll hne]
  constructor
  · rintro ⟨i, j, hi, pattern, hpattern, h⟩
    exact ⟨pattern, hpattern, i, j, hi, h⟩
  · rintro ⟨pattern, hpattern, i, j, hi, h⟩
    exact ⟨i, j, hi, pattern, hpattern, h⟩

end Matches

end Pattern

end PagedSearch
