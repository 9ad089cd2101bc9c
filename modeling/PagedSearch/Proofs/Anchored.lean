import PagedSearch.Proofs.Matching
import PagedSearch.Proofs.Prolonged

/-!
# Patterns between two anchors

A `^` in front of the text of a pattern and a `$` behind it are two more items, and an item belongs
to the alternative that it stands in.  So if the text has several alternatives, the `^` is in the
first of them only, and the `$` is in the last one only.

With the `^` in front, everything is read as without it, but that the first alternative of the
outermost group starts with one more item: this is a relation between what is known at a place with
the `^` and without it, and reading keeps it.

## Main definitions

* `Pattern.OpenGroup.Anchored`, `Pattern.State.Anchored` — what is known, without a `^` in front and
  with it.
* `Pattern.MatchesBetween` — a match of one of several alternatives, of which the first is tied to
  the start of a text and the last to its end.

## Main results

* `Pattern.item?_anchored` — an item is read the same behind a `^`.
* `Pattern.read?_between` — what is read of a text between the two.
* `Pattern.isFoundIn_between` — what the text between the two is found in.
-/

namespace PagedSearch.Pattern

/-- The anchor that a `^` in front of everything stands for. -/
def front : Pattern := .anchor .textStart

/-- The anchor that a `$` behind everything stands for. -/
def back (flags : Flags) : Pattern := .anchor (if flags.lines then .lineEnd else .textEnd)

/-! ### Behind the anchor of the start -/

/-- Whether the second pattern matches what the first one matches at the start of a text. -/
def IsAnchored (pattern anchored : Pattern) : Prop :=
  ∀ text i j, i ≤ text.length → (Matches text anchored i j ↔ i = 0 ∧ Matches text pattern i j)

theorem matches_front {text : List Char} {i j : Nat} (hi : i ≤ text.length) :
    Matches text front i j ↔ i = 0 ∧ j = i := by
  refine and_congr_left fun _ => ?_
  cases i with
  | zero => simp [charBefore, Anchor.holds]
  | succ i =>
    have hchar : text[i]? = some text[i] := List.getElem?_eq_getElem hi
    simp [charBefore, Anchor.holds, hchar]

theorem isAnchored_sequenceAll (patterns : List Pattern) :
    IsAnchored (sequenceAll patterns) (sequenceAll (front :: patterns)) := by
  intro text i j hi
  rw [matches_sequenceAll_cons]
  constructor
  · rintro ⟨k, hfront, hrest⟩
    obtain ⟨hzero, rfl⟩ := (matches_front hi).mp hfront
    exact ⟨hzero, hrest⟩
  · rintro ⟨hzero, hrest⟩
    exact ⟨i, (matches_front hi).mpr ⟨hzero, rfl⟩, hrest⟩

/-- The oldest item is the first one of an alternative. -/
theorem isAnchored_alternative (outerFlags : Flags) (alternatives : List Pattern)
    (items : List (Option Pattern)) :
    IsAnchored (OpenGroup.alternative ⟨outerFlags, alternatives, items⟩)
      (OpenGroup.alternative ⟨outerFlags, alternatives, items ++ [some front]⟩) := by
  have hitems : (items ++ [some front]).reverse.filterMap id =
      front :: items.reverse.filterMap id := by
    rw [List.reverse_append]
    rfl
  unfold OpenGroup.alternative
  rw [hitems]
  exact isAnchored_sequenceAll _

/-- What has been read of a group, and the same with a `^` in front of it. -/
inductive OpenGroup.Anchored : OpenGroup → OpenGroup → Prop where
  /-- The first alternative is being read. -/
  | first {outerFlags : Flags} {items : List (Option Pattern)} :
    Anchored ⟨outerFlags, [], items⟩ ⟨outerFlags, [], items ++ [some front]⟩
  /-- The first alternative has been read. -/
  | later {outerFlags : Flags} {pattern anchored : Pattern} {items : List (Option Pattern)}
      (between : List Pattern) (h : IsAnchored pattern anchored) :
    Anchored ⟨outerFlags, between ++ [pattern], items⟩ ⟨outerFlags, between ++ [anchored], items⟩

namespace OpenGroup.Anchored

variable {group anchored : OpenGroup}

theorem add (h : group.Anchored anchored) (pattern : Pattern) :
    (group.add pattern).Anchored (anchored.add pattern) := by
  cases h with
  | first => exact .first
  | later between h => exact .later between h

/-- The item that is repeated is not the `^`. -/
theorem repeatLast? (h : group.Anchored anchored) {least : Nat} {most : Option Nat}
    {next : OpenGroup} (hnext : group.repeatLast? least most = some next) :
    ∃ next', anchored.repeatLast? least most = some next' ∧ next.Anchored next' := by
  obtain ⟨outerFlags, alternatives, items⟩ := group
  rcases items with _ | ⟨_ | pattern, items⟩
  · cases hnext
  · cases hnext
  · obtain rfl := Option.some.inj hnext
    cases h with
    | first => exact ⟨_, rfl, .first⟩
    | later between h => exact ⟨_, rfl, .later between h⟩

end OpenGroup.Anchored

/-- What is known at a place of a pattern, and the same with a `^` in front of the pattern. -/
inductive State.Anchored : State → State → Prop where
  /-- Only the outermost group is open. -/
  | outermost {flags : Flags} {names : List (List Char)} {group anchored : OpenGroup}
      (h : group.Anchored anchored) :
    Anchored ⟨flags, group, [], names⟩ ⟨flags, anchored, [], names⟩
  /-- A group in it is open. -/
  | inner {flags : Flags} {names : List (List Char)} {current group anchored : OpenGroup}
      (between : List OpenGroup) (h : group.Anchored anchored) :
    Anchored ⟨flags, current, between ++ [group], names⟩
      ⟨flags, current, between ++ [anchored], names⟩

/-- A step that goes on in the same way behind a `^`. -/
def KeepsAnchored (step : State → Option State) : Prop :=
  ∀ state anchored next, state.Anchored anchored → step state = some next →
    ∃ next', step anchored = some next' ∧ next.Anchored next'

namespace State.Anchored

variable {state anchored : State}

theorem flags_eq (h : state.Anchored anchored) : anchored.flags = state.flags := by
  cases h <;> rfl

theorem add (h : state.Anchored anchored) (pattern : Pattern) :
    (state.add pattern).Anchored (anchored.add pattern) := by
  cases h with
  | outermost h => exact .outermost (h.add pattern)
  | inner between h => exact .inner between h

/-- The first alternative is read to its end with the `^` in front of it. -/
theorem nextAlternative (h : state.Anchored anchored) :
    state.nextAlternative.Anchored anchored.nextAlternative := by
  cases h with
  | inner between h => exact .inner between h
  | outermost h =>
    cases h with
    | later between h => exact .outermost (.later (_ :: between) h)
    | @first outerFlags items =>
      exact .outermost (.later [] (isAnchored_alternative _ _ _))

end State.Anchored

theorem repeatLast?_anchored (least : Nat) (most : Option Nat) :
    KeepsAnchored (·.repeatLast? least most) := by
  intro state anchored next h hnext
  obtain ⟨group, hgroup, rfl⟩ := Option.map_eq_some_iff.mp hnext
  cases h with
  | inner between h => exact ⟨_, congrArg (Option.map _) hgroup, .inner between h⟩
  | outermost h =>
    obtain ⟨group', hgroup', hkeeps⟩ := h.repeatLast? hgroup
    exact ⟨_, congrArg (Option.map _) hgroup', .outermost hkeeps⟩

theorem opened?_anchored (opening : Opening) : KeepsAnchored (·.opened? opening) := by
  intro state anchored next h hnext
  cases opening with
  | group flags name =>
    dsimp only [State.opened?] at hnext ⊢
    split at hnext
    · cases hnext
    · rename_i hname
      obtain rfl := Option.some.inj hnext
      cases h with
      | outermost h => exact ⟨_, if_neg hname, .inner [] h⟩
      | inner between h => exact ⟨_, if_neg hname, .inner (_ :: between) h⟩
  | flags flags =>
    obtain rfl := Option.some.inj hnext
    cases h with
    | inner between h => exact ⟨_, rfl, .inner between h⟩
    | outermost h =>
      cases h with
      | first => exact ⟨_, rfl, .outermost .first⟩
      | later between h => exact ⟨_, rfl, .outermost (.later between h)⟩

/-- A group that is closed is not the outermost one. -/
theorem closed?_anchored : KeepsAnchored State.closed? := by
  intro state anchored next h hnext
  cases h with
  | outermost h => cases hnext
  | @inner _ _ current _ _ between h =>
    cases between with
    | nil =>
      obtain rfl := Option.some.inj hnext
      exact ⟨_, rfl, .outermost (h.add current.pattern)⟩
    | cons around between =>
      obtain rfl := Option.some.inj hnext
      exact ⟨_, rfl, .inner between h⟩

/-- **An item is read the same behind a `^`.** -/
theorem item?_anchored {state anchored next : State} (h : state.Anchored anchored) {first : Char}
    {text rest : List Char} (hitem : item? state first text = some (next, rest)) :
    ∃ next', item? anchored first text = some (next', rest) ∧ next.Anchored next' := by
  unfold item? at hitem ⊢
  rw [h.flags_eq]
  split at hitem
  case h_1 =>
    obtain ⟨⟨opening, after⟩, hopening, hitem⟩ := Option.bind_eq_some_iff.mp hitem
    obtain ⟨found, hfound, hitem⟩ := Option.bind_eq_some_iff.mp hitem
    obtain ⟨rfl, rfl⟩ := Prod.mk.inj (Option.some.inj hitem)
    obtain ⟨next', hnext, hkeeps⟩ := opened?_anchored opening _ _ _ h hfound
    exact ⟨next', by simp [hopening, hnext], hkeeps⟩
  case h_2 =>
    obtain ⟨found, hfound, hitem⟩ := Option.bind_eq_some_iff.mp hitem
    obtain ⟨rfl, rfl⟩ := Prod.mk.inj (Option.some.inj hitem)
    obtain ⟨next', hnext, hkeeps⟩ := closed?_anchored _ _ _ h hfound
    exact ⟨next', by simp [hnext], hkeeps⟩
  case h_3 =>
    obtain ⟨rfl, rfl⟩ := Prod.mk.inj (Option.some.inj hitem)
    exact ⟨_, rfl, h.nextAlternative⟩
  case h_4 | h_5 | h_6 | h_7 =>
    obtain ⟨⟨⟨least, most⟩, after⟩, hbounds, hitem⟩ := Option.bind_eq_some_iff.mp hitem
    obtain ⟨found, hfound, hitem⟩ := Option.bind_eq_some_iff.mp hitem
    obtain ⟨rfl, rfl⟩ := Prod.mk.inj (Option.some.inj hitem)
    obtain ⟨next', hnext, hkeeps⟩ := repeatLast?_anchored least most _ _ _ h hfound
    exact ⟨next', by simp [hbounds, hnext], hkeeps⟩
  case h_8 =>
    obtain ⟨⟨pattern, after⟩, hatom, hitem⟩ := Option.bind_eq_some_iff.mp hitem
    obtain ⟨rfl, rfl⟩ := Prod.mk.inj (Option.some.inj hitem)
    exact ⟨_, by simp [hatom], h.add pattern⟩

/-- A text is read the same behind a `^`. -/
theorem items?_anchored (fuel : Nat) (text : List Char) :
    KeepsAnchored fun state => items? fuel state text := by
  induction fuel generalizing text with
  | zero =>
    intro state anchored next h hnext
    cases text with
    | nil =>
      obtain rfl := Option.some.inj hnext
      exact ⟨anchored, rfl, h⟩
    | cons => cases hnext
  | succ fuel ih =>
    intro state anchored next h hnext
    cases text with
    | nil =>
      obtain rfl := Option.some.inj hnext
      exact ⟨anchored, rfl, h⟩
    | cons first text =>
      obtain ⟨⟨behind, rest⟩, hitem, hnext⟩ := Option.bind_eq_some_iff.mp hnext
      obtain ⟨behind', hitem', hkeeps⟩ := item?_anchored h hitem
      obtain ⟨next', hnext', hkeeps'⟩ := ih rest _ _ _ hkeeps hnext
      refine ⟨next', ?_, hkeeps'⟩
      dsimp only [items?]
      rw [hitem']
      exact hnext'

/-- **What is read of a text between a `^` and a `$`**, if it is a pattern by itself. -/
theorem read?_between {body : List Char} {last : State} (h : read? body = some last) :
    ∃ anchored : OpenGroup, last.current.Anchored anchored ∧
      read? ('^' :: (body ++ ['$'])) =
        some { last with current := anchored.add (back last.flags) } := by
  obtain ⟨hitems, houter⟩ := Option.filter_eq_some_iff.mp h
  have hfirst : State.initial.Anchored (State.initial.add front) :=
    .outermost (@OpenGroup.Anchored.first .initial [])
  obtain ⟨last', hitems', hkeeps⟩ := items?_anchored _ _ _ _ _ hfirst hitems
  cases hkeeps with
  | inner => simp at houter
  | @outermost flags names group anchored hkeeps =>
    refine ⟨anchored, hkeeps, Option.filter_eq_some_iff.mpr ⟨?_, houter⟩⟩
    have hlength : ('^' :: (body ++ ['$'])).length = body.length + 1 + 1 := by simp
    rw [hlength, items?]
    exact items?_dollar hitems'

/-! ### Between the two anchors -/

section Between

variable {text : List Char} {lines : Bool}

/-- Whether a text ends at a place or, where anchors hold at every line, a line of it. -/
def IsEnd (text : List Char) (lines : Bool) (place : Nat) : Prop :=
  place = text.length ∨ (lines = true ∧ text[place]? = some '\n')

/-- Whether one of several alternatives matches, of which the first is tied to the start of the text
and the last to its end. -/
def MatchesBetween (text : List Char) (lines : Bool) (alternatives : List Pattern) : Prop :=
  ∃ before alternative after i j, alternatives = before ++ alternative :: after ∧
    i ≤ text.length ∧ Matches text alternative i j ∧
    (before = [] → i = 0) ∧ (after = [] → IsEnd text lines j)

theorem matches_back {flags : Flags} {i j : Nat} (hi : i ≤ text.length) :
    Matches text (back flags) i j ↔ IsEnd text flags.lines i ∧ j = i := by
  refine and_congr_left fun _ => ?_
  have hnone : text[i]? = none ↔ i = text.length := by
    rw [List.getElem?_eq_none_iff]
    omega
  unfold IsEnd
  cases flags.lines with
  | false => simp [Anchor.holds, hnone]
  | true => simp [Anchor.holds, hnone]

theorem IsAnchored.isFoundIn_iff {pattern anchored : Pattern} (h : IsAnchored pattern anchored) :
    anchored.isFoundIn text = true ↔ ∃ j, Matches text pattern 0 j := by
  rw [Pattern.isFoundIn_iff]
  constructor
  · rintro ⟨i, j, hi, hmatch⟩
    obtain ⟨rfl, hmatch⟩ := (h text i j hi).mp hmatch
    exact ⟨j, hmatch⟩
  · rintro ⟨j, hmatch⟩
    exact ⟨0, j, Nat.zero_le _, (h text 0 j (Nat.zero_le _)).mpr ⟨rfl, hmatch⟩⟩

theorem matches_sequenceAll_back (patterns : List Pattern) (flags : Flags) {i j : Nat}
    (hi : i ≤ text.length) :
    Matches text (sequenceAll (patterns ++ [back flags])) i j ↔
      Matches text (sequenceAll patterns) i j ∧ IsEnd text flags.lines j := by
  rw [matches_sequenceAll_concat]
  constructor
  · rintro ⟨k, hbody, hback⟩
    obtain ⟨hend, rfl⟩ := (matches_back (hbody.le_length hi)).mp hback
    exact ⟨hbody, hend⟩
  · rintro ⟨hbody, hend⟩
    exact ⟨j, hbody, (matches_back (hbody.le_length hi)).mpr ⟨hend, rfl⟩⟩

theorem OpenGroup.members_eq (group : OpenGroup) :
    group.members = group.alternatives.reverse ++ [group.alternative] := List.reverse_cons

theorem OpenGroup.members_add (group : OpenGroup) (pattern : Pattern) :
    (group.add pattern).members = group.alternatives.reverse ++
      [sequenceAll (group.items.reverse.filterMap id ++ [pattern])] := by
  rw [members_eq, alternative, add, List.reverse_cons, List.filterMap_append]
  rfl

/-- A `$` behind everything concerns the last alternative only. -/
theorem OpenGroup.isFoundIn_add_back (group : OpenGroup) (flags : Flags) :
    (group.add (back flags)).pattern.isFoundIn text = true ↔
      (∃ pattern ∈ group.alternatives, pattern.isFoundIn text = true) ∨
        ∃ i j, i ≤ text.length ∧ Matches text group.alternative i j ∧
          IsEnd text flags.lines j := by
  have hlast : (sequenceAll (group.items.reverse.filterMap id ++ [back flags])).isFoundIn text =
      true ↔ ∃ i j, i ≤ text.length ∧ Matches text group.alternative i j ∧
        IsEnd text flags.lines j := by
    rw [isFoundIn_iff]
    refine exists_congr fun i => exists_congr fun j => and_congr_right fun hi => ?_
    exact matches_sequenceAll_back _ flags hi
  rw [OpenGroup.pattern, OpenGroup.members_add, isFoundIn_choiceAll (by simp), ← hlast]
  simp only [List.mem_append, List.mem_reverse, List.mem_singleton, or_and_right, exists_or,
    exists_eq_left]

/-- A single alternative is tied to both ends. -/
theorem matchesBetween_singleton {pattern : Pattern} :
    MatchesBetween text lines [pattern] ↔ ∃ j, Matches text pattern 0 j ∧ IsEnd text lines j := by
  constructor
  · rintro ⟨before, alternative, after, i, j, hsplit, -, hmatch, hstart, hend⟩
    obtain ⟨rfl, heq⟩ | ⟨-, heq⟩ := List.singleton_eq_append_iff.mp hsplit
    · obtain ⟨rfl, rfl⟩ := List.cons.inj heq
      obtain rfl := hstart rfl
      exact ⟨j, hmatch, hend rfl⟩
    · cases heq
  · rintro ⟨j, hmatch, hend⟩
    exact ⟨[], pattern, [], 0, j, rfl, Nat.zero_le _, hmatch, fun _ => rfl, fun _ => hend⟩

/-- Of several alternatives, those between the first and the last are tied to nothing. -/
theorem matchesBetween_cons_concat {first last : Pattern} {between : List Pattern} :
    MatchesBetween text lines (first :: (between ++ [last])) ↔
      (∃ j, Matches text first 0 j) ∨ (∃ pattern ∈ between, pattern.isFoundIn text = true) ∨
        ∃ i j, i ≤ text.length ∧ Matches text last i j ∧ IsEnd text lines j := by
  constructor
  · rintro ⟨before, alternative, after, i, j, hsplit, hi, hmatch, hstart, hend⟩
    cases before with
    | nil =>
      obtain ⟨rfl, -⟩ := List.cons.inj hsplit
      obtain rfl := hstart rfl
      exact .inl ⟨j, hmatch⟩
    | cons _ before =>
      obtain ⟨-, hsplit⟩ := List.cons.inj hsplit
      obtain rfl | ⟨after, final, rfl⟩ := List.eq_nil_or_concat' after
      · obtain ⟨-, heq⟩ := List.append_inj' hsplit rfl
        obtain ⟨rfl, -⟩ := List.cons.inj heq
        exact .inr (.inr ⟨i, j, hi, hmatch, hend rfl⟩)
      · have hsplit : between ++ [last] = (before ++ alternative :: after) ++ [final] := by
          rw [List.append_assoc]
          exact hsplit
        obtain ⟨rfl, -⟩ := List.append_inj' hsplit rfl
        exact .inr (.inl ⟨alternative, by simp, isFoundIn_iff.mpr ⟨i, j, hi, hmatch⟩⟩)
  · rintro (⟨j, hmatch⟩ | ⟨pattern, hpattern, hfound⟩ | ⟨i, j, hi, hmatch, hend⟩)
    · exact ⟨[], first, between ++ [last], 0, j, rfl, Nat.zero_le _, hmatch, fun _ => rfl,
        fun h => absurd h (by simp)⟩
    · obtain ⟨before, after, rfl⟩ := List.append_of_mem hpattern
      obtain ⟨i, j, hi, hmatch⟩ := isFoundIn_iff.mp hfound
      exact ⟨first :: before, pattern, after ++ [last], i, j, by simp, hi, hmatch, nofun,
        fun h => absurd h (by simp)⟩
    · exact ⟨first :: between, last, [], i, j, rfl, hi, hmatch, nofun, fun _ => hend⟩

/-- **What a pattern between the two anchors is found in.** -/
theorem isFoundIn_between {group anchored : OpenGroup} (h : group.Anchored anchored)
    (flags : Flags) :
    (anchored.add (back flags)).pattern.isFoundIn text = true ↔
      MatchesBetween text flags.lines group.members := by
  rw [OpenGroup.isFoundIn_add_back, OpenGroup.members_eq]
  cases h with
  | @first outerFlags items =>
    have hanchored := isAnchored_alternative outerFlags [] items
    rw [List.reverse_nil, List.nil_append, matchesBetween_singleton]
    constructor
    · rintro (⟨_, hpattern, -⟩ | ⟨i, j, hi, hmatch, hend⟩)
      · cases hpattern
      · obtain ⟨rfl, hmatch⟩ := (hanchored text i j hi).mp hmatch
        exact ⟨j, hmatch, hend⟩
    · rintro ⟨j, hmatch, hend⟩
      exact .inr ⟨0, j, Nat.zero_le _, (hanchored text 0 j (Nat.zero_le _)).mpr ⟨rfl, hmatch⟩, hend⟩
  | @later outerFlags pattern anchored items between h =>
    have hothers : (∃ other ∈ between ++ [anchored], other.isFoundIn text = true) ↔
        (∃ j, Matches text pattern 0 j) ∨
          ∃ other ∈ between.reverse, other.isFoundIn text = true := by
      rw [← h.isFoundIn_iff]
      simp only [List.mem_append, List.mem_reverse, List.mem_singleton, or_and_right, exists_or,
        exists_eq_left]
      exact or_comm
    rw [hothers, List.reverse_append, List.reverse_singleton, List.singleton_append,
      List.cons_append, matchesBetween_cons_concat, or_assoc]
    rfl

end Between

end PagedSearch.Pattern
