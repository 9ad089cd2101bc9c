import PagedSearch.Field.AllowList
import PagedSearch.Proofs.Anchored
import PagedSearch.Proofs.Fitting

/-!
# What allow-lists let through

An entry of an allow-list is meant to stand for whole names: a plain entry for the name that it is,
and a pattern between `^` and `$` for the names that it matches from their start to their end.  Such
names are let through.  But the two anchors are items of the pattern like all others.  If it has
several alternatives, the `^` is in front of the first only and the `$` behind the last only.
Then names are let through of which only the start or only the end is like one that is meant, or,
if there is an alternative between the two, any part.

## Main definitions

* `StandsFor` — the names that an entry is meant for.
* `LetsThrough` — the names that an entry lets through.
* `IsUndivided` — entries in which both anchors are tied to the whole pattern.

## Main results

* `AllowList.allows_iff` — the names that are let through.
* `dividedEntry_letsThrough` — a name that only starts like one that is meant.
-/

namespace PagedSearch

open Pattern

/-! ### Entries -/

/-- An entry that is no pattern between `^` and `$`. -/
def IsPlain (entry : String) : Prop := ∀ body : String, entry ≠ "^" ++ body ++ "$"

/-- Whether an entry is meant for a name: the entry is the name, or the pattern in it matches the
whole name. -/
def StandsFor (entry field : String) : Prop :=
  (IsPlain entry ∧ entry = field) ∨
    ∃ body pattern, entry = "^" ++ body ++ "$" ∧ Pattern.ofText? body = some pattern ∧
      Matches field.toList pattern 0 field.toList.length

/-- Whether an entry lets a name through: the entry is the name, or one of the alternatives in it
matches a part of the name, the first one only at the start and the last one only at the end.  What
stands between the anchors need not be a pattern without them. -/
def LetsThrough (entry field : String) : Prop :=
  (IsPlain entry ∧ entry = field) ∨
    ∃ body, entry = "^" ++ body ++ "$" ∧
      match read? body.toList with
      | some last => MatchesBetween field.toList last.flags.lines last.current.members
      | none => ∃ pattern, Pattern.ofText? entry = some pattern ∧
          pattern.isFoundIn field.toList = true

/-- Whether both anchors are tied to the whole pattern: it has no alternatives, and the `$` does not
hold at the ends of lines in front of the end of the name. -/
def IsUndivided (entry field : String) : Prop :=
  ∀ body, entry = "^" ++ body ++ "$" → ∃ last, read? body.toList = some last ∧
    last.current.alternatives = [] ∧ (last.flags.lines = true → '\n' ∉ field.toList)

section Entries

variable {entry field body : String}

theorem toList_between (body : String) :
    ("^" ++ body ++ "$").toList = '^' :: (body.toList ++ ['$']) := by
  rw [String.toList_append, String.toList_append]
  rfl

theorem between_inj {body' : String} (h : "^" ++ body ++ "$" = "^" ++ body' ++ "$") :
    body = body' := by
  have hlists := congrArg String.toList h
  rw [toList_between, toList_between] at hlists
  exact String.toList_injective (List.append_cancel_right (List.cons.inj hlists).2)

/-- It is looked at both ends of an entry only. -/
theorem ofEntry_plain (h : IsPlain entry) : AllowedField.ofEntry entry = .ok (.named entry) := by
  refine if_neg fun hends => ?_
  rw [Bool.and_eq_true, decide_eq_true_eq, decide_eq_true_eq] at hends
  obtain ⟨hhead, hlast⟩ := hends
  obtain ⟨body, hbody⟩ := List.getLast?_eq_some_iff.mp hlast
  cases body with
  | nil =>
    rw [hbody] at hhead
    cases hhead
  | cons c body =>
    rw [hbody] at hhead
    obtain rfl := Option.some.inj hhead
    refine h (String.ofList body) (String.toList_injective ?_)
    rw [toList_between, hbody, String.toList_ofList]
    rfl

theorem ofEntry_between {allowed : AllowedField}
    (h : AllowedField.ofEntry ("^" ++ body ++ "$") = .ok allowed) :
    ∃ pattern, Pattern.ofText? ("^" ++ body ++ "$") = some pattern ∧
      allowed = .matching pattern := by
  have hends : (decide (("^" ++ body ++ "$").toList.head? = some '^') &&
      decide (("^" ++ body ++ "$").toList.getLast? = some '$')) = true := by
    rw [toList_between, ← List.cons_append, List.getLast?_concat]
    rfl
  rw [AllowedField.ofEntry, if_pos hends] at h
  cases hpattern : Pattern.ofText? ("^" ++ body ++ "$") with
  | none =>
    rw [hpattern] at h
    cases h
  | some pattern =>
    rw [hpattern] at h
    exact ⟨pattern, rfl, (Except.ok.inj h).symm⟩

/-- **What an entry between two anchors is found in**, if it is a pattern without them. -/
theorem ofText?_between {last : State} (h : read? body.toList = some last) :
    ∃ pattern, Pattern.ofText? ("^" ++ body ++ "$") = some pattern ∧
      ∀ text, pattern.isFoundIn text = true ↔
        MatchesBetween text last.flags.lines last.current.members := by
  obtain ⟨anchored, hanchored, hread⟩ := read?_between h
  refine ⟨(anchored.add (back last.flags)).pattern, ?_, fun text => isFoundIn_between hanchored _⟩
  rw [Pattern.ofText?, toList_between, hread]
  rfl

/-- An entry lets through its own name, or what its pattern is found in. -/
theorem allows_iff_letsThrough {allowed : AllowedField}
    (h : AllowedField.ofEntry entry = .ok allowed) :
    allowed.allows field = true ↔ LetsThrough entry field := by
  have hbetween {body : String} (hentry : entry = "^" ++ body ++ "$") :
      allowed.allows field = true ↔ match read? body.toList with
        | some last => MatchesBetween field.toList last.flags.lines last.current.members
        | none => ∃ pattern, Pattern.ofText? entry = some pattern ∧
            pattern.isFoundIn field.toList = true := by
    subst hentry
    obtain ⟨pattern, hpattern, rfl⟩ := ofEntry_between h
    cases hread : read? body.toList with
    | none => simp [AllowedField.allows, hpattern]
    | some last =>
      obtain ⟨pattern', hpattern', hfound⟩ := ofText?_between hread
      obtain rfl := Option.some.inj (hpattern.symm.trans hpattern')
      exact hfound field.toList
  by_cases hplain : IsPlain entry
  · rw [ofEntry_plain hplain] at h
    obtain rfl := Except.ok.inj h
    rw [AllowedField.allows, beq_iff_eq]
    refine ⟨fun heq => .inl ⟨hplain, heq⟩, ?_⟩
    rintro (⟨-, heq⟩ | ⟨body, hentry, -⟩)
    · exact heq
    · exact absurd hentry (hplain body)
  · constructor
    · intro hallowed
      obtain ⟨body, hentry⟩ := not_forall_not.mp hplain
      exact .inr ⟨body, hentry, (hbetween hentry).mp hallowed⟩
    · rintro (⟨h, -⟩ | ⟨body, hentry, hfield⟩)
      · exact absurd h hplain
      · exact (hbetween hentry).mpr hfield

/-- A match of the whole name is one between the anchors. -/
theorem letsThrough_of_standsFor (h : StandsFor entry field) : LetsThrough entry field := by
  obtain hplain | ⟨body, pattern, rfl, hpattern, hmatch⟩ := h
  · exact .inl hplain
  · obtain ⟨last, hread, rfl⟩ := Option.map_eq_some_iff.mp hpattern
    refine .inr ⟨body, rfl, ?_⟩
    rw [hread]
    have hne : last.current.members ≠ [] := by simp [OpenGroup.members]
    obtain ⟨alternative, hmem, hmatch⟩ := (matches_choiceAll hne).mp hmatch
    obtain ⟨before, after, hsplit⟩ := List.append_of_mem hmem
    exact ⟨before, alternative, after, 0, _, hsplit, Nat.zero_le _, hmatch, fun _ => rfl,
      fun _ => .inl rfl⟩

/-- An entry without alternatives lets nothing else through. -/
theorem standsFor_of_letsThrough (hundivided : IsUndivided entry field)
    (h : LetsThrough entry field) : StandsFor entry field := by
  obtain hplain | ⟨body, rfl, h⟩ := h
  · exact .inl hplain
  · obtain ⟨last, hread, hsingle, hlines⟩ := hundivided body rfl
    rw [hread] at h
    have hmembers : last.current.members = [last.current.alternative] := by
      rw [OpenGroup.members, hsingle]
      rfl
    dsimp only at h
    rw [hmembers, matchesBetween_singleton] at h
    obtain ⟨j, hmatch, rfl | ⟨hline, hbreak⟩⟩ := h
    · refine .inr ⟨body, last.current.alternative, rfl, ?_, hmatch⟩
      rw [Pattern.ofText?, hread, Option.map_some, OpenGroup.pattern, hmembers]
      rfl
    · exact absurd (List.mem_of_getElem? hbreak) (hlines hline)

end Entries

/-! ### Lists -/

section Lists

variable {entries : List String} {list : AllowList} {field : String}

theorem any_allows_iff {allowed : List AllowedField}
    (h : List.Forall₂ (fun entry one => AllowedField.ofEntry entry = .ok one) entries allowed) :
    (allowed.any fun one => one.allows field) = true ↔
      ∃ entry ∈ entries, LetsThrough entry field := by
  induction h with
  | nil => simp
  | cons hfirst _ ih =>
    rw [List.any_cons, Bool.or_eq_true, ih, allows_iff_letsThrough hfirst]
    simp only [List.mem_cons, exists_eq_or_imp]

/-- **What a list lets through.**  It lets through the names that its entries stand for, and no
others unless the pattern in one of them is divided or is none without the anchors. -/
theorem AllowList.allows_iff (h : AllowList.ofEntries entries = .ok list) (field : String) :
    (list.allows field = true ↔ ∃ entry ∈ entries, LetsThrough entry field) ∧
      ((∃ entry ∈ entries, StandsFor entry field) → list.allows field = true) ∧
      ((∀ entry ∈ entries, IsUndivided entry field) →
        (list.allows field = true ↔ ∃ entry ∈ entries, StandsFor entry field)) := by
  have hexact : list.allows field = true ↔ ∃ entry ∈ entries, LetsThrough entry field := by
    obtain ⟨allowed, hallowed, hlist⟩ := bind_eq_ok.mp h
    obtain rfl := Except.ok.inj hlist
    exact any_allows_iff (forall₂_of_mapM hallowed)
  have hwhole : (∃ entry ∈ entries, StandsFor entry field) → list.allows field = true :=
    fun ⟨entry, hentry, hfield⟩ => hexact.mpr ⟨entry, hentry, letsThrough_of_standsFor hfield⟩
  refine ⟨hexact, hwhole, fun hundivided => ⟨fun hallowed => ?_, hwhole⟩⟩
  obtain ⟨entry, hentry, hfield⟩ := hexact.mp hallowed
  exact ⟨entry, hentry, standsFor_of_letsThrough (hundivided entry hentry) hfield⟩

/-- A column, and the fields of a document. -/
def metaEntries : List String := ["title", "^meta\\.[a-z]+$"]

/-- The list with these entries. -/
def metaList : AllowList where
  entries := [.named "title",
    .matching ((Pattern.ofText? "^meta\\.[a-z]+$").get (by decide +kernel))]

theorem ofEntries_metaEntries : AllowList.ofEntries metaEntries = .ok metaList := by
  decide +kernel

theorem isUndivided_metaEntries {field entry : String} (h : entry ∈ metaEntries) :
    IsUndivided entry field := by
  intro body hbody
  rcases List.mem_cons.mp h with rfl | h
  · have hlists := congrArg String.toList hbody
    rw [toList_between] at hlists
    exact absurd (List.cons.inj hlists).1 (by decide)
  · obtain rfl := List.mem_singleton.mp h
    have hsplit : "^meta\\.[a-z]+$" = "^" ++ "meta\\.[a-z]+" ++ "$" := by decide
    obtain rfl := between_inj (hbody.symm.trans hsplit)
    have hread : ∃ last ∈ read? "meta\\.[a-z]+".toList,
        last.current.alternatives = [] ∧ last.flags.lines = false := by decide +kernel
    obtain ⟨last, hlast, hsingle, hlines⟩ := hread
    refine ⟨last, hlast, hsingle, fun h => ?_⟩
    rw [hlines] at h
    cases h

theorem metaList_allows_iff :
    AllowList.ofEntries metaEntries = .ok metaList ∧
      (metaList.allows "meta.author" = true ↔
        ∃ entry ∈ metaEntries, StandsFor entry "meta.author") :=
  ⟨ofEntries_metaEntries,
    (AllowList.allows_iff ofEntries_metaEntries "meta.author").2.2 fun _ => isUndivided_metaEntries⟩

/-- The list with one entry, of two alternatives. -/
def dividedList : AllowList where
  entries := [.matching ((Pattern.ofText? "^a|b$").get (by decide +kernel))]

theorem dividedEntry_letsThrough :
    AllowList.ofEntries ["^a|b$"] = .ok dividedList ∧ dividedList.allows "abc" = true ∧
      ¬ ∃ entry ∈ ["^a|b$"], StandsFor entry "abc" := by
  refine ⟨by decide +kernel, by decide +kernel, ?_⟩
  rintro ⟨entry, hentry, hfield⟩
  obtain rfl := List.mem_singleton.mp hentry
  have hentry : "^a|b$" = "^" ++ "a|b" ++ "$" := by decide
  obtain ⟨hplain, -⟩ | ⟨body, pattern, hbody, hpattern, hmatch⟩ := hfield
  · exact hplain "a|b" hentry
  · obtain rfl := between_inj (hbody.symm.trans hentry)
    have hread : Pattern.ofText? "a|b" =
        some (.choice (.one (.single 'a')) (.one (.single 'b'))) := by decide +kernel
    obtain rfl := Option.some.inj (hpattern.symm.trans hread)
    exact absurd hmatch (by decide +kernel)

end Lists

end PagedSearch
