import PagedSearch.Proofs.Related

/-!
# Conditions on related values as they are built

A condition on related values is built source by source.  Each selection adds its values, and those
of its joins, to one map that the caller does not see; the condition comes last, and only then are
the values handed over.  A selection that lacks a name can yield no row, so the building stops there
and whatever has been gathered is dropped: the caller is left with a condition that no row satisfies
and with the values that it had.

## Main definitions

* `Selection` — a selection of related values; `Selection.IsComplete` — it has all its names.
* `Selection.bindings` — what it binds, in order: its own values, and those of its joins.
* `Fragment.gather` — the sources built one after the other.

## Main results

* `Fragment.build_someRelated` — building a condition on related values is gathering its sources.
* `someRelated_allOrNothing` — what comes out, over complete and over incomplete selections.
-/

namespace PagedSearch

/-! ### Gathering -/

namespace Fragment

/-- The sources as they are listed, and their values added to those gathered so far.  The first one
that can yield no row ends it, and nothing is kept. -/
def gather : List (Fragment × String) → Params → Option (List String × Params)
  | [], gathered => some ([], gathered)
  | (source, name) :: sources, gathered =>
    let (text, gathered) := source.build gathered
    if text = never then .none
    else
      (gather sources gathered).map fun (listed, gathered) =>
        ((parenthesised text ++ " " ++ tableMarker name) :: listed, gathered)

theorem gather_eq (sources : List (Fragment × String)) (gathered : Params) :
    gather sources gathered =
      if (sourceTexts sources).all (·.1 ≠ never) then
        some ((sourceTexts sources).map fun (text, name) =>
          parenthesised text ++ " " ++ tableMarker name, gathered.merge (sourcesParams sources))
      else .none := by
  induction sources generalizing gathered with
  | nil => rfl
  | cons source sources ih =>
    obtain ⟨source, name⟩ := source
    rw [gather, build]
    dsimp only
    by_cases hnever : source.text = never
    · simp [sourceTexts, hnever]
    · have hall : (sourceTexts ((source, name) :: sources)).all (·.1 ≠ never) =
          (sourceTexts sources).all (·.1 ≠ never) := by
        simp [sourceTexts, hnever]
      rw [if_neg hnever, ih, hall, Option.map_if, sourcesParams, Params.merge_assoc]
      rfl

/-- **A condition on related values is built as its sources are gathered**, into a map of their own.
The condition adds its values to theirs, and the caller receives them all, or none if the gathering
has stopped. -/
theorem build_someRelated {sources : List (Fragment × String)} (hsources : sources ≠ [])
    (condition : Fragment) (surroundings : Params) :
    (someRelated sources condition).build surroundings =
      match gather sources .empty with
      | .none => (never, surroundings)
      | some (listed, gathered) =>
        let (text, gathered) := condition.build gathered
        ("EXISTS (SELECT 1 FROM " ++ ", ".intercalate listed ++ " WHERE " ++ text ++ ")",
          surroundings.merge gathered) := by
  have hnonempty : (sourceTexts sources).isEmpty = false := by
    rw [sourceTexts_eq_map, List.isEmpty_map]
    exact List.isEmpty_eq_false_iff.mpr hsources
  have hyield : canYield (sourceTexts sources) = (sourceTexts sources).all (·.1 ≠ never) := by
    rw [canYield, hnonempty, Bool.not_false, Bool.true_and]
  rw [build, text, someRelatedText, params, hyield, gather_eq]
  by_cases hall : (sourceTexts sources).all (·.1 ≠ never) = true
  · rw [if_pos hall, if_pos hall, if_pos hall, Params.empty_merge]
    rfl
  · rw [if_neg hall, if_neg hall, if_neg hall]
    rfl

end Fragment

/-! ### Selections -/

/-- A selection of the values that `value` has in the rows of `table`, known as `name`, that belong
to the current row of `target`. -/
structure Selection where
  /-- The table whose row the values belong to. -/
  target : String
  /-- The table that the values are selected from. -/
  table : String
  /-- Its name within the selection. -/
  name : String
  /-- What is selected. -/
  value : String
  /-- The tables that are joined to it. -/
  joins : List (JoinedTable Fragment)
  /-- The values that the text refers to. -/
  params : Params

namespace Selection

/-- The selection as a fragment. -/
def fragment (selection : Selection) : Fragment :=
  .related selection.target selection.table selection.name selection.value selection.joins
    selection.params

/-- A selection has the names of its tables. -/
structure IsComplete (selection : Selection) : Prop where
  /-- It says whose row the values belong to. -/
  target_ne : selection.target ≠ ""
  /-- It says where the values are. -/
  table_ne : selection.table ≠ ""
  /-- It has a name for that table. -/
  name_ne : selection.name ≠ ""

/-- What a selection binds: its own values first, then those of its joins' conditions. -/
def bindings (selection : Selection) : List Params :=
  selection.params :: selection.joins.map (·.condition.params)

/-- A table as it is joined; a condition without text is left out. -/
def joinClause (join : JoinedTable Fragment) : String :=
  " LEFT JOIN \x7b\x7b" ++ join.table ++ "\x7d\x7d \x7b\x7b" ++ join.name ++ "\x7d\x7d" ++
    (if join.condition.text = "" then "" else " ON " ++ join.condition.text)

/-- The text of a selection that has all its names. -/
def query (selection : Selection) : String :=
  "SELECT " ++ selection.value ++ " AS [[multiMatchValue]] FROM \x7b\x7b" ++ selection.table ++
    "\x7d\x7d \x7b\x7b" ++ selection.name ++ "\x7d\x7d" ++
    String.join (selection.joins.map joinClause) ++
    " WHERE [[" ++ selection.name ++ ".id]] = [[" ++ selection.target ++ ".id]]"

/-- The sources of a condition on related values, each with its name. -/
def fragments (sources : List (Selection × String)) : List (Fragment × String) :=
  sources.map fun (selection, name) => (selection.fragment, name)

/-- A selection as it is listed under a name. -/
def listed : Selection × String → String
  | (selection, name) => "(" ++ selection.query ++ ") \x7b\x7b" ++ name ++ "\x7d\x7d"

theorem text_ne_never_iff {selection : Selection} :
    selection.fragment.text ≠ Fragment.never ↔ selection.IsComplete := by
  rw [fragment, Fragment.text_related_ne_never]
  exact ⟨fun ⟨target, table, name⟩ => ⟨target, table, name⟩,
    fun ⟨target, table, name⟩ => ⟨target, table, name⟩⟩

theorem joinsText_eq (joins : List (JoinedTable Fragment)) :
    Fragment.joinsText joins = String.join (joins.map joinClause) := by
  induction joins with
  | nil => rfl
  | cons join joins ih =>
    rw [Fragment.joinsText, ih, List.map_cons, String.join_cons]
    unfold joinClause
    refine String.toList_injective ?_
    simp [Fragment.joinText, Fragment.tableMarker]

theorem merge_joinsParams (joins : List (JoinedTable Fragment)) (older : Params) :
    older.merge (Fragment.joinsParams joins) =
      (joins.map (·.condition.params)).foldl Params.merge older := by
  induction joins generalizing older with
  | nil => rfl
  | cons join joins ih =>
    rw [Fragment.joinsParams, ← Params.merge_assoc, ih, List.map_cons, List.foldl_cons]

/-- A complete selection is built as its query, and its bindings are added one by one. -/
theorem IsComplete.build {selection : Selection} (h : selection.IsComplete) (older : Params) :
    selection.fragment.build older =
      (selection.query, selection.bindings.foldl Params.merge older) := by
  obtain ⟨target_ne, table_ne, name_ne⟩ := h
  have hnames : ¬ (selection.target = "" ∨ selection.table = "" ∨ selection.name = "") := by
    tauto
  have htext : selection.fragment.text = selection.query := by
    rw [fragment, Fragment.text, Fragment.relatedText, if_neg hnames, joinsText_eq]
    unfold query
    refine String.toList_injective ?_
    simp [Fragment.tableMarker, Fragment.columnMarker, Fragment.relatedValue]
  have hparams : selection.fragment.params =
      selection.params.merge (Fragment.joinsParams selection.joins) := by
    rw [fragment, Fragment.params, if_neg hnames]
  rw [Fragment.build, htext, hparams, ← Params.merge_assoc, merge_joinsParams]
  rfl

end Selection

/-! ### All or nothing -/

section AllOrNothing

open Fragment

variable {sources : List (Selection × String)}

/-- The gathering stops at an incomplete selection, wherever it is, whatever has been gathered. -/
theorem gather_of_incomplete (h : ∃ source ∈ sources, ¬ source.1.IsComplete) (gathered : Params) :
    gather (Selection.fragments sources) gathered = .none := by
  obtain ⟨source, hsource, hincomplete⟩ := h
  rw [gather_eq, if_neg]
  intro hall
  rw [sourceTexts_eq_map, Selection.fragments, List.map_map, List.all_map, List.all_eq_true] at hall
  exact hincomplete (Selection.text_ne_never_iff.mp (of_decide_eq_true (hall source hsource)))

/-- Complete selections are gathered to the last one. -/
theorem gather_of_complete (h : ∀ source ∈ sources, source.1.IsComplete) (gathered : Params) :
    gather (Selection.fragments sources) gathered =
      some (sources.map Selection.listed,
        (sources.flatMap (·.1.bindings)).foldl Params.merge gathered) := by
  induction sources generalizing gathered with
  | nil => rfl
  | cons source sources ih =>
    obtain ⟨selection, name⟩ := source
    obtain ⟨hcomplete, hrest⟩ := List.forall_mem_cons.mp h
    have htext : selection.fragment.text = selection.query :=
      congrArg Prod.fst (hcomplete.build .empty)
    have hquery : selection.query ≠ never := by
      rw [← htext]
      exact Selection.text_ne_never_iff.mpr hcomplete
    have hlisted : parenthesised selection.query ++ " " ++ tableMarker name =
        Selection.listed (selection, name) := by
      refine String.toList_injective ?_
      simp [parenthesised, tableMarker, Selection.listed]
    have hgathered := ih hrest (selection.bindings.foldl Params.merge gathered)
    rw [Selection.fragments, List.map_cons, gather, hcomplete.build]
    dsimp only
    rw [if_neg hquery, ← Selection.fragments, hgathered, hlisted, List.flatMap_cons,
      List.foldl_append]
    rfl

/-- **A condition on related values holds all its selections, or it is nothing but false.**  If any
of the selections lacks a name, the condition is `0=1` and the caller keeps the values that it had.
If none does, the condition lists every selection once, in order and under its name.  The values are
those of the caller, with those of each selection, of its joins and of the condition added in this
order: of several values with one name, the last counts. -/
theorem someRelated_allOrNothing (hsources : sources ≠ []) (condition : Fragment)
    (surroundings : Params) :
    ((∃ source ∈ sources, ¬ source.1.IsComplete) →
      (Fragment.someRelated (Selection.fragments sources) condition).build surroundings =
        ("0=1", surroundings)) ∧
    ((∀ source ∈ sources, source.1.IsComplete) →
      ∃ built, (Fragment.someRelated (Selection.fragments sources) condition).build surroundings =
          ("EXISTS (SELECT 1 FROM " ++ ", ".intercalate (sources.map Selection.listed) ++
            " WHERE " ++ condition.text ++ ")", built) ∧
        built = (sources.flatMap (·.1.bindings) ++ [condition.params]).foldl Params.merge
          surroundings ∧
        ∀ name, built.get? name =
          ((sources.flatMap (·.1.bindings) ++ [condition.params]).reverse.findSome?
            (·.get? name)).or (surroundings.get? name)) := by
  have hsources' : Selection.fragments sources ≠ [] := by
    rw [Selection.fragments]
    exact fun h => hsources (List.map_eq_nil_iff.mp h)
  rw [build_someRelated hsources']
  constructor
  · intro hincomplete
    rw [gather_of_incomplete hincomplete]
    rfl
  · intro hcomplete
    rw [gather_of_complete hcomplete]
    have hvalues : surroundings.merge
          (((sources.flatMap (·.1.bindings)).foldl Params.merge .empty).merge condition.params) =
        (sources.flatMap (·.1.bindings) ++ [condition.params]).foldl Params.merge
          surroundings := by
      rw [← Params.merge_assoc, ← Params.foldl_merge, Params.merge_empty, List.foldl_append]
      rfl
    refine ⟨_, rfl, hvalues, fun name => ?_⟩
    rw [← Params.get?_foldl_merge, ← hvalues]

/-- The names of the tags of a kind that a row of `target` has. -/
def tagSelection (target : String) : Selection where
  target := target
  table := "post_tags"
  name := "links"
  value := "[[tags.name]]"
  joins := [⟨"tags", "tags",
    .raw "[[tags.kind]] = \x7b:kind\x7d" (.single "kind" (.text "topic"))⟩]
  params := .empty

theorem isComplete_tagSelection : (tagSelection "posts").IsComplete where
  target_ne := by decide
  table_ne := by decide
  name_ne := by decide

/-- The second selection does not say whose tags it selects, so the kind that the first one asks for
is not bound.  If both are complete, it is bound in the place of the caller's. -/
theorem tagSelections_allOrNothing :
    (Fragment.someRelated (Selection.fragments
        [(tagSelection "posts", "a"), (tagSelection "", "b")]) (.raw "1=1" .empty)).build
          (.single "kind" .null) = ("0=1", .single "kind" .null) ∧
      ∃ built, (Fragment.someRelated (Selection.fragments
          [(tagSelection "posts", "a"), (tagSelection "posts", "b")]) (.raw "1=1" .empty)).build
            (.single "kind" .null) =
          ("EXISTS (SELECT 1 FROM " ++ ", ".intercalate
            (["a", "b"].map fun name => Selection.listed (tagSelection "posts", name)) ++
              " WHERE " ++ "1=1" ++ ")", built) ∧
        built.get? "kind" = some (.text "topic") := by
  have hincomplete : ¬ (tagSelection "").IsComplete := fun h => h.target_ne rfl
  have hcomplete : ∀ source ∈ [(tagSelection "posts", "a"), (tagSelection "posts", "b")],
      source.1.IsComplete := by
    simp [isComplete_tagSelection]
  obtain ⟨hnothing, -⟩ := someRelated_allOrNothing
    (List.cons_ne_nil (tagSelection "posts", "a") [(tagSelection "", "b")]) (.raw "1=1" .empty)
    (.single "kind" .null)
  obtain ⟨-, hall⟩ := someRelated_allOrNothing
    (List.cons_ne_nil (tagSelection "posts", "a") [(tagSelection "posts", "b")])
    (.raw "1=1" .empty) (.single "kind" .null)
  obtain ⟨built, hbuilt, -, hvalues⟩ := hall hcomplete
  refine ⟨hnothing ⟨(tagSelection "", "b"), by simp, hincomplete⟩, built, hbuilt, ?_⟩
  rw [hvalues]
  decide

example : (tagSelection "posts").query = "SELECT [[tags.name]] AS [[multiMatchValue]] FROM " ++
    "\x7b\x7bpost_tags\x7d\x7d \x7b\x7blinks\x7d\x7d LEFT JOIN \x7b\x7btags\x7d\x7d " ++
    "\x7b\x7btags\x7d\x7d ON [[tags.kind]] = \x7b:kind\x7d WHERE [[links.id]] = [[posts.id]]" := by
  decide +kernel

end AllOrNothing

end PagedSearch
