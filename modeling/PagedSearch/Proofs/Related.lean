import PagedSearch.Proofs.Assembly
import PagedSearch.Proofs.Predicates
import PagedSearch.Proofs.Runs

/-!
# Comparisons of related values

An operand can have several values in a row: those that the row's related rows have.  A comparison
with such an operand must hold for the row, and it must hold for some choice of related values.  The
two conditions are the same predicate.  Where the first has an operand with related values, the
second has the column that the selection of these values returns, under a name of its own; all else
is as it was, the values bound for it included.

## Main definitions

* `Resolved.chosen` — an operand as the condition on related values has it.
* `relatedSources` — the selections that such a condition chooses from.
* `Resolved.SelectsRelated` — the related values of an operand can be selected, and it has no bound
  values beside them.
* `HoldsForRelated` — a fragment says that a comparison holds for the row and for some choice of
  related values.

## Main results

* `outcome_compare_of_related` — the run of a comparison of which a side has related values.
* `compare_holdsForRelated` — what comes out of such a run.
-/

namespace PagedSearch

open Search

variable {ω : Type} {context : Context ω} {left right : Resolved} {comparator : Comparator}

/-! ### Operands and their related values -/

/-- What the condition on related values has in the place of an operand: the column of its
selection, which is known as `name`, or the operand itself if it has no related values. -/
def Resolved.chosenIdentifier (operand : Resolved) (name : String) : String :=
  if operand.related.isSome then Fragment.columnMarker (name ++ "." ++ Fragment.relatedValue)
  else operand.identifier

/-- An operand as the condition on related values has it. -/
def Resolved.chosen (operand : Resolved) (name : String) : Resolved where
  identifier := operand.chosenIdentifier name
  params := if operand.related.isSome then .empty else operand.params
  nullPolicy := operand.nullPolicy

/-- The selections of related values of two operands, each with its name. -/
def relatedSources (left right : Resolved) (name : Side → String) : List (Fragment × String) :=
  (left.related.map (·, name .left)).toList ++ (right.related.map (·, name .right)).toList

/-- The stems tell the names of the two sides apart. -/
theorem relatedStem_append_ne (a b : String) :
    relatedStem .left ++ a ≠ relatedStem .right ++ b := by
  intro h
  have hchars := congrArg String.toList h
  simp [relatedStem] at hchars

theorem outcome_relatedSide (context : Context ω) (side : Side) (operand : Resolved)
    (s : Session ω) :
    ∃ rest t, outcome (relatedSide context side operand) s =
      (.ok (operand.related.map (·, relatedStem side ++ rest),
        operand.chosen (relatedStem side ++ rest)), t) := by
  obtain ⟨identifier, params, related, wrap, nullPolicy⟩ := operand
  cases related with
  | none => exact ⟨"", s, rfl⟩
  | some selection => exact ⟨_, _, rfl⟩

/-- The run of a comparison of which a side has related values.  Both conditions are made by
`comparisonFragment`; what the left operand wants the comparison to be put into comes next, and what
the right one wants comes last. -/
theorem outcome_compare_of_related (context : Context ω) (comparator : Comparator)
    (hrelated : left.related ≠ none ∨ right.related ≠ none) (s : Session ω) :
    ∃ (name : Side → String) (t : Session ω), name .left ≠ name .right ∧
      outcome (compare context left comparator right) s =
        (.ok (right.wrapped (left.wrapped (.enclose (.all
          [comparisonFragment left comparator right,
            .someRelated (relatedSources left right name)
              (comparisonFragment (left.chosen (name .left)) comparator
                (right.chosen (name .right)))])))), t) := by
  obtain ⟨leftRest, u, hleft⟩ := outcome_relatedSide context .left left s
  obtain ⟨rightRest, t, hright⟩ := outcome_relatedSide context .right right u
  refine ⟨Side.pick (relatedStem .left ++ leftRest) (relatedStem .right ++ rightRest), t,
    relatedStem_append_ne _ _, ?_⟩
  have hsome : (left.related.isNone && right.related.isNone) = false := by
    rw [Bool.and_eq_false_iff, ← Bool.not_eq_true, ← Bool.not_eq_true, Option.isNone_iff_eq_none,
      Option.isNone_iff_eq_none]
    exact hrelated
  unfold compare
  dsimp only
  rw [hsome, if_neg Bool.false_ne_true, outcome_bind_of_ok hleft, outcome_bind_of_ok hright]
  rfl

/-! ### Complete selections -/

/-- A selection is complete if it names all its tables; its text says so. -/
theorem Fragment.text_related_ne_never {target table name value : String}
    {joins : List (JoinedTable Fragment)} {params : Params} :
    (Fragment.related target table name value joins params).text ≠ Fragment.never ↔
      target ≠ "" ∧ table ≠ "" ∧ name ≠ "" := by
  rw [Fragment.text, Fragment.relatedText]
  split
  · rename_i hempty
    simp only [ne_eq, not_true_eq_false, false_iff]
    tauto
  · rename_i hcomplete
    refine iff_of_true (fun h => ?_) (by tauto)
    have hchars := congrArg String.toList h
    simp [Fragment.never] at hchars

/-- The related values of an operand, if it has any, can be selected, and then they are all that it
stands for: no values are bound for it. -/
structure Resolved.SelectsRelated (operand : Resolved) : Prop where
  /-- The selection is complete. -/
  complete {selection : Fragment} :
    operand.related = some selection → selection.text ≠ Fragment.never
  /-- The operand has no bound values. -/
  unbound : operand.related ≠ none → operand.params = .empty

theorem Resolved.SelectsRelated.params_chosen (h : left.SelectsRelated) (name : String) :
    (left.chosen name).params = left.params := by
  unfold Resolved.chosen
  dsimp only
  split
  · rename_i hrelated
    exact (h.unbound (Option.isSome_iff_ne_none.mp hrelated)).symm
  · rfl

theorem mem_relatedSources {name : Side → String} {source : Fragment × String} :
    source ∈ relatedSources left right name ↔
      (left.related = some source.1 ∧ source.2 = name .left) ∨
        (right.related = some source.1 ∧ source.2 = name .right) := by
  obtain ⟨selection, given⟩ := source
  unfold relatedSources
  rw [List.mem_append, Option.mem_toList, Option.mem_toList, Option.map_eq_some_iff,
    Option.map_eq_some_iff]
  simp only [Prod.mk.injEq, existsAndEq, true_and, eq_comm]

theorem canYield_relatedSources (name : Side → String) (hleft : left.SelectsRelated)
    (hright : right.SelectsRelated) (hrelated : left.related ≠ none ∨ right.related ≠ none) :
    Fragment.canYield (Fragment.sourceTexts (relatedSources left right name)) = true := by
  have hcomplete : ∀ source ∈ relatedSources left right name, source.1.text ≠ Fragment.never := by
    intro source hsource
    rcases mem_relatedSources.mp hsource with ⟨hselection, -⟩ | ⟨hselection, -⟩
    · exact hleft.complete hselection
    · exact hright.complete hselection
  have hnonempty : relatedSources left right name ≠ [] := by
    unfold relatedSources
    rcases hrelated with h | h
    · obtain ⟨selection, hselection⟩ := Option.ne_none_iff_exists'.mp h
      simp [hselection]
    · obtain ⟨selection, hselection⟩ := Option.ne_none_iff_exists'.mp h
      simp [hselection]
  rw [Fragment.canYield, Fragment.sourceTexts_eq_map, Bool.and_eq_true]
  constructor
  · simpa using hnonempty
  · rw [List.all_map, List.all_eq_true]
    intro source hsource
    exact decide_eq_true (hcomplete source hsource)

/-! ### Both conditions -/

theorem Fragment.text_enclose_all_pair {a b : Fragment} (ha : a.text ≠ "") (hb : b.text ≠ "") :
    (Fragment.enclose (.all [a, b])).text = "((" ++ a.text ++ ") AND (" ++ b.text ++ "))" := by
  have hboth : (Fragment.all [a, b]).text =
      parenthesised a.text ++ " AND " ++ parenthesised b.text := by
    simp [Fragment.text, Fragment.texts, joinTexts, ha, hb, String.append_assoc]
  rw [Fragment.text, hboth, if_neg (by simp [parenthesised])]
  refine String.toList_injective ?_
  simp [parenthesised]

/-- The condition that a comparison holds for some choice of related values, as text: it is the
predicate of the comparison, with the columns of the selections in the places of the operands that
have related values. -/
def relatedCondition (left : Resolved) (comparator : Comparator) (right : Resolved)
    (name : Side → String) : String :=
  (comparisonPredicate left comparator right).text
    (Side.pick (left.chosenIdentifier (name .left)) (right.chosenIdentifier (name .right)))

/-- A fragment says that a comparison holds for the row and for some choice of related values, the
selections of which are known under the given names. -/
structure HoldsForRelated (left : Resolved) (comparator : Comparator) (right : Resolved)
    (name : Side → String) (compared : Fragment) : Prop where
  /-- No name is used twice. -/
  name_ne : name .left ≠ name .right
  /-- The condition on the row is the plain comparison. -/
  text_plain : (comparisonFragment left comparator right).text =
    (comparisonPredicate left comparator right).text (Side.pick left.identifier right.identifier)
  /-- The condition on the related values is beside it, over the selections from left to right. -/
  text : compared.text =
    "((" ++ (comparisonFragment left comparator right).text ++ ") AND (EXISTS (SELECT 1 FROM " ++
      ", ".intercalate ((relatedSources left right name).map fun (selection, given) =>
        Fragment.parenthesised selection.text ++ " " ++ Fragment.tableMarker given) ++
      " WHERE " ++ relatedCondition left comparator right name ++ ")))"
  /-- What the plain comparison binds is bound to the same value. -/
  params {parameter : String} {value : Value} :
    (comparisonFragment left comparator right).params.get? parameter = some value →
      compared.params.get? parameter = some value

theorem text_chosen (left : Resolved) (comparator : Comparator) (right : Resolved)
    (name : Side → String) (hleft : left.SelectsRelated) (hright : right.SelectsRelated) :
    (comparisonFragment (left.chosen (name .left)) comparator
        (right.chosen (name .right))).text = relatedCondition left comparator right name := by
  have hpredicate := comparisonPredicate_congr ⟨hleft.params_chosen (name .left), rfl⟩
    ⟨hright.params_chosen (name .right), rfl⟩ comparator
  rw [text_comparisonFragment, hpredicate]
  rfl

/-- **What holds for related values is what holds for the row.**  A comparison of which a side has
related values becomes two conditions in parentheses, before its operands wrap it into anything: the
plain comparison, and its predicate again over the related values.  For the predicate it makes no
difference where the values come from, since it depends on the operator, the null policies and the
bound values only.  The left operand wraps the comparison first, the right one last. -/
theorem compare_holdsForRelated (context : Context ω) (comparator : Comparator)
    (hrelated : left.related ≠ none ∨ right.related ≠ none) (hleft : left.SelectsRelated)
    (hright : right.SelectsRelated) (s : Session ω) :
    ∃ (name : Side → String) (compared : Fragment) (t : Session ω),
      outcome (compare context left comparator right) s =
        (.ok (right.wrapped (left.wrapped compared)), t) ∧
      HoldsForRelated left comparator right name compared := by
  obtain ⟨name, t, hname, hrun⟩ := outcome_compare_of_related context comparator hrelated s
  refine ⟨name, _, t, hrun, hname, text_comparisonFragment left comparator right, ?_, ?_⟩
  · have hyield := canYield_relatedSources name hleft hright hrelated
    have hplain : (comparisonFragment left comparator right).text ≠ "" := by
      rw [text_comparisonFragment]
      exact Predicate.text_ne_empty _ _
    rw [Fragment.text_enclose_all_pair hplain]
    · rw [Fragment.text, Fragment.someRelatedText, if_pos hyield, text_chosen _ _ _ _ hleft hright,
        Fragment.sourceTexts_eq_map, List.map_map]
      refine String.toList_injective ?_
      simp only [String.toList_append, List.append_assoc]
      rfl
    · rw [Fragment.text, Fragment.someRelatedText, if_pos hyield]
      simp
  · intro parameter value hvalue
    have hcondition := params_comparisonFragment_congr
      ⟨hleft.params_chosen (name .left), rfl⟩ ⟨hright.params_chosen (name .right), rfl⟩ comparator
    have hyield := canYield_relatedSources name hleft hright hrelated
    -- The values of the condition on related values win, and they are those of the plain one.
    simp only [Fragment.params, Fragment.partsParams, Params.merge_empty, hyield, if_true,
      hcondition, Params.get?_merge, hvalue, Option.some_or]

/-- A text that a client looks for. -/
def sampleText : Resolved where
  identifier := Fragment.paramMarker "p"
  params := .single "p" (.text "50%")

/-- The names of the tags of a post. -/
def sampleTags : Resolved where
  identifier := "[[tags.name]]"
  related := some (.related "posts" "post_tags" "tags" "[[tags.name]]" [] .empty)
  nullPolicy := .disabled

theorem sampleText_selectsRelated : sampleText.SelectsRelated where
  complete h := nomatch h
  unbound h := absurd rfl h

theorem sampleTags_selectsRelated : sampleTags.SelectsRelated where
  complete := by
    rintro _ ⟨⟩
    exact Fragment.text_related_ne_never.mpr (by decide)
  unbound _ := rfl

/-- No tag may contain the text: the tags are what `!~` searches, although they stand on the right,
and both conditions say so. -/
theorem compare_holdsForRelated_tags :
    (sampleText.related ≠ none ∨ sampleTags.related ≠ none) ∧
      sampleText.SelectsRelated ∧ sampleTags.SelectsRelated ∧
      ∃ (name : Side → String) (compared : Fragment) (t : Session Unit),
        outcome (compare sampleContext sampleText .notLike sampleTags) sampleSession =
          (.ok compared, t) ∧
        HoldsForRelated sampleText .notLike sampleTags name compared := by
  have hrelated : sampleText.related ≠ none ∨ sampleTags.related ≠ none := .inr nofun
  exact ⟨hrelated, sampleText_selectsRelated, sampleTags_selectsRelated,
    compare_holdsForRelated sampleContext .notLike hrelated sampleText_selectsRelated
      sampleTags_selectsRelated sampleSession⟩

example :
    (outcome (compare (sampleContext : Context Unit) sampleText .notLike sampleTags)
      sampleSession).1.toOption.map Fragment.text =
      some ("(([[tags.name]] NOT LIKE \x7b:p\x7d ESCAPE '\\') AND (EXISTS (SELECT 1 FROM " ++
        "(SELECT [[tags.name]] AS [[multiMatchValue]] FROM \x7b\x7bpost_tags\x7d\x7d " ++
        "\x7b\x7btags\x7d\x7d WHERE [[tags.id]] = [[posts.id]]) \x7b\x7b__mr01234\x7d\x7d " ++
        "WHERE [[__mr01234.multiMatchValue]] NOT LIKE \x7b:p\x7d ESCAPE '\\')))") := by
  decide +kernel

end PagedSearch
