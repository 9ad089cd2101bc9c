import PagedSearch.Proofs.Assembly
import PagedSearch.Proofs.Emitted
import PagedSearch.Proofs.Predicates

/-!
# Texts looked for in texts

`x ~ y` between two columns is meant to say that the text of `x` contains the text of `y`.  The
pattern that `x` is matched with is put together by the database, from the text of `y` between two
runs of characters, and nothing is escaped in it.  So it says what it is meant to say exactly where
there is nothing to escape.  Elsewhere the text of `y` is itself a pattern: one that some part of
the text of `x` fits, or, if its last escape stands before nothing, one whose escape hits the run
behind it, which then is no run but a percent sign.

## Main definitions

* `ContainsText` — one text contains another, up to the folding of characters.
* `likeBetween` — `subject LIKE ('%' || pattern || '%') ESCAPE '\'`.
* `SeparatesWildcards` — foldings that take no other character for a wildcard or an escape.
* `misread` — a text that is caught by another one between two runs without containing it.
* `Resolved.IsColumn` — an operand is a plain column.
* `LooksFor` — what a comparison says of two texts if the second one is put between two runs.

## Main results

* `likeBetween_of_parts`, `likeBetween_of_dangling` — which subjects a text between two runs fits.
* `likeBetween_contains_iff` — these are the ones that contain it if and only if no character of it
  needs an escape.
* `compileComparison_looksFor` — what `~` and `!~` say of two columns.
-/

namespace PagedSearch

open Search

variable {ω V : Type} {fold : Char → Char}

/-! ### Patterns put together -/

/-- Patterns by what they start with. -/
@[elab_as_elim]
theorem pattern_induction {motive : List Char → Prop} (nil : motive [])
    (dangling : motive ['\\'])
    (escape : ∀ c rest, motive rest → motive ('\\' :: c :: rest))
    (run : ∀ rest, motive rest → motive ('%' :: rest))
    (one : ∀ rest, motive rest → motive ('_' :: rest))
    (plain : ∀ c rest, needsEscape c = false → motive rest → motive (c :: rest))
    (pattern : List Char) : motive pattern := by
  induction pattern using patternParts.induct with
  | case1 => exact nil
  | case2 => exact dangling
  | case3 c rest ih => exact escape c rest ih
  | case4 rest ih => exact run rest ih
  | case5 rest ih => exact one rest ih
  | case6 c rest hlast hescape hrun hone ih =>
    have hc : c ≠ '\\' := by
      cases rest with
      | nil => exact fun hc => hlast hc rfl
      | cons d rest => exact fun hc => hescape d rest hc rfl
    refine plain c rest ?_ ih
    simp only [needsEscape, Bool.or_eq_false_iff, decide_eq_false_iff_not]
    exact ⟨⟨hc, hrun⟩, hone⟩

/-- The characters that a part of a pattern is written with: in front of any pattern, they add the
part to it. -/
def IsWrittenAs (part : PatternPart) (piece : List Char) : Prop :=
  ∀ rest, patternParts (piece ++ rest) = (patternParts rest).map (part :: ·)

theorem isWrittenAs_escape (c : Char) : IsWrittenAs (.only c) ['\\', c] := fun _ => rfl

theorem isWrittenAs_run : IsWrittenAs .run ['%'] := fun _ => rfl

theorem isWrittenAs_one : IsWrittenAs .one ['_'] := fun _ => rfl

theorem isWrittenAs_plain {c : Char} (hc : needsEscape c = false) : IsWrittenAs (.only c) [c] :=
  patternParts_plain hc

/-- Patterns by the first of their parts. -/
@[elab_as_elim]
theorem piece_induction {motive : List Char → Prop} (nil : motive [])
    (dangling : motive ['\\'])
    (piece : ∀ part piece rest, IsWrittenAs part piece → motive rest → motive (piece ++ rest))
    (pattern : List Char) : motive pattern := by
  induction pattern using pattern_induction with
  | nil => exact nil
  | dangling => exact dangling
  | escape c rest ih => exact piece _ _ rest (isWrittenAs_escape c) ih
  | run rest ih => exact piece _ _ rest isWrittenAs_run ih
  | one rest ih => exact piece _ _ rest isWrittenAs_one ih
  | plain c rest hc ih => exact piece _ _ rest (isWrittenAs_plain hc) ih

theorem patternParts_append {front : List Char} {parts : List PatternPart}
    (h : patternParts front = some parts) (rest : List Char) :
    patternParts (front ++ rest) = (patternParts rest).map (parts ++ ·) := by
  induction front using piece_induction generalizing parts with
  | nil =>
    obtain rfl := Option.some.inj h
    exact Option.map_id'.symm
  | dangling => cases h
  | piece part piece front hpiece ih =>
    rw [hpiece, Option.map_eq_some_iff] at h
    obtain ⟨others, hothers, rfl⟩ := h
    rw [List.append_assoc, hpiece, ih hothers, Option.map_map]
    rfl

/-- A text that is no pattern ends in an escape that stands before nothing. -/
theorem exists_of_patternParts_eq_none {pattern : List Char} (h : patternParts pattern = none) :
    ∃ front parts, pattern = front ++ ['\\'] ∧ patternParts front = some parts := by
  induction pattern using piece_induction with
  | nil => cases h
  | dangling => exact ⟨[], [], rfl, rfl⟩
  | piece part piece rest hpiece ih =>
    rw [hpiece, Option.map_eq_none_iff] at h
    obtain ⟨front, parts, rfl, hparts⟩ := ih h
    refine ⟨piece ++ front, part :: parts, (List.append_assoc _ _ _).symm, ?_⟩
    rw [hpiece, hparts]
    rfl

theorem patternParts_of_plain {text : List Char} (h : ∀ c ∈ text, needsEscape c = false) :
    patternParts text = some (text.map .only) := by
  induction text with
  | nil => rfl
  | cons c text ih =>
    obtain ⟨hc, htext⟩ := List.forall_mem_cons.mp h
    rw [patternParts_plain hc, ih htext]
    rfl

/-! ### Matching put together -/

theorem partsMatch_run {parts : List PatternPart} {subject : List Char} :
    PartsMatch fold (.run :: parts) subject ↔
      ∃ skipped rest, subject = skipped ++ rest ∧ PartsMatch fold parts rest := by
  constructor
  · rintro (_ | ⟨skipped, h⟩)
    exact ⟨skipped, _, rfl, h⟩
  · rintro ⟨skipped, rest, rfl, h⟩
    exact .run skipped h

theorem partsMatch_append {parts others : List PatternPart} {subject : List Char} :
    PartsMatch fold (parts ++ others) subject ↔
      ∃ before after, subject = before ++ after ∧ PartsMatch fold parts before ∧
        PartsMatch fold others after := by
  constructor
  · intro h
    induction parts generalizing subject with
    | nil => exact ⟨[], subject, rfl, .nil, h⟩
    | cons part parts ih =>
      cases h with
      | run skipped h =>
        obtain ⟨before, after, rfl, hbefore, hafter⟩ := ih h
        exact ⟨skipped ++ before, after, by rw [List.append_assoc], .run skipped hbefore, hafter⟩
      | one d h =>
        obtain ⟨before, after, rfl, hbefore, hafter⟩ := ih h
        exact ⟨d :: before, after, rfl, .one d hbefore, hafter⟩
      | only hfold h =>
        obtain ⟨before, after, rfl, hbefore, hafter⟩ := ih h
        exact ⟨_ :: before, after, rfl, .only hfold hbefore, hafter⟩
  · rintro ⟨before, after, rfl, hbefore, hafter⟩
    induction hbefore with
    | nil => exact hafter
    | run skipped _ ih =>
      rw [List.append_assoc]
      exact .run skipped ih
    | one d _ ih => exact .one d ih
    | only hfold _ ih => exact .only hfold ih

/-! ### A text between two runs -/

/-- A text contains another one, up to the folding of characters. -/
def ContainsText (fold : Char → Char) (subject text : String) : Prop :=
  text.toList.map fold <:+: subject.toList.map fold

/-- `subject LIKE ('%' || pattern || '%') ESCAPE '\'` -/
def likeBetween (fold : Char → Char) (subject pattern : String) : Bool :=
  like fold subject ("%" ++ pattern ++ "%")

theorem likeBetween_iff {subject pattern : String} :
    likeBetween fold subject pattern = true ↔
      ∃ parts, patternParts (pattern.toList ++ ['%']) = some parts ∧
        PartsMatch fold (.run :: parts) subject.toList := by
  have hpattern : ("%" ++ pattern ++ "%").toList = '%' :: (pattern.toList ++ ['%']) := by simp
  rw [likeBetween, like, hpattern, patternParts]
  cases patternParts (pattern.toList ++ ['%']) with
  | none => simp
  | some parts =>
    rw [Option.map_some]
    refine (partsMatch_iff _ _).trans ⟨fun h => ⟨parts, rfl, h⟩, ?_⟩
    rintro ⟨_, hparts, h⟩
    obtain rfl := Option.some.inj hparts
    exact h

/-- A pattern between two runs is fitted by the texts of which a part fits the pattern. -/
theorem likeBetween_of_parts {subject pattern : String} {parts : List PatternPart}
    (h : patternParts pattern.toList = some parts) :
    likeBetween fold subject pattern = true ↔
      ∃ middle, middle <:+: subject.toList ∧ PartsMatch fold parts middle := by
  have hparts : patternParts (pattern.toList ++ ['%']) = some (parts ++ [.run]) := by
    rw [patternParts_append h]
    rfl
  simp only [likeBetween_iff, hparts, Option.some.injEq, exists_eq_left', partsMatch_run,
    partsMatch_append]
  constructor
  · rintro ⟨before, _, hsubject, middle, after, rfl, hmiddle, -⟩
    exact ⟨middle, ⟨before, after, by rw [hsubject, List.append_assoc]⟩, hmiddle⟩
  · rintro ⟨middle, ⟨before, after, hsubject⟩, hmiddle⟩
    exact ⟨before, middle ++ after, by rw [← hsubject, List.append_assoc], middle, after, rfl,
      hmiddle, after, [], (List.append_nil after).symm, .nil⟩

/-- If an escape stands at the end of the text, it makes the second run a percent sign, with which
the subject has to end. -/
theorem likeBetween_of_dangling {subject pattern : String} {front : List Char}
    {parts : List PatternPart} (hpattern : pattern.toList = front ++ ['\\'])
    (h : patternParts front = some parts) :
    likeBetween fold subject pattern = true ↔
      ∃ middle last, middle ++ [last] <:+ subject.toList ∧ PartsMatch fold parts middle ∧
        fold '%' = fold last := by
  have hparts : patternParts (pattern.toList ++ ['%']) = some (parts ++ [.only '%']) := by
    rw [hpattern, List.append_assoc, patternParts_append h]
    rfl
  simp only [likeBetween_iff, hparts, Option.some.injEq, exists_eq_left', partsMatch_run,
    partsMatch_append]
  constructor
  · rintro ⟨before, _, hsubject, middle, _, rfl, hmiddle, hlast⟩
    obtain _ | _ | _ | ⟨hfold, _ | _⟩ := hlast
    exact ⟨middle, _, ⟨before, hsubject.symm⟩, hmiddle, hfold⟩
  · rintro ⟨middle, last, ⟨before, hsubject⟩, hmiddle, hfold⟩
    exact ⟨before, middle ++ [last], hsubject.symm, middle, [last], rfl, hmiddle,
      .only hfold .nil⟩

/-- A text in which there is nothing to escape is looked for. -/
theorem likeBetween_of_plain {subject text : String}
    (h : ∀ c ∈ text.toList, needsEscape c = false) :
    likeBetween fold subject text = true ↔ ContainsText fold subject text := by
  rw [likeBetween_of_parts (patternParts_of_plain h), ContainsText, List.infix_map_iff]
  simp only [partsMatch_only, eq_comm]

/-! ### Texts that are misread -/

/-- No wildcard, and no escape, is folded to what another character is folded to. -/
def SeparatesWildcards (fold : Char → Char) : Prop :=
  ∀ c d, needsEscape c = true → fold c = fold d → c = d

/-- A text that is caught by another one between two runs, although it is not the other one if
anything in that needs an escape. -/
def misread : List Char → List Char
  | [] => []
  | ['\\'] => ['%']
  | '\\' :: c :: rest => c :: misread rest
  | '%' :: rest => misread rest
  | '_' :: rest => 'a' :: misread rest
  | c :: rest => c :: misread rest

theorem misread_plain {c : Char} (hc : needsEscape c = false) (rest : List Char) :
    misread (c :: rest) = c :: misread rest := by
  have hne {d : Char} (hd : needsEscape d = true) (h : c = d) : False :=
    Bool.false_ne_true (hc.symm.trans (h ▸ hd))
  rw [misread]
  · exact fun h _ => hne rfl h
  · exact fun _ _ h _ => hne rfl h
  · exact hne rfl
  · exact hne rfl

/-- It is no longer than the text that catches it. -/
theorem length_misread_le (text : List Char) : (misread text).length ≤ text.length := by
  induction text using pattern_induction with
  | nil | dangling => exact Nat.le_refl _
  | escape c rest ih | run rest ih | one rest ih =>
    rw [misread]
    simp only [List.length_cons]
    omega
  | plain c rest hc ih =>
    rw [misread_plain hc]
    exact Nat.succ_le_succ ih

theorem partsMatch_misread (fold : Char → Char) (text : List Char) :
    ∃ parts, patternParts (text ++ ['%']) = some parts ∧
      PartsMatch fold parts (misread text) := by
  -- The percent sign behind the text ends up behind the rest of it.
  have hcons {part : PatternPart} {piece rest : List Char} {parts : List PatternPart}
      (hpiece : IsWrittenAs part piece) (hparts : patternParts (rest ++ ['%']) = some parts) :
      patternParts (piece ++ rest ++ ['%']) = some (part :: parts) := by
    rw [List.append_assoc, hpiece, hparts]
    rfl
  induction text using pattern_induction with
  | nil => exact ⟨[.run], rfl, .run [] .nil⟩
  | dangling => exact ⟨[.only '%'], rfl, .only rfl .nil⟩
  | escape c rest ih =>
    obtain ⟨parts, hparts, hmatch⟩ := ih
    exact ⟨_, hcons (isWrittenAs_escape c) hparts, .only rfl hmatch⟩
  | run rest ih =>
    obtain ⟨parts, hparts, hmatch⟩ := ih
    exact ⟨_, hcons isWrittenAs_run hparts, .run [] hmatch⟩
  | one rest ih =>
    obtain ⟨parts, hparts, hmatch⟩ := ih
    exact ⟨_, hcons isWrittenAs_one hparts, .one 'a' hmatch⟩
  | plain c rest hc ih =>
    obtain ⟨parts, hparts, hmatch⟩ := ih
    rw [misread_plain hc]
    exact ⟨_, hcons (isWrittenAs_plain hc) hparts, .only rfl hmatch⟩

/-- A text that folds to what it is misread for has nothing to escape. -/
theorem plain_of_map_misread (hfold : SeparatesWildcards fold) {text : List Char}
    (h : text.map fold = (misread text).map fold) : ∀ c ∈ text, needsEscape c = false := by
  induction text using pattern_induction with
  | nil => simp
  | dangling => exact absurd (hfold _ _ rfl (List.cons.inj h).1) (by decide)
  | escape c rest ih =>
    -- two characters are misread for one, and a run for none, so what is left is too short
    have hlength : rest.length + 2 = (misread rest).length + 1 := by
      simpa [misread] using congrArg List.length h
    exact absurd (length_misread_le rest) (by omega)
  | run rest ih =>
    have hlength : rest.length + 1 = (misread rest).length := by
      simpa [misread] using congrArg List.length h
    exact absurd (length_misread_le rest) (by omega)
  | one rest ih =>
    rw [misread] at h
    exact absurd (hfold _ _ rfl (List.cons.inj h).1) (by decide)
  | plain c rest hc ih =>
    rw [misread_plain hc] at h
    exact List.forall_mem_cons.mpr ⟨hc, ih (List.cons.inj h).2⟩

/-- A text between two runs is fitted by the texts that contain it, and by no others, if and only if
there is nothing to escape in it. -/
theorem likeBetween_contains_iff (hfold : SeparatesWildcards fold) {text : String} :
    (∀ subject, likeBetween fold subject text = true ↔ ContainsText fold subject text) ↔
      ∀ c ∈ text.toList, needsEscape c = false := by
  constructor
  · intro h
    obtain ⟨parts, hparts, hmatch⟩ := partsMatch_misread fold text.toList
    have hlike : likeBetween fold (String.ofList (misread text.toList)) text = true := by
      rw [likeBetween_iff, String.toList_ofList]
      exact ⟨parts, hparts, .run [] hmatch⟩
    have hcontains := (h _).mp hlike
    rw [ContainsText, String.toList_ofList] at hcontains
    refine plain_of_map_misread hfold (hcontains.eq_of_length_le ?_)
    rw [List.length_map, List.length_map]
    exact length_misread_le _
  · intro h subject
    exact likeBetween_of_plain h

/-! ### Columns looked for in columns -/

/-- An operand is the column with the given name, and nothing else. -/
structure Resolved.IsColumn (operand : Resolved) (name : String) : Prop where
  /-- It is named in a marker. -/
  identifier : operand.identifier = Fragment.columnMarker name
  /-- It has no bound values, -/
  params : operand.params = .empty
  /-- no related values, -/
  related : operand.related = none
  /-- and no wish for its comparison. -/
  wrap : operand.wrap = none

/-- What a comparison says of two texts if the second one, between two runs, is what the first one
is matched with: `truth` is its truth value, and `negated` tells `!~` from `~`. -/
structure LooksFor (fold : Char → Char) (negated : Bool) (truth : String → String → Truth) :
    Prop where
  /-- The answer is that of the match. -/
  eq_like (x y : String) : truth x y = (Truth.ofBool (likeBetween fold x y)).negateIf negated
  /-- If the second text is a pattern, a part of the first one fits it. -/
  of_parts {x y : String} {parts : List PatternPart} : patternParts y.toList = some parts →
    (truth x y = .yes ↔
      ((∃ middle, middle <:+: x.toList ∧ PartsMatch fold parts middle) ↔ negated = false))
  /-- If it ends in an escape, the first one ends in a percent sign behind such a part. -/
  of_dangling {x y : String} {front : List Char} {parts : List PatternPart} :
    y.toList = front ++ ['\\'] → patternParts front = some parts →
    (truth x y = .yes ↔
      ((∃ middle last, middle ++ [last] <:+ x.toList ∧ PartsMatch fold parts middle ∧
        fold '%' = fold last) ↔ negated = false))
  /-- Either the one or the other is the case. -/
  of_parts_or_dangling (y : String) :
    (∃ parts, patternParts y.toList = some parts) ∨
      ∃ front parts, y.toList = front ++ ['\\'] ∧ patternParts front = some parts
  /-- The answer is whether the first text contains the second one exactly if there is nothing to
  escape in the second one. -/
  contains_iff (y : String) :
    (∀ x, truth x y = .yes ↔ (ContainsText fold x y ↔ negated = false)) ↔
      ∀ c ∈ y.toList, needsEscape c = false

theorem looksFor_of_eq_like (hfold : SeparatesWildcards fold) {negated : Bool}
    {truth : String → String → Truth}
    (h : ∀ x y, truth x y = (Truth.ofBool (likeBetween fold x y)).negateIf negated) :
    LooksFor fold negated truth where
  eq_like := h
  of_parts hparts := by
    rw [h]
    exact Truth.negateIf_ofBool_eq_yes (likeBetween_of_parts hparts)
  of_dangling hpattern hparts := by
    rw [h]
    exact Truth.negateIf_ofBool_eq_yes (likeBetween_of_dangling hpattern hparts)
  of_parts_or_dangling y := by
    cases hparts : patternParts y.toList with
    | none => exact .inr (exists_of_patternParts_eq_none hparts)
    | some parts => exact .inl ⟨parts, rfl⟩
  contains_iff y := by
    rw [← likeBetween_contains_iff hfold]
    refine forall_congr' fun x => ?_
    rw [h, Truth.negateIf_ofBool_eq_yes Iff.rfl]
    tauto

section Columns

variable {left right : Resolved} {x y : String} {negated : Bool}

/-- Of two columns the left one is searched, and the right one is put between two runs. -/
theorem comparisonPredicate_columns (hleft : left.IsColumn x) (hright : right.IsColumn y)
    (negated : Bool) :
    comparisonPredicate left (if negated then .notLike else .like) right =
      .like negated (.place .left) (Expression.between (.place .right)) := by
  have hsearched : searchedSide negated left right = .left := by
    simp [searchedSide, hleft.params, Params.isEmpty, Params.empty]
  have hlike : likePredicate negated left right =
      .like negated (.place .left) (Expression.between (.place .right)) := by
    rw [likePredicate, hsearched]
    simp [Side.other, Side.pick, hright.params, Params.isEmpty, Params.empty]
  cases negated with
  | false => exact hlike
  | true => exact hlike

theorem text_comparisonFragment_columns (hleft : left.IsColumn x) (hright : right.IsColumn y)
    (negated : Bool) :
    (comparisonFragment left (if negated then .notLike else .like) right).text =
      Fragment.columnMarker x ++ (if negated then " NOT LIKE " else " LIKE ") ++
        ("('%' || " ++ Fragment.columnMarker y ++ " || '%')") ++ " ESCAPE '\\'" := by
  rw [text_comparisonFragment, comparisonPredicate_columns hleft hright, Predicate.text,
    text_between, Expression.text, Side.pick, Side.pick, hleft.identifier, hright.identifier,
    likeEscape]

theorem params_comparisonFragment_columns (hleft : left.IsColumn x) (hright : right.IsColumn y)
    (negated : Bool) :
    (comparisonFragment left (if negated then .notLike else .like) right).params = .empty := by
  have hlike (negated : Bool) : (likeFragment negated left right).params = .empty := by
    simp [likeFragment, hleft.params, hright.params, Params.isEmpty, Params.empty,
      Fragment.params]
  cases negated with
  | false => exact hlike false
  | true => exact hlike true

theorem comparisonTruth_columns {engine : Engine V} (hengine : engine.HandlesTexts fold)
    (hleft : left.IsColumn x) (hright : right.IsColumn y) (negated : Bool) (a b : String) :
    comparisonTruth engine left (if negated then .notLike else .like) right
        (some (engine.ofText a)) (some (engine.ofText b)) =
      (Truth.ofBool (likeBetween fold a b)).negateIf negated := by
  rw [comparisonTruth, comparisonPredicate_columns hleft hright]
  simp only [Predicate.eval, Expression.between, Expression.eval, Side.pick, Option.map₂_some_some,
    hengine.concat, hengine.like, Truth.ofOption, likeBetween]

/-- **A column is looked for as a pattern.**  For two plain columns, `~` is compiled to a match of
the left one with the right one between two runs of characters, and `!~` to its negation.  On every
two texts it says whether a part of the first one fits the second one as a pattern, or what becomes
of that if the second one ends in an escape.  That is whether the first one contains the second one
precisely for those second texts in which neither a wildcard nor an escape occurs. -/
theorem compileComparison_looksFor {context : Context ω} {resolver : Resolver ω}
    {comparison : Comparison} {s t u : Session ω}
    (hcomparator : comparison.comparator = if negated then .notLike else .like)
    (hleftRun : outcome (resolveSide context resolver .left comparison.left) s = (.ok left, t))
    (hrightRun : outcome (resolveSide context resolver .right comparison.right) t = (.ok right, u))
    (hleft : left.IsColumn x) (hright : right.IsColumn y) {engine : Engine V}
    (hengine : engine.HandlesTexts fold) (hfold : SeparatesWildcards fold) :
    ∃ fragment, outcome (compileComparison context resolver comparison) s = (.ok fragment, u) ∧
      fragment.text = Fragment.columnMarker x ++ (if negated then " NOT LIKE " else " LIKE ") ++
        ("('%' || " ++ Fragment.columnMarker y ++ " || '%')") ++ " ESCAPE '\\'" ∧
      fragment.params = .empty ∧
      fragment.text = (comparisonPredicate left comparison.comparator right).text
        (Side.pick left.identifier right.identifier) ∧
      LooksFor fold negated fun a b =>
        comparisonTruth engine left comparison.comparator right (some (engine.ofText a))
          (some (engine.ofText b)) := by
  refine ⟨comparisonFragment left comparison.comparator right, ?_, ?_, ?_,
    text_comparisonFragment _ _ _, ?_⟩
  · rw [compileComparison, outcome_bind_of_ok hleftRun, outcome_bind_of_ok hrightRun,
      compare_eq_pure ⟨hleft.related, hleft.wrap⟩ ⟨hright.related, hright.wrap⟩, outcome_pure]
  · rw [hcomparator]
    exact text_comparisonFragment_columns hleft hright negated
  · rw [hcomparator]
    exact params_comparisonFragment_columns hleft hright negated
  · rw [hcomparator]
    exact looksFor_of_eq_like hfold (comparisonTruth_columns hengine hleft hright negated)

end Columns

/-! ### A title and a body -/

/-- Whether the title of a post contains its body. -/
def sampleContainment : Comparison := ⟨.identifier "title", .like, .identifier "body"⟩

/-- A field of a post. -/
def sampleColumn (name : String) : Resolved := .ofIdentifier (Fragment.columnMarker name)

theorem sampleColumn_isColumn (name : String) : (sampleColumn name).IsColumn name :=
  ⟨rfl, rfl, rfl, rfl⟩

/-- The list of allowed fields makes the two columns of the two sides. -/
theorem outcome_resolveSide_sample :
    outcome (resolveSide (sampleContext : Context Unit) sampleList.resolver .left
        sampleContainment.left) sampleSession = (.ok (sampleColumn "title"), sampleSession) ∧
      outcome (resolveSide (sampleContext : Context Unit) sampleList.resolver .right
        sampleContainment.right) sampleSession = (.ok (sampleColumn "body"), sampleSession) :=
  ⟨rfl, rfl⟩

theorem separatesWildcards_id : SeparatesWildcards id := fun _ _ _ h => h

theorem sampleContainment_looksFor :
    sampleContainment.comparator = .like ∧ (sampleColumn "title").IsColumn "title" ∧
      (sampleColumn "body").IsColumn "body" ∧ SeparatesWildcards id ∧
      ∃ fragment,
        outcome (compileComparison (sampleContext : Context Unit) sampleList.resolver
          sampleContainment) sampleSession = (.ok fragment, sampleSession) ∧
        LooksFor id false fun a b =>
          comparisonTruth (Engine.texts id) (sampleColumn "title") .like (sampleColumn "body")
            (some a) (some b) := by
  obtain ⟨hleftRun, hrightRun⟩ := outcome_resolveSide_sample
  have hcomparator : sampleContainment.comparator = if false then .notLike else .like := rfl
  obtain ⟨fragment, hrun, -, -, -, hlooks⟩ := compileComparison_looksFor hcomparator hleftRun
    hrightRun (sampleColumn_isColumn "title") (sampleColumn_isColumn "body")
    (Engine.handlesTexts_texts id) separatesWildcards_id
  exact ⟨rfl, sampleColumn_isColumn _, sampleColumn_isColumn _, separatesWildcards_id, fragment,
    hrun, hlooks⟩

/-- A title is said to contain what it does not contain, and not to contain what it does: a percent
sign in the body is a wildcard, and a backslash at its end takes the wildcard behind it away. -/
theorem sampleContainment_misread :
    ∃ fragment,
      outcome (compileComparison (sampleContext : Context Unit) sampleList.resolver
        sampleContainment) sampleSession = (.ok fragment, sampleSession) ∧
      fragment.text = "[[title]] LIKE ('%' || [[body]] || '%') ESCAPE '\\'" ∧
      (comparisonTruth (Engine.texts id) (sampleColumn "title") .like (sampleColumn "body")
          (some "50 mg") (some "50%") = .yes ∧ ¬ ContainsText id "50 mg" "50%") ∧
      (comparisonTruth (Engine.texts id) (sampleColumn "title") .like (sampleColumn "body")
          (some "C:\\") (some "C:\\") = .no ∧ ContainsText id "C:\\" "C:\\") := by
  refine ⟨comparisonFragment (sampleColumn "title") .like (sampleColumn "body"), rfl, ?_, ?_, ?_⟩
  · decide +kernel
  · refine ⟨by decide +kernel, ?_⟩
    unfold ContainsText
    decide +kernel
  · exact ⟨by decide +kernel, List.infix_rfl⟩

end PagedSearch
