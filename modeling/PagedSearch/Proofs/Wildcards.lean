import Mathlib.Data.List.Infix
import PagedSearch.Compile.Condition

/-!
# Texts without wildcards

What a database makes of the pattern of `LIKE … ESCAPE '\'`, and what that means for the texts that
`~` looks for.  A pattern is first taken apart: `%` stands for any run of characters, `_` for any
one, and the character behind a backslash for itself.  The parts are then held against the subject,
going back to another run wherever one does not lead on.  Characters are compared after a folding,
of which nothing is assumed: a database may tell `a` from `A` or not.

Texts are escaped by replacing three characters one after the other, the backslash first, so that
no backslash put in by one replacement is taken for one of the text by the next.

## Main definitions

* `patternParts` — the parts of a pattern; there are none if nothing stands behind an escape.
* `PartsMatch`, `partsMatch` — which subjects a list of parts fits, and the search that finds out.
* `like` — `subject LIKE pattern ESCAPE '\'`.
* `IsWellEscaped` — every escape stands before a character that needs it.

## Main results

* `partsMatch_iff` — the search finds a fit exactly if there is one.
* `escapeLikeChars_eq_replace` — escaping in one pass is escaping one character after the other.
* `escapeLike_is_literal` — an escaped text is well escaped, fits the text it was made of and, up
  to folding, no other, and is made of one text only.
-/

namespace PagedSearch

/-! ### Patterns -/

/-- A part of a pattern: any run of characters, any one character, or a given one. -/
inductive PatternPart where
  | run
  | one
  | only (c : Char)
  deriving DecidableEq, Repr

/-- The parts of a pattern.  An escape behind which nothing stands makes it no pattern. -/
def patternParts : List Char → Option (List PatternPart)
  | [] => some []
  | ['\\'] => none
  | '\\' :: c :: rest => (patternParts rest).map (.only c :: ·)
  | '%' :: rest => (patternParts rest).map (.run :: ·)
  | '_' :: rest => (patternParts rest).map (.one :: ·)
  | c :: rest => (patternParts rest).map (.only c :: ·)

/-- The characters that stand for themselves only behind an escape. -/
def needsEscape (c : Char) : Bool := c = '\\' || c = '%' || c = '_'

/-- Every escape of the pattern stands before a character that needs it.  This is what the stricter
databases ask of a pattern; a lenient one only asks that something follows. -/
def IsWellEscaped : List Char → Bool
  | [] => true
  | ['\\'] => false
  | '\\' :: c :: rest => needsEscape c && IsWellEscaped rest
  | _ :: rest => IsWellEscaped rest

theorem patternParts_plain {c : Char} (hc : needsEscape c = false) (rest : List Char) :
    patternParts (c :: rest) = (patternParts rest).map (.only c :: ·) := by
  have hne {d : Char} (hd : needsEscape d = true) (h : c = d) : False :=
    Bool.false_ne_true (hc.symm.trans (h ▸ hd))
  rw [patternParts]
  · exact fun h _ => hne rfl h
  · exact fun _ _ h _ => hne rfl h
  · exact hne rfl
  · exact hne rfl

theorem isWellEscaped_plain {c : Char} (hc : c ≠ '\\') (rest : List Char) :
    IsWellEscaped (c :: rest) = IsWellEscaped rest := by
  rw [IsWellEscaped]
  · exact fun h _ => hc h
  · exact fun _ _ h _ => hc h

/-- A pattern that the stricter databases take has parts. -/
theorem IsWellEscaped.isSome_patternParts (pattern : List Char)
    (h : IsWellEscaped pattern = true) : (patternParts pattern).isSome := by
  induction pattern using patternParts.induct with
  | case1 => rfl
  | case2 => exact absurd h (by decide)
  | case3 c rest ih =>
    rw [patternParts, Option.isSome_map]
    exact ih (Bool.and_eq_true_iff.mp h).2
  | case4 rest ih | case5 rest ih =>
    rw [patternParts, Option.isSome_map]
    exact ih h
  | case6 c rest hlast hescape hrun hone ih =>
    have hc : c ≠ '\\' := by
      cases rest with
      | nil => exact fun hc => hlast hc rfl
      | cons d rest => exact fun hc => hescape d rest hc rfl
    rw [isWellEscaped_plain hc] at h
    rw [patternParts, Option.isSome_map]
    · exact ih h
    all_goals assumption

/-! ### Matching -/

section Matching

variable (fold : Char → Char)

/-- The parts fit the subject, characters being compared after `fold`. -/
inductive PartsMatch : List PatternPart → List Char → Prop
  | nil : PartsMatch [] []
  | run {parts : List PatternPart} {subject : List Char} (skipped : List Char) :
      PartsMatch parts subject → PartsMatch (.run :: parts) (skipped ++ subject)
  | one {parts : List PatternPart} {subject : List Char} (d : Char) :
      PartsMatch parts subject → PartsMatch (.one :: parts) (d :: subject)
  | only {parts : List PatternPart} {subject : List Char} {c d : Char} :
      fold c = fold d → PartsMatch parts subject → PartsMatch (.only c :: parts) (d :: subject)

/-- Whether the parts fit the subject.  A run is tried with every end. -/
def partsMatch : List PatternPart → List Char → Bool
  | [], subject => subject.isEmpty
  | .run :: parts, subject => subject.tails.any fun rest => partsMatch parts rest
  | .one :: _, [] => false
  | .one :: parts, _ :: subject => partsMatch parts subject
  | .only _ :: _, [] => false
  | .only c :: parts, d :: subject => fold c == fold d && partsMatch parts subject

/-- `subject LIKE pattern ESCAPE '\'`.  What is no pattern fits nothing. -/
def like (subject pattern : String) : Bool :=
  match patternParts pattern.toList with
  | some parts => partsMatch fold parts subject.toList
  | none => false

variable {fold}

/-- The search finds a fit exactly if there is one. -/
theorem partsMatch_iff (parts : List PatternPart) (subject : List Char) :
    partsMatch fold parts subject = true ↔ PartsMatch fold parts subject := by
  induction parts generalizing subject with
  | nil =>
    rw [partsMatch, List.isEmpty_iff]
    exact ⟨fun h => h ▸ .nil, fun h => by cases h; rfl⟩
  | cons part parts ih =>
    cases part with
    | run =>
      rw [partsMatch, List.any_eq_true]
      constructor
      · rintro ⟨rest, hrest, hmatch⟩
        obtain ⟨skipped, rfl⟩ := (List.mem_tails _ _).mp hrest
        exact .run skipped ((ih rest).mp hmatch)
      · rintro (_ | ⟨skipped, hmatch⟩)
        exact ⟨_, (List.mem_tails _ _).mpr ⟨skipped, rfl⟩, (ih _).mpr hmatch⟩
    | one =>
      cases subject with
      | nil => exact ⟨fun h => by simp [partsMatch] at h, fun h => nomatch h⟩
      | cons d subject =>
        rw [partsMatch, ih]
        exact ⟨.one d, fun h => by cases h; assumption⟩
    | only c =>
      cases subject with
      | nil => exact ⟨fun h => by simp [partsMatch] at h, fun h => nomatch h⟩
      | cons d subject =>
        rw [partsMatch, Bool.and_eq_true, beq_iff_eq, ih]
        exact ⟨fun h => .only h.1 h.2, fun h => by cases h; exact ⟨‹_›, ‹_›⟩⟩

/-- Parts that are all given characters fit what folds to the same. -/
theorem partsMatch_only (text subject : List Char) :
    PartsMatch fold (text.map .only) subject ↔ subject.map fold = text.map fold := by
  induction text generalizing subject with
  | nil =>
    rw [List.map_nil, List.map_nil, List.map_eq_nil_iff]
    exact ⟨fun h => by cases h; rfl, fun h => h ▸ .nil⟩
  | cons c text ih =>
    cases subject with
    | nil => exact ⟨nofun, nofun⟩
    | cons d subject =>
      rw [List.map_cons, List.map_cons, List.map_cons, List.cons_eq_cons, ← ih]
      exact ⟨fun h => by cases h; exact ⟨Eq.symm ‹_›, ‹_›⟩, fun h => .only h.1.symm h.2⟩

end Matching

/-! ### Escaped texts -/

/-- Every `old` of a text replaced. -/
def replaceChar (old : Char) (new text : List Char) : List Char :=
  text.flatMap fun c => if c = old then new else [c]

/-- A text is escaped by escaping one character after the other, backslashes first. -/
theorem escapeLikeChars_eq_replace (text : List Char) :
    escapeLikeChars text =
      replaceChar '_' ['\\', '_']
        (replaceChar '%' ['\\', '%'] (replaceChar '\\' ['\\', '\\'] text)) := by
  simp only [escapeLikeChars, replaceChar, List.flatMap_assoc]
  congr 1
  funext c
  by_cases hescape : c = '\\'
  · subst hescape; rfl
  by_cases hrun : c = '%'
  · subst hrun; rfl
  by_cases hone : c = '_'
  · subst hone; rfl
  simp [hescape, hrun, hone]

/-- The order of the replacements matters: with backslashes last, `%` is a wildcard again. -/
example : replaceChar '\\' ['\\', '\\'] (replaceChar '%' ['\\', '%'] ['%']) = ['\\', '\\', '%'] ∧
    patternParts ['\\', '\\', '%'] = some [.only '\\', .run] := by
  decide

theorem escapeLikeChars_cons (c : Char) (text : List Char) :
    escapeLikeChars (c :: text) =
      (if needsEscape c then ['\\', c] else [c]) ++ escapeLikeChars text := rfl

theorem escapeLikeChars_cons_of_needsEscape {c : Char} (hc : needsEscape c = true)
    (text : List Char) : escapeLikeChars (c :: text) = '\\' :: c :: escapeLikeChars text := by
  rw [escapeLikeChars_cons, if_pos hc]
  rfl

theorem escapeLikeChars_cons_of_plain {c : Char} (hc : needsEscape c = false)
    (text : List Char) : escapeLikeChars (c :: text) = c :: escapeLikeChars text := by
  rw [escapeLikeChars_cons, hc]
  rfl

/-- The parts of an escaped text are its characters. -/
theorem patternParts_escapeLikeChars (text : List Char) :
    patternParts (escapeLikeChars text) = some (text.map .only) := by
  induction text with
  | nil => rfl
  | cons c text ih =>
    cases hc : needsEscape c with
    | true => rw [escapeLikeChars_cons_of_needsEscape hc, patternParts, ih]; rfl
    | false => rw [escapeLikeChars_cons_of_plain hc, patternParts_plain hc, ih]; rfl

theorem isWellEscaped_escapeLikeChars (text : List Char) :
    IsWellEscaped (escapeLikeChars text) = true := by
  induction text with
  | nil => rfl
  | cons c text ih =>
    cases hc : needsEscape c with
    | true =>
      rw [escapeLikeChars_cons_of_needsEscape hc, IsWellEscaped, hc, ih]
      rfl
    | false =>
      have hescape : c ≠ '\\' := by
        rintro rfl
        exact absurd hc (by decide)
      rw [escapeLikeChars_cons_of_plain hc, isWellEscaped_plain hescape, ih]

/-- Two texts that escape to one are one: the parts of the pattern tell them. -/
theorem escapeLikeChars_injective : Function.Injective escapeLikeChars := by
  intro text text' h
  have hparts : some (text.map PatternPart.only) = some (text'.map PatternPart.only) := by
    rw [← patternParts_escapeLikeChars, ← patternParts_escapeLikeChars, h]
  have honly : Function.Injective PatternPart.only := fun _ _ => PatternPart.only.inj
  exact honly.list_map (Option.some.inj hparts)

theorem toList_escapeLike (text : String) :
    (escapeLike text).toList = escapeLikeChars text.toList := String.toList_ofList

/-- **An escaped text has no wildcards.**  Each of its escapes stands before a character that needs
it, so none dangles at its end; under `LIKE` it fits a subject exactly if the subject is the text,
up to the folding that `LIKE` compares characters with; and it comes from one text only. -/
theorem escapeLike_is_literal :
    (∀ text : String, IsWellEscaped (escapeLike text).toList = true) ∧
      (∀ (fold : Char → Char) (text subject : String),
        like fold subject (escapeLike text) = true ↔
          subject.toList.map fold = text.toList.map fold) ∧
      Function.Injective escapeLike := by
  refine ⟨fun text => ?_, fun fold text subject => ?_, fun text text' h => ?_⟩
  · rw [toList_escapeLike]
    exact isWellEscaped_escapeLikeChars _
  · rw [like, toList_escapeLike, patternParts_escapeLikeChars]
    exact (partsMatch_iff _ _).trans (partsMatch_only _ _)
  · refine String.toList_injective (escapeLikeChars_injective ?_)
    rw [← toList_escapeLike, ← toList_escapeLike, h]

end PagedSearch
