import Mathlib.Data.Option.NAry
import PagedSearch.Error
import PagedSearch.Proofs.Conditions
import PagedSearch.Proofs.Wildcards

/-!
# Comparisons as predicates

The SQL of a comparison is a predicate with two open places, one for each side.  What is printed in
these places are the identifiers of the operands, and what a database finds there are their values;
so a predicate has a text for any two identifiers, and a truth value for any two values.  Which
predicate it is depends on the operator, on the null policies of the operands and on which of them
have bound values, and on nothing else.

What a database makes of its values is left open, but for the few laws that make an equality one.

## Main definitions

* `Engine` — what a database makes of its values; `Engine.HandlesTexts` says that texts are
  concatenated and matched as texts are.
* `Expression`, `Predicate` — expressions and predicates, with their texts and their values.
* `comparisonPredicate`, `comparisonTruth` — the predicate of a comparison, and its truth value.

## Main results

* `text_comparisonFragment` — what is emitted for a comparison is its predicate, printed with the
  identifiers of the operands.
* `comparisonPredicate_congr`, `params_comparisonFragment_congr` — operands with the same bound
  values and the same policies make for the same predicate and bind the same values.
-/

namespace PagedSearch

/-! ### Truth values -/

namespace Truth

/-- `NOT` -/
def not : Truth → Truth
  | yes => no
  | no => yes
  | null => null

/-- The truth value of what is known to hold or not to hold. -/
def ofBool : Bool → Truth
  | true => yes
  | false => no

/-- The truth value of what is not known if a value is missing. -/
def ofOption : Option Bool → Truth
  | some decided => ofBool decided
  | none => null

/-- A truth value, or its negation. -/
def negateIf (negated : Bool) (t : Truth) : Truth := if negated then t.not else t

/-- A decision, or its negation, is true if what it decides is what is asked for. -/
theorem negateIf_ofBool_eq_yes {negated decided : Bool} {p : Prop} (h : decided = true ↔ p) :
    (ofBool decided).negateIf negated = yes ↔ (p ↔ negated = false) := by
  rw [← h]
  cases negated <;> cases decided <;> decide

end Truth

/-! ### Engines -/

/-- The four operators of SQL that ask for an order. -/
inductive Order where
  | less
  | lessEqual
  | greater
  | greaterEqual

/-- The symbol of such an operator. -/
def Order.symbol : Order → String
  | less => "<"
  | lessEqual => "<="
  | greater => ">"
  | greaterEqual => ">="

/-- What a database makes of its values.  A missing value is none of them. -/
structure Engine (V : Type) where
  /-- The value of a text. -/
  ofText : String → V
  /-- `v = w` -/
  equal : V → V → Bool
  /-- A value equals itself. -/
  equal_self (v : V) : equal v v = true
  /-- It does not matter which value is named first. -/
  equal_comm (v w : V) : equal v w = equal w v
  /-- `v || w` -/
  concat : V → V → V
  /-- `v LIKE w ESCAPE '\'` -/
  like : V → V → Bool
  /-- `v < w` and its kind. -/
  order : Order → V → V → Bool

namespace Engine

variable {V : Type}

/-- `x IS y`, which tells whether two values that may be missing are the same. -/
def same (engine : Engine V) : Option V → Option V → Bool
  | some v, some w => engine.equal v w
  | none, none => true
  | _, _ => false

/-- Texts are concatenated and matched as texts, characters being compared after `fold`. -/
structure HandlesTexts (engine : Engine V) (fold : Char → Char) : Prop where
  /-- Concatenation puts one text behind the other. -/
  concat (a b : String) : engine.concat (engine.ofText a) (engine.ofText b) = engine.ofText (a ++ b)
  /-- Matching takes the wildcards and the escapes of the pattern for what they are. -/
  like (subject pattern : String) :
    engine.like (engine.ofText subject) (engine.ofText pattern) =
      PagedSearch.like fold subject pattern

/-- The database whose values are texts, ordered by their characters. -/
def texts (fold : Char → Char) : Engine String where
  ofText := id
  equal := (· == ·)
  equal_self _ := beq_self_eq_true _
  equal_comm _ _ := BEq.comm
  concat := (· ++ ·)
  like := PagedSearch.like fold
  order
    | .less, v, w => decide (v < w)
    | .lessEqual, v, w => !decide (w < v)
    | .greater, v, w => decide (w < v)
    | .greaterEqual, v, w => !decide (v < w)

theorem handlesTexts_texts (fold : Char → Char) : (texts fold).HandlesTexts fold :=
  ⟨fun _ _ => rfl, fun _ _ => rfl⟩

end Engine

/-! ### Expressions -/

/-- An expression with open places of type `α`. -/
inductive Expression (α : Type) where
  /-- An open place. -/
  | place (a : α)
  /-- A text. -/
  | literal (content : String)
  /-- The first of two values that is not missing. -/
  | coalesce (first second : Expression α)
  /-- Two texts, one behind the other. -/
  | concat (first second : Expression α)
  /-- An expression in parentheses. -/
  | group (inner : Expression α)

namespace Expression

variable {α V : Type}

/-- The SQL of an expression, `name` being what stands in its open places. -/
def text (name : α → String) : Expression α → String
  | place a => name a
  | literal content =>
    "'" ++ String.ofList (replaceChar '\'' ['\'', '\''] content.toList) ++ "'"
  | coalesce first second => "COALESCE(" ++ first.text name ++ ", " ++ second.text name ++ ")"
  | concat first second => first.text name ++ " || " ++ second.text name
  | group inner => Fragment.parenthesised (inner.text name)

/-- The value of an expression, `value` being those of its open places. -/
def eval (engine : Engine V) (value : α → Option V) : Expression α → Option V
  | place a => value a
  | literal content => some (engine.ofText content)
  | coalesce first second => (first.eval engine value).or (second.eval engine value)
  | concat first second =>
    Option.map₂ engine.concat (first.eval engine value) (second.eval engine value)
  | group inner => inner.eval engine value

/-- The pattern of the texts that contain the text of an expression, if there is no wildcard in
it. -/
def between (inner : Expression α) : Expression α :=
  .group (.concat (.concat (.literal "%") inner) (.literal "%"))

end Expression

/-! ### Predicates -/

/-- A predicate with open places of type `α`. -/
inductive Predicate (α : Type) where
  /-- `=`, or `!=` if `negated`. -/
  | equal (negated : Bool) (first second : Expression α)
  /-- `IS`, or `IS NOT` if `negated`. -/
  | same (negated : Bool) (first second : Expression α)
  /-- `LIKE`, or `NOT LIKE` if `negated`, the backslash being the escape. -/
  | like (negated : Bool) (subject pattern : Expression α)
  /-- `<` and its kind. -/
  | order (operator : Order) (first second : Expression α)

namespace Predicate

variable {α V : Type}

/-- The SQL of a predicate, `name` being what stands in its open places. -/
def text (name : α → String) : Predicate α → String
  | equal negated first second =>
    first.text name ++ (if negated then " != " else " = ") ++ second.text name
  | same negated first second =>
    first.text name ++ (if negated then " IS NOT " else " IS ") ++ second.text name
  | like negated subject pattern =>
    subject.text name ++ (if negated then " NOT LIKE " else " LIKE ") ++ pattern.text name ++
      likeEscape
  | order operator first second =>
    first.text name ++ " " ++ operator.symbol ++ " " ++ second.text name

/-- The truth value of a predicate, `value` being the values of its open places.  Only `IS` can
tell anything about a missing value. -/
def eval (engine : Engine V) (value : α → Option V) : Predicate α → Truth
  | equal negated first second =>
    (Truth.ofOption
      (Option.map₂ engine.equal (first.eval engine value) (second.eval engine value))).negateIf
      negated
  | same negated first second =>
    (Truth.ofBool (engine.same (first.eval engine value) (second.eval engine value))).negateIf
      negated
  | like negated subject pattern =>
    (Truth.ofOption
      (Option.map₂ engine.like (subject.eval engine value) (pattern.eval engine value))).negateIf
      negated
  | order operator first second =>
    Truth.ofOption
      (Option.map₂ (engine.order operator) (first.eval engine value) (second.eval engine value))

/-- No predicate is printed as nothing. -/
theorem text_ne_empty (predicate : Predicate α) (name : α → String) :
    predicate.text name ≠ "" := by
  cases predicate with
  | equal negated first second | same negated first second => cases negated <;> simp [text]
  | like negated subject pattern => simp [text, likeEscape]
  | order operator first second => simp [text]

end Predicate

/-! ### Comparisons -/

/-- The one of two things that belongs to a side. -/
def Side.pick {α : Type} (left right : α) : Side → α
  | Side.left => left
  | Side.right => right

/-- The other side. -/
def Side.other : Side → Side
  | left => right
  | right => left

/-- The predicate of `=`, or of `!=` if `negated`; `apart` says that a missing value is not taken
for the empty text. -/
def equalityPredicate (negated apart : Bool) : Predicate Side :=
  if apart then .same negated (.place .left) (.place .right)
  else
    .equal negated (.coalesce (.place .left) (.literal ""))
      (.coalesce (.place .right) (.literal ""))

/-- The side that `~`, or `!~` if `negated`, searches; the other side is what it looks for. -/
def searchedSide (negated : Bool) (left right : Resolved) : Side :=
  if negated && !left.params.isEmpty && right.params.isEmpty then .right else .left

/-- The predicate of `~`, or of `!~` if `negated`. -/
def likePredicate (negated : Bool) (left right : Resolved) : Predicate Side :=
  let subject := searchedSide negated left right
  let pattern : Expression Side := .place subject.other
  .like negated (.place subject)
    (if (subject.other.pick left right).params.isEmpty then pattern.between else pattern)

/-- The predicate of a comparison. -/
def comparisonPredicate (left : Resolved) (comparator : Comparator) (right : Resolved) :
    Predicate Side :=
  match comparator with
  | .equal => equalityPredicate false (comparesNulls left right)
  | .notEqual => equalityPredicate true (comparesNulls left right)
  | .like => likePredicate false left right
  | .notLike => likePredicate true left right
  | .less => .order .less (.place .left) (.place .right)
  | .lessEqual => .order .lessEqual (.place .left) (.place .right)
  | .greater => .order .greater (.place .left) (.place .right)
  | .greaterEqual => .order .greaterEqual (.place .left) (.place .right)

/-- The truth value of a comparison in which the operands have the values `x` and `y`. -/
def comparisonTruth {V : Type} (engine : Engine V) (left : Resolved) (comparator : Comparator)
    (right : Resolved) (x y : Option V) : Truth :=
  (comparisonPredicate left comparator right).eval engine (Side.pick x y)

variable {left right left' right' : Resolved} {negated : Bool}

theorem text_equalityFragment (negated : Bool) (left right : Resolved) :
    (equalityFragment negated left right).text =
      (equalityPredicate negated (comparesNulls left right)).text
        (Side.pick left.identifier right.identifier) := by
  unfold equalityFragment equalityPredicate
  cases comparesNulls left right
  · simp [Fragment.text, Predicate.text, Expression.text, Side.pick, replaceChar,
      String.append_assoc]
  · simp [Fragment.text, Predicate.text, Expression.text, Side.pick]

theorem text_between (name : Side → String) (side : Side) :
    (Expression.between (.place side)).text name = "('%' || " ++ name side ++ " || '%')" := by
  refine String.toList_injective ?_
  simp [Expression.between, Expression.text, Fragment.parenthesised, replaceChar]

/-- What `~` is emitted as, told by the side that it searches. -/
theorem likeFragment_eq (negated : Bool) (left right : Resolved) :
    likeFragment negated left right =
      let searched := searchedSide negated left right
      let subject := searched.pick left right
      let pattern := searched.other.pick left right
      let keyword := if negated then " NOT LIKE " else " LIKE "
      if pattern.params.isEmpty then
        .raw (subject.identifier ++ keyword ++ ("('%' || " ++ pattern.identifier ++ " || '%')") ++
          likeEscape) subject.params
      else
        .raw (subject.identifier ++ keyword ++ pattern.identifier ++ likeEscape)
          (subject.params.merge (pattern.params.map Value.escapeLike)) := by
  unfold likeFragment searchedSide
  cases negated && !left.params.isEmpty && right.params.isEmpty
  all_goals simp [Side.pick, Side.other, String.append_assoc]

theorem text_likeFragment (negated : Bool) (left right : Resolved) :
    (likeFragment negated left right).text =
      (likePredicate negated left right).text
        (Side.pick left.identifier right.identifier) := by
  have hpick (side : Side) :
      (side.pick left right).identifier = Side.pick left.identifier right.identifier side := by
    cases side <;> rfl
  rw [likeFragment_eq, likePredicate]
  dsimp only
  split
  · rw [Fragment.text, Predicate.text, text_between, Expression.text, hpick, hpick]
  · rw [Fragment.text, Predicate.text, Expression.text, Expression.text, hpick, hpick]

/-- What is emitted for a comparison is its predicate, printed with the identifiers of the
operands. -/
theorem text_comparisonFragment (left : Resolved) (comparator : Comparator) (right : Resolved) :
    (comparisonFragment left comparator right).text =
      (comparisonPredicate left comparator right).text
        (Side.pick left.identifier right.identifier) := by
  cases comparator with
  | equal => exact text_equalityFragment false left right
  | notEqual => exact text_equalityFragment true left right
  | like => exact text_likeFragment false left right
  | notLike => exact text_likeFragment true left right
  | less | lessEqual | greater | greaterEqual => rfl

section Congruence

variable (hleft : left'.params = left.params ∧ left'.nullPolicy = left.nullPolicy)
  (hright : right'.params = right.params ∧ right'.nullPolicy = right.nullPolicy)

include hleft hright

theorem comparesNulls_congr : comparesNulls left' right' = comparesNulls left right := by
  unfold comparesNulls
  rw [hleft.2, hright.2]

theorem searchedSide_congr :
    searchedSide negated left' right' = searchedSide negated left right := by
  unfold searchedSide
  rw [hleft.1, hright.1]

theorem pick_params_congr (side : Side) :
    (side.pick left' right').params = (side.pick left right).params := by
  cases side
  · exact hleft.1
  · exact hright.1

/-- The predicate of a comparison depends on the values and on the policies of the operands only. -/
theorem comparisonPredicate_congr (comparator : Comparator) :
    comparisonPredicate left' comparator right' = comparisonPredicate left comparator right := by
  cases comparator with
  | equal | notEqual =>
    rw [comparisonPredicate, comparisonPredicate, comparesNulls_congr hleft hright]
  | like | notLike =>
    simp only [comparisonPredicate, likePredicate, searchedSide_congr hleft hright,
      pick_params_congr hleft hright]
  | less | lessEqual | greater | greaterEqual => rfl

/-- So do the values that it binds. -/
theorem params_comparisonFragment_congr (comparator : Comparator) :
    (comparisonFragment left' comparator right').params =
      (comparisonFragment left comparator right).params := by
  have hlike (negated : Bool) :
      (likeFragment negated left' right').params = (likeFragment negated left right).params := by
    simp only [likeFragment_eq, searchedSide_congr hleft hright, pick_params_congr hleft hright]
    split <;> rfl
  have hboth : left'.params.merge right'.params = left.params.merge right.params := by
    rw [hleft.1, hright.1]
  cases comparator with
  | like => exact hlike false
  | notLike => exact hlike true
  | equal | notEqual | less | lessEqual | greater | greaterEqual => exact hboth

end Congruence

end PagedSearch
