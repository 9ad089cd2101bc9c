import PagedSearch.Field.Resolver
import PagedSearch.Filter.Syntax

/-!
# Comparisons in SQL

What the eight comparison operators become, once it is known what their operands stand for.

* Equality takes a missing value for the empty text, or, where an operand asks for it, for a value
  that equals only itself.
* `~` looks for its right side within its left side.  If the right side has values, they are the
  pattern, and the wildcards in them are escaped; if it has none, it is a column, and wildcards are
  put around it.  `!~` takes the side with values for the right one.

## Main definitions

* `escapeLike` — a text in which no character is a wildcard.
* `comparisonFragment` — the SQL of a comparison.
-/

namespace PagedSearch

/-- The characters of a text in which no character is a wildcard. -/
def escapeLikeChars (text : List Char) : List Char :=
  text.flatMap fun c => if c = '\\' || c = '%' || c = '_' then ['\\', c] else [c]

/-- A text in which no character is a wildcard of `LIKE`, the backslash being the escape. -/
def escapeLike (text : String) : String := String.ofList (escapeLikeChars text.toList)

/-- A text without wildcards; other values are kept. -/
def Value.escapeLike : Value → Value
  | .text content => .text (PagedSearch.escapeLike content)
  | value => value

/-- Whether a missing value equals only a missing value: one operand asks for it, and none forbids
it. -/
def comparesNulls (left right : Resolved) : Bool :=
  (left.nullPolicy = .disabled || right.nullPolicy = .disabled) &&
    !(left.nullPolicy = .enforced || right.nullPolicy = .enforced)

/-- `=`, or `!=` if `negated`. -/
def equalityFragment (negated : Bool) (left right : Resolved) : Fragment :=
  let l := left.identifier
  let r := right.identifier
  let text :=
    if comparesNulls left right then l ++ (if negated then " IS NOT " else " IS ") ++ r
    else
      "COALESCE(" ++ l ++ ", '')" ++ (if negated then " != " else " = ") ++
        "COALESCE(" ++ r ++ ", '')"
  .raw text (left.params.merge right.params)

/-- The text that `LIKE` statements end with, which makes the backslash the escape. -/
def likeEscape : String := " ESCAPE '\\'"

/-- `~`, or `!~` if `negated`. -/
def likeFragment (negated : Bool) (left right : Resolved) : Fragment :=
  let (subject, pattern) :=
    if negated && !left.params.isEmpty && right.params.isEmpty then (right, left)
    else (left, right)
  let keyword := if negated then " NOT LIKE " else " LIKE "
  if pattern.params.isEmpty then
    .raw (subject.identifier ++ keyword ++ "('%' || " ++ pattern.identifier ++ " || '%')" ++
      likeEscape) subject.params
  else
    .raw (subject.identifier ++ keyword ++ pattern.identifier ++ likeEscape)
      (subject.params.merge (pattern.params.map Value.escapeLike))

/-- `<`, `<=`, `>` and `>=`. -/
def orderFragment (symbol : String) (left right : Resolved) : Fragment :=
  .raw (left.identifier ++ " " ++ symbol ++ " " ++ right.identifier)
    (left.params.merge right.params)

/-- The SQL of a comparison, related values and what the operands wrap it into left aside. -/
def comparisonFragment (left : Resolved) (comparator : Comparator) (right : Resolved) : Fragment :=
  match comparator with
  | .equal => equalityFragment false left right
  | .notEqual => equalityFragment true left right
  | .like => likeFragment false left right
  | .notLike => likeFragment true left right
  | .less => orderFragment comparator.symbol left right
  | .lessEqual => orderFragment comparator.symbol left right
  | .greater => orderFragment comparator.symbol left right
  | .greaterEqual => orderFragment comparator.symbol left right

end PagedSearch
