import PagedSearch.Field.Pattern.CharSet

/-!
# Patterns and what they match

A pattern is a regular expression.  It matches a stretch of a text, from one place to another, where
the places of a text of `n` characters are numbered from `0` to `n`.  A pattern is found in a text
if it matches any stretch of it; what ties it to the ends of the text are the anchors in it.

## Main definitions

* `Anchor`, `Pattern` — regular expressions.
* `Pattern.reach` — the places where a match from one of some given places can end.
* `Pattern.isFoundIn` — whether a pattern matches any stretch of a text.
-/

namespace PagedSearch

/-- A condition on a place of a text. -/
inductive Anchor where
  /-- The start of the text. -/
  | textStart
  /-- The end of the text. -/
  | textEnd
  /-- The start of a line. -/
  | lineStart
  /-- The end of a line. -/
  | lineEnd
  /-- Between a word and what is none. -/
  | wordBoundary
  /-- Inside or outside of a word. -/
  | noWordBoundary
  /-- The start of a word. -/
  | wordStart
  /-- The end of a word. -/
  | wordEnd
  /-- Not behind a character of a word. -/
  | wordStartHalf
  /-- Not before a character of a word. -/
  | wordEndHalf
  deriving DecidableEq

/-- Whether the condition holds between the characters `before` and `after`. -/
def Anchor.holds (anchor : Anchor) (before after : Option Char) : Bool :=
  let wordBefore := before.any Text.isWord
  let wordAfter := after.any Text.isWord
  match anchor with
  | textStart => before.isNone
  | textEnd => after.isNone
  | lineStart => before.isNone || before == some '\n'
  | lineEnd => after.isNone || after == some '\n'
  | wordBoundary => wordBefore != wordAfter
  | noWordBoundary => wordBefore == wordAfter
  | wordStart => !wordBefore && wordAfter
  | wordEnd => wordBefore && !wordAfter
  | wordStartHalf => !wordBefore
  | wordEndHalf => !wordAfter

/-- A regular expression. -/
inductive Pattern where
  /-- Nothing: a stretch without characters. -/
  | empty
  /-- One character of a set. -/
  | one (set : CharSet)
  /-- A place that satisfies a condition. -/
  | anchor (anchor : Anchor)
  /-- The second behind the first. -/
  | sequence (a b : Pattern)
  /-- One of the two. -/
  | choice (a b : Pattern)
  /-- The body, at least `least` times and, if given, at most `most` times. -/
  | repeated (body : Pattern) (least : Nat) (most : Option Nat)
  deriving DecidableEq

namespace Pattern

/-- Several patterns behind each other. -/
def sequenceAll : List Pattern → Pattern
  | [] => .empty
  | [pattern] => pattern
  | pattern :: patterns => .sequence pattern (sequenceAll patterns)

/-- One of several patterns. -/
def choiceAll : List Pattern → Pattern
  | [] => .empty
  | [pattern] => pattern
  | pattern :: patterns => .choice pattern (choiceAll patterns)

/-- The character in front of a place. -/
def charBefore (text : List Char) : Nat → Option Char
  | 0 => none
  | place + 1 => text[place]?

/-- The places reached from `places` in `count` steps. -/
def iterate (step : List Nat → List Nat) : Nat → List Nat → List Nat
  | 0, places => places
  | count + 1, places => iterate step count (step places)

/-- The places of `seen`, and those reached from the last found ones, `latest`, in at most `rounds`
steps. -/
def spread (step : List Nat → List Nat) : Nat → List Nat → List Nat → List Nat
  | 0, seen, _ => seen
  | rounds + 1, seen, latest =>
    match (step latest).filter fun place => !seen.contains place with
    | [] => seen
    | found => spread step rounds (seen ++ found) found

/-- The places where a match that starts in one of the given places can end.  A repetition that
reaches no new place has reached all, so there are no more rounds of it than places. -/
def reach (text : List Char) : Pattern → List Nat → List Nat
  | .empty, places => places
  | .one set, places =>
    places.filterMap fun place =>
      if text[place]?.any set.contains then some (place + 1) else none
  | .anchor condition, places =>
    places.filter fun place => condition.holds (charBefore text place) text[place]?
  | .sequence a b, places => reach text b (reach text a places)
  | .choice a b, places =>
    let first := reach text a places
    first ++ (reach text b places).filter fun place => !first.contains place
  | .repeated body least most, places =>
    let step := fun places => reach text body places
    let start := iterate step least places
    let rounds :=
      match most with
      | some most => most - least
      | none => text.length + 1
    spread step rounds start start

/-- Whether the pattern matches any stretch of the text. -/
def isFoundIn (pattern : Pattern) (text : List Char) : Bool :=
  !(reach text pattern (List.range (text.length + 1))).isEmpty

end Pattern

end PagedSearch
