import PagedSearch.Text.Character
import PagedSearch.Text.Folding

/-!
# Sets of characters

What one place of a pattern can match: a range, a named class, or a set made of others.

## Main definitions

* `CharSet` — descriptions of sets of characters.
* `CharSet.contains` — membership.
* `CharSet.named?` — the sets that Unicode has a name for.
-/

namespace PagedSearch

/-- A description of a set of characters. -/
inductive CharSet where
  /-- The code points from `first` to `last`. -/
  | range (first last : Nat)
  /-- The ranges with the given boundaries, as `inRanges` reads them. -/
  | bounds (list : List Nat)
  /-- White space. -/
  | blank
  /-- Letters, marks, decimal digits, connectors and joiners. -/
  | word
  /-- Decimal digits of all scripts. -/
  | digit
  /-- All characters that are not in the set. -/
  | complement (set : CharSet)
  /-- The characters in one of the sets. -/
  | union (a b : CharSet)
  /-- The characters in both sets. -/
  | intersection (a b : CharSet)
  /-- The characters that differ only in case from one in the set. -/
  | caseless (set : CharSet)
  deriving DecidableEq

namespace CharSet

/-- No characters. -/
def empty : CharSet := .bounds []

/-- All characters. -/
def full : CharSet := .complement empty

/-- One character. -/
def single (c : Char) : CharSet := .range c.toNat c.toNat

/-- The characters in one of several sets. -/
def unionAll : List CharSet → CharSet
  | [] => empty
  | [set] => set
  | set :: sets => .union set (unionAll sets)

/-- The characters in the first set that are not in the second. -/
def difference (a b : CharSet) : CharSet := .intersection a (.complement b)

/-- The characters in exactly one of two sets. -/
def symmetricDifference (a b : CharSet) : CharSet := .union (difference a b) (difference b a)

/-- Whether the code point is in the set. -/
def containsCode : CharSet → Nat → Bool
  | .range first last, code => decide (first ≤ code) && decide (code ≤ last)
  | .bounds list, code => Text.inRanges code list
  | .blank, code => Text.isBlank (Char.ofNat code)
  | .word, code => Text.isWord (Char.ofNat code)
  | .digit, code => Text.isDecimalDigit (Char.ofNat code)
  | .complement set, code => !set.containsCode code
  | .union a b, code => a.containsCode code || b.containsCode code
  | .intersection a b, code => a.containsCode code && b.containsCode code
  | .caseless set, code => (Text.caseVariants code).any fun variant => set.containsCode variant

/-- Whether the character is in the set. -/
def contains (set : CharSet) (c : Char) : Bool := set.containsCode c.toNat

/-- The letters of Unicode: what is alphabetic and neither a mark nor a number nor a letter in a
circle or square. -/
def letters : CharSet :=
  difference (.bounds Text.alphabeticBounds)
    (unionAll [.bounds Text.markBounds, .bounds Text.numericBounds, .range 0x24b6 0x24e9,
      .range 0x1f130 0x1f149, .range 0x1f150 0x1f169, .range 0x1f170 0x1f189])

/-- The set with the given name, written in small letters, without spaces, `_` and `-`, and without
a leading `is`. -/
def named? (name : List Char) : Option CharSet :=
  let name := String.ofList name
  if ["alphabetic", "alpha"].contains name then some (.bounds Text.alphabeticBounds)
  else if ["l", "letter"].contains name then some letters
  else if ["m", "mark", "combiningmark"].contains name then some (.bounds Text.markBounds)
  else if ["n", "number"].contains name then some (.bounds Text.numericBounds)
  else if ["nd", "decimalnumber", "digit"].contains name then some .digit
  else if ["pc", "connectorpunctuation"].contains name then some (.bounds Text.connectorBounds)
  else if ["whitespace", "wspace", "space"].contains name then some .blank
  else if name = "any" then some full
  else if name = "ascii" then some (.range 0 127)
  else none

/-- The set of ASCII characters with the given name, as in `[:name:]`. -/
def ascii? (name : List Char) : Option CharSet :=
  let span (a b : Char) : CharSet := .range a.toNat b.toNat
  let lower := span 'a' 'z'
  let upper := span 'A' 'Z'
  let digits := span '0' '9'
  let punctuation := unionAll [span '!' '/', span ':' '@', span '[' '\x60', span '\x7b' '~']
  match String.ofList name with
  | "alnum" => some (unionAll [digits, lower, upper])
  | "alpha" => some (.union lower upper)
  | "ascii" => some (.range 0 127)
  | "blank" => some (.union (single '\t') (single ' '))
  | "cntrl" => some (.union (.range 0 31) (.range 127 127))
  | "digit" => some digits
  | "graph" => some (span '!' '~')
  | "lower" => some lower
  | "print" => some (span ' ' '~')
  | "punct" => some punctuation
  | "space" => some (.union (.range 9 13) (single ' '))
  | "upper" => some upper
  | "word" => some (unionAll [digits, lower, upper, single '_'])
  | "xdigit" => some (unionAll [digits, span 'a' 'f', span 'A' 'F'])
  | _ => none

end CharSet

end PagedSearch
