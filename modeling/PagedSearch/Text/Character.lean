import PagedSearch.Text.Alphabetic
import PagedSearch.Text.Numeric
import PagedSearch.Text.Marks
import PagedSearch.Text.Unprintable

/-!
# Character classes

The classes of characters that filters, field names and messages are written with.  Letters, numbers
and blanks are those of Unicode, not only those of ASCII; each test answers the ASCII characters
directly and looks the others up in a table of ranges.

## Main definitions

* `inRanges` — reads a list of range boundaries.
* `isAlphabetic`, `isAlphanumeric` — letters, and letters or numbers.
* `isBlank`, `trim` — white space, and a text without it at its ends.
* `isGraphemeExtend`, `isPrintable` — what a quoted text shows as it is.
* `isWord`, `isDecimalDigit` — the classes `\w` and `\d` of patterns.
-/

namespace PagedSearch.Text

/-- Whether `code` lies in one of the ranges with the given boundaries, which ascend: every boundary
at or below `code` switches between outside and inside. -/
def inRanges (code : Nat) : List Nat → Bool
  | [] => false
  | bound :: rest => decide (bound ≤ code) && !inRanges code rest

/-- A letter: the Unicode property *Alphabetic*. -/
def isAlphabetic (c : Char) : Bool :=
  if c.toNat < 128 then c.isAlpha else inRanges c.toNat alphabeticBounds

/-- A letter or a number of any kind. -/
def isAlphanumeric (c : Char) : Bool :=
  if c.toNat < 128 then c.isAlphanum
  else inRanges c.toNat alphabeticBounds || inRanges c.toNat numericBounds

/-- White space: the Unicode property *White_Space*. -/
def isBlank (c : Char) : Bool :=
  c == ' ' || (9 ≤ c.toNat && c.toNat ≤ 13) ||
    [0x85, 0xa0, 0x1680, 0x2028, 0x2029, 0x202f, 0x205f, 0x3000].contains c.toNat ||
    (0x2000 ≤ c.toNat && c.toNat ≤ 0x200a)

/-- A character that joins the one before it. -/
def isGraphemeExtend (c : Char) : Bool :=
  768 ≤ c.toNat && inRanges c.toNat graphemeExtendBounds

/-- A character with a glyph of its own, or the plain space. -/
def isPrintable (c : Char) : Bool :=
  if c.toNat < 128 then 32 ≤ c.toNat && c.toNat < 127 else !inRanges c.toNat unprintableBounds

/-- A decimal digit of any script: the class `\d` of patterns. -/
def isDecimalDigit (c : Char) : Bool :=
  if c.toNat < 128 then c.isDigit else inRanges c.toNat decimalDigitBounds

/-- A letter, mark, decimal digit, connector or joiner: the class `\w` of patterns. -/
def isWord (c : Char) : Bool :=
  if c.toNat < 128 then c.isAlphanum || c == '_'
  else inRanges c.toNat alphabeticBounds || inRanges c.toNat markBounds ||
    inRanges c.toNat decimalDigitBounds || inRanges c.toNat connectorBounds ||
    c.toNat == 0x200c || c.toNat == 0x200d

/-- The characters of a text without the white space at its ends. -/
def trimChars (text : List Char) : List Char :=
  ((text.dropWhile isBlank).reverse.dropWhile isBlank).reverse

/-- A text without the white space at its ends. -/
def trim (text : String) : String :=
  String.ofList (trimChars text.toList)

end PagedSearch.Text
