import PagedSearch.Filter.Syntax
import PagedSearch.Text.Quoted

/-!
# Lexemes

The smallest meaningful pieces of a filter, and the ways in which reading a filter can fail.

## Main definitions

* `Lexeme` — a name, a text, a number, an operator, a join or a punctuation mark.
* `ParseError`, `ParseError.message` — what is wrong with a filter, and where.
-/

namespace PagedSearch

/-- A piece of a filter. -/
inductive Lexeme where
  /-- The name of a field, of a time, or of a constant. -/
  | identifier (name : String)
  /-- A name with the `(` that directly follows it. -/
  | callStart (name : String)
  /-- A quoted text, without its quotes and escapes. -/
  | text (content : String)
  /-- A number. -/
  | number (value : Double)
  /-- A comparison operator. -/
  | comparator (comparator : Comparator)
  /-- A join. -/
  | join (join : Join)
  /-- `(`, not directly behind a name. -/
  | openParen
  /-- `)` -/
  | closeParen
  /-- `,` -/
  | comma
  deriving DecidableEq

/-- How messages name a lexeme. -/
def Lexeme.describe : Lexeme → String
  | identifier name => "identifier " ++ Text.quoted name
  | callStart name => "function " ++ Text.quoted name
  | text content => "text " ++ Text.quoted content
  | number value => "number " ++ value.text
  | comparator c => "operator " ++ Text.quoted c.symbol
  | join j => "join " ++ Text.quoted j.symbol
  | openParen => "'('"
  | closeParen => "')'"
  | comma => "','"

/-- A lexeme and the place where it starts, in bytes of UTF-8. -/
structure Located where
  /-- The lexeme. -/
  lexeme : Lexeme
  /-- Where it starts. -/
  position : Nat
  deriving DecidableEq

/-- What a filter could go on with at some place. -/
inductive Expected where
  /-- A join, or the end of the filter. -/
  | join
  /-- The end of a parenthesised group. -/
  | groupEnd
  /-- A comparison operator. -/
  | comparator
  /-- An operand. -/
  | operand
  /-- The next argument of a function, or the end of the arguments. -/
  | argumentEnd
  deriving DecidableEq

/-- How messages name what was expected. -/
def Expected.describe : Expected → String
  | join => "&& or ||"
  | groupEnd => "')'"
  | comparator => "comparison operator"
  | operand => "operand"
  | argumentEnd => "',' or ')'"

/-- Why a text is not a filter. -/
inductive ParseFault where
  /-- A quoted text has no closing quote. -/
  | unterminatedText
  /-- A number has a decimal point, but no digit behind it. -/
  | missingFraction
  /-- One `&` or `|` stands alone. -/
  | lonelyJoin (mark : Char)
  /-- A run of operator characters is no operator. -/
  | unknownComparator (symbol : String)
  /-- No lexeme starts with this character. -/
  | unexpectedCharacter (c : Char)
  /-- The filter cannot go on with this lexeme, or cannot end here. -/
  | unexpected (found : Option Lexeme) (expected : Expected)
  /-- A pair of parentheses is empty. -/
  | emptyGroup
  deriving DecidableEq

/-- The wording for a run of characters that is no comparison operator. -/
def unknownComparatorMessage (symbol : String) : String :=
  "unknown expression operator " ++ Text.quoted symbol

/-- The wording of a fault. -/
def ParseFault.message : ParseFault → String
  | unterminatedText => "unterminated text literal"
  | missingFraction => "invalid number, expected digits after '.'"
  | lonelyJoin mark => "unexpected character " ++ Text.quotedChar mark ++ ", expected && or ||"
  | unknownComparator symbol => unknownComparatorMessage symbol
  | unexpectedCharacter c => "unexpected character " ++ Text.quotedChar c
  | unexpected (some lexeme) expected =>
    "unexpected " ++ lexeme.describe ++ ", expected " ++ expected.describe
  | unexpected none expected => "unexpected end of expression, expected " ++ expected.describe
  | emptyGroup => "empty group"

/-- A fault and its place, in bytes of UTF-8. -/
structure ParseError where
  /-- What is wrong. -/
  fault : ParseFault
  /-- Where. -/
  position : Nat
  deriving DecidableEq

/-- The wording of a parse error. -/
def ParseError.message (e : ParseError) : String :=
  e.fault.message ++ " at position " ++ toString e.position

end PagedSearch
