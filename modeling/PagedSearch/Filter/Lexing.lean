import PagedSearch.Filter.Lexeme
import PagedSearch.Number.Reading
import PagedSearch.Text.Cut

/-!
# From text to lexemes

A filter is cut into white space, comments and lexemes, each as long as it can be.  What cannot be
cut further is a fault, and takes the rest of the text with it.

## Main definitions

* `readPiece` — the piece that starts with a given character.
* `lex` — the lexemes of a text, up to its end or to the first fault.
-/

namespace PagedSearch.Lexing

/-- What a piece of a filter is. -/
inductive Piece where
  /-- White space or a comment. -/
  | blank
  /-- A lexeme. -/
  | lexeme (lexeme : Lexeme)
  /-- A fault, so many bytes after the start of the piece. -/
  | fault (fault : ParseFault) (offset : Nat)
  deriving DecidableEq

/-- The characters that a name can start with. -/
def isIdentifierStart (c : Char) : Bool :=
  Text.isAlphabetic c || c == '_' || c == '@' || c == '#'

/-- The characters that a name can go on with. -/
def isIdentifierPart (c : Char) : Bool :=
  Text.isAlphanumeric c || c == '_' || c == '@' || c == '#' || c == '.' || c == ':'

/-- The characters that operators are made of. -/
def isComparatorPart (c : Char) : Bool :=
  c == '=' || c == '!' || c == '<' || c == '>' || c == '~' || c == '?'

/-- The content of a quoted text and the number of characters up to and with its closing quote.
A backslash makes the quote or backslash behind it part of the text, and is plain elsewhere. -/
def readText (quote : Char) : List Char → Option (List Char × Nat)
  | [] => none
  | '\\' :: c :: rest =>
    if c = quote || c = '\\' then
      (readText quote rest).map fun (content, count) => (c :: content, count + 2)
    else (readText quote (c :: rest)).map fun (content, count) => ('\\' :: content, count + 1)
  | c :: rest =>
    if c = quote then some ([], 1)
    else (readText quote rest).map fun (content, count) => (c :: content, count + 1)

/-- The piece made of a number, `text` being the text behind its sign. -/
def readNumber (negative : Bool) (text : List Char) : Piece × Nat :=
  let whole := text.takeWhile Char.isDigit
  let length := whole.length + (if negative then 1 else 0)
  match text.drop whole.length with
  | '.' :: rest =>
    let fraction := rest.takeWhile Char.isDigit
    if fraction.isEmpty then (.fault .missingFraction (length + 1), text.length)
    else
      let value := Double.ofDecimal negative (digitsValue (whole ++ fraction)) (-fraction.length)
      (.lexeme (.number value), length + fraction.length)
  | _ => (.lexeme (.number (Double.ofDecimal negative (digitsValue whole) 0)), length - 1)

/-- The piece of a filter that starts with `first`, and how many characters of `rest` are in it. -/
def readPiece (first : Char) (rest : List Char) : Piece × Nat :=
  if Text.isBlank first then (.blank, 0)
  else if first = '/' && rest.head? = some '/' then
    (.blank, (rest.takeWhile (· != '\n')).length + 1)
  else if first = '(' then (.lexeme .openParen, 0)
  else if first = ')' then (.lexeme .closeParen, 0)
  else if first = ',' then (.lexeme .comma, 0)
  else if first = '\'' || first = '"' then
    match readText first rest with
    | some (content, count) => (.lexeme (.text (String.ofList content)), count)
    | none => (.fault .unterminatedText 0, rest.length)
  else if first = '&' || first = '|' then
    if rest.head? = some first then (.lexeme (.join (if first = '&' then .and else .or)), 1)
    else (.fault (.lonelyJoin first) 0, rest.length)
  else if isComparatorPart first then
    let more := rest.takeWhile isComparatorPart
    let symbol := String.ofList (first :: more)
    match Comparator.ofSymbol? symbol with
    | some comparator => (.lexeme (.comparator comparator), more.length)
    | none => (.fault (.unknownComparator symbol) 0, rest.length)
  else if first.isDigit then readNumber false (first :: rest)
  else if first = '-' && rest.head?.any Char.isDigit then readNumber true rest
  else if isIdentifierStart first then
    let more := rest.takeWhile isIdentifierPart
    let name := String.ofList (first :: more)
    if (rest.drop more.length).head? = some '(' then (.lexeme (.callStart name), more.length + 1)
    else (.lexeme (.identifier name), more.length)
  else (.fault (.unexpectedCharacter first) 0, rest.length)

/-- The number of bytes of a text in UTF-8. -/
def byteLength (text : List Char) : Nat :=
  (text.map Char.utf8Size).foldr (· + ·) 0

/-- The lexemes among pieces of which the first starts at `position`, up to the first fault, and
then that fault or the place where the last piece ends. -/
def collect (position : Nat) :
    List (Piece × List Char) → List Located × Except ParseError Nat
  | [] => ([], .ok position)
  | (.blank, text) :: rest => collect (position + byteLength text) rest
  | (.lexeme lexeme, text) :: rest =>
    let (lexemes, ending) := collect (position + byteLength text) rest
    ({ lexeme, position } :: lexemes, ending)
  | (.fault fault offset, _) :: _ => ([], .error { fault, position := position + offset })

/-- The lexemes of a text with their places, up to the first fault; then that fault, or the length
of the text. -/
def lex (text : String) : List Located × Except ParseError Nat :=
  collect 0 (Text.cut readPiece text.toList)

end PagedSearch.Lexing
