import PagedSearch.Sql.Marker
import PagedSearch.Number.Reading
import PagedSearch.Number.Shortest

/-!
# Templates

A fragment is printed through a template: a text in which marks stand for the arguments, which are
listed beside it.  The mark is the one that the database uses for values; where it is meant as
itself, it is doubled.

The printer of templates reads the text once more, token by token, and copies the tokens.  So the
template is written in such a way that the tokens around a mark cannot swallow it: a space comes
between a word and a mark, and a mark in a quoted text is left alone, where it means nothing.

## Main definitions

* `Template`, `Template.ofText` — the template of a fragment's text.
* `Token`, `tokens` — the text of a template as its printer reads it.
* `Chunk`, `Template.chunks` — the printed template, the values still in their places.
-/

namespace PagedSearch

/-- A text with marks, and the arguments that the marks stand for. -/
structure Template where
  /-- The text. -/
  text : List Char
  /-- The arguments. -/
  arguments : List Argument
  deriving DecidableEq

/-! ### Writing a template -/

namespace Template

/-- The characters that a word in a template can end with. -/
def isWordEnd (c : Char) : Bool := Text.isAlphanumeric c || c == '_' || c == '$'

/-- The mark for the argument with the given number, behind the character `last`. -/
def markText (backend : Backend) (last : Option Char) (number : Nat) : List Char :=
  (if last.any fun c => isWordEnd c || c == '?' then [' '] else []) ++
    backend.mark :: (if backend.isNumbered then decimalDigits number else [])

/-- A character that means itself, behind the character `last`.  A mark is doubled, but for a `$`
inside a word. -/
def charText (backend : Backend) (last : Option Char) (c : Char) : List Char :=
  if c = backend.mark && !(c == '$' && last.any isWordEnd) then [c, c] else [c]

/-- The template of some pieces, behind the character `last` and `count` arguments. -/
def ofItemsFrom (backend : Backend) : Option Char → Nat → List Item → Template
  | _, _, [] => { text := [], arguments := [] }
  | last, count, .literal text :: items =>
    let rest := ofItemsFrom backend (text.getLast?.or last) count items
    { rest with text := text ++ rest.text }
  | last, count, .char c :: items =>
    let rest := ofItemsFrom backend (some c) count items
    { rest with text := charText backend last c ++ rest.text }
  | last, count, .argument argument :: items =>
    let text := markText backend last (count + 1)
    let rest := ofItemsFrom backend text.getLast? (count + 1) items
    { text := text ++ rest.text, arguments := argument :: rest.arguments }

/-- The template of the given pieces. -/
def ofItems (backend : Backend) (items : List Item) : Template :=
  ofItemsFrom backend none 0 items

/-- The template of a fragment's text, unless a value is missing. -/
def ofText (backend : Backend) (text : String) (params : Params) : Except SearchError Template :=
  return ofItems backend (← (markers text.toList).mapM (Marker.bind params))

end Template

/-! ### Reading a template -/

/-- The kinds of tokens in a template. -/
inductive Token where
  /-- White space. -/
  | space
  /-- A word or a number. -/
  | word
  /-- A text in quotes or brackets. -/
  | quoted
  /-- A single character. -/
  | punctuation
  deriving DecidableEq

namespace Token

/-- The white space between tokens. -/
def isSpace (c : Char) : Bool := c == ' ' || c == '\t' || c == '\r' || c == '\n'

/-- The characters that a word starts with. -/
def isWordStart (c : Char) : Bool := Text.isAlphabetic c || c.isDigit

/-- The characters that a word goes on with. -/
def isWordPart (c : Char) : Bool := isWordStart c || c == '_' || c == '$'

/-- The character that ends a quoted text, given the one that starts it. -/
def closing? : Char → Option Char
  | '\x60' => some '\x60'
  | '[' => some ']'
  | '\'' => some '\''
  | '"' => some '"'
  | _ => none

/-- How many of the characters behind the start of a quoted text belong to it.  An end directly
behind a backslash, and an end that a second one follows, do not end it, but `]` cannot be
doubled. -/
def quotedLength (close : Char) : Bool → List Char → Nat
  | _, [] => 0
  | escaped, c :: rest =>
    if c = close && !escaped then
      match rest with
      | next :: more =>
        if next = close && close ≠ ']' then quotedLength close false more + 2 else 1
      | [] => 1
    else quotedLength close (!escaped && c == '\\') rest + 1

/-- The token that starts with `first`, and how many characters of `rest` are in it. -/
def read (first : Char) (rest : List Char) : Token × Nat :=
  if isSpace first then (.space, (rest.takeWhile isSpace).length)
  else if isWordStart first then (.word, (rest.takeWhile isWordPart).length)
  else
    match closing? first with
    | some close => (.quoted, quotedLength close false rest)
    | none => (.punctuation, 0)

end Token

/-- The tokens of a template's text. -/
def tokens (text : List Char) : List (Token × List Char) := Text.cut Token.read text

/-! ### Printing a template -/

/-- A part of a statement: text, or the place of a value. -/
inductive Chunk where
  /-- Text. -/
  | text (text : List Char)
  /-- The place of a value. -/
  | value (value : Value)
  deriving DecidableEq

/-- What the printer does with the tokens of a template. -/
inductive Instruction where
  /-- To copy a text. -/
  | copy (text : List Char)
  /-- To print the argument that follows the one printed last in this way. -/
  | next
  /-- To print the argument with a number, counted from one. -/
  | numbered (number : Nat)
  deriving DecidableEq

/-- Whether a token is the mark. -/
def isMark (backend : Backend) (token : Token × List Char) : Bool :=
  token.1 == .punctuation && token.2 == [backend.mark]

/-- The number that a word is, below 2⁶⁴. -/
def wordNumber? (word : List Char) : Option Nat :=
  if word.all Char.isDigit then
    some (digitsValue word) |>.filter (· < Nat.pow 2 64)
  else none

/-- What the printer does with the tokens of a template, `marked` saying whether a mark precedes
them that nothing has been printed for.  Of two marks one is copied.  Where marks are numbered, the
word behind a mark is its number; a word that is none is dropped with the mark. -/
def instructionsFrom (backend : Backend) : Bool → List (Token × List Char) → List Instruction
  | false, [] => []
  | true, [] => [.next]
  | false, token :: rest =>
    if isMark backend token then instructionsFrom backend true rest
    else .copy token.2 :: instructionsFrom backend false rest
  | true, token :: rest =>
    if isMark backend token then .copy token.2 :: instructionsFrom backend false rest
    else if backend.isNumbered && token.1 == .word then
      match wordNumber? token.2 with
      | some number => .numbered number :: instructionsFrom backend false rest
      | none => instructionsFrom backend false rest
    else .next :: .copy token.2 :: instructionsFrom backend false rest

/-- What the printer does with the tokens of a template. -/
def instructions (backend : Backend) (tokens : List (Token × List Char)) : List Instruction :=
  instructionsFrom backend false tokens

/-- A name in the quotes of a database, in which the quote is doubled. -/
def quoteIdentifier (backend : Backend) (name : List Char) : List Char :=
  backend.quote ::
    name.flatMap (fun c => if c = backend.quote then [c, c] else [c]) ++ [backend.quote]

/-- A column in the quotes of a database. -/
def Column.quote (backend : Backend) : Column → List Char
  | wildcard none => ['*']
  | wildcard (some table) => quoteIdentifier backend table ++ ['.', '*']
  | named path => ['.'].intercalate (path.map (quoteIdentifier backend))

/-- An argument as part of a statement. -/
def Argument.chunk (backend : Backend) : Argument → Chunk
  | .column name => .text (name.quote backend)
  | .value bound => .value bound
  | .verbatim text => .text text

namespace Template

/-- What the instructions print, `next` being the place of the next argument in order. -/
def follow (backend : Backend) (arguments : List Argument) :
    Nat → List Instruction → Except SearchError (List Chunk)
  | _, [] => .ok []
  | next, .copy text :: rest => return .text text :: (← follow backend arguments next rest)
  | next, .next :: rest =>
    match arguments[next]? with
    | some argument =>
      return argument.chunk backend :: (← follow backend arguments (next + 1) rest)
    | none => .error .missingArgument
  | next, .numbered number :: rest =>
    match number, arguments[number - 1]? with
    | _ + 1, some argument =>
      return argument.chunk backend :: (← follow backend arguments next rest)
    | _, _ => .error .missingArgument

/-- The printed template. -/
def chunks (backend : Backend) (template : Template) : Except SearchError (List Chunk) :=
  follow backend template.arguments 0 (instructions backend (tokens template.text))

end Template

/-- A fragment's text, printed. -/
def printText (backend : Backend) (text : String) (params : Params) :
    Except SearchError (List Chunk) := do
  (← Template.ofText backend text params).chunks backend

end PagedSearch
