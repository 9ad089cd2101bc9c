import PagedSearch.Field.Pattern.Matching
import PagedSearch.Number.Reading
import PagedSearch.Text.Hex

/-!
# Reading patterns

The notation of patterns: literal characters, `.`, classes in brackets, `\d`, `\w`, `\s`, `\p{…}`,
anchors, groups, `|`, the repetitions `?`, `*`, `+` and `{m,n}`, and the flags `i` (either case),
`m` (anchors hold at every line) and `s` (`.` matches a line break too).  A text that does not
follow the notation is no pattern.

Every reader takes the text from its place on, and returns what it has read with the rest.  `fuel`
bounds the number of items that are still read; as each takes at least one character, the length of
the text is enough.

## Main definitions

* `Pattern.State`, `Pattern.item?` — what is known at a place of a pattern, and one item further on.
* `Pattern.ofText?` — the pattern that a text denotes.
-/

namespace PagedSearch.Pattern

/-! ### Characters with a meaning -/

/-- The characters that a backslash always makes literal. -/
def isSpecial (c : Char) : Bool := "\\.+*?()|[]\x7b\x7d^$#&-~".toList.contains c

/-- The characters of ASCII that a backslash may precede to no effect. -/
def isPlainEscape (c : Char) : Bool :=
  c.toNat < 128 && !c.isAlphanum && c != '<' && c != '>'

/-- The character whose code has the given digits in base 16, of which there is at least one. -/
def hexChar? (digits : List Char) : Option Char := do
  if digits.isEmpty then none
  let code ← digits.foldlM (fun n c => do
    let digit ← Text.hexValue? c
    if n < 0x110000 then some (16 * n + digit) else some n) 0
  if code < 0xd800 ∨ (0xdfff < code ∧ code < 0x110000) then some (Char.ofNat code) else none

/-- What stands in front of a closing brace, and what behind it. -/
def braced? (text : List Char) : Option (List Char × List Char) :=
  match text.dropWhile (· ≠ '\x7d') with
  | _ :: rest => some (text.takeWhile (· ≠ '\x7d'), rest)
  | [] => none

/-- A character given by its code, `count` being the number of digits without braces. -/
def hexEscape? (count : Nat) (text : List Char) : Option (Char × List Char) :=
  match text with
  | '\x7b' :: rest => do
    let (digits, rest) ← braced? rest
    return (← hexChar? digits, rest)
  | _ =>
    if text.length < count then none
    else do return (← hexChar? (text.take count), text.drop count)

/-- A name of a character class, as `named?` takes it. -/
def plainName (name : List Char) : List Char :=
  let name := (name.filter fun c => c != ' ' && c != '_' && c != '-').map Char.toLower
  match name with
  | 'i' :: 's' :: rest => if rest.isEmpty then name else rest
  | _ => name

/-- A class of characters with its name up to a closing brace, and the rest. -/
def bracedClass? (text : List Char) : Option (CharSet × List Char) := do
  let (name, rest) ← braced? text
  return (← CharSet.named? (plainName name), rest)

/-- A named class of characters behind `\p`, and the rest. -/
def namedClass? (text : List Char) : Option (CharSet × List Char) :=
  match text with
  | '\x7b' :: '^' :: rest => (bracedClass? rest).map fun (set, rest) => (.complement set, rest)
  | '\x7b' :: rest => bracedClass? rest
  | c :: rest => (CharSet.named? [c.toLower]).map fun set => (set, rest)
  | [] => none

/-- What an escape stands for. -/
inductive Escape where
  /-- A character. -/
  | char (c : Char)
  /-- A class of characters. -/
  | set (set : CharSet)
  /-- An anchor. -/
  | anchor (anchor : Anchor)

/-- The anchor that starts with `\b`, and the rest. -/
def boundary (text : List Char) : Anchor × List Char :=
  match text with
  | '\x7b' :: rest =>
    match braced? rest with
    | some (name, rest) =>
      match String.ofList name with
      | "start" => (.wordStart, rest)
      | "end" => (.wordEnd, rest)
      | "start-half" => (.wordStartHalf, rest)
      | "end-half" => (.wordEndHalf, rest)
      | _ => (.wordBoundary, text)
    | none => (.wordBoundary, text)
  | _ => (.wordBoundary, text)

/-- The escape behind a backslash, and the rest. -/
def escape? (text : List Char) : Option (Escape × List Char) :=
  match text with
  | [] => none
  | c :: rest =>
    match c with
    | 'x' => (hexEscape? 2 rest).map fun (c, rest) => (.char c, rest)
    | 'u' => (hexEscape? 4 rest).map fun (c, rest) => (.char c, rest)
    | 'U' => (hexEscape? 8 rest).map fun (c, rest) => (.char c, rest)
    | 'p' => (namedClass? rest).map fun (set, rest) => (.set set, rest)
    | 'P' => (namedClass? rest).map fun (set, rest) => (.set (.complement set), rest)
    | 'd' => some (.set .digit, rest)
    | 'D' => some (.set (.complement .digit), rest)
    | 's' => some (.set .blank, rest)
    | 'S' => some (.set (.complement .blank), rest)
    | 'w' => some (.set .word, rest)
    | 'W' => some (.set (.complement .word), rest)
    | 'a' => some (.char '\x07', rest)
    | 'f' => some (.char '\x0c', rest)
    | 't' => some (.char '\t', rest)
    | 'n' => some (.char '\n', rest)
    | 'r' => some (.char '\r', rest)
    | 'v' => some (.char '\x0b', rest)
    | 'A' => some (.anchor .textStart, rest)
    | 'z' => some (.anchor .textEnd, rest)
    | 'b' => some (.anchor (boundary rest).1, (boundary rest).2)
    | 'B' => some (.anchor .noWordBoundary, rest)
    | '<' => some (.anchor .wordStart, rest)
    | '>' => some (.anchor .wordEnd, rest)
    | _ => if isSpecial c || isPlainEscape c then some (.char c, rest) else none

/-! ### Classes in brackets -/

/-- An operation on the sets in front of and behind it. -/
inductive SetOperation where
  /-- `&&` -/
  | intersection
  /-- `--` -/
  | difference
  /-- `~~` -/
  | symmetricDifference

/-- The result of an operation. -/
def SetOperation.apply (operation : SetOperation) (a b : CharSet) : CharSet :=
  match operation with
  | intersection => .intersection a b
  | difference => .difference a b
  | symmetricDifference => .symmetricDifference a b

/-- A class in brackets whose end has not been reached. -/
structure OpenClass where
  /-- Whether the class holds the characters that are not listed. -/
  negated : Bool
  /-- The set and the operation in front of the current list. -/
  pending : Option (CharSet × SetOperation)
  /-- The current list. -/
  items : List CharSet

/-- What the class holds so far, but for negation. -/
def OpenClass.listed (c : OpenClass) : CharSet :=
  let items := CharSet.unionAll c.items
  match c.pending with
  | some (set, operation) => operation.apply set items
  | none => items

/-- What the class holds, in either case if so wanted. -/
def OpenClass.close (caseless : Bool) (c : OpenClass) : CharSet :=
  let set := if caseless then .caseless c.listed else c.listed
  if c.negated then .complement set else set

/-- Whether a `^` stands in front of a class, and the rest. -/
def negation (text : List Char) : Bool × List Char :=
  match text with
  | '^' :: rest => (true, rest)
  | _ => (false, text)

/-- The class behind an opening bracket, and the rest: dashes there are literal, and so is a closing
bracket in front of everything else. -/
def openClass (text : List Char) : OpenClass × List Char :=
  let (negated, text) := negation text
  let dashes := text.takeWhile (· == '-')
  let items := dashes.map CharSet.single
  match text.drop dashes.length, items with
  | ']' :: rest, [] => ({ negated, pending := none, items := [.single ']'] }, rest)
  | rest, _ => ({ negated, pending := none, items }, rest)

/-- A class of ASCII characters, behind `[:`. -/
def asciiClass? (text : List Char) : Option (CharSet × List Char) :=
  let (negated, text) := negation text
  let name := text.takeWhile (· ≠ ':')
  match text.drop name.length with
  | ':' :: ']' :: rest => do
    let set ← CharSet.ascii? name
    return (if negated then .complement set else set, rest)
  | _ => none

/-- One end of a range, or a class of characters. -/
def classAtom? (text : List Char) : Option (Escape × List Char) :=
  match text with
  | [] => none
  | '\\' :: rest => escape? rest
  | c :: rest => some (.char c, rest)

/-- Whether a range goes on behind its first character: a dash in front of a closing bracket or of
another dash means itself or an operation. -/
def startsRange (rest : List Char) : Bool :=
  match rest with
  | '-' :: next :: _ => next != ']' && next != '-'
  | _ => false

/-- A character, a range or a class of characters within brackets, and the rest. -/
def classItem? (text : List Char) : Option (CharSet × List Char) := do
  let (first, rest) ← classAtom? text
  match first with
  | .char first =>
    if startsRange rest then
      match ← classAtom? (rest.drop 1) with
      | (.char last, rest) =>
        if first ≤ last then some (.range first.toNat last.toNat, rest) else none
      | _ => none
    else some (.single first, rest)
  | .set set => if startsRange rest then none else some (set, rest)
  | .anchor _ => none

/-- A class of ASCII characters behind an opening bracket within brackets, and the rest. -/
def innerAscii? (text : List Char) : Option (CharSet × List Char) :=
  match text with
  | ':' :: rest => asciiClass? rest
  | _ => none

/-- The operation that a character written twice stands for. -/
def SetOperation.ofMark? (mark : Char) : Option SetOperation :=
  match mark with
  | '&' => some .intersection
  | '-' => some .difference
  | '~' => some .symmetricDifference
  | _ => none

/-- An operation on sets, and the rest. -/
def operation? (text : List Char) : Option (SetOperation × List Char) :=
  match text with
  | mark :: again :: rest =>
    if mark = again then (SetOperation.ofMark? mark).map fun operation => (operation, rest)
    else none
  | _ => none

/-- One more set in the current list. -/
def OpenClass.add (c : OpenClass) (set : CharSet) : OpenClass := { c with items := set :: c.items }

/-- A new list behind an operation. -/
def OpenClass.operate (c : OpenClass) (operation : SetOperation) : OpenClass :=
  { c with pending := some (c.listed, operation), items := [] }

/-- The set in brackets whose innermost open class is `current` and whose other open classes are
`outer`, and the rest. -/
def class? (caseless : Bool) : Nat → OpenClass → List OpenClass → List Char →
    Option (CharSet × List Char)
  | 0, _, _, _ => none
  | fuel + 1, current, outer, text =>
    match text with
    | [] => none
    | '[' :: rest =>
      match innerAscii? rest with
      | some (set, rest) => class? caseless fuel (current.add set) outer rest
      | none =>
        let (inner, rest) := openClass rest
        class? caseless fuel inner (current :: outer) rest
    | ']' :: rest =>
      let set := current.close caseless
      match outer with
      | [] => some (set, rest)
      | around :: outer => class? caseless fuel (around.add set) outer rest
    | first :: rest =>
      match operation? (first :: rest) with
      | some (operation, rest) => class? caseless fuel (current.operate operation) outer rest
      | none => do
        let (set, rest) ← classItem? (first :: rest)
        class? caseless fuel (current.add set) outer rest

/-- The set behind an opening bracket, and the rest. -/
def bracketed? (caseless : Bool) (text : List Char) : Option (CharSet × List Char) :=
  let (inner, rest) := openClass text
  class? caseless (rest.length + 1) inner [] rest

/-! ### Repetitions -/

/-- A natural number below 2³² with white space around it, if there is one, and the rest. -/
def count? (text : List Char) : Option Nat × List Char :=
  let text := text.dropWhile Text.isBlank
  let digits := text.takeWhile Char.isDigit
  let number := digitsValue digits
  let rest := (text.drop digits.length).dropWhile Text.isBlank
  (if digits.isEmpty || Nat.pow 2 32 ≤ number then none else some number, rest)

/-- The end of bounds behind the comma, if there is a greatest number or none, and the rest. -/
def upperBound? (least : Nat) (text : List Char) : Option ((Nat × Option Nat) × List Char) :=
  match text with
  | '\x7d' :: rest => some ((least, none), rest)
  | _ =>
    match count? text with
    | (some most, '\x7d' :: rest) =>
      if least ≤ most then some ((least, some most), rest) else none
    | _ => none

/-- The bounds of a repetition behind an opening brace, and the rest. -/
def bounds? (text : List Char) : Option ((Nat × Option Nat) × List Char) :=
  match count? text with
  | (some least, ',' :: rest) => upperBound? least rest
  | (some times, '\x7d' :: rest) => some ((times, some times), rest)
  | _ => none

/-- How often the item in front of a repetition that starts with `first` is repeated, and the
rest. -/
def repetition? (first : Char) (rest : List Char) :
    Option ((Nat × Option Nat) × List Char) :=
  match first with
  | '?' => some ((0, some 1), rest)
  | '*' => some ((0, none), rest)
  | '+' => some ((1, none), rest)
  | '\x7b' => bounds? rest
  | _ => none

/-- The rest behind the mark of a repetition that would rather be short. -/
def afterLazyMark (text : List Char) : List Char :=
  match text with
  | '?' :: rest => rest
  | _ => text

/-! ### Groups -/

/-- The flags that hold at a place. -/
structure Flags where
  /-- Whether letters match both cases. -/
  caseless : Bool
  /-- Whether `^` and `$` hold at every line. -/
  lines : Bool
  /-- Whether `.` matches a line break. -/
  dotAll : Bool

/-- The flags at the start of a pattern. -/
def Flags.initial : Flags := { caseless := false, lines := false, dotAll := false }

/-- One flag switched.  The flags for short repetitions and for Unicode change no match here. -/
def Flags.switch? (flags : Flags) (flag : Char) (on : Bool) : Option Flags :=
  match flag with
  | 'i' => some { flags with caseless := on }
  | 'm' => some { flags with lines := on }
  | 's' => some { flags with dotAll := on }
  | 'U' => some flags
  | 'u' => if on then some flags else none
  | _ => none

/-- Flags up to a `)` or `:`, each at most once, and a `-` in front of those that are switched off,
and the rest. -/
def flags? (seen : List Char) (flags : Flags) : List Char → Option (Flags × List Char)
  | [] => none
  | c :: rest =>
    if c = ')' || c = ':' then
      if seen.head? = some '-' then none else some (flags, c :: rest)
    else if seen.contains c then none
    else if c = '-' then flags? (c :: seen) flags rest
    else
      match flags.switch? c (!seen.contains '-') with
      | some flags => flags? (c :: seen) flags rest
      | none => none

/-- The name of a group up to its `>`, and the rest. -/
def groupName? (text : List Char) : Option (List Char × List Char) :=
  let name := text.takeWhile (· ≠ '>')
  let isStart (c : Char) : Bool := Text.isAlphabetic c || c == '_'
  let isPart (c : Char) : Bool := Text.isAlphanumeric c || ['_', '.', '[', ']'].contains c
  match text.drop name.length with
  | _ :: rest =>
    if (name.head?.any isStart) && (name.drop 1).all isPart then some (name, rest) else none
  | [] => none

/-- A pattern or a part of it that is being read. -/
structure OpenGroup where
  /-- The flags behind the group. -/
  outerFlags : Flags
  /-- The alternatives in front of the current one, the newest first. -/
  alternatives : List Pattern
  /-- The items of the current alternative, the newest first; flags have no pattern. -/
  items : List (Option Pattern)

/-- A group of which nothing has been read. -/
def OpenGroup.start (outerFlags : Flags) : OpenGroup :=
  { outerFlags, alternatives := [], items := [] }

/-- The current alternative. -/
def OpenGroup.alternative (group : OpenGroup) : Pattern :=
  sequenceAll (group.items.reverse.filterMap id)

/-- The alternatives that have been read of a group. -/
def OpenGroup.members (group : OpenGroup) : List Pattern :=
  (group.alternative :: group.alternatives).reverse

/-- What has been read of a group. -/
def OpenGroup.pattern (group : OpenGroup) : Pattern := choiceAll group.members

/-- One more item of the current alternative. -/
def OpenGroup.add (group : OpenGroup) (pattern : Pattern) : OpenGroup :=
  { group with items := some pattern :: group.items }

/-- The last item repeated, if there is one that can be. -/
def OpenGroup.repeatLast? (group : OpenGroup) (least : Nat) (most : Option Nat) :
    Option OpenGroup :=
  match group.items with
  | some pattern :: items =>
    some { group with items := some (.repeated pattern least most) :: items }
  | _ => none

/-- What opens with a parenthesis. -/
inductive Opening where
  /-- A group, with the flags that hold in it and the name that it has. -/
  | group (flags : Flags) (name : Option (List Char))
  /-- Flags for what follows in the same group. -/
  | flags (flags : Flags)

/-- A group with a name, and the rest. -/
def namedGroup? (flags : Flags) (text : List Char) : Option (Opening × List Char) :=
  (groupName? text).map fun (name, rest) => (.group flags (some name), rest)

/-- A group with flags, or flags alone, of which there is at least one, and the rest. -/
def flagGroup? (flags : Flags) (text : List Char) : Option (Opening × List Char) := do
  let (inner, rest) ← flags? [] flags text
  match rest with
  | mark :: rest =>
    if mark = ':' then some (.group inner none, rest)
    else if text.head? = some ')' then none
    else some (.flags inner, rest)
  | [] => none

/-- What opens behind a parenthesis, and the rest.  A group cannot look ahead or behind: `=`, `!`
and `<` are neither flags nor do names start with them. -/
def opening? (flags : Flags) (text : List Char) : Option (Opening × List Char) :=
  match text with
  | '?' :: 'P' :: '<' :: rest => namedGroup? flags rest
  | '?' :: '<' :: rest => namedGroup? flags rest
  | '?' :: rest => flagGroup? flags rest
  | _ => some (.group flags none, text)

/-! ### Items -/

/-- A set of characters, in either case if so wanted. -/
def literalSet (flags : Flags) (c : Char) : CharSet :=
  if flags.caseless then .caseless (.single c) else .single c

/-- What an escape matches. -/
def Escape.pattern (flags : Flags) : Escape → Pattern
  | .char c => .one (literalSet flags c)
  | .set chars => .one chars
  | .anchor condition => .anchor condition

/-- The pattern of an item that starts with `first` and is no group, and the rest. -/
def atom? (flags : Flags) (first : Char) (rest : List Char) : Option (Pattern × List Char) :=
  match first with
  | '[' => (bracketed? flags.caseless rest).map fun (set, rest) => (.one set, rest)
  | '\\' => (escape? rest).map fun (escape, rest) => (escape.pattern flags, rest)
  | '.' => some (.one (if flags.dotAll then .full else .complement (.single '\n')), rest)
  | '^' => some (.anchor (if flags.lines then .lineStart else .textStart), rest)
  | '$' => some (.anchor (if flags.lines then .lineEnd else .textEnd), rest)
  | _ => some (.one (literalSet flags first), rest)

/-- What is known at a place of a pattern. -/
structure State where
  /-- The flags that hold. -/
  flags : Flags
  /-- The innermost open group. -/
  current : OpenGroup
  /-- The open groups around it, the innermost first. -/
  outer : List OpenGroup
  /-- The names of groups so far. -/
  names : List (List Char)

namespace State

/-- What is known at the start of a pattern. -/
def initial : State :=
  { flags := .initial, current := .start .initial, outer := [], names := [] }

/-- One more item. -/
def add (state : State) (pattern : Pattern) : State :=
  { state with current := state.current.add pattern }

/-- The last item repeated, if there is one that can be. -/
def repeatLast? (state : State) (least : Nat) (most : Option Nat) : Option State :=
  (state.current.repeatLast? least most).map fun current => { state with current }

/-- One more alternative. -/
def nextAlternative (state : State) : State :=
  { state with
    current :=
      { state.current with
        alternatives := state.current.alternative :: state.current.alternatives
        items := [] } }

/-- A group opened or flags switched, unless the name of the group is taken. -/
def opened? (state : State) : Opening → Option State
  | .group flags name =>
    if name.any state.names.contains then none
    else some {
      flags
      current := .start state.flags
      outer := state.current :: state.outer
      names := name.toList ++ state.names }
  | .flags flags =>
    some { state with
      flags
      current := { state.current with items := none :: state.current.items } }

/-- The innermost group closed, if there is one around it. -/
def closed? (state : State) : Option State :=
  match state.outer with
  | around :: outer =>
    some { state with
      flags := state.current.outerFlags
      current := around.add state.current.pattern
      outer }
  | [] => none

end State

/-- What is known behind the item that starts with `first`, and the rest. -/
def item? (state : State) (first : Char) (rest : List Char) : Option (State × List Char) :=
  match first with
  | '(' => do
    let (opening, rest) ← opening? state.flags rest
    return (← state.opened? opening, rest)
  | ')' => do return (← state.closed?, rest)
  | '|' => some (state.nextAlternative, rest)
  | '?' | '*' | '+' | '\x7b' => do
    let ((least, most), rest) ← repetition? first rest
    return (← state.repeatLast? least most, afterLazyMark rest)
  | _ => do
    let (pattern, rest) ← atom? state.flags first rest
    return (state.add pattern, rest)

/-- What is known at the end of a text. -/
def items? : Nat → State → List Char → Option State
  | _, state, [] => some state
  | 0, _, _ :: _ => none
  | fuel + 1, state, first :: rest => do
    let (state, rest) ← item? state first rest
    items? fuel state rest

/-- What is known at the end of a pattern, in which all groups are closed. -/
def read? (text : List Char) : Option State :=
  (items? text.length .initial text).filter (·.outer.isEmpty)

/-- The pattern that a text denotes, if it follows the notation. -/
def ofText? (text : String) : Option Pattern :=
  (read? text.toList).map (·.current.pattern)

end PagedSearch.Pattern
