import PagedSearch.Filter.Lexing

/-!
# From lexemes to the tree

The grammar of filters, with `groups` as its start symbol:

* `groups = item { join item }`
* `item = "(" groups ")" | operand comparator operand`
* `operand = identifier | text | number | callStart [ operand { "," operand } ] ")"`

The parser takes one lexeme after the other.  Its state is what has been read so far and is still
open: the lists of groups around the current place, the comparison, and the calls whose arguments
are being read.  A lexeme that no filter could have in this place is refused as soon as it is seen.

## Main definitions

* `State`, `State.step`, `State.finish` — the parser.
* `parse` — the tree of a filter, or the first fault in it.
-/

namespace PagedSearch.Parsing

/-- Which side of a comparison an operand is read for. -/
inductive Slot where
  /-- The left side. -/
  | left
  /-- The right side, the left operand and the operator being known. -/
  | right (left : Operand) (comparator : Comparator)
  deriving DecidableEq

/-- A function whose arguments are being read. -/
structure OpenCall where
  /-- The name of the function. -/
  name : String
  /-- The arguments so far, the newest first. -/
  arguments : List Operand
  deriving DecidableEq

/-- A list of groups that is being read. -/
structure OpenList where
  /-- The groups so far, the newest first. -/
  groups : List Group
  /-- The join of the next group. -/
  join : Join
  deriving DecidableEq

/-- What may come next. -/
inductive Place where
  /-- A comparison or a parenthesised group. -/
  | item
  /-- An operand: an argument of the first of `calls`, or else a side of the comparison. -/
  | operand (slot : Slot) (calls : List OpenCall)
  /-- A comma or the end of the arguments of `call`, which is an argument of the first of `calls`
  or else a side of the comparison. -/
  | argumentEnd (slot : Slot) (call : OpenCall) (calls : List OpenCall)
  /-- The operator behind a left operand. -/
  | comparator (left : Operand)
  /-- A join, the end of the parenthesised group, or the end of the filter. -/
  | itemEnd
  deriving DecidableEq

/-- What has been read of a filter. -/
structure State where
  /-- What may come next. -/
  place : Place
  /-- The innermost list of groups that is open. -/
  inner : OpenList
  /-- The lists around it, the innermost first, each with the place of the parenthesis that opened
  the list inside it. -/
  outer : List (OpenList × Nat)
  deriving DecidableEq

namespace State

/-- Nothing has been read. -/
def start : State :=
  { place := .item, inner := { groups := [], join := .and }, outer := [] }

/-- A comparison or a parenthesised list is complete. -/
def addGroup (state : State) (group : Join → Group) : State :=
  { state with
    place := .itemEnd
    inner := { state.inner with groups := group state.inner.join :: state.inner.groups } }

/-- An operand is complete: an argument of the first of `calls`, or else a side of the
comparison. -/
def addOperand (state : State) (slot : Slot) (calls : List OpenCall) (operand : Operand) : State :=
  match calls, slot with
  | call :: calls, _ =>
    { state with
      place := .argumentEnd slot { call with arguments := operand :: call.arguments } calls }
  | [], .left => { state with place := .comparator operand }
  | [], .right left comparator =>
    state.addGroup (.comparison · { left, comparator, right := operand })

/-- The state after a lexeme where an operand is due.  A call may end before its first argument. -/
def operandStep (state : State) (slot : Slot) (calls : List OpenCall) (found : Located) :
    Except ParseError State :=
  match found.lexeme, calls with
  | .identifier name, _ => .ok (state.addOperand slot calls (.identifier name))
  | .text content, _ => .ok (state.addOperand slot calls (.text content))
  | .number value, _ => .ok (state.addOperand slot calls (.number value))
  | .callStart name, _ =>
    .ok { state with place := .operand slot ({ name, arguments := [] } :: calls) }
  | .closeParen, { name, arguments := [] } :: calls =>
    .ok (state.addOperand slot calls (.call name []))
  | lexeme, _ => .error ⟨.unexpected (some lexeme) .operand, found.position⟩

/-- The state after a lexeme where a comparison or a parenthesised group is due. -/
def itemStep (state : State) (found : Located) : Except ParseError State :=
  match found.lexeme, state.inner.groups, state.outer with
  | .openParen, _, _ =>
    .ok { start with outer := (state.inner, found.position) :: state.outer }
  | .closeParen, [], (_, opened) :: _ => .error ⟨.emptyGroup, opened⟩
  | _, _, _ => state.operandStep .left [] found

/-- The state after a lexeme where a comparison or a parenthesised group is complete. -/
def itemEndStep (state : State) (found : Located) : Except ParseError State :=
  match found.lexeme, state.outer with
  | .join join, _ => .ok { state with place := .item, inner := { state.inner with join } }
  | .closeParen, (inner, _) :: outer =>
    .ok (State.addGroup { state with inner, outer } (.nested · state.inner.groups.reverse))
  | lexeme, [] => .error ⟨.unexpected (some lexeme) .join, found.position⟩
  | lexeme, _ :: _ => .error ⟨.unexpected (some lexeme) .groupEnd, found.position⟩

/-- The state after one more lexeme, or the fault that it is. -/
def step (state : State) (found : Located) : Except ParseError State :=
  match state.place with
  | .item => state.itemStep found
  | .operand slot calls => state.operandStep slot calls found
  | .argumentEnd slot call calls =>
    match found.lexeme with
    | .comma => .ok { state with place := .operand slot (call :: calls) }
    | .closeParen => .ok (state.addOperand slot calls (.call call.name call.arguments.reverse))
    | lexeme => .error ⟨.unexpected (some lexeme) .argumentEnd, found.position⟩
  | .comparator left =>
    match found.lexeme with
    | .comparator comparator =>
      .ok { state with place := .operand (.right left comparator) [] }
    | lexeme => .error ⟨.unexpected (some lexeme) .comparator, found.position⟩
  | .itemEnd => state.itemEndStep found

/-- The tree of a filter that ends here, or the fault that it ends too early.  A filter without
lexemes has the empty tree. -/
def finish (state : State) (position : Nat) : Except ParseError (List Group) :=
  let early (expected : Expected) : Except ParseError (List Group) :=
    .error ⟨.unexpected none expected, position⟩
  match state.place, state.inner.groups, state.outer with
  | .item, [], [] => .ok []
  | .item, _, _ => early .operand
  | .operand _ _, _, _ => early .operand
  | .argumentEnd _ _ _, _, _ => early .argumentEnd
  | .comparator _, _, _ => early .comparator
  | .itemEnd, groups, [] => .ok groups.reverse
  | .itemEnd, _, _ :: _ => early .groupEnd

end State

/-- The tree that a list of lexemes makes, `ending` being the place where the text ends or a fault
behind the last of them. -/
def parseLexemes (lexemes : List Located) (ending : Except ParseError Nat) :
    Except ParseError (List Group) := do
  let state ← lexemes.foldlM State.step .start
  state.finish (← ending)

end PagedSearch.Parsing

namespace PagedSearch

/-- The tree of a filter, or the first fault in it. -/
def parse (filter : String) : Except ParseError (List Group) :=
  let (lexemes, ending) := Lexing.lex filter
  Parsing.parseLexemes lexemes ending

end PagedSearch
