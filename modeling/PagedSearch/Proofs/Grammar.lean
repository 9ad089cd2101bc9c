import PagedSearch.Filter.Parsing

/-!
# The grammar of filters

The parser accepts the lists of lexemes that the grammar derives, and no others, and returns the
tree of the derivation.  The grammar is

* `groups = item { join item }`
* `item = "(" groups ")" / operand comparator operand`
* `operand = identifier / text / number / callStart [ operands ] ")"`
* `operands = operand { "," operand }`

and says what tree a derivation stands for: the first group of a list carries `and`, and every other
group carries the join in front of it.

One direction follows the derivation: reading the lexemes of an operand, or of an item, brings the
parser from the place where it is due to the place behind it.  The other direction follows the
parser: `State.Reads` says which lexemes lead to a state, and every step keeps it.

## Main definitions

* `IsOperand`, `IsOperands`, `IsItem`, `IsGroups` — the grammar.
* `State.Reads` — the lexemes that a state of the parser has behind it.

## Main results

* `IsGroups.read` — what the grammar derives is accepted, with the tree of the derivation.
* `State.Reads.step` — the invariant of the parser.
* `parseLexemes_eq_ok_iff` — what the parser accepts.
-/

namespace PagedSearch.Parsing

/-! ### The grammar -/

mutual

/-- `operand = identifier / text / number / callStart [ operands ] ")"` -/
inductive IsOperand : List Lexeme → Operand → Prop where
  /-- The name of a field, of a time, or of a constant. -/
  | identifier (name : String) : IsOperand [.identifier name] (.identifier name)
  /-- A quoted text. -/
  | text (content : String) : IsOperand [.text content] (.text content)
  /-- A number. -/
  | number (value : Double) : IsOperand [.number value] (.number value)
  /-- A function without arguments. -/
  | callEmpty (name : String) : IsOperand [.callStart name, .closeParen] (.call name [])
  /-- A function with arguments. -/
  | call (name : String) {lexemes : List Lexeme} {operands : List Operand} :
    IsOperands lexemes operands →
      IsOperand (.callStart name :: (lexemes ++ [.closeParen])) (.call name operands)

/-- `operands = operand { "," operand }` -/
inductive IsOperands : List Lexeme → List Operand → Prop where
  /-- One operand. -/
  | last {lexemes : List Lexeme} {operand : Operand} :
    IsOperand lexemes operand → IsOperands lexemes [operand]
  /-- An operand with others behind it. -/
  | more {lexemes rest : List Lexeme} {operand : Operand} {operands : List Operand} :
    IsOperand lexemes operand → IsOperands rest operands →
      IsOperands (lexemes ++ .comma :: rest) (operand :: operands)

end

mutual

/-- `item = "(" groups ")" / operand comparator operand`, as a group that carries the given join. -/
inductive IsItem : Join → List Lexeme → Group → Prop where
  /-- A comparison. -/
  | comparison (join : Join) (comparator : Comparator) {before after : List Lexeme}
    {left right : Operand} :
    IsOperand before left → IsOperand after right →
      IsItem join (before ++ .comparator comparator :: after)
        (.comparison join { left, comparator, right })
  /-- A list of groups in parentheses. -/
  | nested (join : Join) {lexemes : List Lexeme} {groups : List Group} :
    IsGroups .and lexemes groups →
      IsItem join (.openParen :: (lexemes ++ [.closeParen])) (.nested join groups)

/-- `groups = item { join item }`, the first group carrying the given join. -/
inductive IsGroups : Join → List Lexeme → List Group → Prop where
  /-- One group. -/
  | last {join : Join} {lexemes : List Lexeme} {group : Group} :
    IsItem join lexemes group → IsGroups join lexemes [group]
  /-- A group with others behind it. -/
  | more {join next : Join} {lexemes rest : List Lexeme} {group : Group} {groups : List Group} :
    IsItem join lexemes group → IsGroups next rest groups →
      IsGroups join (lexemes ++ .join next :: rest) (group :: groups)

end

/-! ### Runs of the parser -/

/-- `state.Leads found next` says that reading `found` brings the parser from `state` to `next`. -/
def State.Leads (state : State) (found : List Located) (next : State) : Prop :=
  found.foldlM State.step state = .ok next

namespace State.Leads

variable {state next last : State} {found more : List Located}

theorem nil (state : State) : state.Leads [] state := rfl

theorem cons {first : Located} (h : state.step first = .ok next) (hmore : next.Leads more last) :
    state.Leads (first :: more) last := by
  simpa [State.Leads, h, bind, Except.bind] using hmore

theorem one {first : Located} (h : state.step first = .ok next) : state.Leads [first] next :=
  cons h (nil next)

theorem append (h : state.Leads found next) (hmore : next.Leads more last) :
    state.Leads (found ++ more) last := by
  unfold State.Leads at *
  rw [List.foldlM_append, h]
  exact hmore

end State.Leads

theorem located_append {found : List Located} {before after : List Lexeme}
    (h : found.map Located.lexeme = before ++ after) :
    ∃ first second, found = first ++ second ∧ first.map Located.lexeme = before ∧
      second.map Located.lexeme = after := by
  obtain ⟨first, second, rfl, hfirst, hsecond⟩ := List.map_eq_append_iff.mp h
  exact ⟨first, second, rfl, hfirst, hsecond⟩

theorem located_cons {found : List Located} {first : Lexeme} {after : List Lexeme}
    (h : found.map Located.lexeme = first :: after) :
    ∃ position rest, found = ⟨first, position⟩ :: rest ∧ rest.map Located.lexeme = after := by
  obtain ⟨⟨_, position⟩, rest, rfl, rfl, hrest⟩ := List.map_eq_cons_iff.mp h
  exact ⟨position, rest, rfl, hrest⟩

theorem located_one {found : List Located} {only : Lexeme}
    (h : found.map Located.lexeme = [only]) : ∃ position, found = [⟨only, position⟩] := by
  obtain ⟨position, rest, rfl, hrest⟩ := located_cons h
  rw [List.map_eq_nil_iff] at hrest
  exact ⟨position, by rw [hrest]⟩

/-! ### What the grammar derives is accepted -/

mutual

/-- Reading an operand where one is due adds it. -/
theorem IsOperand.read {lexemes : List Lexeme} {operand : Operand} (h : IsOperand lexemes operand)
    (state : State) (slot : Slot) (calls : List OpenCall) {found : List Located}
    (hplace : state.place = .operand slot calls) (hfound : found.map Located.lexeme = lexemes) :
    state.Leads found (state.addOperand slot calls operand) := by
  cases h with
  | identifier name =>
    obtain ⟨position, rfl⟩ := located_one hfound
    exact .one (by simp [State.step, hplace, State.operandStep])
  | text content =>
    obtain ⟨position, rfl⟩ := located_one hfound
    exact .one (by simp [State.step, hplace, State.operandStep])
  | number value =>
    obtain ⟨position, rfl⟩ := located_one hfound
    exact .one (by simp [State.step, hplace, State.operandStep])
  | callEmpty name =>
    obtain ⟨position, rest, rfl, hrest⟩ := located_cons hfound
    obtain ⟨position', rfl⟩ := located_one hrest
    have hopen : state.step ⟨.callStart name, position⟩ = .ok { state with
        place := .operand slot ({ name, arguments := [] } :: calls) } := by
      simp [State.step, hplace, State.operandStep]
    exact .cons hopen (.one rfl)
  | @call name lexemes operands hoperands =>
    obtain ⟨position, rest, rfl, hrest⟩ := located_cons hfound
    obtain ⟨inside, close, rfl, hinside, hclose⟩ := located_append hrest
    obtain ⟨position', rfl⟩ := located_one hclose
    have hread := hoperands.read
      { state with place := .operand slot ({ name, arguments := [] } :: calls) }
      slot { name, arguments := [] } calls rfl hinside
    refine .cons (by simp [State.step, hplace, State.operandStep]) (hread.append (.one ?_))
    -- the arguments are kept with the newest first until the call ends
    simp only [State.step, List.append_nil, List.reverse_reverse]
    rfl

/-- Reading operands with commas between them adds them to the call whose arguments are read. -/
theorem IsOperands.read {lexemes : List Lexeme} {operands : List Operand}
    (h : IsOperands lexemes operands) (state : State) (slot : Slot) (call : OpenCall)
    (calls : List OpenCall) {found : List Located}
    (hplace : state.place = .operand slot (call :: calls))
    (hfound : found.map Located.lexeme = lexemes) :
    state.Leads found { state with
      place := .argumentEnd slot
        { call with arguments := operands.reverse ++ call.arguments } calls } := by
  cases h with
  | last hoperand => exact hoperand.read state slot (call :: calls) hplace hfound
  | @more lexemes rest operand operands hoperand hoperands =>
    obtain ⟨first, second, rfl, hfirst, hsecond⟩ := located_append hfound
    obtain ⟨position, others, rfl, hothers⟩ := located_cons hsecond
    have hleads := hoperand.read state slot (call :: calls) hplace hfirst
    -- The comma puts the parser where an operand is due, with one more argument behind it.
    have hmore := hoperands.read
      { state with
        place := .operand slot ({ call with arguments := operand :: call.arguments } :: calls) }
      slot { call with arguments := operand :: call.arguments } calls rfl hothers
    refine hleads.append (.cons (by simp [State.step, State.addOperand]; rfl) ?_)
    simpa using hmore

end

/-- Where an item is due, an operand is read as the left side of a comparison. -/
theorem IsOperand.read_item {lexemes : List Lexeme} {operand : Operand}
    (h : IsOperand lexemes operand) (state : State) {found : List Located}
    (hplace : state.place = .item) (hfound : found.map Located.lexeme = lexemes) :
    state.Leads found { state with place := .comparator operand } := by
  have hread := h.read { state with place := .operand .left [] } .left [] rfl hfound
  -- No operand starts with a parenthesis, so the step into the item is the step into the operand.
  obtain ⟨first, rest, rfl⟩ : ∃ first rest, found = first :: rest := by
    cases found with
    | nil => cases h <;> simp at hfound
    | cons first rest => exact ⟨first, rest, rfl⟩
  have hfirst : first.lexeme ≠ .openParen ∧ first.lexeme ≠ .closeParen := by
    cases h <;> simp_all
  have hstep : state.step first = State.step { state with place := .operand .left [] } first := by
    obtain ⟨lexeme, position⟩ := first
    simp only [State.step, hplace, State.itemStep]
    cases lexeme <;> simp_all [State.operandStep, State.addOperand]
  unfold State.Leads at *
  rw [List.foldlM_cons] at *
  rwa [hstep]

mutual

/-- Reading an item where one is due adds its group. -/
theorem IsItem.read {join : Join} {lexemes : List Lexeme} {group : Group}
    (h : IsItem join lexemes group) (state : State) {found : List Located}
    (hplace : state.place = .item) (hjoin : state.inner.join = join)
    (hfound : found.map Located.lexeme = lexemes) :
    state.Leads found (state.addGroup fun _ => group) := by
  cases h with
  | @comparison _ comparator before after left right hleft hright =>
    obtain ⟨first, second, rfl, hfirst, hsecond⟩ := located_append hfound
    obtain ⟨position, others, rfl, hothers⟩ := located_cons hsecond
    -- Unlike the left side, the right one is due before its first lexeme is seen.
    have hread := hright.read { state with place := .operand (.right left comparator) [] }
      (.right left comparator) [] rfl hothers
    refine (hleft.read_item state hplace hfirst).append (.cons rfl ?_)
    simpa [State.addOperand, State.addGroup, hjoin] using hread
  | @nested _ lexemes groups hgroups =>
    obtain ⟨position, rest, rfl, hrest⟩ := located_cons hfound
    obtain ⟨inside, close, rfl, hinside, hclose⟩ := located_append hrest
    obtain ⟨position', rfl⟩ := located_one hclose
    -- The list in the parentheses starts afresh, with the list around it put aside.
    obtain ⟨last, hread⟩ := hgroups.read
      { State.start with outer := (state.inner, position) :: state.outer } rfl rfl hinside
    have hopen : state.step ⟨.openParen, position⟩ =
        .ok { State.start with outer := (state.inner, position) :: state.outer } := by
      simp [State.step, hplace, State.itemStep]
    refine .cons hopen (hread.append (.one ?_))
    simp [State.step, State.itemEndStep, State.addGroup, State.start, hjoin]

/-- Reading groups where an item is due adds them. -/
theorem IsGroups.read {join : Join} {lexemes : List Lexeme} {groups : List Group}
    (h : IsGroups join lexemes groups) (state : State) {found : List Located}
    (hplace : state.place = .item) (hjoin : state.inner.join = join)
    (hfound : found.map Located.lexeme = lexemes) :
    ∃ last, state.Leads found { state with
      place := .itemEnd
      inner := { groups := groups.reverse ++ state.inner.groups, join := last } } := by
  cases h with
  | @last _ _ group hitem => exact ⟨_, hitem.read state hplace hjoin hfound⟩
  | @more _ next lexemes rest group groups hitem hgroups =>
    obtain ⟨first, second, rfl, hfirst, hsecond⟩ := located_append hfound
    obtain ⟨position, others, rfl, hothers⟩ := located_cons hsecond
    obtain ⟨last, hread⟩ := hgroups.read
      { state with
        place := .item
        inner := { groups := group :: state.inner.groups, join := next } } rfl rfl hothers
    refine ⟨last, (hitem.read state hplace hjoin hfirst).append (.cons rfl ?_)⟩
    simpa [State.addGroup] using hread

end

/-! ### What the parser accepts is derived -/

/-- The lexemes of an open list: its groups, each with a join behind it. -/
inductive PendingGroups : List Lexeme → OpenList → Prop where
  /-- Nothing has been read of the list. -/
  | none : PendingGroups [] { groups := [], join := .and }
  /-- One more group, with the join of the group behind it. -/
  | add {before lexemes : List Lexeme} {list : OpenList} {group : Group} (next : Join) :
    PendingGroups before list → IsItem list.join lexemes group →
      PendingGroups (before ++ lexemes ++ [.join next])
        { groups := group :: list.groups, join := next }

/-- The lexemes of the open lists around a place, each with the parenthesis that opens the next. -/
inductive PendingLists : List Lexeme → List (OpenList × Nat) → Prop where
  /-- No list is open. -/
  | none : PendingLists [] []
  /-- One more list. -/
  | add {before lexemes : List Lexeme} {outer : List (OpenList × Nat)} {list : OpenList}
    (position : Nat) :
    PendingLists before outer → PendingGroups lexemes list →
      PendingLists (before ++ lexemes ++ [.openParen]) ((list, position) :: outer)

/-- The lexemes of arguments, each with a comma behind it. -/
inductive PendingOperands : List Lexeme → List Operand → Prop where
  /-- No argument. -/
  | none : PendingOperands [] []
  /-- One more argument. -/
  | add {before lexemes : List Lexeme} {operands : List Operand} {operand : Operand} :
    PendingOperands before operands → IsOperand lexemes operand →
      PendingOperands (before ++ lexemes ++ [.comma]) (operand :: operands)

/-- The lexemes of open calls. -/
inductive PendingCalls : List Lexeme → List OpenCall → Prop where
  /-- No call is open. -/
  | none : PendingCalls [] []
  /-- One more call. -/
  | add (call : OpenCall) {before lexemes : List Lexeme} {calls : List OpenCall} :
    PendingCalls before calls → PendingOperands lexemes call.arguments →
      PendingCalls (before ++ .callStart call.name :: lexemes) (call :: calls)

/-- The lexemes of a comparison in front of the side that is being read. -/
inductive PendingSlot : List Lexeme → Slot → Prop where
  /-- The left side has nothing in front of it. -/
  | left : PendingSlot [] .left
  /-- The right side has the left one and the operator. -/
  | right {lexemes : List Lexeme} {left : Operand} (comparator : Comparator) :
    IsOperand lexemes left → PendingSlot (lexemes ++ [.comparator comparator])
      (.right left comparator)

/-- The lexemes from the start of the innermost open list up to a place. -/
inductive Place.Reads : List Lexeme → Place → OpenList → Prop where
  /-- Groups with joins behind them. -/
  | item {before : List Lexeme} {inner : OpenList} :
    PendingGroups before inner → Reads before .item inner
  /-- Groups, the comparison so far, and the open calls. -/
  | operand {before side within : List Lexeme} {inner : OpenList} {slot : Slot}
    {calls : List OpenCall} :
    PendingGroups before inner → PendingSlot side slot → PendingCalls within calls →
      Reads (before ++ side ++ within) (.operand slot calls) inner
  /-- As for an operand, and the innermost call up to an argument. -/
  | argumentEnd {before side within operands last : List Lexeme} {inner : OpenList} {slot : Slot}
    {calls : List OpenCall} {arguments : List Operand} {operand : Operand} (name : String) :
    PendingGroups before inner → PendingSlot side slot → PendingCalls within calls →
      PendingOperands operands arguments → IsOperand last operand →
      Reads (before ++ side ++ within ++ .callStart name :: (operands ++ last))
        (.argumentEnd slot { name, arguments := operand :: arguments } calls) inner
  /-- Groups and the left side of a comparison. -/
  | comparator {before side : List Lexeme} {inner : OpenList} {left : Operand} :
    PendingGroups before inner → IsOperand side left →
      Reads (before ++ side) (.comparator left) inner
  /-- Groups, of which the last has no join behind it. -/
  | itemEnd {before lexemes : List Lexeme} {list : OpenList} {group : Group} :
    PendingGroups before list → IsItem list.join lexemes group →
      Reads (before ++ lexemes) .itemEnd { list with groups := group :: list.groups }

/-- The lexemes that a state of the parser has behind it. -/
def State.Reads (state : State) (lexemes : List Lexeme) : Prop :=
  ∃ before inside, lexemes = before ++ inside ∧ PendingLists before state.outer ∧
    state.place.Reads inside state.inner

theorem State.Reads.start : State.start.Reads [] :=
  ⟨[], [], rfl, .none, .item .none⟩

theorem PendingOperands.isOperands {before last : List Lexeme} {operands tail : List Operand}
    (h : PendingOperands before operands) (hlast : IsOperands last tail) :
    IsOperands (before ++ last) (operands.reverse ++ tail) := by
  -- The newest argument moves to the tail, so the derivation grows at its front.
  induction h generalizing last tail with
  | none => exact hlast
  | add _ hoperand ih => simpa using ih (.more hoperand hlast)

theorem PendingGroups.isGroups {before last : List Lexeme} {list : OpenList} {tail : List Group}
    (h : PendingGroups before list) (hlast : IsGroups list.join last tail) :
    IsGroups .and (before ++ last) (list.groups.reverse ++ tail) := by
  induction h generalizing last tail with
  | none => exact hlast
  | add _ _ hitem ih => simpa using ih (.more hitem hlast)

section Step

variable (state : State) {before : List Lexeme}

/-- An operand that is complete leaves the parser behind the lexemes of that operand. -/
theorem Place.Reads.addOperand {side within last : List Lexeme} {slot : Slot}
    {calls : List OpenCall} {operand : Operand} (hgroups : PendingGroups before state.inner)
    (hslot : PendingSlot side slot) (hcalls : PendingCalls within calls)
    (hoperand : IsOperand last operand) :
    (state.addOperand slot calls operand).place.Reads (before ++ side ++ within ++ last)
      (state.addOperand slot calls operand).inner := by
  -- Within a call the operand is an argument; outside, it is a side of a comparison.
  cases hcalls with
  | @add call within operands calls hcalls hoperands =>
    simpa [State.addOperand] using
      Place.Reads.argumentEnd call.name hgroups hslot hcalls hoperands hoperand
  | none =>
    cases hslot with
    | left => simpa [State.addOperand] using Place.Reads.comparator hgroups hoperand
    | right comparator hleft =>
      have hitem := IsItem.comparison state.inner.join comparator hleft hoperand
      simpa [State.addOperand, State.addGroup] using Place.Reads.itemEnd hgroups hitem

/-- What a step does where an operand is due. -/
theorem Place.Reads.operandStep {side within : List Lexeme} {slot : Slot} {calls : List OpenCall}
    {found : Located} {next : State} (hgroups : PendingGroups before state.inner)
    (hslot : PendingSlot side slot) (hcalls : PendingCalls within calls)
    (hstep : state.operandStep slot calls found = .ok next) :
    next.outer = state.outer ∧
      next.place.Reads (before ++ side ++ within ++ [found.lexeme]) next.inner := by
  obtain ⟨lexeme, position⟩ := found
  -- A complete operand is added; what remains to be said of each case is what was read for it.
  have hadd {within last : List Lexeme} {calls : List OpenCall} {operand : Operand}
      (hcalls : PendingCalls within calls) (hoperand : IsOperand last operand)
      (hnext : state.addOperand slot calls operand = next) :
      next.outer = state.outer ∧
        next.place.Reads (before ++ side ++ within ++ last) next.inner := by
    subst hnext
    refine ⟨?_, .addOperand state hgroups hslot hcalls hoperand⟩
    unfold State.addOperand
    split <;> rfl
  cases lexeme with
  | identifier name =>
    exact hadd hcalls (.identifier name) (by simpa [State.operandStep] using hstep)
  | text content => exact hadd hcalls (.text content) (by simpa [State.operandStep] using hstep)
  | number value => exact hadd hcalls (.number value) (by simpa [State.operandStep] using hstep)
  | callStart name =>
    obtain rfl : _ = next := by simpa [State.operandStep] using hstep
    refine ⟨rfl, ?_⟩
    simpa using Place.Reads.operand hgroups hslot
      (.add { name, arguments := [] } hcalls .none)
  | closeParen =>
    cases hcalls with
    | none => simp [State.operandStep] at hstep
    | @add call within lexemes calls hcalls hoperands =>
      obtain ⟨name, arguments⟩ := call
      -- An argument is due behind a comma, so only a call without arguments can end here.
      cases hoperands with
      | none => simpa using hadd hcalls (.callEmpty name) (by simpa [State.operandStep] using hstep)
      | add _ _ => simp [State.operandStep] at hstep
  | comparator _ => simp [State.operandStep] at hstep
  | join _ => simp [State.operandStep] at hstep
  | openParen => simp [State.operandStep] at hstep
  | comma => simp [State.operandStep] at hstep

end Step

/-- Every step keeps what the lexemes behind a state are. -/
theorem State.Reads.step {state next : State} {lexemes : List Lexeme} {found : Located}
    (h : state.Reads lexemes) (hstep : state.step found = .ok next) :
    next.Reads (lexemes ++ [found.lexeme]) := by
  obtain ⟨before, inside, rfl, hlists, hplace⟩ := h
  obtain ⟨place, inner, outer⟩ := state
  obtain ⟨lexeme, position⟩ := found
  -- Only parentheses around groups change what is around the innermost list.
  have hwithin (houter : next.outer = outer)
      (hnext : next.place.Reads (inside ++ [lexeme]) next.inner) :
      next.Reads (before ++ inside ++ [lexeme]) :=
    ⟨before, inside ++ [lexeme], by simp, by rwa [houter], hnext⟩
  cases hplace with
  | item hgroups =>
    simp only [State.step, State.itemStep] at hstep
    split at hstep
    · obtain rfl : _ = next := by simpa using hstep
      exact ⟨before ++ inside ++ [.openParen], [], by simp, .add position hlists hgroups,
        .item .none⟩
    · simp at hstep
    · obtain ⟨houter, hread⟩ := Place.Reads.operandStep _ hgroups .left .none hstep
      exact hwithin houter (by simpa using hread)
  | operand hgroups hslot hcalls =>
    obtain ⟨houter, hread⟩ := Place.Reads.operandStep _ hgroups hslot hcalls hstep
    exact hwithin houter hread
  | @argumentEnd groups side within operands last _ slot calls arguments operand name hgroups hslot
      hcalls hoperands hlast =>
    simp only [State.step] at hstep
    split at hstep
    · obtain rfl : _ = next := by simpa using hstep
      refine hwithin rfl ?_
      simpa using Place.Reads.operand hgroups hslot
        (.add { name, arguments := operand :: arguments } hcalls (.add hoperands hlast))
    · obtain rfl : _ = next := by simpa using hstep
      -- The call that ends is an operand for what is around it.
      have hcall := IsOperand.call name (hoperands.isOperands (.last hlast))
      refine hwithin ?_ ?_
      · unfold State.addOperand
        split <;> rfl
      · simpa using Place.Reads.addOperand ⟨_, inner, outer⟩ hgroups hslot hcalls hcall
    · simp at hstep
  | comparator hgroups hleft =>
    simp only [State.step] at hstep
    split at hstep
    · next c =>
      obtain rfl : _ = next := by simpa using hstep
      refine hwithin rfl ?_
      simpa using Place.Reads.operand hgroups (.right c hleft) .none
    · simp at hstep
  | @itemEnd groups item list group hgroups hitem =>
    simp only [State.step, State.itemEndStep] at hstep
    split at hstep
    · next join =>
      obtain rfl : _ = next := by simpa using hstep
      exact hwithin rfl (.item (by simpa using PendingGroups.add join hgroups hitem))
    · next inner position outer =>
      obtain rfl : _ = next := by simpa using hstep
      -- The list that ends is a group of the list around it.
      cases hlists with
      | @add before lexemes _ _ _ hlists hpending =>
        have hnested := IsItem.nested inner.join (hgroups.isGroups (.last hitem))
        refine ⟨before, lexemes ++ .openParen :: (groups ++ item ++ [.closeParen]), by simp,
          hlists, ?_⟩
        simpa [State.addGroup] using Place.Reads.itemEnd hpending hnested
    · simp at hstep
    · simp at hstep

theorem State.Reads.run {state next : State} {lexemes : List Lexeme} {found : List Located}
    (h : state.Reads lexemes) (hrun : state.Leads found next) :
    next.Reads (lexemes ++ found.map Located.lexeme) := by
  induction found generalizing state lexemes with
  | nil =>
    obtain rfl : state = next := by simpa [State.Leads, pure, Except.pure] using hrun
    simpa using h
  | cons first rest ih =>
    unfold State.Leads at hrun
    rw [List.foldlM_cons] at hrun
    cases hstep : state.step first with
    | error e => simp [hstep, bind, Except.bind] at hrun
    | ok middle =>
      rw [hstep] at hrun
      simpa using ih (h.step hstep) hrun

/-- Where the parser ends, it has read nothing, or the groups that it returns. -/
theorem State.Reads.finish {state : State} {lexemes : List Lexeme} {position : Nat}
    {groups : List Group} (h : state.Reads lexemes) (hfinish : state.finish position = .ok groups) :
    lexemes = [] ∧ groups = [] ∨ IsGroups .and lexemes groups := by
  obtain ⟨before, inside, rfl, hlists, hplace⟩ := h
  obtain ⟨place, inner, outer⟩ := state
  -- An open list or call, or a join without a group behind it, is an error at the end.
  cases hplace with
  | item hgroups =>
    cases hgroups with
    | none =>
      cases hlists with
      | none => exact .inl ⟨rfl, by simpa [State.finish] using hfinish.symm⟩
      | add _ _ _ => simp [State.finish] at hfinish
    | add _ _ _ => simp [State.finish] at hfinish
  | operand _ _ _ => simp [State.finish] at hfinish
  | argumentEnd _ _ _ _ _ _ => simp [State.finish] at hfinish
  | comparator _ _ => simp [State.finish] at hfinish
  | itemEnd hgroups hitem =>
    cases hlists with
    | none =>
      obtain rfl : _ = groups := by simpa [State.finish] using hfinish
      exact .inr (by simpa using hgroups.isGroups (.last hitem))
    | add _ _ _ => simp [State.finish] at hfinish

/-- The parser accepts nothing but what the grammar derives, and no lexemes at all, and returns the
tree of the derivation. -/
theorem parseLexemes_eq_ok_iff {found : List Located} {ending : Except ParseError Nat}
    {groups : List Group} :
    parseLexemes found ending = .ok groups ↔
      (∃ position, ending = .ok position) ∧
        (found = [] ∧ groups = [] ∨ IsGroups .and (found.map Located.lexeme) groups) := by
  constructor
  · intro h
    unfold parseLexemes at h
    cases hrun : found.foldlM State.step .start with
    | error e => simp [hrun, bind, Except.bind] at h
    | ok state =>
      cases ending with
      | error e => simp [hrun, bind, Except.bind] at h
      | ok position =>
        have hfinish : state.finish position = .ok groups := by
          simpa [hrun, bind, Except.bind] using h
        have hreads : state.Reads (found.map Located.lexeme) := by
          simpa using State.Reads.start.run hrun
        refine ⟨⟨position, rfl⟩, ?_⟩
        simpa using hreads.finish hfinish
  · rintro ⟨⟨position, rfl⟩, ⟨rfl, rfl⟩ | h⟩
    · rfl
    · obtain ⟨last, hrun⟩ := h.read State.start rfl rfl rfl
      unfold State.Leads at hrun
      unfold parseLexemes
      rw [hrun]
      simp [bind, Except.bind, State.finish, State.start]

end PagedSearch.Parsing
