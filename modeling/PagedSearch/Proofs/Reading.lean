import PagedSearch.Proofs.Conditions
import PagedSearch.Sql.Fragment
import PagedSearch.Text.Character

/-!
# Reading conditions in SQL

A condition is read from its text as SQL reads it: what is in quotes, brackets, markers and comments
is passed over, parentheses come first, then `AND`, then `OR`.  A text in parentheses is read by
itself; where it is all that stands between two joins, it counts as a condition, and otherwise, as
behind the name of a function, as a part of an atom.

The reader goes over the text once, character by character, and keeps the levels that it is in.
What it does on a level does not depend on what is around it, so texts that are closed in themselves
can be put one behind the other, and into parentheses.

## Main definitions

* `Reading.Mode`, `Reading.State`, `Reading.State.step` — the reader.
* `readCondition` — the condition that a text says.
* `Reading.Adds` — what a text that is closed in itself adds to a level.

## Main results

* `Reading.run_within` — what is around a text does not change how it is read.
* `Reading.Adds.append`, `Reading.Adds.parenthesised` — how closed texts are put together.
-/

namespace PagedSearch

namespace Reading

/-! ### The reader -/

/-- What the reader is in. -/
inductive Mode where
  /-- Nothing. -/
  | plain
  /-- A text between two marks. -/
  | quoted (mark : Char)
  /-- A `[` has been read. -/
  | bracket
  /-- A name in brackets. -/
  | bracketed
  /-- A column marker. -/
  | column
  /-- A column marker of whose end one `]` has been read. -/
  | columnEnd
  /-- A `{` has been read. -/
  | brace
  /-- A table marker. -/
  | table
  /-- A table marker of whose end one `}` has been read. -/
  | tableEnd
  /-- A parameter marker. -/
  | param
  /-- A `-` has been read. -/
  | dash
  /-- A comment that ends with the line. -/
  | lineComment
  /-- A `/` has been read. -/
  | slash
  /-- A comment. -/
  | comment
  /-- A comment of whose end the `*` has been read. -/
  | commentEnd
  deriving DecidableEq

/-- Whether a text can end in the mode. -/
def Mode.isBetween : Mode → Bool
  | plain | brace | dash | slash => true
  | _ => false

/-- What the reader has found on a level. -/
inductive Item where
  /-- A character. -/
  | char (c : Char)
  /-- A join, and the word for it. -/
  | join (join : Join) (word : List Char)
  /-- A text in parentheses, and what it says by itself. -/
  | group (text : List Char) (condition : Condition String)

/-- The text of an item. -/
def Item.text : Item → List Char
  | char c => [c]
  | join _ word => word
  | group text _ => text

/-- Whether an item is white space. -/
def Item.isBlank : Item → Bool
  | char c => Text.isBlank c
  | _ => false

/-- The characters of names and keywords. -/
def isWordPart (c : Char) : Bool := c.isAlphanum || c == '_' || c == '$' || 128 ≤ c.toNat

/-- The join that a word is. -/
def joinOf? (word : List Char) : Option Join :=
  match word.map Char.toLower with
  | ['a', 'n', 'd'] => some .and
  | ['o', 'r'] => some .or
  | _ => none

/-- The items of a word, both with the newest first. -/
def wordItems (word : List Char) : List Item :=
  match joinOf? word.reverse with
  | some join => [.join join word.reverse]
  | none => word.map .char

/-- Whether an item is a join of the given kind. -/
def Item.isJoin (how : Join) : Item → Bool
  | join found _ => found == how
  | _ => false

/-- The items without white space around them. -/
def trimItems (items : List Item) : List Item :=
  ((items.dropWhile Item.isBlank).reverse.dropWhile Item.isBlank).reverse

/-- What stands between two joins: a condition in parentheses, or an atom. -/
def readOperand (items : List Item) : Condition String :=
  match trimItems items with
  | [.group _ condition] => condition
  | items => .atom (String.ofList (items.flatMap Item.text))

/-- What the items of a level say, the oldest item first. -/
def readLevel (items : List Item) : Condition String :=
  .disjunction ((items.splitOnP (Item.isJoin .or)).map fun part =>
    .conjunction ((part.splitOnP (Item.isJoin .and)).map readOperand))

/-- What the reader knows: the mode, the word it is in, the newest character first, and the items of
the levels, the innermost level and the newest item first. -/
structure State where
  /-- The mode. -/
  mode : Mode
  /-- The word. -/
  word : List Char
  /-- The levels. -/
  levels : List (List Item)

/-- More items on the innermost level, the newest first. -/
def push (items : List Item) : List (List Item) → List (List Item)
  | [] => []
  | level :: outer => (items ++ level) :: outer

/-- The levels when the innermost one is closed.  The outermost one cannot be closed. -/
def close : List (List Item) → Option (List (List Item))
  | level :: next :: outer =>
    let inside := level.reverse
    let text := '(' :: (inside.flatMap Item.text ++ [')'])
    some ((.group text (readLevel inside) :: next) :: outer)
  | _ => none

/-- The levels of a state when its word has ended. -/
def State.settledLevels (s : State) : List (List Item) := push (wordItems s.word) s.levels

/-- The mode that a character leads to where nothing is left open. -/
def modeAfter (c : Char) : Mode :=
  if c = '\'' || c = '"' || c = '\x60' then .quoted c
  else if c = '[' then .bracket
  else if c = '{' then .brace
  else if c = '-' then .dash
  else if c = '/' then .slash
  else .plain

/-- The state after a character where nothing is left open. -/
def State.plainStep (s : State) (c : Char) : Option State :=
  if isWordPart c then some { s with mode := .plain, word := c :: s.word }
  else if c = '(' then some { mode := .plain, word := [], levels := [] :: s.settledLevels }
  else if c = ')' then
    (close s.settledLevels).map fun levels => { mode := .plain, word := [], levels }
  else
    some { mode := modeAfter c, word := [], levels := push [.char c] s.settledLevels }

/-- The state after a character that is passed over. -/
def State.pass (s : State) (c : Char) (mode : Mode) : Option State :=
  some { mode, word := [], levels := push [.char c] s.settledLevels }

/-- The state after a character. -/
def State.step (s : State) (c : Char) : Option State :=
  match s.mode with
  | .plain => s.plainStep c
  | .quoted mark => s.pass c (if c = mark then .plain else .quoted mark)
  | .bracket => s.pass c (if c = '[' then .column else if c = ']' then .plain else .bracketed)
  | .bracketed => s.pass c (if c = ']' then .plain else .bracketed)
  | .column => s.pass c (if c = ']' then .columnEnd else .column)
  | .columnEnd => s.pass c (if c = ']' then .plain else .column)
  | .brace =>
    if c = '{' then s.pass c .table else if c = ':' then s.pass c .param else s.plainStep c
  | .table => s.pass c (if c = '}' then .tableEnd else .table)
  | .tableEnd => s.pass c (if c = '}' then .plain else .table)
  | .param => s.pass c (if c = '}' then .plain else .param)
  | .dash => if c = '-' then s.pass c .lineComment else s.plainStep c
  | .lineComment => s.pass c (if c = '\n' then .plain else .lineComment)
  | .slash => if c = '*' then s.pass c .comment else s.plainStep c
  | .comment => s.pass c (if c = '*' then .commentEnd else .comment)
  | .commentEnd =>
    s.pass c (if c = '/' then .plain else if c = '*' then .commentEnd else .comment)

/-- The state after a text. -/
def run (text : List Char) (s : State) : Option State := text.foldlM State.step s

/-- The state in which nothing has been read on the innermost level. -/
def start (levels : List (List Item)) : State := { mode := .plain, word := [], levels }

end Reading

open Reading in
/-- The condition that a text says, if its quotes, markers, comments and parentheses are closed. -/
def readCondition (text : String) : Option (Condition String) := do
  let s ← run text.toList (start [[]])
  if s.mode.isBetween then
    match s.settledLevels with
    | [level] => some (readLevel level.reverse)
    | _ => none
  else none

namespace Reading

/-! ### What is around a text -/

/-- Levels on top of others: the outermost of the levels goes on where `base` ends. -/
def within (base : List Item) (outer : List (List Item)) : List (List Item) → List (List Item)
  | [] => []
  | [level] => (level ++ base) :: outer
  | level :: next :: more => level :: within base outer (next :: more)

/-- A state with levels on top of others. -/
def State.within (base : List Item) (outer : List (List Item)) (s : State) : State :=
  { s with levels := Reading.within base outer s.levels }

section Within

variable {base : List Item} {outer levels levels' : List (List Item)}

theorem push_within (items : List Item) (levels : List (List Item)) :
    push items (within base outer levels) = within base outer (push items levels) := by
  match levels with
  | [] => rfl
  | [level] => simp [within, push]
  | level :: next :: more => rfl

theorem close_within (h : close levels = some levels') :
    close (within base outer levels) = some (within base outer levels') := by
  -- Only where two levels are left does what is closed meet what is around it.
  match levels with
  | [] => simp [close] at h
  | [level] => simp [close] at h
  | [level, next] =>
    obtain rfl := Option.some.inj h
    rfl
  | level :: next :: third :: more =>
    obtain rfl := Option.some.inj h
    rfl

theorem cons_within (level : List Item) (hne : levels ≠ []) :
    level :: within base outer levels = within base outer (level :: levels) := by
  obtain ⟨next, more, rfl⟩ := List.exists_cons_of_ne_nil hne
  rfl

theorem push_ne_nil {items : List Item} (h : levels ≠ []) : push items levels ≠ [] := by
  obtain ⟨level, more, rfl⟩ := List.exists_cons_of_ne_nil h
  exact List.cons_ne_nil _ _

theorem close_ne_nil (h : close levels = some levels') : levels' ≠ [] := by
  match levels with
  | [] | [level] => simp [close] at h
  | level :: next :: more =>
    obtain rfl := Option.some.inj h
    exact List.cons_ne_nil _ _

variable {s s' : State}

theorem State.settledLevels_within (s : State) :
    (s.within base outer).settledLevels = Reading.within base outer s.settledLevels :=
  push_within _ _

theorem State.settledLevels_ne_nil (h : s.levels ≠ []) : s.settledLevels ≠ [] := push_ne_nil h

/-- A step from `s` to `s'` that is the same step on top of other levels. -/
def State.Keeps (base : List Item) (outer : List (List Item)) (s' : State)
    (result : Option State) : Prop :=
  s'.levels ≠ [] ∧ result = some (s'.within base outer)

theorem State.pass_within {c : Char} {mode : Mode} (hne : s.levels ≠ [])
    (h : s.pass c mode = some s') : s'.Keeps base outer ((s.within base outer).pass c mode) := by
  obtain rfl := Option.some.inj h
  refine ⟨push_ne_nil (State.settledLevels_ne_nil hne), ?_⟩
  rw [State.pass, State.settledLevels_within, push_within]
  rfl

theorem State.plainStep_within {c : Char} (hne : s.levels ≠ []) (h : s.plainStep c = some s') :
    s'.Keeps base outer ((s.within base outer).plainStep c) := by
  have hsettled := State.settledLevels_ne_nil hne
  unfold State.plainStep at h ⊢
  rw [State.settledLevels_within]
  split at h
  · rename_i hword
    rw [if_pos hword]
    obtain rfl := Option.some.inj h
    exact ⟨hne, rfl⟩
  · rename_i hword
    rw [if_neg hword]
    split at h
    · rename_i hopen
      rw [if_pos hopen]
      obtain rfl := Option.some.inj h
      refine ⟨List.cons_ne_nil _ _, ?_⟩
      rw [cons_within _ hsettled]
      rfl
    · rename_i hopen
      rw [if_neg hopen]
      split at h
      · rename_i hclose
        rw [if_pos hclose]
        obtain ⟨levels, hlevels, rfl⟩ := Option.map_eq_some_iff.mp h
        refine ⟨close_ne_nil hlevels, ?_⟩
        rw [close_within hlevels]
        rfl
      · rename_i hclose
        rw [if_neg hclose]
        obtain rfl := Option.some.inj h
        refine ⟨push_ne_nil hsettled, ?_⟩
        rw [push_within]
        rfl

/-- A step does not depend on what is around the levels. -/
theorem State.step_within {c : Char} (hne : s.levels ≠ []) (h : s.step c = some s') :
    s'.Keeps base outer ((s.within base outer).step c) := by
  -- The mode decides which rule applies, and it is the same on top of other levels.
  have hmode : (s.within base outer).mode = s.mode := rfl
  unfold State.step at h ⊢
  rw [hmode]
  cases hs : s.mode with
  | plain =>
    rw [hs] at h
    exact State.plainStep_within hne h
  | brace =>
    rw [hs] at h
    dsimp only at h ⊢
    split at h
    · rw [if_pos ‹_›]
      exact State.pass_within hne h
    · rw [if_neg ‹_›]
      split at h
      · rw [if_pos ‹_›]
        exact State.pass_within hne h
      · rw [if_neg ‹_›]
        exact State.plainStep_within hne h
  | dash | slash =>
    rw [hs] at h
    dsimp only at h ⊢
    split at h
    · rw [if_pos ‹_›]
      exact State.pass_within hne h
    · rw [if_neg ‹_›]
      exact State.plainStep_within hne h
  | _ =>
    rw [hs] at h
    exact State.pass_within hne h

variable (base outer) in
/-- What is around a text does not change how it is read. -/
theorem run_within {text : List Char} (hne : s.levels ≠ []) (h : run text s = some s') :
    run text (s.within base outer) = some (s'.within base outer) := by
  induction text generalizing s with
  | nil =>
    obtain rfl := Option.some.inj h
    rfl
  | cons c rest ih =>
    unfold run at h ⊢
    rw [List.foldlM_cons] at h ⊢
    obtain ⟨t, hstep, hrest⟩ := Option.bind_eq_some_iff.mp h
    obtain ⟨hne', hstep'⟩ : t.Keeps base outer ((s.within base outer).step c) :=
      State.step_within hne hstep
    rw [hstep']
    exact ih hne' hrest

end Within

/-! ### Texts that are closed in themselves -/

/-- A text is closed in itself, and adds the given items to its level, the oldest first. -/
def Adds (text : List Char) (items : List Item) : Prop :=
  ∃ s, run text (start [[]]) = some s ∧ s.mode.isBetween = true ∧ s.settledLevels = [items.reverse]

/-- A text is closed in itself, and what follows it has no part in its last item. -/
def Settles (text : List Char) (items : List Item) : Prop :=
  run text (start [[]]) = some (start [items.reverse])

/-- The characters that end whatever stands before them. -/
def isBreak (c : Char) : Bool := c == ' ' || c == ',' || c == '(' || c == ')'

theorem run_append (first second : List Char) (s : State) :
    run (first ++ second) s = (run first s).bind (run second) := List.foldlM_append

@[simp] theorem push_nil (levels : List (List Item)) : push [] levels = levels := by
  cases levels <;> rfl

@[simp] theorem settledLevels_start (levels : List (List Item)) :
    (start levels).settledLevels = levels := push_nil levels

theorem Settles.adds {text : List Char} {items : List Item} (h : Settles text items) :
    Adds text items :=
  ⟨_, h, rfl, settledLevels_start _⟩

/-- Where a text can end, what is read on from a character that ends all before it does not depend
on how it ended. -/
theorem State.step_of_isBreak {s : State} {c : Char} (hmode : s.mode.isBetween = true)
    (hc : isBreak c = true) : s.step c = (start s.settledLevels).step c := by
  have hplain : s.plainStep c = (start s.settledLevels).plainStep c := by
    have hword : isWordPart c = false := by
      simp only [isBreak, Bool.or_eq_true, beq_iff_eq] at hc
      rcases hc with ((rfl | rfl) | rfl) | rfl <;> decide
    unfold State.plainStep
    rw [hword, if_neg Bool.false_ne_true, if_neg Bool.false_ne_true, settledLevels_start]
  have hstart : (start s.settledLevels).step c = (start s.settledLevels).plainStep c := rfl
  -- A mark that has been read alone is completed by none of these characters.
  have hmark : c ≠ '{' ∧ c ≠ ':' ∧ c ≠ '-' ∧ c ≠ '*' := by
    simp only [isBreak, Bool.or_eq_true, beq_iff_eq] at hc
    rcases hc with ((rfl | rfl) | rfl) | rfl <;> decide
  rw [hstart, ← hplain]
  unfold State.step
  cases hs : s.mode <;> simp [hs, Mode.isBetween] at hmode <;> simp [hmark]

variable {first second text : List Char} {items items' : List Item}

theorem Adds.run (h : Adds text items) (base : List Item) (outer : List (List Item)) :
    ∃ s, Reading.run text (start (base :: outer)) = some s ∧ s.mode.isBetween = true ∧
      s.settledLevels = (items.reverse ++ base) :: outer := by
  obtain ⟨s, hrun, hmode, hlevels⟩ := h
  refine ⟨s.within base outer, ?_, hmode, ?_⟩
  · exact run_within base outer (List.cons_ne_nil _ _) hrun
  · rw [State.settledLevels_within, hlevels]
    rfl

theorem Settles.run (h : Settles text items) (base : List Item) (outer : List (List Item)) :
    Reading.run text (start (base :: outer)) = some (start ((items.reverse ++ base) :: outer)) :=
  run_within base outer (List.cons_ne_nil _ _) h

theorem Settles.append (h : Settles first items) (h' : Settles second items') :
    Settles (first ++ second) (items ++ items') := by
  unfold Settles
  rw [run_append, h, Option.bind_some, h'.run]
  simp

theorem Settles.append_adds (h : Settles first items) (h' : Adds second items') :
    Adds (first ++ second) (items ++ items') := by
  obtain ⟨s, hrun, hmode, hlevels⟩ := h'.run items.reverse []
  refine ⟨s, ?_, hmode, ?_⟩
  · rw [run_append, h, Option.bind_some, hrun]
  · rw [hlevels, List.reverse_append]

/-- A text that starts with a character that ends all before it. -/
def StartsApart (text : List Char) : Prop := ∃ c rest, text = c :: rest ∧ isBreak c = true

/-- What follows a closed text is read as if the text had come to rest. -/
theorem Adds.run_append (h : Adds first items) (hsecond : StartsApart second) (base : List Item)
    (outer : List (List Item)) :
    Reading.run (first ++ second) (start (base :: outer)) =
      Reading.run second (start ((items.reverse ++ base) :: outer)) := by
  obtain ⟨s, hrun, hmode, hlevels⟩ := h.run base outer
  obtain ⟨c, rest, rfl, hc⟩ := hsecond
  rw [Reading.run_append, hrun, Option.bind_some]
  unfold Reading.run
  rw [List.foldlM_cons, List.foldlM_cons, State.step_of_isBreak hmode hc, hlevels]

theorem Adds.append (h : Adds first items) (hsecond : StartsApart second)
    (h' : Adds second items') : Adds (first ++ second) (items ++ items') := by
  obtain ⟨s, hrun, hmode, hlevels⟩ := h'.run items.reverse []
  refine ⟨s, ?_, hmode, ?_⟩
  · rw [h.run_append hsecond, List.append_nil, hrun]
  · rw [hlevels, List.reverse_append]

theorem Adds.append_settles (h : Adds first items) (hsecond : StartsApart second)
    (h' : Settles second items') : Settles (first ++ second) (items ++ items') := by
  unfold Settles
  rw [h.run_append hsecond, List.append_nil, h'.run, List.reverse_append]

/-- A closed text in parentheses is one item. -/
theorem Adds.parenthesised (h : Adds text items) :
    Settles ('(' :: (text ++ [')']))
      [.group ('(' :: (items.flatMap Item.text ++ [')'])) (readLevel items)] := by
  have hclose : StartsApart [')'] := ⟨')', [], rfl, rfl⟩
  have hopen : (start [[]]).step '(' = some (start [[], []]) := rfl
  -- The parenthesis opens a level, on which the text is read as it is read by itself.
  unfold Settles Reading.run
  rw [List.foldlM_cons, hopen]
  refine Eq.trans (h.run_append hclose [] [[]]) ?_
  simp [Reading.run, State.step, start, State.plainStep, isWordPart, close, State.settledLevels,
    wordItems, joinOf?, push]

/-! ### Conditions -/

theorem readCondition_eq_some {text : String} {condition : Condition String} :
    readCondition text = some condition ↔
      ∃ items, Adds text.toList items ∧ readLevel items = condition := by
  unfold readCondition
  rw [Option.bind_eq_bind, Option.bind_eq_some_iff]
  constructor
  · rintro ⟨s, hrun, h⟩
    split at h
    · rename_i hmode
      split at h
      · rename_i level hlevels
        exact ⟨level.reverse, ⟨s, hrun, hmode, by rw [hlevels, List.reverse_reverse]⟩,
          Option.some.inj h⟩
      · simp at h
    · simp at h
  · rintro ⟨items, ⟨s, hrun, hmode, hlevels⟩, rfl⟩
    refine ⟨s, hrun, ?_⟩
    rw [if_pos hmode, hlevels]
    show some (readLevel items.reverse.reverse) = _
    rw [List.reverse_reverse]

example : readCondition "a = 'x OR y' OR b = 2 AND (c = 3 OR f(d) < 4)" =
    some (.any [.atom "a = 'x OR y'",
      .all [.atom "b = 2", .any [.atom "c = 3", .atom "f(d) < 4"]]]) :=
  rfl

/-- A reader of what stands between two joins that finds a condition in parentheses. -/
def FindsGroup (read : List Item → Condition String) : Prop :=
  ∀ (before after : List Item) (text : List Char) (condition : Condition String),
    before.all Item.isBlank = true → after.all Item.isBlank = true →
      read (before ++ .group text condition :: after) = condition

theorem readOperand_findsGroup : FindsGroup readOperand := by
  intro before after text condition hbefore hafter
  have htrim : trimItems (before ++ .group text condition :: after) = [.group text condition] := by
    unfold trimItems
    rw [List.dropWhile_append_of_pos (by simpa using hbefore),
      List.dropWhile_cons_of_neg (by simp [Item.isBlank]), List.reverse_cons,
      List.dropWhile_append_of_pos (by simpa using hafter),
      List.dropWhile_cons_of_neg (by simp [Item.isBlank])]
    rfl
  rw [readOperand, htrim]

/-- The keyword of a join. -/
def keyword : Join → List Char
  | .and => ['A', 'N', 'D']
  | .or => ['O', 'R']

/-- The text between two conditions that are joined. -/
def separator : Join → String
  | .and => " AND "
  | .or => " OR "

/-- What the text between two conditions adds to a level. -/
def separatorItems (how : Join) : List Item :=
  [.char ' ', .join how (keyword how), .char ' ']

theorem settles_separator (how : Join) :
    Settles (separator how).toList (separatorItems how) := by
  cases how <;> rfl

/-- Conditions in parentheses with joins between them, as items of a level. -/
def joinedItems (how : Join) : List (List Char × Condition String) → List Item
  | [] => []
  | [(text, condition)] => [.group text condition]
  | (text, condition) :: next :: rest =>
    .group text condition :: (separatorItems how ++ joinedItems how (next :: rest))

/-- Several conditions joined. -/
def merge : Join → List (Condition String) → Condition String
  | .and => .conjunction
  | .or => .disjunction

theorem isJoin_eq_false (how : Join) {before after : List Item}
    (hbefore : before.all Item.isBlank = true) (hafter : after.all Item.isBlank = true)
    (text : List Char) (condition : Condition String) :
    ∀ item ∈ before ++ .group text condition :: after, item.isJoin how = false := by
  have hblank : ∀ item : Item, item.isBlank = true → item.isJoin how = false := by
    intro item h
    cases item <;> simp_all [Item.isBlank, Item.isJoin]
  intro item hmem
  rcases List.mem_append.mp hmem with hmem | hmem
  · exact hblank item (List.all_eq_true.mp hbefore item hmem)
  · rcases List.mem_cons.mp hmem with rfl | hmem
    · rfl
    · exact hblank item (List.all_eq_true.mp hafter item hmem)

theorem conjunction_findsGroup :
    FindsGroup fun part =>
      .conjunction ((part.splitOnP (Item.isJoin .and)).map readOperand) := by
  intro before after text condition hbefore hafter
  dsimp only
  rw [List.splitOnP_eq_singleton (isJoin_eq_false .and hbefore hafter text condition),
    List.map_singleton, readOperand_findsGroup before after text condition hbefore hafter]
  rfl

theorem splitOnP_joinedItems (how : Join) {read : List Item → Condition String}
    (hread : FindsGroup read) {before : List Item} (hbefore : before.all Item.isBlank = true)
    (first : List Char × Condition String) (rest : List (List Char × Condition String)) :
    ((before ++ joinedItems how (first :: rest)).splitOnP (Item.isJoin how)).map read =
      (first :: rest).map Prod.snd := by
  induction rest generalizing before first with
  | nil =>
    obtain ⟨text, condition⟩ := first
    have hafter : [].all Item.isBlank = true := rfl
    rw [joinedItems, List.splitOnP_eq_singleton
      (isJoin_eq_false how hbefore hafter text condition), List.map_singleton,
      hread before [] text condition hbefore hafter]
    rfl
  | cons next rest ih =>
    obtain ⟨text, condition⟩ := first
    -- The blank behind a join belongs to the next condition, so it is kept in `before`.
    have hafter : [Item.char ' '].all Item.isBlank = true := rfl
    have hassoc : before ++ joinedItems how ((text, condition) :: next :: rest) =
        (before ++ [Item.group text condition, .char ' ']) ++
          .join how (keyword how) :: ([.char ' '] ++ joinedItems how (next :: rest)) := by
      simp [joinedItems, separatorItems]
    have hjoin : (Item.join how (keyword how)).isJoin how = true := by
      cases how <;> rfl
    rw [hassoc, List.splitOnP_append_cons_of_forall_mem
      (isJoin_eq_false how hbefore hafter text condition) _ hjoin, List.map_cons,
      hread before [.char ' '] text condition hbefore hafter, ih hafter]
    rfl

theorem isJoin_joinedItems_and (conditions : List (List Char × Condition String)) :
    ∀ item ∈ joinedItems .and conditions, item.isJoin .or = false := by
  induction conditions with
  | nil => exact fun _ hmem => absurd hmem (List.not_mem_nil)
  | cons first rest ih =>
    obtain ⟨text, condition⟩ := first
    intro item hmem
    cases rest with
    | nil =>
      rw [joinedItems, List.mem_singleton] at hmem
      rw [hmem]
      rfl
    | cons next rest =>
      simp only [joinedItems, separatorItems, List.cons_append, List.nil_append,
        List.mem_cons] at hmem
      rcases hmem with rfl | rfl | rfl | rfl | hmem
      · rfl
      · rfl
      · rfl
      · rfl
      · exact ih item hmem

/-- A row of conditions in parentheses says what the conditions say, joined. -/
theorem readLevel_joinedItems (how : Join) (first : List Char × Condition String)
    (rest : List (List Char × Condition String)) :
    readLevel (joinedItems how (first :: rest)) = merge how ((first :: rest).map Prod.snd) := by
  have hbefore : [].all Item.isBlank = true := rfl
  cases how with
  | or =>
    have hsplit := splitOnP_joinedItems .or conjunction_findsGroup hbefore first rest
    rw [List.nil_append] at hsplit
    rw [readLevel, hsplit]
    rfl
  | and =>
    have hsplit := splitOnP_joinedItems .and readOperand_findsGroup hbefore first rest
    rw [List.nil_append] at hsplit
    -- the parts of a conjunction are found within the only part of a disjunction
    rw [readLevel, List.splitOnP_eq_singleton (isJoin_joinedItems_and _), List.map_singleton,
      hsplit]
    rfl

theorem toList_parenthesised (text : String) :
    (Fragment.parenthesised text).toList = '(' :: (text.toList ++ [')']) := by
  simp [Fragment.parenthesised]

/-- Several conditions in parentheses with joins between them are a row of conditions. -/
theorem settles_intercalate (how : Join) {texts : List String}
    {conditions : List (Condition String)}
    (h : List.Forall₂ (fun text condition => readCondition text = some condition) texts
      conditions) :
    ∃ row, row.map Prod.snd = conditions ∧
      Settles ((separator how).intercalate (texts.map Fragment.parenthesised)).toList
        (joinedItems how row) := by
  induction h with
  | nil => exact ⟨[], rfl, by rw [List.map_nil, String.intercalate_nil]; rfl⟩
  | @cons text condition texts conditions hfirst hrest ih =>
    obtain ⟨row, hrow, hsettles⟩ := ih
    obtain ⟨items, hitems, rfl⟩ := readCondition_eq_some.mp hfirst
    have hgroup := hitems.parenthesised
    refine ⟨('(' :: (items.flatMap Item.text ++ [')']), readLevel items) :: row,
      by rw [List.map_cons, hrow], ?_⟩
    cases hrest with
    | nil =>
      obtain rfl := List.map_eq_nil_iff.mp hrow
      rw [List.map_singleton, String.intercalate_singleton, toList_parenthesised]
      exact hgroup
    | cons _ _ =>
      obtain ⟨next, more, rfl⟩ : ∃ next more, row = next :: more := by
        cases row <;> simp_all
      rw [List.map_cons, List.map_cons, String.intercalate_cons_cons, String.toList_append,
        String.toList_append, toList_parenthesised, List.append_assoc]
      exact hgroup.append ((settles_separator how).append hsettles)

/-- Several conditions in parentheses, joined, are the conditions joined. -/
theorem readCondition_intercalate (how : Join) {texts : List String}
    {conditions : List (Condition String)} (hne : texts ≠ [])
    (h : List.Forall₂ (fun text condition => readCondition text = some condition) texts
      conditions) :
    readCondition ((separator how).intercalate (texts.map Fragment.parenthesised)) =
      some (merge how conditions) := by
  obtain ⟨row, rfl, hsettles⟩ := settles_intercalate how h
  obtain ⟨first, rest, rfl⟩ : ∃ first rest, row = first :: rest := by
    refine List.exists_cons_of_ne_nil fun hrow => hne ?_
    subst hrow
    exact List.length_eq_zero_iff.mp h.length_eq
  exact readCondition_eq_some.mpr ⟨_, hsettles.adds, readLevel_joinedItems how first rest⟩

theorem readCondition_parenthesised {text : String} {condition : Condition String}
    (h : readCondition text = some condition) :
    readCondition (Fragment.parenthesised text) = some condition := by
  have hone := readCondition_intercalate .and (List.cons_ne_nil _ _) (.cons h .nil)
  rwa [List.map_singleton, String.intercalate_singleton] at hone

/-- The text of several conditions, of which the empty ones do not count, says what the others say,
joined. -/
theorem readCondition_joinTexts (how : Join) {texts : List String}
    {conditions : List (Condition String)} (hne : texts.filter (· ≠ "") ≠ [])
    (h : List.Forall₂ (fun text condition => readCondition text = some condition)
      (texts.filter (· ≠ "")) conditions) :
    readCondition (Fragment.joinTexts (separator how) texts) = some (merge how conditions) := by
  unfold Fragment.joinTexts
  split
  · rename_i hnone
    exact absurd hnone hne
  · rename_i text hone
    rw [hone] at h
    -- a single condition stands without parentheses, and is not joined to anything
    cases h with
    | cons hfirst hrest =>
      cases hrest
      cases how <;> exact hfirst
  · exact readCondition_intercalate how hne h

end Reading

end PagedSearch
