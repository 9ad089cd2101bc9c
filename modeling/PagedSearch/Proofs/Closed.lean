import PagedSearch.Proofs.Reading

/-!
# Closed texts

A text is closed if all quotes, markers, comments and parentheses that it opens are closed in it, so
that it can be read by itself.  Some closed texts need a space or a parenthesis behind them: a word
goes on with the next letter, and a `-` may be the first half of a comment.  Those that need nothing
are settled.

## Main definitions

* `Reading.Closed`, `Reading.Settled` — closed texts.
* `Reading.Separates` — texts that can stand between any two closed ones.
* `Reading.call` — a text in parentheses behind the name of a function.

## Main results

* `Reading.isSome_readCondition` — the closed texts are those that a condition can be read from.
* `Reading.Closed.separated`, `Reading.Closed.call` — how closed texts are put together.
* `Reading.settled_columnMarker`, `Reading.settled_tableMarker`, `Reading.settled_paramMarker`,
  `Reading.settled_literal` — markers and string literals.
* `Fragment.says_joined`, `Fragment.says_filtered` — what fragments say when they are joined, also if
  some of them have no text.
-/

namespace PagedSearch

namespace Reading

/-- A text in which all that is opened is closed. -/
def Closed (text : List Char) : Prop := ∃ items, Adds text items

/-- A closed text that is over at its end, whatever follows. -/
def Settled (text : List Char) : Prop := ∃ items, Settles text items

/-- A text that can stand between any two closed ones. -/
def Separates (text : List Char) : Prop := StartsApart text ∧ Settled text

theorem isSome_readCondition {text : String} :
    (readCondition text).isSome = true ↔ Closed text.toList := by
  rw [Option.isSome_iff_exists]
  constructor
  · rintro ⟨condition, h⟩
    obtain ⟨items, hitems, -⟩ := readCondition_eq_some.mp h
    exact ⟨items, hitems⟩
  · rintro ⟨items, hitems⟩
    exact ⟨readLevel items, readCondition_eq_some.mpr ⟨items, hitems, rfl⟩⟩

/-- Whether a text is settled. -/
def isSettled (text : List Char) : Bool :=
  match run text (start [[]]) with
  | some ⟨.plain, [], [_]⟩ => true
  | _ => false

theorem settled_of_isSettled {text : List Char} (h : isSettled text = true) : Settled text := by
  unfold isSettled at h
  split at h
  · rename_i level hrun
    refine ⟨level.reverse, ?_⟩
    unfold Settles
    rw [hrun, List.reverse_reverse]
    rfl
  · simp at h

/-- Whether a text can stand between any two closed ones. -/
def isSeparating (text : List Char) : Bool := text.head?.any isBreak && isSettled text

theorem separates_of_isSeparating {text : List Char} (h : isSeparating text = true) :
    Separates text := by
  unfold isSeparating at h
  rw [Bool.and_eq_true] at h
  refine ⟨?_, settled_of_isSettled h.2⟩
  cases text with
  | nil => simp at h
  | cons c rest => exact ⟨c, rest, rfl, by simpa using h.1⟩

/-! ### Texts put together -/

variable {first second middle text : List Char}

theorem Settled.closed : Settled text → Closed text := by
  rintro ⟨items, h⟩
  exact ⟨items, h.adds⟩

theorem settled_nil : Settled [] := ⟨[], rfl⟩

theorem Settled.append : Settled first → Settled second → Settled (first ++ second) := by
  rintro ⟨items, h⟩ ⟨items', h'⟩
  exact ⟨items ++ items', h.append h'⟩

theorem Settled.append_closed : Settled first → Closed second → Closed (first ++ second) := by
  rintro ⟨items, h⟩ ⟨items', h'⟩
  exact ⟨items ++ items', h.append_adds h'⟩

theorem Closed.append : Closed first → Separates second → Settled (first ++ second) := by
  rintro ⟨items, h⟩ ⟨hapart, items', h'⟩
  exact ⟨items ++ items', h.append_settles hapart h'⟩

theorem Closed.append_closed : Closed first → StartsApart second → Closed second →
    Closed (first ++ second) := by
  rintro ⟨items, h⟩ hapart ⟨items', h'⟩
  exact ⟨items ++ items', h.append hapart h'⟩

/-- Two closed texts with a text between them that separates them. -/
theorem Closed.separated (h : Closed first) (hmiddle : Separates middle) (h' : Closed second) :
    Closed (first ++ (middle ++ second)) := by
  rw [← List.append_assoc]
  exact (h.append hmiddle).append_closed h'

theorem Closed.parenthesised : Closed text → Settled ('(' :: (text ++ [')'])) := by
  rintro ⟨items, h⟩
  exact ⟨_, h.parenthesised⟩

/-- A text in parentheses behind the name of a function. -/
def call (name text : List Char) : List Char := name ++ '(' :: (text ++ [')'])

theorem Closed.call {name : List Char} (hname : Closed name) (h : Closed text) :
    Settled (Reading.call name text) :=
  hname.append ⟨⟨'(', text ++ [')'], rfl, rfl⟩, h.parenthesised⟩

theorem closed_intercalate {separator : String} (hseparator : Separates separator.toList)
    {texts : List String} (h : ∀ text ∈ texts, Closed text.toList) :
    Closed (separator.intercalate texts).toList := by
  induction texts with
  | nil => exact settled_nil.closed
  | cons first rest ih =>
    have hfirst := h first List.mem_cons_self
    have hrest := ih fun text htext => h text (List.mem_cons_of_mem _ htext)
    cases rest with
    | nil =>
      rw [String.intercalate_singleton]
      exact hfirst
    | cons second rest =>
      rw [String.intercalate_cons_cons, String.toList_append, String.toList_append,
        List.append_assoc]
      exact hfirst.separated hseparator hrest

/-! ### Texts that are passed over -/

/-- The character is passed over in the mode. -/
def Passes (mode : Mode) (c : Char) : Prop :=
  ∀ levels, State.step ⟨mode, [], levels⟩ c = some ⟨mode, [], push [.char c] levels⟩

theorem passes_of_pass {mode : Mode} {c : Char}
    (h : ∀ levels, State.step ⟨mode, [], levels⟩ c = State.pass ⟨mode, [], levels⟩ c mode) :
    Passes mode c := by
  intro levels
  rw [h]
  simp [State.pass, State.settledLevels, wordItems, joinOf?]

theorem run_passed {mode : Mode} (h : ∀ c ∈ text, Passes mode c) (level : List Item) :
    ∃ level', run text ⟨mode, [], [level]⟩ = some ⟨mode, [], [level']⟩ := by
  induction text generalizing level with
  | nil => exact ⟨level, rfl⟩
  | cons c rest ih =>
    obtain ⟨level', hrest⟩ := ih (fun c hc => h c (List.mem_cons_of_mem _ hc)) (.char c :: level)
    refine ⟨level', ?_⟩
    unfold run at hrest ⊢
    rw [List.foldlM_cons, h c List.mem_cons_self]
    exact hrest

/-- A text whose opening leads to a mode in which all up to its closing is passed over. -/
theorem settled_of_passed {opening closing : List Char} {mode : Mode} {level : List Item}
    (hopen : run opening (start [[]]) = some ⟨mode, [], [level]⟩)
    (hpass : ∀ c ∈ text, Passes mode c)
    (hclose : ∀ level, ∃ level', run closing ⟨mode, [], [level]⟩ = some (start [level'])) :
    Settled (opening ++ (text ++ closing)) := by
  -- What has been passed over stays on the level, but only the mode matters to the closing.
  obtain ⟨passed, hpassed⟩ := run_passed hpass level
  obtain ⟨closed, hclosed⟩ := hclose passed
  refine ⟨closed.reverse, ?_⟩
  unfold Settles
  rw [run_append, hopen, Option.bind_some, run_append, hpassed, Option.bind_some, hclosed,
    List.reverse_reverse]

theorem settled_columnMarker {name : String} (h : ∀ c ∈ name.toList, c ≠ ']') :
    Settled (Fragment.columnMarker name).toList := by
  have hpass : ∀ c ∈ name.toList, Passes .column c := by
    intro c hc
    exact passes_of_pass fun levels => by simp [State.step, h c hc]
  rw [Fragment.columnMarker, String.toList_append, String.toList_append, List.append_assoc]
  exact settled_of_passed rfl hpass fun level => ⟨_, rfl⟩

theorem settled_tableMarker {name : String} (h : ∀ c ∈ name.toList, c ≠ '\x7d') :
    Settled (Fragment.tableMarker name).toList := by
  have hpass : ∀ c ∈ name.toList, Passes .table c := by
    intro c hc
    exact passes_of_pass fun levels => by simp [State.step, h c hc]
  rw [Fragment.tableMarker, String.toList_append, String.toList_append, List.append_assoc]
  exact settled_of_passed rfl hpass fun level => ⟨_, rfl⟩

theorem settled_paramMarker {name : String} (h : ∀ c ∈ name.toList, c ≠ '\x7d') :
    Settled (Fragment.paramMarker name).toList := by
  have hpass : ∀ c ∈ name.toList, Passes .param c := by
    intro c hc
    exact passes_of_pass fun levels => by simp [State.step, h c hc]
  rw [Fragment.paramMarker, String.toList_append, String.toList_append, List.append_assoc]
  exact settled_of_passed rfl hpass fun level => ⟨_, rfl⟩

theorem settled_literal (h : ∀ c ∈ text, c ≠ '\'') : Settled ('\'' :: (text ++ ['\''])) := by
  have hpass : ∀ c ∈ text, Passes (.quoted '\'') c := by
    intro c hc
    exact passes_of_pass fun levels => by simp [State.step, h c hc]
  have hopen : run ['\''] (start [[]]) = some ⟨.quoted '\'', [], [[.char '\'']]⟩ := rfl
  exact settled_of_passed hopen hpass fun level => ⟨_, rfl⟩

end Reading

/-! ### Fragments -/

open Reading

/-- The fragment has a text, and the text says the condition. -/
structure Fragment.Says (fragment : Fragment) (condition : Condition String) : Prop where
  /-- There is a text. -/
  ne_empty : fragment.text ≠ ""
  /-- The text says the condition. -/
  read : readCondition fragment.text = some condition

/-- The fragment has a text that can be read by itself. -/
def Fragment.IsReadable (fragment : Fragment) : Prop := ∃ condition, fragment.Says condition

namespace Fragment

theorem isReadable_of_closed {fragment : Fragment} (hne : fragment.text ≠ "")
    (h : Closed fragment.text.toList) : fragment.IsReadable := by
  obtain ⟨condition, hread⟩ := Option.isSome_iff_exists.mp (isSome_readCondition.mpr h)
  exact ⟨condition, hne, hread⟩

theorem IsReadable.closed {fragment : Fragment} : fragment.IsReadable →
    Closed fragment.text.toList := by
  rintro ⟨condition, h⟩
  exact isSome_readCondition.mp (Option.isSome_iff_exists.mpr ⟨condition, h.read⟩)

theorem exists_says {fragments : List Fragment} (h : ∀ fragment ∈ fragments, fragment.IsReadable) :
    ∃ conditions, List.Forall₂ Says fragments conditions := by
  induction fragments with
  | nil => exact ⟨[], .nil⟩
  | cons first rest ih =>
    obtain ⟨condition, hfirst⟩ := h first List.mem_cons_self
    obtain ⟨conditions, hrest⟩ := ih fun fragment hmem => h fragment (List.mem_cons_of_mem _ hmem)
    exact ⟨condition :: conditions, .cons hfirst hrest⟩

theorem isReadable_of_separated {fragment : Fragment} {first middle second : List Char}
    (htext : fragment.text.toList = first ++ (middle ++ second)) (hfirst : Closed first)
    (hmiddle : Separates middle) (hsecond : Closed second) : fragment.IsReadable := by
  have hclosed := hfirst.separated hmiddle hsecond
  rw [← htext] at hclosed
  -- It is not empty, because what separates has a character to start with.
  refine isReadable_of_closed ?_ hclosed
  intro hempty
  obtain ⟨⟨c, rest, rfl, -⟩, -⟩ := hmiddle
  rw [hempty] at htext
  simp at htext

/-- Parentheses change nothing in what a fragment says. -/
theorem Says.enclose {fragment : Fragment} {condition : Condition String}
    (h : fragment.Says condition) : (Fragment.enclose fragment).Says condition := by
  have htext : (Fragment.enclose fragment).text = parenthesised fragment.text := by
    rw [text, if_neg h.ne_empty]
  refine ⟨?_, ?_⟩
  · rw [htext]
    intro hempty
    have := congrArg String.toList hempty
    rw [toList_parenthesised] at this
    simp at this
  · rw [htext]
    exact readCondition_parenthesised h.read

/-- Texts of which some are not empty have a text when they are joined. -/
theorem joinTexts_ne_empty (how : Join) {texts : List String}
    {conditions : List (Condition String)} (hne : texts.filter (· ≠ "") ≠ [])
    (h : List.Forall₂ (fun text condition => readCondition text = some condition)
      (texts.filter (· ≠ "")) conditions) : joinTexts (separator how) texts ≠ "" := by
  have hread := readCondition_joinTexts how hne h
  intro hempty
  -- an empty text is read as an atom, and so it is no join of two conditions
  have hnothing : readCondition "" = some (.atom "") := rfl
  rw [hempty, hnothing] at hread
  cases h' : texts.filter (· ≠ "") with
  | nil => exact hne h'
  | cons first rest =>
    rw [h'] at h
    cases h with
    | cons hfirst hrest =>
      cases hrest with
      | nil =>
        have hmem : first ∈ texts.filter (· ≠ "") := by
          rw [h']
          exact List.mem_singleton_self _
        have htext : joinTexts (separator how) texts = first := by
          rw [joinTexts, h']
        rw [hempty] at htext
        simpa [← htext] using (List.mem_filter.mp hmem).2
      | cons _ _ => cases how <;> cases hread

theorem says_joined (how : Join) {fragment : Fragment} {parts : List Fragment}
    {conditions : List (Condition String)}
    (htext : fragment.text = joinTexts (separator how) (parts.map text)) (hne : parts ≠ [])
    (h : List.Forall₂ Says parts conditions) : fragment.Says (merge how conditions) := by
  -- A part that says something has a text, so no part is left out.
  have htexts : (parts.map text).filter (· ≠ "") = parts.map text := by
    clear hne htext
    induction h with
    | nil => rfl
    | @cons first _ rest _ hfirst _ ih =>
      have hfilled := hfirst.ne_empty
      rw [List.map_cons, List.filter_cons_of_pos (by simpa using hfilled), ih]
  have hnonempty : (parts.map text).filter (· ≠ "") ≠ [] := by
    rw [htexts]
    simpa using hne
  have hread : List.Forall₂ (fun text condition => readCondition text = some condition)
      ((parts.map text).filter (· ≠ "")) conditions := by
    rw [htexts, List.forall₂_map_left_iff]
    exact h.imp fun _ _ hsays => hsays.read
  refine ⟨?_, ?_⟩
  · rw [htext]
    exact joinTexts_ne_empty how hnonempty hread
  · rw [htext]
    exact readCondition_joinTexts how hnonempty hread

/-- Parts without text do not count. -/
theorem joinTexts_filter (separator : String) (parts : List Fragment) :
    joinTexts separator ((parts.filter (·.text ≠ "")).map text) =
      joinTexts separator (parts.map text) := by
  have htexts : (parts.filter (·.text ≠ "")).map text = (parts.map text).filter (· ≠ "") := by
    rw [List.filter_map]
    rfl
  rw [htexts, joinTexts, joinTexts, List.filter_filter]
  simp only [Bool.and_self]

/-- What fragments say when they are joined, if those of them that have a text say something. -/
theorem says_filtered (how : Join) {fragment : Fragment} {parts : List Fragment}
    {conditions : List (Condition String)}
    (htext : fragment.text = joinTexts (separator how) (parts.map text))
    (h : List.Forall₂ Says (parts.filter (·.text ≠ "")) conditions) :
    (conditions = [] → fragment.text = "") ∧
      (conditions ≠ [] → fragment.Says (merge how conditions)) := by
  rw [← joinTexts_filter] at htext
  constructor
  · rintro rfl
    rw [htext, List.forall₂_nil_right_iff.mp h]
    rfl
  · intro hne
    refine says_joined how htext ?_ h
    intro hnone
    rw [hnone] at h
    exact hne (List.forall₂_nil_left_iff.mp h)

theorem text_all (parts : List Fragment) :
    (all parts).text = joinTexts " AND " (parts.map text) := by
  rw [text, texts_eq_map]

theorem text_any (parts : List Fragment) :
    (any parts).text = joinTexts " OR " (parts.map text) := by
  rw [text, texts_eq_map]

theorem says_all {parts : List Fragment} {conditions : List (Condition String)} (hne : parts ≠ [])
    (h : List.Forall₂ Says parts conditions) : (all parts).Says (.conjunction conditions) :=
  says_joined .and (text_all parts) hne h

theorem says_any {parts : List Fragment} {conditions : List (Condition String)} (hne : parts ≠ [])
    (h : List.Forall₂ Says parts conditions) : (any parts).Says (.disjunction conditions) :=
  says_joined .or (text_any parts) hne h

end Fragment

end PagedSearch
