import Mathlib.Control.Monad.Basic
import Mathlib.Data.String.Basic
import PagedSearch.Proofs.Grammar
import PagedSearch.Proofs.Scanning

/-!
# Where parsing stops

A filter that is refused is refused at the first place where it cannot go on.  The lexemes that have
been taken up to there can be completed to a filter: every list and call that they leave open can be
closed, and every comparison that they leave unfinished can be finished.  The lexeme that is refused
takes that away from them.

That what has been taken can be completed follows from `State.Reads`, which says what lexemes are
behind a state of the parser.  That what is refused cannot be completed follows from
`parseLexemes_eq_ok_iff`, since a run of the parser does not survive a step that fails.

## Main definitions

* `IsAccepted`, `IsViable` — lists of lexemes that are a filter, or the start of one.
* `BreaksOff` — what a parse error says about a text.

## Main results

* `State.Reads.isViable` — what a state of the parser has behind it is viable.
* `not_isViable_of_step` — what makes a step fail is not.
* `parse_error_breaksOff` — a parse error says where the text breaks off.
-/

namespace PagedSearch

namespace Parsing

/-! ### Viable lists of lexemes -/

/-- The lexemes are those of a filter. -/
def IsAccepted (lexemes : List Lexeme) : Prop :=
  lexemes = [] ∨ ∃ groups, IsGroups .and lexemes groups

/-- The lexemes can be extended to those of a filter. -/
def IsViable (lexemes : List Lexeme) : Prop := ∃ more, IsAccepted (lexemes ++ more)

/-- An operand, for places where one is missing. -/
def somethingNamed : Lexeme := .identifier "x"

theorem isOperand_somethingNamed : IsOperand [somethingNamed] (.identifier "x") := .identifier "x"

/-- Calls whose last argument is complete can be closed. -/
theorem PendingCalls.exists_isOperand {within last : List Lexeme} {calls : List OpenCall}
    {operand : Operand} (h : PendingCalls within calls) (hlast : IsOperand last operand) :
    ∃ more result, IsOperand (within ++ last ++ more) result := by
  induction h generalizing last operand with
  | none => exact ⟨[], operand, by simpa using hlast⟩
  | add call _ hoperands ih =>
    -- The innermost call ends, and is an argument of the one around it.
    have hcall := IsOperand.call call.name (hoperands.isOperands (.last hlast))
    obtain ⟨more, result, hresult⟩ := ih hcall
    exact ⟨.closeParen :: more, result, by simpa using hresult⟩

/-- A comparison of which one side is complete can be finished. -/
theorem PendingSlot.exists_isItem (join : Join) {side last : List Lexeme} {slot : Slot}
    {operand : Operand} (h : PendingSlot side slot) (hlast : IsOperand last operand) :
    ∃ more group, IsItem join (side ++ last ++ more) group := by
  cases h with
  | left =>
    have hitem := IsItem.comparison join .equal hlast isOperand_somethingNamed
    exact ⟨_, _, hitem⟩
  | right comparator hleft =>
    have hitem := IsItem.comparison join comparator hleft hlast
    exact ⟨[], _, by simpa using hitem⟩

/-- Wherever the parser is in the innermost open list, that list can be completed. -/
theorem Place.Reads.exists_isGroups {place : Place} {inside : List Lexeme} {inner : OpenList}
    (h : place.Reads inside inner) :
    ∃ more groups, IsGroups .and (inside ++ more) groups := by
  -- A side of a comparison that is complete but for the calls around it can be completed.
  have hside {before side within last : List Lexeme} {slot : Slot} {calls : List OpenCall}
      {operand : Operand} (hgroups : PendingGroups before inner) (hslot : PendingSlot side slot)
      (hcalls : PendingCalls within calls) (hlast : IsOperand last operand) :
      ∃ more groups, IsGroups .and (before ++ side ++ within ++ last ++ more) groups := by
    obtain ⟨more, result, hresult⟩ := hcalls.exists_isOperand hlast
    obtain ⟨more', group, hitem⟩ := hslot.exists_isItem inner.join hresult
    exact ⟨more ++ more', _, by simpa using hgroups.isGroups (.last hitem)⟩
  cases h with
  | item hgroups =>
    obtain ⟨more, groups, h⟩ := hside hgroups .left .none isOperand_somethingNamed
    exact ⟨somethingNamed :: more, groups, by simpa using h⟩
  | operand hgroups hslot hcalls =>
    obtain ⟨more, groups, h⟩ := hside hgroups hslot hcalls isOperand_somethingNamed
    exact ⟨somethingNamed :: more, groups, by simpa using h⟩
  | argumentEnd name hgroups hslot hcalls hoperands hlast =>
    have hcall := IsOperand.call name (hoperands.isOperands (.last hlast))
    obtain ⟨more, groups, h⟩ := hside hgroups hslot hcalls hcall
    exact ⟨.closeParen :: more, groups, by simpa using h⟩
  | comparator hgroups hleft =>
    obtain ⟨more, groups, h⟩ := hside hgroups .left .none hleft
    exact ⟨more, groups, by simpa using h⟩
  | itemEnd hgroups hitem => exact ⟨[], _, by simpa using hgroups.isGroups (.last hitem)⟩

/-- Lists that are open can be closed, from the innermost outwards. -/
theorem PendingLists.exists_isGroups {before inside : List Lexeme}
    {outer : List (OpenList × Nat)} {groups : List Group} (h : PendingLists before outer)
    (hinside : IsGroups .and inside groups) :
    ∃ more result, IsGroups .and (before ++ inside ++ more) result := by
  induction h generalizing inside groups with
  | none => exact ⟨[], groups, by simpa using hinside⟩
  | @add _ _ _ list _ _ hpending ih =>
    have hnested := IsItem.nested list.join hinside
    obtain ⟨more, result, hresult⟩ := ih (hpending.isGroups (.last hnested))
    exact ⟨.closeParen :: more, result, by simpa using hresult⟩

/-- What the parser has behind it can be completed. -/
theorem State.Reads.isViable {state : State} {lexemes : List Lexeme} (h : state.Reads lexemes) :
    IsViable lexemes := by
  obtain ⟨before, inside, rfl, hlists, hplace⟩ := h
  obtain ⟨more, groups, hgroups⟩ := hplace.exists_isGroups
  obtain ⟨more', result, hresult⟩ := hlists.exists_isGroups hgroups
  exact ⟨more ++ more', .inr ⟨result, by simpa using hresult⟩⟩

/-! ### Steps that fail -/

theorem isAccepted_iff {found : List Located} (position : Nat) :
    IsAccepted (found.map Located.lexeme) ↔
      ∃ groups, parseLexemes found (.ok position) = .ok groups := by
  simp only [parseLexemes_eq_ok_iff, IsAccepted, List.map_eq_nil_iff]
  constructor
  · rintro (hnil | ⟨groups, hgroups⟩)
    · exact ⟨[], ⟨position, rfl⟩, .inl ⟨hnil, rfl⟩⟩
    · exact ⟨groups, ⟨position, rfl⟩, .inr hgroups⟩
  · rintro ⟨groups, -, ⟨hnil, -⟩ | hgroups⟩
    · exact .inl hnil
    · exact .inr ⟨groups, hgroups⟩

/-- Where a step fails, the lexemes up to it do not start any filter. -/
theorem not_isViable_of_step {before : List Located} {state : State} {found : Located}
    {e : ParseError} (hrun : State.start.Leads before state) (hstep : state.step found = .error e) :
    ¬ IsViable (before.map Located.lexeme ++ [found.lexeme]) := by
  rintro ⟨more, haccepted⟩
  -- The places of lexemes that do not stand anywhere do not matter.
  have hmap : before.map Located.lexeme ++ [found.lexeme] ++ more =
      (before ++ found :: more.map fun lexeme => ⟨lexeme, 0⟩).map Located.lexeme := by
    simp [Function.comp_def]
  rw [hmap, isAccepted_iff 0] at haccepted
  obtain ⟨groups, hparse⟩ := haccepted
  unfold State.Leads at hrun
  unfold parseLexemes at hparse
  rw [List.foldlM_append, hrun] at hparse
  simp [bind, Except.bind, hstep] at hparse

theorem State.operandStep_eq_error {state : State} {slot : Slot} {calls : List OpenCall}
    {found : Located} {e : ParseError} (h : state.operandStep slot calls found = .error e) :
    e = ⟨.unexpected (some found.lexeme) .operand, found.position⟩ := by
  obtain ⟨lexeme, position⟩ := found
  unfold State.operandStep at h
  dsimp only at h
  split at h <;> first | exact (Except.error.inj h).symm | cases h

/-- The state is right behind a parenthesis that opened a group at `opened`. -/
def State.HasOpened (state : State) (opened : Nat) : Prop :=
  state.place = .item ∧ state.inner.groups = [] ∧
    ∃ around outer, state.outer = (around, opened) :: outer

/-- A lexeme is refused in its place, but for the parenthesis that ends an empty group. -/
theorem State.step_eq_error {state : State} {found : Located} {e : ParseError}
    (h : state.step found = .error e) :
    (∃ expected, e = ⟨.unexpected (some found.lexeme) expected, found.position⟩) ∨
      found.lexeme = .closeParen ∧ e.fault = .emptyGroup ∧ state.HasOpened e.position := by
  obtain ⟨place, ⟨groups, join⟩, outer⟩ := state
  obtain ⟨lexeme, position⟩ := found
  cases place with
  | item =>
    simp only [State.step, State.itemStep] at h
    split at h
    · cases h
    · obtain rfl := Except.error.inj h
      exact .inr ⟨rfl, rfl, rfl, rfl, _, _, rfl⟩
    · exact .inl ⟨_, State.operandStep_eq_error h⟩
  | operand slot calls => exact .inl ⟨_, State.operandStep_eq_error h⟩
  | argumentEnd slot call calls =>
    simp only [State.step] at h
    split at h
    · cases h
    · cases h
    · exact .inl ⟨_, (Except.error.inj h).symm⟩
  | comparator left =>
    simp only [State.step] at h
    split at h
    · cases h
    · exact .inl ⟨_, (Except.error.inj h).symm⟩
  | itemEnd =>
    simp only [State.step, State.itemEndStep] at h
    split at h
    · cases h
    · cases h
    · exact .inl ⟨_, (Except.error.inj h).symm⟩
    · exact .inl ⟨_, (Except.error.inj h).symm⟩

theorem State.finish_eq_error {state : State} {position : Nat} {e : ParseError}
    (h : state.finish position = .error e) :
    ∃ expected, e = ⟨.unexpected none expected, position⟩ := by
  unfold State.finish at h
  dsimp only at h
  split at h <;> first | exact ⟨_, (Except.error.inj h).symm⟩ | cases h

theorem State.addOperand_place_ne_item (state : State) (slot : Slot) (calls : List OpenCall)
    (operand : Operand) : (state.addOperand slot calls operand).place ≠ .item := by
  unfold State.addOperand
  split <;> simp [State.addGroup]

theorem State.operandStep_place_ne_item {state next : State} {slot : Slot} {calls : List OpenCall}
    {found : Located} (h : state.operandStep slot calls found = .ok next) : next.place ≠ .item := by
  unfold State.operandStep at h
  split at h
  case h_4 =>
    -- A call opens, and an argument of it is due.
    obtain rfl := Except.ok.inj h
    simp
  case h_6 => cases h
  all_goals
    obtain rfl := Except.ok.inj h
    exact State.addOperand_place_ne_item _ _ _ _

/-- Only a parenthesis that opens a group leads right behind one. -/
theorem State.Reads.opening_of_step {state next : State} {lexemes : List Lexeme} {found : Located}
    {opened : Nat} (h : state.Reads lexemes) (hstep : state.step found = .ok next)
    (hopened : next.HasOpened opened) : found = ⟨.openParen, opened⟩ := by
  obtain ⟨before, inside, rfl, -, hplace⟩ := h
  obtain ⟨place, inner, outer⟩ := state
  obtain ⟨lexeme, position⟩ := found
  obtain ⟨hitem, hgroups, around, others, houter⟩ := hopened
  cases hplace with
  | item _ =>
    simp only [State.step, State.itemStep] at hstep
    split at hstep
    · obtain rfl := Except.ok.inj hstep
      obtain ⟨h, -⟩ := List.cons.inj houter
      obtain ⟨-, rfl⟩ := Prod.mk.inj h
      rfl
    · cases hstep
    · exact absurd hitem (State.operandStep_place_ne_item hstep)
  | operand _ _ _ => exact absurd hitem (State.operandStep_place_ne_item hstep)
  | argumentEnd _ _ _ _ _ _ =>
    simp only [State.step] at hstep
    split at hstep
    · obtain rfl := Except.ok.inj hstep
      cases hitem
    · obtain rfl := Except.ok.inj hstep
      exact absurd hitem (State.addOperand_place_ne_item _ _ _ _)
    · cases hstep
  | comparator _ _ =>
    simp only [State.step] at hstep
    split at hstep
    · obtain rfl := Except.ok.inj hstep
      cases hitem
    · cases hstep
  | itemEnd _ _ =>
    simp only [State.step, State.itemEndStep] at hstep
    split at hstep
    · -- Behind a join there is a group in the list.
      obtain rfl := Except.ok.inj hstep
      cases hgroups
    · obtain rfl := Except.ok.inj hstep
      cases hitem
    · cases hstep
    · cases hstep

theorem State.Leads.reads {found : List Located} {state : State}
    (h : State.start.Leads found state) : state.Reads (found.map Located.lexeme) := by
  simpa using State.Reads.start.run h

/-- The last step of a run. -/
theorem State.Leads.exists_last {state next : State} {before : List Located} {last : Located}
    (h : state.Leads (before ++ [last]) next) :
    ∃ middle, state.Leads before middle ∧ middle.step last = .ok next := by
  unfold State.Leads at *
  rw [List.foldlM_append] at h
  cases hbefore : before.foldlM State.step state with
  | error e => simp [hbefore, bind, Except.bind] at h
  | ok middle =>
    refine ⟨middle, rfl, ?_⟩
    cases hlast : middle.step last with
    | error e => simp [hbefore, bind, Except.bind, hlast] at h
    | ok next' => simpa [hbefore, bind, Except.bind, hlast, pure, Except.pure] using h

/-- The parenthesis that opened an empty group is the last lexeme that was read. -/
theorem State.Leads.exists_opening {found : List Located} {state : State} {opened : Nat}
    (h : State.start.Leads found state) (hopened : state.HasOpened opened) :
    ∃ before, found = before ++ [⟨.openParen, opened⟩] := by
  rcases List.eq_nil_or_concat found with rfl | ⟨before, last, rfl⟩
  · obtain rfl := Except.ok.inj h
    obtain ⟨-, -, _, _, houter⟩ := hopened
    cases houter
  · rw [List.concat_eq_append] at h ⊢
    obtain ⟨middle, hbefore, hstep⟩ := h.exists_last
    exact ⟨before, by rw [hbefore.reads.opening_of_step hstep hopened]⟩

/-- A run of the parser fails at some step, or it does not. -/
theorem State.exists_of_foldlM_eq_error {state : State} {found : List Located} {e : ParseError}
    (h : found.foldlM State.step state = .error e) :
    ∃ before last after middle, found = before ++ last :: after ∧ state.Leads before middle ∧
      middle.step last = .error e := by
  induction found generalizing state with
  | nil => cases h
  | cons first rest ih =>
    rw [List.foldlM_cons] at h
    cases hstep : state.step first with
    | error e' =>
      obtain rfl : e' = e := by simpa [hstep, bind, Except.bind] using h
      exact ⟨[], first, rest, state, rfl, .nil state, hstep⟩
    | ok next =>
      obtain ⟨before, last, after, middle, rfl, hrun, hlast⟩ :=
        ih (by simpa [hstep, bind, Except.bind] using h)
      exact ⟨first :: before, last, after, middle, rfl, .cons hstep hrun, hlast⟩

end Parsing

/-! ### Where a text breaks off -/

open Lexing Parsing

/-- What a parse error says about a text.  In each case the lexemes in front of the place where the
text breaks off can be completed to those of a filter. -/
inductive BreaksOff (text : List Char) : ParseError → Prop where
  /-- Neither a blank nor a lexeme can be read there. -/
  | unread {before taken rest : List Char} {lexemes : List Lexeme} {fault : ParseFault} :
    text = before ++ (taken ++ rest) → Scans before lexemes (taken ++ rest) → IsViable lexemes →
      taken ++ rest ≠ [] →
      (∀ word more stretch, taken ++ rest = word ++ more → ¬ IsRead word more stretch) →
      IsLexical fault → FaultTakes fault taken rest →
      BreaksOff text ⟨fault, byteLength (before ++ taken)⟩
  /-- A lexeme is read there that no filter has behind those in front of it. -/
  | refused {before word rest : List Char} {lexemes : List Lexeme} {found : Lexeme}
    (expected : Expected) :
    text = before ++ (word ++ rest) → Scans before lexemes (word ++ rest) →
      IsRead word rest (.lexeme found) → IsViable lexemes → ¬ IsViable (lexemes ++ [found]) →
      BreaksOff text ⟨.unexpected (some found) expected, byteLength before⟩
  /-- The text ends there, and its lexemes are no filter. -/
  | early {lexemes : List Lexeme} (expected : Expected) :
    Scans text lexemes [] → IsViable lexemes → ¬ IsAccepted lexemes →
      BreaksOff text ⟨.unexpected none expected, byteLength text⟩
  /-- A group ends there that is empty.  Its place is that of the parenthesis that opens it. -/
  | emptyGroup {before opening between closing rest : List Char} {lexemes : List Lexeme} :
    text = before ++ (opening ++ (between ++ (closing ++ rest))) →
      Scans before lexemes (opening ++ (between ++ (closing ++ rest))) →
      IsRead opening (between ++ (closing ++ rest)) (.lexeme .openParen) →
      Scans between [] (closing ++ rest) → IsRead closing rest (.lexeme .closeParen) →
      IsViable (lexemes ++ [.openParen]) → ¬ IsViable (lexemes ++ [.openParen, .closeParen]) →
      BreaksOff text ⟨.emptyGroup, byteLength before⟩

/-- Where a text breaks off, a character starts or the text ends. -/
theorem BreaksOff.exists_append {text : List Char} {e : ParseError} (h : BreaksOff text e) :
    ∃ before after, text = before ++ after ∧ e.position = byteLength before := by
  cases h with
  | unread htext _ _ _ _ _ _ => exact ⟨_, _, by rw [htext, List.append_assoc], rfl⟩
  | refused _ htext _ _ _ _ => exact ⟨_, _, htext, rfl⟩
  | early _ _ _ _ => exact ⟨text, [], by rw [List.append_nil], rfl⟩
  | emptyGroup htext _ _ _ _ _ _ => exact ⟨_, _, htext, rfl⟩

/-- A step that fails breaks off the text in which its lexeme was found. -/
theorem breaksOff_of_step {text : List Char} {before after : List Located} {last : Located}
    {ending : Except ParseError Nat} {state : State} {e : ParseError}
    (hcollects : Collects 0 text (before ++ last :: after) ending)
    (hrun : State.start.Leads before state) (hstep : state.step last = .error e) :
    BreaksOff text e := by
  have hviable := hrun.reads.isViable
  have hnot := not_isViable_of_step hrun hstep
  rcases State.step_eq_error hstep with ⟨expected, rfl⟩ | ⟨hclose, hfault, hopened⟩
  · obtain ⟨start, word, rest, rfl, hscans, hread, hposition, -⟩ := hcollects.at_append
    rw [hposition, Nat.zero_add]
    exact .refused expected rfl hscans hread hviable hnot
  · obtain ⟨lexeme, position⟩ := last
    obtain rfl : lexeme = .closeParen := hclose
    -- The parenthesis that opened the group is the lexeme before the one that closes it.
    obtain ⟨before, rfl⟩ := hrun.exists_opening hopened
    rw [List.append_assoc] at hcollects
    obtain ⟨start, opening, rest, rfl, hscans, hopening, hposition, hrest⟩ := hcollects.at_append
    obtain ⟨between, closing, rest, rfl, hbetween, hclosing, -, -⟩ := hrest.first
    obtain ⟨fault, position⟩ := e
    obtain rfl : fault = .emptyGroup := hfault
    obtain rfl : position = byteLength start := by simpa using hposition
    rw [List.map_append] at hviable hnot
    exact .emptyGroup rfl hscans hopening hbetween hclosing hviable (by simpa using hnot)

/-- What `parseLexemes` reports breaks off the text in which the lexemes were found. -/
theorem breaksOff_of_parseLexemes {text : List Char} {found : List Located}
    {ending : Except ParseError Nat} {e : ParseError} (hcollects : Collects 0 text found ending)
    (h : parseLexemes found ending = .error e) : BreaksOff text e := by
  unfold parseLexemes at h
  cases hrun : found.foldlM State.step .start with
  | error e' =>
    obtain rfl : e' = e := by simpa [hrun, bind, Except.bind] using h
    obtain ⟨before, last, after, state, rfl, hleads, hstep⟩ :=
      State.exists_of_foldlM_eq_error hrun
    exact breaksOff_of_step hcollects hleads hstep
  | ok state =>
    have hviable := (State.Leads.reads hrun).isViable
    cases ending with
    | error e' =>
      obtain rfl : e' = e := by simpa [hrun, bind, Except.bind] using h
      obtain ⟨before, first, rest, offset, rfl, hscans, hfault, hposition⟩ := hcollects.fault_at
      obtain ⟨hlexical, taken, after, htext, rfl, htakes⟩ := exists_taken_of_fault hfault
      obtain ⟨fault, position⟩ := e'
      obtain rfl : position = byteLength (before ++ taken) := by
        simpa [byteLength_append] using hposition
      rw [htext] at hscans ⊢
      refine .unread rfl hscans hviable (by simp [← htext]) ?_ hlexical htakes
      intro word more stretch hword
      exact not_isRead_of_fault hfault (htext.trans hword)
    | ok position =>
      have hfinish : state.finish position = .error e := by
        simpa [hrun, bind, Except.bind] using h
      obtain ⟨expected, rfl⟩ := State.finish_eq_error hfinish
      obtain ⟨hscans, hposition⟩ := hcollects.scans
      rw [hposition, Nat.zero_add]
      refine .early expected hscans hviable fun haccepted => ?_
      obtain ⟨groups, hparse⟩ := (isAccepted_iff position).mp haccepted
      unfold parseLexemes at hparse
      simp [hrun, bind, Except.bind, hfinish] at hparse

theorem byteLength_eq_utf8ByteSize (text : List Char) :
    byteLength text = (String.ofList text).utf8ByteSize := by
  rw [String.utf8ByteSize_ofList]
  induction text with
  | nil => rfl
  | cons c rest ih =>
    rw [String.utf8Len_cons, ← ih]
    simp [byteLength]
    omega

/-- **A parse error says where the filter breaks off.**  Its position is between two characters of
the filter, or at one of its ends.  The lexemes in front of the place where the filter breaks off
can be completed to those of a filter, and with what is found there they cannot: no lexeme can be
read there, or one that no filter has there, or the end. -/
theorem parse_error_breaksOff {filter : String} {e : ParseError} (h : parse filter = .error e) :
    BreaksOff filter.toList e ∧ (String.Pos.Raw.mk e.position).IsValid filter ∧
      e.position ≤ filter.utf8ByteSize := by
  have hbreaks : BreaksOff filter.toList e :=
    breaksOff_of_parseLexemes (collects 0 filter.toList) h
  have hvalid : (String.Pos.Raw.mk e.position).IsValid filter := by
    obtain ⟨before, after, htext, hposition⟩ := hbreaks.exists_append
    refine String.Pos.Raw.isValid_iff_exists_append.mpr
      ⟨String.ofList before, String.ofList after, ?_, ?_⟩
    · rw [← String.ofList_append, ← htext, String.ofList_toList]
    · rw [hposition, byteLength_eq_utf8ByteSize]
      rfl
  exact ⟨hbreaks, hvalid, hvalid.le_utf8ByteSize⟩

/-- A group with a call in it is not closed, and a name of two bytes is in front of the place. -/
theorem unclosedGroup_breaksOff :
    parse "(é = f('x', 1) b" = .error ⟨.unexpected (some (.identifier "b")) .groupEnd, 16⟩ ∧
      BreaksOff "(é = f('x', 1) b".toList ⟨.unexpected (some (.identifier "b")) .groupEnd, 16⟩ ∧
      (String.Pos.Raw.mk 16).IsValid "(é = f('x', 1) b" ∧
      16 ≤ "(é = f('x', 1) b".utf8ByteSize := by
  have h : parse "(é = f('x', 1) b" =
      .error ⟨.unexpected (some (.identifier "b")) .groupEnd, 16⟩ := by decide +kernel
  exact ⟨h, parse_error_breaksOff h⟩

end PagedSearch
