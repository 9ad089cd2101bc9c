import Mathlib.Data.List.TakeWhile
import PagedSearch.Field.Pattern.Parsing
import PagedSearch.Proofs.Lexemes

/-!
# Patterns with a dollar behind them

An entry of an allow-list has a `$` behind the text of its pattern.  The readers of patterns look
ahead, at a closing brace or bracket that may be far away and at the one or two characters behind
them.  But none of them takes a `$` for a part of what it has read without it: what is read of a
text is read of the text with a `$` behind it, and the `$` is left.

## Main definitions

* `Pattern.GoesOn` — readers that leave a `$` behind their text.

## Main results

* `Pattern.escape?_goesOn`, `Pattern.bracketed?_goesOn`, `Pattern.opening?_goesOn` — the readers of
  escapes, of sets and of groups.
* `Pattern.item?_goesOn` — an item is read the same.
* `Pattern.items?_dollar` — what is known behind the `$`.
-/

namespace PagedSearch.Pattern

/-! ### Stretches -/

section Stretches

variable {p : Char → Bool} {text rest : List Char} {c : Char}

theorem takeWhile_append_of_dropWhile (h : text.dropWhile p = c :: rest) (tail : List Char) :
    (text ++ tail).takeWhile p = text.takeWhile p := by
  have hc : p c = false := by
    have hhead := List.head?_dropWhile_not p text
    rwa [h] at hhead
  have hmem : c ∈ text.dropWhile p := h ▸ List.mem_cons_self
  exact Text.takeWhile_append_of_mem ((List.dropWhile_sublist p).subset hmem) hc tail

theorem dropWhile_append_of_dropWhile (h : text.dropWhile p = c :: rest) (tail : List Char) :
    (text ++ tail).dropWhile p = c :: (rest ++ tail) := by
  rw [List.dropWhile_append, h]
  rfl

theorem takeWhile_concat (hc : p c = false) (text : List Char) :
    (text ++ [c]).takeWhile p = text.takeWhile p :=
  Text.takeWhile_append_of_head? (by simpa using hc) text

/-- A stretch ends in front of a character that is not in it. -/
theorem dropWhile_concat (hc : p c = false) (text : List Char) :
    (text ++ [c]).dropWhile p = text.dropWhile p ++ [c] := by
  induction text with
  | nil => simp [hc]
  | cons d text ih => by_cases hd : p d = true <;> simp [hd, ih]

/-- A stretch goes on over a character that is in it. -/
theorem dropWhile_concat_eq_nil (hc : p c = true) (h : text.dropWhile p = []) :
    (text ++ [c]).dropWhile p = [] := by
  rw [List.dropWhile_append, h]
  simp [hc]

end Stretches

/-! ### Readers that go on -/

/-- A reader that reads the same with a `$` behind the text, and leaves it. -/
def GoesOn {α : Type} (reader : List Char → Option (α × List Char)) : Prop :=
  ∀ text a rest, reader text = some (a, rest) → reader (text ++ ['$']) = some (a, rest ++ ['$'])

section Readers

variable {α β : Type} {reader : List Char → Option (α × List Char)}

/-- Only the text itself starts with another character than the `$`. -/
theorem exists_cons_of_concat {c : Char} (hc : c ≠ '$') {text rest : List Char}
    (h : text ++ ['$'] = c :: rest) : ∃ body, text = c :: body := by
  cases text with
  | nil => exact absurd (List.cons.inj h).1.symm hc
  | cons d body => exact ⟨body, by rw [(List.cons.inj h).1]⟩

theorem GoesOn.map (h : GoesOn reader) (f : α → β) :
    GoesOn fun text => (reader text).map fun (a, rest) => (f a, rest) := by
  intro text b rest hread
  obtain ⟨⟨a, after⟩, ha, heq⟩ := Option.map_eq_some_iff.mp hread
  obtain ⟨rfl, rfl⟩ := Prod.mk.inj heq
  show Option.map _ (reader (text ++ ['$'])) = _
  rw [h _ _ _ ha]
  rfl

theorem GoesOn.bind (h : GoesOn reader) (f : α → Option β) :
    GoesOn fun text => do
      let (a, rest) ← reader text
      return (← f a, rest) := by
  intro text b rest hread
  obtain ⟨⟨a, after⟩, ha, hread⟩ := Option.bind_eq_some_iff.mp hread
  obtain ⟨found, hfound, hread⟩ := Option.bind_eq_some_iff.mp hread
  obtain ⟨rfl, rfl⟩ := Prod.mk.inj (Option.some.inj hread)
  show (reader (text ++ ['$']) >>= _) = _
  rw [h _ _ _ ha]
  show (f a >>= _) = _
  rw [hfound]
  rfl

/-- A closing brace is found in front of a `$` or not at all. -/
theorem braced?_dollar (text : List Char) :
    braced? (text ++ ['$']) = (braced? text).map fun (name, rest) => (name, rest ++ ['$']) := by
  unfold braced?
  cases hdrop : text.dropWhile (· ≠ '\x7d') with
  | nil => rw [dropWhile_concat_eq_nil (by decide) hdrop]; rfl
  | cons c rest =>
    rw [dropWhile_append_of_dropWhile hdrop, takeWhile_append_of_dropWhile hdrop]
    rfl

theorem braced?_goesOn : GoesOn braced? := by
  intro text name rest h
  rw [braced?_dollar, h]
  rfl

theorem hexEscape?_goesOn (count : Nat) : GoesOn (hexEscape? count) := by
  intro text c rest h
  unfold hexEscape? at h
  split at h
  · exact braced?_goesOn.bind hexChar? _ _ _ h
  · rename_i hbrace
    unfold hexEscape?
    split
    · rename_i hbody
      obtain ⟨body, hbody⟩ := exists_cons_of_concat (by decide) hbody
      exact absurd hbody (hbrace body)
    · split at h
      · cases h
      · rename_i hlength
        have hlength' : ¬ (text ++ ['$']).length < count := by
          rw [List.length_append]
          omega
        obtain ⟨found, hfound, h⟩ := Option.bind_eq_some_iff.mp h
        obtain ⟨rfl, rfl⟩ := Prod.mk.inj (Option.some.inj h)
        rw [if_neg hlength', List.take_append_of_le_length (Nat.not_lt.mp hlength),
          List.drop_append_of_le_length (Nat.not_lt.mp hlength), hfound]
        rfl

theorem bracedClass?_goesOn : GoesOn bracedClass? :=
  braced?_goesOn.bind fun name => CharSet.named? (plainName name)

theorem namedClass?_goesOn : GoesOn namedClass? := by
  intro text set rest h
  fun_cases namedClass? text with
  | case1 body => exact bracedClass?_goesOn.map CharSet.complement _ _ _ h
  | case2 body hcaret =>
    cases body with
    | nil => cases h
    | cons c body =>
      have hc : c ≠ '^' := fun hc => hcaret body (by rw [hc])
      have hplain (tail : List Char) :
          namedClass? ('\x7b' :: c :: tail) = bracedClass? (c :: tail) := by
        simp [namedClass?, hc]
      rw [hplain] at h
      exact (hplain _).trans (bracedClass?_goesOn _ _ _ h)
  | case3 c body hcaret hbrace =>
    have hplain (tail : List Char) : namedClass? (c :: tail) =
        (CharSet.named? [c.toLower]).map fun set => (set, tail) := by
      rw [namedClass?]
      · exact fun _ hc _ => hbrace hc
      · exact hbrace
    rw [hplain] at h
    obtain ⟨found, hfound, heq⟩ := Option.map_eq_some_iff.mp h
    obtain ⟨rfl, rfl⟩ := Prod.mk.inj heq
    exact (hplain _).trans (by rw [hfound]; rfl)
  | case4 => cases h

theorem boundary_dollar (text : List Char) :
    boundary (text ++ ['$']) = ((boundary text).1, (boundary text).2 ++ ['$']) := by
  cases text with
  | nil => rfl
  | cons c body =>
    by_cases hc : c = '\x7b'
    · subst hc
      rw [List.cons_append, boundary, boundary, braced?_dollar]
      cases braced? body with
      | none => rfl
      | some found =>
        dsimp only [Option.map_some]
        split <;> rfl
    · simp [boundary, hc]

theorem escape?_goesOn : GoesOn escape? := by
  intro text escape rest h
  cases text with
  | nil => cases h
  | cons c body =>
    unfold escape? at h
    dsimp only at h
    split at h
    case h_1 | h_2 | h_3 => exact (hexEscape?_goesOn _).map _ _ _ _ h
    case h_4 => exact namedClass?_goesOn.map Escape.set _ _ _ h
    case h_5 => exact namedClass?_goesOn.map (fun set => Escape.set set.complement) _ _ _ h
    case h_20 =>
      obtain ⟨rfl, rfl⟩ := Prod.mk.inj (Option.some.inj h)
      show some (Escape.anchor (boundary (body ++ ['$'])).1, (boundary (body ++ ['$'])).2) = _
      rw [boundary_dollar]
    case h_24 =>
      split at h
      · rename_i hplain
        obtain ⟨rfl, rfl⟩ := Prod.mk.inj (Option.some.inj h)
        rw [List.cons_append, escape?]
        · rw [if_pos hplain]
        all_goals assumption
      · cases h
    all_goals
      obtain ⟨rfl, rfl⟩ := Prod.mk.inj (Option.some.inj h)
      rfl

/-! ### Sets -/

theorem negation_dollar (text : List Char) :
    negation (text ++ ['$']) = ((negation text).1, (negation text).2 ++ ['$']) := by
  cases text with
  | nil => rfl
  | cons c text =>
    by_cases hc : c = '^'
    · subst hc
      rfl
    · simp [negation, hc]

theorem openClass_dollar (text : List Char) :
    openClass (text ++ ['$']) = ((openClass text).1, (openClass text).2 ++ ['$']) := by
  unfold openClass
  rw [negation_dollar]
  generalize negation text = start
  obtain ⟨negated, text⟩ := start
  dsimp only
  rw [Lexing.drop_length_takeWhile, Lexing.drop_length_takeWhile, takeWhile_concat (by decide),
    dropWhile_concat (by decide)]
  generalize (text.takeWhile (· == '-')).map CharSet.single = items
  cases text.dropWhile (· == '-') with
  | nil => rfl
  | cons c rest =>
    by_cases hc : c = ']'
    · subst hc
      cases items <;> rfl
    · simp [hc]

theorem asciiClass?_dollar (text : List Char) :
    asciiClass? (text ++ ['$']) =
      (asciiClass? text).map fun (set, rest) => (set, rest ++ ['$']) := by
  unfold asciiClass?
  rw [negation_dollar]
  generalize negation text = start
  obtain ⟨negated, text⟩ := start
  dsimp only
  rw [Lexing.drop_length_takeWhile, Lexing.drop_length_takeWhile]
  cases hdrop : text.dropWhile (· ≠ ':') with
  | nil => rw [dropWhile_concat_eq_nil (by decide) hdrop]; rfl
  | cons c rest =>
    rw [dropWhile_append_of_dropWhile hdrop, takeWhile_append_of_dropWhile hdrop]
    generalize CharSet.ascii? (text.takeWhile (· ≠ ':')) = found
    by_cases hc : c = ':'
    · subst hc
      cases rest with
      | nil => rfl
      | cons d rest =>
        by_cases hd : d = ']'
        · subst hd
          cases found <;> rfl
        · simp [hd]
    · simp [hc]

theorem classAtom?_goesOn : GoesOn classAtom? := by
  intro text escape rest h
  fun_cases classAtom? text with
  | case1 => cases h
  | case2 body => exact escape?_goesOn _ _ _ h
  | case3 c body hc =>
    rw [classAtom?] at h
    · obtain ⟨rfl, rfl⟩ := Prod.mk.inj (Option.some.inj h)
      rw [List.cons_append, classAtom?]
      exact hc
    · exact hc

/-- A dash at the end of the text is the one thing whose meaning depends on what follows. -/
theorem startsRange_dollar (h : rest ≠ ['-']) :
    startsRange (rest ++ ['$']) = startsRange rest := by
  match rest with
  | [] => rfl
  | [c] =>
    have hc : c ≠ '-' := fun hc => h (by rw [hc])
    simp [startsRange, hc]
  | c :: d :: more =>
    by_cases hc : c = '-'
    · subst hc
      rfl
    · simp [startsRange, hc]

theorem classItem?_dollar {set : CharSet} (h : classItem? text = some (set, rest))
    (hrest : rest ≠ ['-']) : classItem? (text ++ ['$']) = some (set, rest ++ ['$']) := by
  obtain ⟨⟨first, after⟩, hfirst, h⟩ := Option.bind_eq_some_iff.mp h
  unfold classItem?
  rw [classAtom?_goesOn _ _ _ hfirst, Option.bind_eq_bind, Option.bind_some]
  dsimp only at h ⊢
  by_cases hrange : startsRange after = true
  · have hdash : ∃ next more, after = '-' :: next :: more := by
      unfold startsRange at hrange
      split at hrange
      · exact ⟨_, _, rfl⟩
      · cases hrange
    obtain ⟨next, more, rfl⟩ := hdash
    have hrange' : startsRange ('-' :: next :: more ++ ['$']) = true := hrange
    rw [hrange] at h
    rw [hrange']
    cases first with
    | char c =>
      obtain ⟨⟨last, behind⟩, hlast, h⟩ := Option.bind_eq_some_iff.mp h
      have hlast' : classAtom? (('-' :: next :: more ++ ['$']).drop 1) =
          some (last, behind ++ ['$']) := classAtom?_goesOn _ _ _ hlast
      dsimp only
      rw [if_pos rfl, hlast']
      cases last with
      | char d =>
        rw [Option.bind_some]
        dsimp only at h ⊢
        split at h
        · rename_i hle
          obtain ⟨rfl, rfl⟩ := Prod.mk.inj (Option.some.inj h)
          rw [if_pos hle]
        · cases h
      | set | anchor => cases h
    | set | anchor => cases h
  · cases first with
    | char c | set found =>
      dsimp only at h ⊢
      rw [if_neg hrange] at h
      obtain ⟨rfl, rfl⟩ := Prod.mk.inj (Option.some.inj h)
      rw [startsRange_dollar hrest, if_neg hrange]
    | anchor condition => cases h

theorem innerAscii?_dollar (text : List Char) :
    innerAscii? (text ++ ['$']) =
      (innerAscii? text).map fun (set, rest) => (set, rest ++ ['$']) := by
  cases text with
  | nil => rfl
  | cons c text =>
    by_cases hc : c = ':'
    · subst hc
      exact asciiClass?_dollar text
    · simp [innerAscii?, hc]

theorem operation?_dollar (text : List Char) :
    operation? (text ++ ['$']) =
      (operation? text).map fun (operation, rest) => (operation, rest ++ ['$']) := by
  match text with
  | [] => rfl
  | [c] =>
    by_cases hc : c = '$'
    · subst hc
      rfl
    · simp [operation?, hc]
  | c :: d :: text =>
    by_cases hcd : c = d
    · simp [operation?, hcd, Function.comp_def]
    · simp [operation?, hcd]

/-- A set whose text ends in a dash is not closed. -/
theorem class?_dash (caseless : Bool) (fuel : Nat) (current : OpenClass) (outer : List OpenClass) :
    class? caseless fuel current outer ['-'] = none := by
  match fuel with
  | 0 | 1 | _ + 2 => rfl

/-- The loop over a set finds the same end. -/
theorem class?_dollar (caseless : Bool) {fuel more : Nat} (hmore : fuel ≤ more)
    {current : OpenClass} {outer : List OpenClass} {set : CharSet}
    (h : class? caseless fuel current outer text = some (set, rest)) :
    class? caseless more current outer (text ++ ['$']) = some (set, rest ++ ['$']) := by
  induction fuel generalizing more current outer text with
  | zero => cases h
  | succ fuel ih =>
    obtain ⟨more, rfl⟩ : ∃ fewer, more = fewer + 1 := ⟨more - 1, by omega⟩
    have hmore : fuel ≤ more := Nat.le_of_succ_le_succ hmore
    unfold class? at h
    dsimp only at h
    split at h
    · cases h
    · rename_i body
      rw [List.cons_append, class?, innerAscii?_dollar]
      cases hascii : innerAscii? body with
      | some found =>
        rw [hascii] at h
        exact ih hmore h
      | none =>
        rw [hascii] at h
        dsimp only [Option.map_none]
        rw [openClass_dollar]
        exact ih hmore h
    · cases outer with
      | nil =>
        obtain ⟨rfl, rfl⟩ := Prod.mk.inj (Option.some.inj h)
        rfl
      | cons around outer => exact ih hmore h
    · rename_i first body hopening hclosing
      rw [List.cons_append, class?]
      · rw [← List.cons_append, operation?_dollar]
        cases hoperation : operation? (first :: body) with
        | some found =>
          rw [hoperation] at h
          exact ih hmore h
        | none =>
          rw [hoperation] at h
          dsimp only [Option.map_none] at h ⊢
          obtain ⟨⟨found, after⟩, hitem, h⟩ := Option.bind_eq_some_iff.mp h
          -- a dash at the end of the text would not be closed
          have hafter : after ≠ ['-'] := by
            rintro rfl
            rw [class?_dash] at h
            cases h
          rw [classItem?_dollar hitem hafter]
          exact ih hmore h
      · exact hopening
      · exact hclosing

theorem bracketed?_goesOn (caseless : Bool) : GoesOn (bracketed? caseless) := by
  intro text set rest h
  unfold bracketed? at h ⊢
  rw [openClass_dollar]
  dsimp only at h ⊢
  have hmore : (openClass text).2.length + 1 ≤ ((openClass text).2 ++ ['$']).length + 1 := by
    rw [List.length_append]
    omega
  exact class?_dollar caseless hmore h

/-! ### Repetitions -/

theorem count?_dollar (text : List Char) :
    count? (text ++ ['$']) = ((count? text).1, (count? text).2 ++ ['$']) := by
  have hblank : Text.isBlank '$' = false := by decide +kernel
  unfold count?
  dsimp only
  rw [dropWhile_concat hblank, Lexing.drop_length_takeWhile, Lexing.drop_length_takeWhile,
    takeWhile_concat (by decide), dropWhile_concat (by decide), dropWhile_concat hblank]

theorem upperBound?_goesOn (least : Nat) : GoesOn (upperBound? least) := by
  intro text bounds rest h
  unfold upperBound? at h
  split at h
  · obtain ⟨rfl, rfl⟩ := Prod.mk.inj (Option.some.inj h)
    rfl
  · rename_i hclosed
    unfold upperBound?
    split
    · rename_i hbody
      obtain ⟨body, hbody⟩ := exists_cons_of_concat (by decide) hbody
      exact absurd hbody (hclosed body)
    · rw [count?_dollar]
      split at h
      · rename_i hcount
        rw [hcount]
        dsimp only [List.cons_append]
        split at h
        · rename_i hle
          obtain ⟨rfl, rfl⟩ := Prod.mk.inj (Option.some.inj h)
          exact if_pos hle
        · cases h
      · cases h

theorem bounds?_goesOn : GoesOn bounds? := by
  intro text bounds rest h
  unfold bounds? at h ⊢
  rw [count?_dollar]
  generalize count? text = counted at h
  obtain ⟨number, after⟩ := counted
  dsimp only
  split at h
  · rename_i heq
    obtain ⟨rfl, rfl⟩ := Prod.mk.inj heq
    exact upperBound?_goesOn _ _ _ _ h
  · rename_i heq
    obtain ⟨rfl, rfl⟩ := Prod.mk.inj heq
    obtain ⟨rfl, rfl⟩ := Prod.mk.inj (Option.some.inj h)
    rfl
  · cases h

theorem repetition?_goesOn (first : Char) : GoesOn (repetition? first) := by
  intro text bounds rest h
  unfold repetition? at h ⊢
  split at h
  case h_4 => exact bounds?_goesOn _ _ _ h
  case h_5 => cases h
  all_goals
    obtain ⟨rfl, rfl⟩ := Prod.mk.inj (Option.some.inj h)
    rfl

theorem afterLazyMark_dollar (text : List Char) :
    afterLazyMark (text ++ ['$']) = afterLazyMark text ++ ['$'] := by
  cases text with
  | nil => rfl
  | cons c text =>
    by_cases hc : c = '?'
    · subst hc
      rfl
    · simp [afterLazyMark, hc]

/-! ### Groups -/

theorem flags?_goesOn (seen : List Char) (flags : Flags) : GoesOn (flags? seen flags) := by
  intro text found rest h
  fun_induction flags? seen flags text with
  | case1 => cases h
  | case2 => cases h
  | case3 seen flags c body hend hminus =>
    obtain ⟨rfl, rfl⟩ := Prod.mk.inj (Option.some.inj h)
    rw [List.cons_append, flags?, if_pos hend, if_neg hminus]
  | case4 => cases h
  | case5 seen flags body hend hseen ih =>
    rw [List.cons_append, flags?, if_neg hend, if_neg hseen, if_pos rfl]
    exact ih h
  | case6 seen flags c body hend hseen hminus switched hswitch ih =>
    rw [List.cons_append, flags?, if_neg hend, if_neg hseen, if_neg hminus, hswitch]
    exact ih h
  | case7 => cases h

theorem groupName?_goesOn : GoesOn groupName? := by
  intro text name rest h
  unfold groupName? at h ⊢
  dsimp only at h ⊢
  rw [Lexing.drop_length_takeWhile] at h ⊢
  split at h
  · rename_i hdrop
    rw [takeWhile_append_of_dropWhile hdrop, dropWhile_append_of_dropWhile hdrop]
    dsimp only
    split at h
    · rename_i hname
      obtain ⟨rfl, rfl⟩ := Prod.mk.inj (Option.some.inj h)
      rw [if_pos hname]
    · cases h
  · cases h

theorem namedGroup?_goesOn (flags : Flags) : GoesOn (namedGroup? flags) :=
  groupName?_goesOn.map fun name => Opening.group flags (some name)

theorem flagGroup?_goesOn (flags : Flags) : GoesOn (flagGroup? flags) := by
  intro text opening rest h
  obtain ⟨⟨inner, after⟩, hflags, h⟩ := Option.bind_eq_some_iff.mp h
  have hhead : (text ++ ['$']).head? = text.head? := by
    cases text with
    | nil => cases hflags
    | cons c text => rfl
  unfold flagGroup?
  rw [flags?_goesOn _ _ _ _ _ hflags, Option.bind_eq_bind, Option.bind_some, hhead]
  cases after with
  | nil => cases h
  | cons mark after =>
    dsimp only [List.cons_append] at h ⊢
    split_ifs at h ⊢ with hmark hnone
    all_goals
      obtain ⟨rfl, rfl⟩ := Prod.mk.inj (Option.some.inj h)
      rfl

theorem opening?_goesOn (flags : Flags) : GoesOn (opening? flags) := by
  intro text opening rest h
  fun_cases opening? flags text with
  | case1 body => exact namedGroup?_goesOn _ _ _ _ h
  | case2 body => exact namedGroup?_goesOn _ _ _ _ h
  | case3 body hnamed hangle =>
    rw [opening?] at h
    · rw [List.cons_append, opening?]
      · exact flagGroup?_goesOn _ _ _ _ h
      · intro more hmore
        -- the `P` is no flag
        obtain ⟨body, rfl⟩ := exists_cons_of_concat (by decide) hmore
        cases h
      · exact fun more hmore => by
          obtain ⟨more, hmore⟩ := exists_cons_of_concat (by decide) hmore
          exact hangle more hmore
    · exact hnamed
    · exact hangle
  | case4 _ hnamed hangle hquestion =>
    have hplain (text : List Char) (hquestion : ¬ ∃ body, text = '?' :: body) :
        opening? flags text = some (.group flags none, text) := by
      rw [opening?]
      · exact fun _ heq => hquestion ⟨_, heq⟩
      · exact fun _ heq => hquestion ⟨_, heq⟩
      · exact fun _ heq => hquestion ⟨_, heq⟩
    have hstart : ¬ ∃ body, text = '?' :: body := fun ⟨body, hbody⟩ => hquestion body hbody
    rw [hplain _ hstart] at h
    obtain ⟨rfl, rfl⟩ := Prod.mk.inj (Option.some.inj h)
    exact hplain _ fun ⟨_, hbody⟩ => hstart (exists_cons_of_concat (by decide) hbody)

/-! ### Items -/

theorem atom?_goesOn (flags : Flags) (first : Char) : GoesOn (atom? flags first) := by
  intro text pattern rest h
  unfold atom? at h ⊢
  split at h
  case h_1 => exact (bracketed?_goesOn _).map Pattern.one _ _ _ h
  case h_2 => exact escape?_goesOn.map (Escape.pattern flags) _ _ _ h
  all_goals
    obtain ⟨rfl, rfl⟩ := Prod.mk.inj (Option.some.inj h)
    rfl

/-- A repetition is read with the mark behind it. -/
theorem repeated_goesOn (state : State) (first : Char) :
    GoesOn fun text => do
      let ((least, most), rest) ← repetition? first text
      return (← state.repeatLast? least most, afterLazyMark rest) := by
  intro text next rest h
  obtain ⟨⟨⟨least, most⟩, after⟩, hbounds, h⟩ := Option.bind_eq_some_iff.mp h
  obtain ⟨found, hfound, h⟩ := Option.bind_eq_some_iff.mp h
  obtain ⟨rfl, rfl⟩ := Prod.mk.inj (Option.some.inj h)
  show (repetition? first (text ++ ['$']) >>= _) = _
  rw [repetition?_goesOn _ _ _ _ hbounds]
  show (state.repeatLast? least most >>= _) = _
  rw [hfound, Option.bind_eq_bind, Option.bind_some, afterLazyMark_dollar]
  rfl

/-- An item is read the same with a `$` behind the text. -/
theorem item?_goesOn (state : State) (first : Char) : GoesOn (item? state first) := by
  intro text next rest h
  unfold item? at h ⊢
  split at h
  case h_1 => exact (opening?_goesOn _).bind state.opened? _ _ _ h
  case h_2 =>
    obtain ⟨closed, hclosed, h⟩ := Option.bind_eq_some_iff.mp h
    obtain ⟨rfl, rfl⟩ := Prod.mk.inj (Option.some.inj h)
    rw [hclosed]
    rfl
  case h_3 =>
    obtain ⟨rfl, rfl⟩ := Prod.mk.inj (Option.some.inj h)
    rfl
  case h_4 | h_5 | h_6 | h_7 => exact repeated_goesOn state _ _ _ _ h
  case h_8 =>
    obtain ⟨⟨pattern, after⟩, hatom, h⟩ := Option.bind_eq_some_iff.mp h
    obtain ⟨rfl, rfl⟩ := Prod.mk.inj (Option.some.inj h)
    rw [atom?_goesOn _ _ _ _ _ hatom]
    rfl

/-- **What is known at the end of a text, a `$` behind it adds an anchor to.** -/
theorem items?_dollar {fuel : Nat} {state last : State} {text : List Char}
    (h : items? fuel state text = some last) :
    items? (fuel + 1) state (text ++ ['$']) =
      some (last.add (.anchor (if last.flags.lines then .lineEnd else .textEnd))) := by
  induction fuel generalizing state text with
  | zero =>
    cases text with
    | nil =>
      obtain rfl := Option.some.inj h
      rfl
    | cons => cases h
  | succ fuel ih =>
    cases text with
    | nil =>
      obtain rfl := Option.some.inj h
      rfl
    | cons first text =>
      obtain ⟨⟨next, rest⟩, hitem, h⟩ := Option.bind_eq_some_iff.mp h
      rw [List.cons_append, items?, item?_goesOn _ _ _ _ _ hitem]
      exact ih h

end Readers

end PagedSearch.Pattern
