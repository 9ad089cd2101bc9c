import PagedSearch.Proofs.Templates

/-!
# One substitution for all places

Binding reads a template from left to right, but it does nothing that depends on this.  What becomes
of a character is decided by the template alone: a place of a bound value starts at it, or it is
inside of one, or it stays.  Places cannot overlap, since the brace that starts a place is no part of
a name, so exactly one of the three is the case, and what comes from a value is never looked at.

## Main definitions

* `Binding.IsLastValue` — the value that counts for a name.
* `Binding.Occurs` — where the places of values are.
* `Binding.Becomes`, `Binding.AreFates` — what becomes of the character at a position of a template,
  and of all its characters.

## Main results

* `Binding.becomes_append` — what becomes of a text does not depend on what is in front of it, unless
  a place reaches into it.
* `bindTemplate_substitutes` — binding is what becomes of all characters, in order.
-/

namespace PagedSearch

namespace Binding

/-! ### Where values belong -/

/-- Of the values for a name, this is the last one. -/
def IsLastValue (values : List (String × Json)) (name : List Char) (value : Json) : Prop :=
  ∃ before after, values = before ++ (String.ofList name, value) :: after ∧
    ∀ pair ∈ after, pair.1 ≠ String.ofList name

/-- At a position of a template the place of a value starts. -/
structure Occurs (values : List (String × Json)) (template : List Char) (position : Nat)
    (name : List Char) (value : Json) : Prop where
  /-- The place has a name. -/
  ne_nil : name ≠ []
  /-- The name has letters, digits and underscores only. -/
  isNamePart : name.all isNamePart = true
  /-- The name stands there, with the braces and the colon around it. -/
  isPrefix : place name <+: template.drop position
  /-- The name has the value. -/
  isLastValue : IsLastValue values name value

/-- What becomes of the character at a position of a template, which is seen in the template
alone. -/
inductive Becomes (values : List (String × Json)) (template : List Char) (position : Nat) :
    List Char → Prop where
  /-- The place of a value starts with it, and the literal of the value is put there. -/
  | literal {name : List Char} {value : Json} : Occurs values template position name value →
      Becomes values template position value.literal.toList
  /-- It is further inside of such a place, and nothing is left of it. -/
  | covered {start : Nat} {name : List Char} {value : Json} :
      Occurs values template start name value → start < position →
        position < start + (place name).length → Becomes values template position []
  /-- It is in no place of a value, and stays as it is. -/
  | kept {c : Char} : template[position]? = some c →
      (∀ start name value, Occurs values template start name value → start ≤ position →
        start + (place name).length ≤ position) → Becomes values template position [c]

variable {values : List (String × Json)} {name : List Char} {value : Json}

theorem value?_eq_some_iff : value? values name = some value ↔ IsLastValue values name value := by
  rw [value?, List.lookup_eq_some_iff]
  constructor
  · rintro ⟨after, before, hvalues, hafter⟩
    refine ⟨before.reverse, after.reverse, ?_, fun pair hpair hname => ?_⟩
    · rw [← List.reverse_reverse values, hvalues]
      simp
    · have hne := hafter pair (List.mem_reverse.mp hpair)
      rw [hname] at hne
      simp at hne
  · rintro ⟨before, after, rfl, hafter⟩
    refine ⟨after.reverse, before.reverse, by simp, fun pair hpair => ?_⟩
    exact bne_iff_ne.mpr (Ne.symm (hafter pair (List.mem_reverse.mp hpair)))

namespace Occurs

variable {template front text after : List Char} {position : Nat}

theorem isBound (h : Occurs values template position name value) : IsBound values name where
  ne_nil := h.ne_nil
  isNamePart := h.isNamePart
  isSome_value? := by rw [value?_eq_some_iff.mpr h.isLastValue]; rfl

/-- Where a text starts with the place of a bound value, that value occurs. -/
theorem of_isBound (hbound : IsBound values name) (hvalue : value? values name = some value)
    (after : List Char) : Occurs values (place name ++ after) 0 name value :=
  ⟨hbound.ne_nil, hbound.isNamePart, List.prefix_append _ _, value?_eq_some_iff.mp hvalue⟩

theorem startsPlace (h : Occurs values text 0 name value) : StartsPlace values text := by
  obtain ⟨after, hafter⟩ := h.isPrefix
  exact ⟨after, name, h.isBound, hafter.symm⟩

/-- Whether a value occurs depends on nothing in front of its place. -/
theorem append_iff : Occurs values (front ++ text) (front.length + position) name value ↔
    Occurs values text position name value := by
  have hdrop : (front ++ text).drop (front.length + position) = text.drop position := by
    rw [← List.drop_drop, List.drop_left' rfl]
  constructor
  · rintro ⟨hne, hname, hprefix, hvalue⟩
    exact ⟨hne, hname, hdrop ▸ hprefix, hvalue⟩
  · rintro ⟨hne, hname, hprefix, hvalue⟩
    exact ⟨hne, hname, hdrop ▸ hprefix, hvalue⟩

/-- Two places do not start at the same position. -/
theorem name_eq {other : List Char} {otherValue : Json}
    (h : Occurs values template position name value)
    (h' : Occurs values template position other otherValue) : name = other := by
  obtain ⟨after, hafter⟩ := h.isPrefix
  obtain ⟨after', hafter'⟩ := h'.isPrefix
  have hname := placeName?_place h.ne_nil h.isNamePart after
  rw [hafter, ← hafter', placeName?_place h'.ne_nil h'.isNamePart] at hname
  exact (Option.some.inj hname).symm

/-- No place starts inside of another one. -/
theorem length_le_of_pos {start : Nat} {other : List Char}
    (h : Occurs values (place other ++ after) start name value)
    (hother : other.all Binding.isNamePart = true) (hstart : 0 < start) :
    (place other).length ≤ start := by
  refine Nat.le_of_not_lt fun hlt => ?_
  obtain ⟨rest, hrest⟩ := h.isPrefix
  rw [List.drop_append_of_le_length (Nat.le_of_lt hlt)] at hrest
  -- The brace that the inner place starts with would be in the tail of the outer one.
  obtain ⟨start, rfl⟩ : ∃ k, start = k + 1 := ⟨start - 1, by omega⟩
  have htail : (place other).drop (start + 1) = (':' :: (other ++ ['}'])).drop start := rfl
  have hlength : start < (':' :: (other ++ ['}'])).length := by
    simp [place] at hlt ⊢
    omega
  rw [htail, List.drop_eq_getElem_cons hlength] at hrest
  have hbrace := (List.cons.inj hrest).1
  exact notMem_placeTail hother (hbrace ▸ List.getElem_mem hlength)

end Occurs

/-! ### What becomes of characters -/

/-- What becomes of a text does not depend on what is in front of it, unless a place reaches into
the text. -/
theorem becomes_append {front text found : List Char} {position : Nat}
    (hfront : ∀ start name value, Occurs values (front ++ text) start name value →
      start < front.length → start + (place name).length ≤ front.length) :
    Becomes values (front ++ text) (front.length + position) found ↔
      Becomes values text position found := by
  have hget : (front ++ text)[front.length + position]? = text[position]? := by
    rw [List.getElem?_append_right (Nat.le_add_right _ _), Nat.add_sub_cancel_left]
  constructor
  · intro h
    cases h with
    | literal hoccurs => exact .literal (Occurs.append_iff.mp hoccurs)
    | @covered start _ _ hoccurs hlt hle =>
      rcases Nat.lt_or_ge start front.length with hin | hout
      · have := hfront _ _ _ hoccurs hin
        omega
      · obtain ⟨k, rfl⟩ := Nat.exists_eq_add_of_le hout
        exact .covered (Occurs.append_iff.mp hoccurs) (by omega) (by omega)
    | kept hc hfree =>
      refine .kept (hget ▸ hc) fun start name value hoccurs hle => ?_
      have := hfree _ _ _ (Occurs.append_iff.mpr hoccurs) (by omega)
      omega
  · intro h
    cases h with
    | literal hoccurs => exact .literal (Occurs.append_iff.mpr hoccurs)
    | covered hoccurs hlt hle =>
      exact .covered (Occurs.append_iff.mpr hoccurs) (by omega) (by omega)
    | kept hc hfree =>
      refine .kept (hget.trans hc) fun start name value hoccurs hle => ?_
      rcases Nat.lt_or_ge start front.length with hin | hout
      · have := hfront _ _ _ hoccurs hin
        omega
      · obtain ⟨k, rfl⟩ := Nat.exists_eq_add_of_le hout
        have := hfree _ _ _ (Occurs.append_iff.mp hoccurs) (by omega)
        omega

/-- A character with which no place starts stays, if it is the first one. -/
theorem becomes_zero_iff_of_free {first : Char} {rest found : List Char}
    (hfree : ¬StartsPlace values (first :: rest)) :
    Becomes values (first :: rest) 0 found ↔ found = [first] := by
  constructor
  · intro h
    cases h with
    | literal hoccurs => exact absurd hoccurs.startsPlace hfree
    | covered _ hlt _ => exact absurd hlt (Nat.not_lt_zero _)
    | kept hc _ => rw [Option.some.inj hc]
  · rintro rfl
    refine .kept rfl fun start name value hoccurs hle => ?_
    obtain rfl : start = 0 := by omega
    exact absurd hoccurs.startsPlace hfree

section Place

variable {after found : List Char}

theorem becomes_zero_iff_of_place (hbound : IsBound values name)
    (hvalue : value? values name = some value) :
    Becomes values (place name ++ after) 0 found ↔ found = value.literal.toList := by
  have hoccurs := Occurs.of_isBound hbound hvalue after
  constructor
  · intro h
    cases h with
    | @literal other otherValue hother =>
      obtain rfl := hoccurs.name_eq hother
      have hsame := value?_eq_some_iff.mpr hother.isLastValue
      rw [hvalue] at hsame
      rw [Option.some.inj hsame]
    | covered _ hlt _ => exact absurd hlt (Nat.not_lt_zero _)
    | kept _ hfree =>
      have := hfree _ _ _ hoccurs (Nat.le_refl 0)
      simp [place] at this
  · rintro rfl
    exact .literal hoccurs

theorem becomes_iff_of_inside {position : Nat} (hbound : IsBound values name)
    (hvalue : value? values name = some value) (hpos : 0 < position)
    (hlt : position < (place name).length) :
    Becomes values (place name ++ after) position found ↔ found = [] := by
  have hoccurs := Occurs.of_isBound hbound hvalue after
  constructor
  · intro h
    cases h with
    | literal hother =>
      exact absurd (hother.length_le_of_pos hbound.isNamePart hpos) (Nat.not_le_of_lt hlt)
    | covered _ _ _ => rfl
    | kept _ hfree =>
      have := hfree _ _ _ hoccurs (Nat.zero_le _)
      omega
  · rintro rfl
    exact .covered hoccurs hpos (by omega)

end Place

/-- What becomes of the characters of a text, one after the other. -/
structure AreFates (values : List (String × Json)) (text : List Char) (fates : List (List Char)) :
    Prop where
  /-- Each character has a fate. -/
  length_eq : fates.length = text.length
  /-- It is what becomes of the character, and nothing else is. -/
  getElem?_iff : ∀ position found, fates[position]? = some found ↔ Becomes values text position found

namespace AreFates

variable {fates : List (List Char)}

theorem nil : AreFates values [] [] := by
  refine ⟨rfl, fun position found => ?_⟩
  simp only [List.getElem?_nil, reduceCtorEq, false_iff]
  intro h
  cases h with
  | literal hoccurs | covered hoccurs _ _ =>
    have hprefix := hoccurs.isPrefix
    simp [Binding.place] at hprefix
  | kept hc _ => simp at hc

theorem cons {first : Char} {rest : List Char} (hfree : ¬StartsPlace values (first :: rest))
    (h : AreFates values rest fates) : AreFates values (first :: rest) ([first] :: fates) := by
  refine ⟨by rw [List.length_cons, h.length_eq, List.length_cons], fun position found => ?_⟩
  cases position with
  | zero =>
    rw [becomes_zero_iff_of_free hfree]
    simp [eq_comm]
  | succ position =>
    have happend : Becomes values ([first] ++ rest) ([first].length + position) found ↔
        Becomes values rest position found := by
      refine becomes_append fun start other _ hoccurs hlt => ?_
      obtain rfl : start = 0 := by simpa using hlt
      exact absurd hoccurs.startsPlace hfree
    rw [List.length_singleton, Nat.add_comm] at happend
    rw [List.getElem?_cons_succ, h.getElem?_iff, ← happend]
    rfl

/-- The literal takes the place of the brace, and the rest of the place is gone. -/
theorem place {after : List Char} (hbound : IsBound values name)
    (hvalue : value? values name = some value) (h : AreFates values after fates) :
    AreFates values (place name ++ after)
      (value.literal.toList :: List.replicate ((Binding.place name).length - 1) [] ++ fates) := by
  have hcovered : (value.literal.toList ::
      List.replicate ((Binding.place name).length - 1) []).length = (Binding.place name).length := by
    simp [Binding.place]
  refine ⟨by rw [List.length_append, hcovered, h.length_eq, List.length_append],
    fun position found => ?_⟩
  rcases Nat.lt_or_ge position (Binding.place name).length with hin | hout
  · rw [List.getElem?_append_left (by omega)]
    cases position with
    | zero =>
      rw [becomes_zero_iff_of_place hbound hvalue]
      simp [eq_comm]
    | succ position =>
      rw [becomes_iff_of_inside hbound hvalue (Nat.succ_pos _) hin, List.getElem?_cons_succ,
        List.getElem?_replicate, if_pos (by omega)]
      simp [eq_comm]
  · obtain ⟨k, rfl⟩ := Nat.exists_eq_add_of_le hout
    rw [List.getElem?_append_right (by omega), hcovered, Nat.add_sub_cancel_left, h.getElem?_iff,
      becomes_append]
    intro start other _ hoccurs hlt
    rcases Nat.eq_zero_or_pos start with rfl | hpos
    · obtain rfl := hoccurs.name_eq (.of_isBound hbound hvalue after)
      omega
    · exact absurd (hoccurs.length_le_of_pos hbound.isNamePart hpos) (Nat.not_le_of_lt hlt)

end AreFates

/-- A text is filled to what becomes of its characters. -/
theorem exists_areFates (values : List (String × Json)) (text : List Char) :
    ∃ fates, AreFates values text fates ∧ fillIn values text = fates.flatten := by
  induction hn : text.length using Nat.strongRecOn generalizing text with
  | _ n ih =>
    by_cases hstart : StartsPlace values text
    · obtain ⟨after, name, hbound, rfl⟩ := hstart
      obtain ⟨value, hvalue⟩ := Option.isSome_iff_exists.mp hbound.isSome_value?
      rw [List.nil_append] at hn ⊢
      have hlt : after.length < n := by
        simp [place] at hn
        omega
      obtain ⟨fates, hfates, hfill⟩ := ih _ hlt after rfl
      refine ⟨_, hfates.place hbound hvalue, ?_⟩
      rw [fillIn_place hbound hvalue, hfill]
      simp
    · cases text with
      | nil => exact ⟨[], .nil, rfl⟩
      | cons first rest =>
        have hlt : rest.length < n := by
          rw [← hn]
          exact Nat.lt_succ_self _
        obtain ⟨fates, hfates, hfill⟩ := ih _ hlt rest rfl
        refine ⟨_, hfates.cons hstart, ?_⟩
        rw [fillIn_cons hstart, hfill]
        rfl

end Binding

/-- **Binding is one simultaneous substitution.**  The filter is put together from what becomes of
the characters of the template.  Each of them has exactly one fate, which is seen in the template and
does not depend on what the literals of other values contain: the place of a bound value becomes the
literal of the last value for its name, and every other character stays.  This ends for every
template, which is read in no more pieces than it has characters. -/
theorem bindTemplate_substitutes (template : String) (values : List (String × Json)) :
    (∃ fates, Binding.AreFates values template.toList fates ∧
      bindTemplate template values = String.ofList fates.flatten) ∧
    (Text.cut Binding.readPlace template.toList).length ≤ template.toList.length := by
  obtain ⟨fates, hfates, hfill⟩ := Binding.exists_areFates values template.toList
  refine ⟨⟨fates, hfates, ?_⟩, Text.length_cut_le _ _⟩
  rw [← hfill]
  rfl

/-- A place may start where another one has failed to, and a literal that looks like a place is not
looked at again. -/
example : bindTemplate "\x7b:\x7b:a\x7d\x7d \x7b:a\x7b:b\x7d \x7b:\x7d \x7b:c\x7d"
      [("a", .bool true), ("b", .string "\x7b:a\x7d"), ("a", .null)] =
    "\x7b:null\x7d \x7b:a'\x7b:a\x7d' \x7b:\x7d \x7b:c\x7d" := by decide

end PagedSearch
