/-!
# Lists in a text

A list can be written as one text with a separator between its members.

## Main definitions

* `split separator text` — the members, of which there is always at least one.

## Main results

* `intercalate_split` — the members, put together again, are the text.
* `not_mem_of_mem_split` — no member contains the separator.
* `split_intercalate` — the members of a list are found again.
-/

namespace PagedSearch.Text

/-- The parts of a text between the occurrences of a separator. -/
def split (separator : Char) : List Char → List (List Char)
  | [] => [[]]
  | c :: rest =>
    if c = separator then [] :: split separator rest
    else
      match split separator rest with
      | [] => [[c]]
      | part :: parts => (c :: part) :: parts

theorem split_ne_nil (separator : Char) (text : List Char) : split separator text ≠ [] := by
  cases text with
  | nil => simp [split]
  | cons c rest =>
    rw [split]
    split
    · simp
    · split <;> simp

/-- The members of a list, with the separator between them, are the text that was split. -/
theorem intercalate_split (separator : Char) (text : List Char) :
    [separator].intercalate (split separator text) = text := by
  induction text with
  | nil => rfl
  | cons c rest ih =>
    rw [split]
    split
    · next h =>
      subst h
      cases hs : split c rest with
      | nil => exact absurd hs (split_ne_nil c rest)
      | cons part parts => rw [hs] at ih; simp [← ih, List.intercalate]
    · cases hs : split separator rest with
      | nil => exact absurd hs (split_ne_nil separator rest)
      | cons part parts =>
        rw [hs] at ih
        cases parts <;> simp_all [List.intercalate]

/-- No member of a list contains the separator. -/
theorem not_mem_of_mem_split {separator : Char} {text part : List Char}
    (h : part ∈ split separator text) : separator ∉ part := by
  induction text generalizing part with
  | nil => simp_all [split]
  | cons c rest ih =>
    rw [split] at h
    split at h
    · rcases List.mem_cons.1 h with rfl | h
      · simp
      · exact ih h
    · next hc =>
      cases hs : split separator rest with
      | nil => exact absurd hs (split_ne_nil separator rest)
      | cons first parts =>
        rw [hs] at h ih
        rcases List.mem_cons.1 h with rfl | h
        · intro hm
          rcases List.mem_cons.1 hm with rfl | hm
          · exact hc rfl
          · exact ih (List.mem_cons_self ..) hm
        · exact ih (List.mem_cons_of_mem _ h)

/-- A text without the separator is its only member. -/
theorem split_of_notMem {separator : Char} {text : List Char} (h : separator ∉ text) :
    split separator text = [text] := by
  induction text with
  | nil => rfl
  | cons c rest ih =>
    obtain ⟨hc, hrest⟩ : separator ≠ c ∧ separator ∉ rest := by simpa using h
    rw [split, if_neg hc.symm, ih hrest]

/-- The first member ends at the first separator. -/
theorem split_append_cons {separator : Char} {part : List Char} (h : separator ∉ part)
    (rest : List Char) :
    split separator (part ++ separator :: rest) = part :: split separator rest := by
  induction part with
  | nil => rw [List.nil_append, split, if_pos rfl]
  | cons c part ih =>
    obtain ⟨hc, hpart⟩ : separator ≠ c ∧ separator ∉ part := by simpa using h
    rw [List.cons_append, split, if_neg hc.symm, ih hpart]

/-- There is one member exactly if there is no separator. -/
theorem length_split_eq_one_iff {separator : Char} {text : List Char} :
    (split separator text).length = 1 ↔ separator ∉ text := by
  refine ⟨fun h => ?_, fun h => by rw [split_of_notMem h, List.length_singleton]⟩
  obtain ⟨part, hpart⟩ := List.length_eq_one_iff.mp h
  have htext := intercalate_split separator text
  rw [hpart, List.intercalate_singleton] at htext
  rw [← htext]
  exact not_mem_of_mem_split (by rw [hpart]; exact List.mem_singleton_self _)

/-- The members of a list are found again, if there is one and none of them contains the
separator. -/
theorem split_intercalate {separator : Char} {parts : List (List Char)} (hne : parts ≠ [])
    (h : ∀ part ∈ parts, separator ∉ part) :
    split separator ([separator].intercalate parts) = parts := by
  induction parts with
  | nil => exact absurd rfl hne
  | cons part parts ih =>
    obtain ⟨hpart, hparts⟩ := List.forall_mem_cons.mp h
    cases parts with
    | nil => rw [List.intercalate_singleton, split_of_notMem hpart]
    | cons next parts =>
      rw [List.intercalate_cons_cons, List.append_assoc, List.singleton_append,
        split_append_cons hpart, ih (List.cons_ne_nil _ _) hparts]

end PagedSearch.Text
