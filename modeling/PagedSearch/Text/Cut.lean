/-!
# Cutting a text into pieces

Filters, templates and statements are all read in the same way: from left to right, one piece at a
time, where each piece is chosen by looking at the text from its first character on.  `cut` is that
reading.  What a piece is, and how far it reaches, is the parameter.

## Main definitions

* `cut read text` — the pieces of `text`, each with the characters it covers.

## Main results

* `cut_cons` — the first piece, and the pieces of what follows it.
* `cut_covers` — the pieces cover the text: nothing is lost and nothing is read twice.
* `length_cut_le` — no piece is empty.
* `takeWhile_append_of_mem`, `takeWhile_append_of_head?` — a run of characters that ends in front of
  a text does not depend on that text.
-/

namespace PagedSearch.Text

/-- The pieces of a text whose first `covered` characters belong to the piece before. -/
def cutFrom {α : Type} (read : Char → List Char → α × Nat) : Nat → List Char → List (α × List Char)
  | _, [] => []
  | covered + 1, _ :: rest => cutFrom read covered rest
  | 0, first :: rest =>
    let piece := read first rest
    (piece.1, first :: rest.take piece.2) :: cutFrom read piece.2 rest

/-- The pieces of a text with the characters they cover.  `read first rest` says what the piece that
starts with `first` is, and how many characters of `rest` belong to it. -/
def cut {α : Type} (read : Char → List Char → α × Nat) (text : List Char) : List (α × List Char) :=
  cutFrom read 0 text

variable {α : Type} (read : Char → List Char → α × Nat)

theorem cutFrom_eq_cut_drop (covered : Nat) (text : List Char) :
    cutFrom read covered text = cut read (text.drop covered) := by
  induction text generalizing covered with
  | nil => cases covered <;> simp [cut, cutFrom]
  | cons first rest ih =>
    cases covered with
    | zero => rfl
    | succ covered => simpa [cutFrom] using ih covered

@[simp] theorem cut_nil : cut read [] = [] := rfl

theorem cut_cons (first : Char) (rest : List Char) :
    cut read (first :: rest) =
      ((read first rest).1, first :: rest.take (read first rest).2) ::
        cut read (rest.drop (read first rest).2) := by
  rw [← cutFrom_eq_cut_drop]
  rfl

/-- The pieces of a text, put together again, are the text. -/
theorem cut_covers (text : List Char) : (cut read text).flatMap Prod.snd = text := by
  induction h : text.length using Nat.strongRecOn generalizing text with
  | _ n ih =>
    cases text with
    | nil => rfl
    | cons first rest =>
      have hlt : (rest.drop (read first rest).2).length < n := by
        rw [← h, List.length_drop, List.length_cons]
        omega
      rw [cut_cons, List.flatMap_cons, ih _ hlt _ rfl]
      simp

/-- There are no more pieces than characters. -/
theorem length_cut_le (text : List Char) : (cut read text).length ≤ text.length := by
  induction h : text.length using Nat.strongRecOn generalizing text with
  | _ n ih =>
    cases text with
    | nil => simp
    | cons first rest =>
      have hle : (rest.drop (read first rest).2).length ≤ rest.length := by
        rw [List.length_drop]
        omega
      rw [List.length_cons] at h
      have hrest := ih _ (by omega) (rest.drop (read first rest).2) rfl
      rw [cut_cons, List.length_cons]
      omega

/-! ### Runs of characters -/

theorem takeWhile_append_of_mem {p : Char → Bool} {text : List Char} {c : Char} (hc : c ∈ text)
    (h : p c = false) (tail : List Char) : (text ++ tail).takeWhile p = text.takeWhile p := by
  induction text with
  | nil => cases hc
  | cons first rest ih =>
    rcases List.mem_cons.mp hc with rfl | hc
    · simp [h]
    · simp [List.takeWhile_cons, ih hc]

theorem takeWhile_append_of_head? {p : Char → Bool} {tail : List Char}
    (h : ∀ c ∈ tail.head?, p c = false) (text : List Char) :
    (text ++ tail).takeWhile p = text.takeWhile p := by
  have htail : tail.takeWhile p = [] := by
    cases tail with
    | nil => rfl
    | cons c rest => simp [h c rfl]
  rw [List.takeWhile_append, htail, List.append_nil]
  split
  · rename_i hall
    exact ((List.takeWhile_prefix p).eq_of_length hall).symm
  · rfl

theorem length_takeWhile_le (p : Char → Bool) (text : List Char) :
    (text.takeWhile p).length ≤ text.length :=
  (List.takeWhile_prefix p).length_le

theorem length_takeWhile_lt {p : Char → Bool} {text : List Char} {c : Char} (hc : c ∈ text)
    (h : p c = false) : (text.takeWhile p).length < text.length := by
  refine Nat.lt_of_le_of_ne (length_takeWhile_le p text) fun heq => ?_
  have hall : text.takeWhile p = text := (List.takeWhile_prefix p).eq_of_length heq
  have hp := List.all_takeWhile (p := p) (l := text)
  rw [hall] at hp
  rw [List.all_eq_true.mp hp c hc] at h
  cases h

end PagedSearch.Text
