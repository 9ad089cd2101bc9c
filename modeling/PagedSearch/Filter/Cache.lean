import PagedSearch.Filter.Parsing

/-!
# Parsed filters

The same filters are searched for again and again, so their trees are kept.  The store is bounded,
and what has once been stored stays: when the store is full, no more is added.

Looking up and storing are separate steps, and between the two the text is parsed; so several
callers can share a store, and no one waits for the parsing of another.

## Main definitions

* `Cache` — a store of trees by the texts of their filters.
* `Cache.get?`, `Cache.store` — the two steps.
* `Cache.getOrParse` — the steps of one caller in a row.

## Main results

* `Cache.lookup_insert`, `Cache.map_fst_insert` — a tree that is put in is found, and no text gets a
  second entry.
-/

namespace PagedSearch

/-- The trees of filters, by their texts. -/
structure Cache where
  /-- How many trees there can be. -/
  capacity : Nat
  /-- The texts and their trees, the oldest first. -/
  entries : List (String × List Group)
  deriving DecidableEq

namespace Cache

/-- A store without trees. -/
def empty (capacity : Nat) : Cache := { capacity, entries := [] }

/-- How many trees there are. -/
def size (cache : Cache) : Nat := cache.entries.length

/-- Whether there are no trees. -/
def isEmpty (cache : Cache) : Bool := cache.entries.isEmpty

/-- The tree of a filter, if it is stored. -/
def get? (cache : Cache) (filter : String) : Option (List Group) := cache.entries.lookup filter

/-- The entries with `groups` as the tree of `filter`. -/
def insert (filter : String) (groups : List Group) :
    List (String × List Group) → List (String × List Group)
  | [] => [(filter, groups)]
  | entry :: entries =>
    if entry.1 = filter then (filter, groups) :: entries
    else entry :: insert filter groups entries

/-- The store with one more tree, or unchanged if it is full. -/
def store (cache : Cache) (filter : String) (groups : List Group) : Cache :=
  if cache.size < cache.capacity then
    { cache with entries := insert filter groups cache.entries }
  else cache

/-- The tree of a filter, which is parsed and stored if it is not in the store.  What cannot be
parsed is not stored. -/
def getOrParse (cache : Cache) (parse : String → Except ParseError (List Group))
    (filter : String) : Except ParseError (List Group) × Cache :=
  match cache.get? filter with
  | some groups => (.ok groups, cache)
  | none =>
    match parse filter with
    | .ok groups => (.ok groups, cache.store filter groups)
    | .error error => (.error error, cache)

/-! ### Storing -/

variable {filter other : String} {groups : List Group} {entries : List (String × List Group)}

theorem lookup_cons_eq (key : String) (value : List Group) :
    ((key, value) :: entries).lookup other =
      if other = key then some value else entries.lookup other := by
  rw [List.lookup_cons]
  split <;> simp_all

theorem lookup_insert :
    (insert filter groups entries).lookup other =
      if other = filter then some groups else entries.lookup other := by
  induction entries with
  | nil => rw [insert, lookup_cons_eq]
  | cons entry rest ih =>
    obtain ⟨key, value⟩ := entry
    rw [insert]
    by_cases hkey : key = filter
    · subst hkey
      rw [if_pos rfl, lookup_cons_eq, lookup_cons_eq]
      by_cases h : other = key <;> simp [h]
    · rw [if_neg hkey, lookup_cons_eq, lookup_cons_eq, ih]
      by_cases h : other = key
      · rw [if_pos h, if_pos h, if_neg (h ▸ hkey)]
      · rw [if_neg h, if_neg h]

/-- No text gets a second entry. -/
theorem map_fst_insert :
    (insert filter groups entries).map Prod.fst =
      if filter ∈ entries.map Prod.fst then entries.map Prod.fst
      else entries.map Prod.fst ++ [filter] := by
  induction entries with
  | nil => simp [insert]
  | cons entry rest ih =>
    rw [insert]
    by_cases hkey : entry.1 = filter
    · simp [hkey]
    · have hne : filter ≠ entry.1 := fun h => hkey h.symm
      rw [if_neg hkey, List.map_cons, ih, List.map_cons]
      by_cases h : filter ∈ rest.map Prod.fst
      · rw [if_pos h, if_pos (List.mem_cons_of_mem _ h)]
      · rw [if_neg h, if_neg (List.not_mem_cons_of_ne_of_not_mem hne h), List.cons_append]

theorem mem_insert {entry : String × List Group} (h : entry ∈ insert filter groups entries) :
    entry = (filter, groups) ∨ entry ∈ entries := by
  induction entries with
  | nil => exact .inl (List.mem_singleton.mp h)
  | cons first rest ih =>
    rw [insert] at h
    split at h
    · exact (List.mem_cons.mp h).imp_right (List.mem_cons_of_mem _)
    · rcases List.mem_cons.mp h with rfl | h
      · exact .inr List.mem_cons_self
      · exact (ih h).imp_right (List.mem_cons_of_mem _)

theorem length_insert_le :
    (insert filter groups entries).length ≤ entries.length + 1 := by
  rw [← List.length_map (f := Prod.fst), map_fst_insert]
  split <;> simp

end Cache

end PagedSearch
