import PagedSearch.Number.Double

/-!
# Bound values

Values never stand in the text of a statement.  A text refers to a value by name, as `{:name}`, and
the value travels beside it in a `Params`.

## Main definitions

* `Value` — what can be bound.
* `Params` — values by name.
* `Params.merge` — the values of two parameter maps, those of the second winning.
-/

namespace PagedSearch

/-- A value that a statement binds. -/
inductive Value where
  /-- A text. -/
  | text (content : String)
  /-- A whole number with a sign. -/
  | int (value : Int)
  /-- A whole number without a sign, such as the size of a page. -/
  | unsigned (value : Nat)
  /-- A floating point number. -/
  | double (value : Double)
  /-- A truth value. -/
  | bool (value : Bool)
  /-- No value. -/
  | null
  deriving DecidableEq

/-- Values by name.  Of two entries with the same name the first one counts. -/
structure Params where
  /-- The names with their values, the newest first. -/
  entries : List (String × Value)
  deriving DecidableEq

namespace Params

/-- No values. -/
def empty : Params := ⟨[]⟩

/-- One value. -/
def single (name : String) (value : Value) : Params := ⟨[(name, value)]⟩

/-- The given values, a later one taking the place of an earlier one with the same name. -/
def ofList (pairs : List (String × Value)) : Params := ⟨pairs.reverse⟩

/-- The value with the given name. -/
def get? (params : Params) (name : String) : Option Value := params.entries.lookup name

/-- Whether there are no values. -/
def isEmpty (params : Params) : Bool := params.entries.isEmpty

/-- The names that have a value, each once. -/
def names (params : Params) : List String := (params.entries.map Prod.fst).eraseDups

/-- The values of both, those of `newer` winning. -/
def merge (older newer : Params) : Params := ⟨newer.entries ++ older.entries⟩

/-- The values of all, those of a later one winning. -/
def mergeAll (all : List Params) : Params := all.foldl merge empty

/-- Every value changed by `f`, under its name. -/
def map (f : Value → Value) (params : Params) : Params :=
  ⟨params.entries.map fun (name, value) => (name, f value)⟩

@[simp] theorem get?_empty (name : String) : empty.get? name = none := rfl

theorem isEmpty_iff {params : Params} : params.isEmpty = true ↔ params = .empty := by
  obtain ⟨entries⟩ := params
  simp [isEmpty, empty]

@[simp] theorem merge_empty (params : Params) : params.merge empty = params := rfl

@[simp] theorem empty_merge (params : Params) : empty.merge params = params := by
  simp [merge, empty]

theorem merge_assoc (a b c : Params) : (a.merge b).merge c = a.merge (b.merge c) := by
  simp [merge]

theorem get?_merge (older newer : Params) (name : String) :
    (older.merge newer).get? name = (newer.get? name).or (older.get? name) := by
  simp only [get?, merge]
  induction newer.entries with
  | nil => simp
  | cons entry rest ih =>
    obtain ⟨key, value⟩ := entry
    by_cases h : name = key
    · simp [h]
    · have h' : (name == key) = false := by simpa using h
      simp [List.lookup_cons, h', ih]

theorem foldl_merge (maps : List Params) (older newer : Params) :
    maps.foldl merge (older.merge newer) = older.merge (maps.foldl merge newer) := by
  induction maps generalizing newer with
  | nil => rfl
  | cons map maps ih => rw [List.foldl_cons, List.foldl_cons, merge_assoc, ih]

/-- In a map that others have been added to, the last one that has the name answers. -/
theorem get?_foldl_merge (maps : List Params) (older : Params) (name : String) :
    (maps.foldl merge older).get? name =
      (maps.reverse.findSome? (·.get? name)).or (older.get? name) := by
  induction maps generalizing older with
  | nil => rfl
  | cons map maps ih =>
    rw [List.foldl_cons, ih, get?_merge, List.reverse_cons, List.findSome?_append,
      List.findSome?_singleton, Option.or_assoc]

end Params

end PagedSearch
