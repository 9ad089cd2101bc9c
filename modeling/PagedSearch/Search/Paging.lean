import PagedSearch.Search.Config

/-!
# Pages

Rows are returned in pages of a fixed size, numbered from 1.  A page behind the last one becomes the
last one, if it is known which that is.

## Main definitions

* `pageSize` — the size of pages.
* `pageCount`, `pageNumber` — the number of pages, and which of them is returned.
* `pageOffset` — how many rows precede it.
-/

namespace PagedSearch

/-- The size of pages, given the wanted one: the default one if none is wanted, and otherwise at
most the largest one; never less than one row. -/
def pageSize (config : Config) (wanted : Int) : Nat :=
  max 1 (if wanted ≤ 0 then config.defaultPerPage else min wanted.toNat config.maxPerPage)

/-- How many pages of the given size the rows take. -/
def pageCount (total : Int) (size : Nat) : Nat := (total.toNat + size - 1) / size

/-- The page that is returned, given the wanted one and, if the rows have been counted, their number
and that of their pages. -/
def pageNumber (wanted : Int) (counted : Option (Int × Nat)) : Nat :=
  match counted with
  | none => if wanted ≤ 0 then 1 else wanted.toNat
  | some (total, count) => if wanted ≤ 0 ∨ total = 0 then 1 else min wanted.toNat count

/-- The most rows that can be left out. -/
def maxOffset : Nat := Nat.pow 2 63 - 1

/-- How many rows precede a page.  A page with the number 0, which is what is left if a database
counts fewer than no rows, has all rows before it. -/
def pageOffset (size page : Nat) : Nat :=
  if page = 0 then maxOffset else min (size * (page - 1)) maxOffset

end PagedSearch
