/-!
# Limits

What a search may ask for, and what it gets where it does not ask.

## Main definitions

* `Config` — the limits, with their usual values.
-/

namespace PagedSearch

/-- The limits of searches. -/
structure Config where
  /-- The size of a page where none is asked for. -/
  defaultPerPage : Nat := 30
  /-- The largest size of a page. -/
  maxPerPage : Nat := 400
  /-- The most bytes of a filter. -/
  maxFilterLength : Nat := 3500
  /-- The most fields to sort by. -/
  maxSortFields : Nat := 8
  /-- The most bytes of the name of a field to sort by. -/
  maxSortFieldLength : Nat := 255
  /-- How many filters are kept with their trees. -/
  cacheCapacity : Nat := 500
  deriving DecidableEq

end PagedSearch
