import Mathlib.Algebra.Order.Floor.Div
import Mathlib.Data.Int.ConditionallyCompleteOrder
import Mathlib.Data.Rat.Floor
import Mathlib.Data.Set.Pairwise.Basic
import Mathlib.Order.CompletePartialOrder
import PagedSearch.Field.AllowList
import PagedSearch.Proofs.Assembly
import PagedSearch.Proofs.Counting

/-!
# The window of a page

A search returns the rows in a window, which is found from the wanted page, the wanted size of pages
and the number of rows, where they are counted.  The numbers that take part in this are kept in 64
bits, with or without a sign; here each step is taken once more, and fails if its result does not
fit.  None of them does.

## Main definitions

* `Window`, `SearchRequest.window` — the window of a search.
* `SearchRequest.checkedWindow?` — the same, in steps of 64 bits.
* `fetchWindow` — what is left of a search once its window is known.
* `Window.IsExact`, `Window.IsOpen` — what is wanted of a window.

## Main results

* `SearchRequest.checkedWindow?_eq` — no step leaves its 64 bits.
* `outcome_runSearch` — a search ends with fetching its window.
* `pages_partition` — each row is on one page.
* `runSearch_pages` — the window of a search is exact, and no row is lost between pages.
-/

namespace PagedSearch

open Search

/-! ### Windows -/

/-- Some of the rows of a query, as they are returned. -/
structure Window where
  /-- The size of pages. -/
  size : Nat
  /-- The number of the page. -/
  number : Nat
  /-- How many pages there are, or -1 if the rows are not counted. -/
  count : Int
  /-- How many rows precede the page. -/
  offset : Nat
  deriving DecidableEq

/-- The number of rows with that of their pages, if the rows are counted. -/
def countPages (size : Nat) (total : Option Int) : Option (Int × Nat) :=
  total.map fun total => (total, pageCount total size)

/-- The window of a search, given the number of rows if they are counted. -/
def SearchRequest.window (request : SearchRequest) (config : Config) (total : Option Int) : Window :=
  let size := pageSize config request.perPage
  let counted := countPages size total
  let number := pageNumber request.page counted
  { size
    number
    count := (counted.map fun (_, count) => (count : Int)).getD (-1)
    offset := pageOffset size number }

/-! ### Steps of 64 bits -/

/-- A number in 64 bits without a sign. -/
def unsigned? (n : Int) : Option Nat := if 0 ≤ n ∧ n < 2 ^ 64 then some n.toNat else none

/-- A number in 64 bits with a sign. -/
def signed? (n : Int) : Option Int := if -2 ^ 63 ≤ n ∧ n < 2 ^ 63 then some n else none

/-- The size of pages.  A wanted size that is negative does not fit. -/
def checkedSize (config : Config) (wanted : Int) : Nat :=
  max 1 <|
    match unsigned? wanted with
    | none | some 0 => config.defaultPerPage
    | some size => min size config.maxPerPage

/-- A quotient, rounded up: one more than the quotient if there is a remainder. -/
def checkedQuotient? (rows size : Nat) : Option Nat :=
  if rows % size = 0 then some (rows / size) else unsigned? (rows / size + 1 : Nat)

/-- The number of pages. -/
def checkedCount? (total : Int) (size : Nat) : Option Int := do
  let count ← checkedQuotient? (← unsigned? total) size
  signed? count

/-- The number of rows with that of their pages. -/
def checkedCounted? (size : Nat) : Option Int → Option (Option (Int × Int))
  | none => some none
  | some total => (checkedCount? total size).map fun count => some (total, count)

/-- The number of the page that is returned, with a sign. -/
def signedNumber (wanted : Int) : Option (Int × Int) → Int
  | none => if wanted ≤ 0 then 1 else wanted
  | some (total, count) =>
    if wanted ≤ 0 ∨ total = 0 then 1 else if count < wanted then count else wanted

/-- The number of rows before a page.  The product stops at the largest number of 64 bits. -/
def checkedOffset? (size number : Nat) : Option Nat := do
  let before ← unsigned? (number - 1)
  return min (min (size * before) (2 ^ 64 - 1)) maxOffset

/-- The window of a search in steps of 64 bits, if each of them fits. -/
def SearchRequest.checkedWindow? (request : SearchRequest) (config : Config)
    (total : Option Int) : Option Window := do
  let size := checkedSize config request.perPage
  let counted ← checkedCounted? size total
  let number ← unsigned? (signedNumber request.page counted)
  let offset ← checkedOffset? size number
  return { size, number, count := (counted.map Prod.snd).getD (-1), offset }

section Steps

variable {config : Config} {wanted total : Int} {size number : Nat}

theorem unsigned?_of_nonneg {n : Int} (hnonneg : 0 ≤ n) (hlt : n < 2 ^ 64) :
    unsigned? n = some n.toNat :=
  if_pos ⟨hnonneg, hlt⟩

theorem pageSize_pos : 1 ≤ pageSize config wanted := Nat.le_max_left _ _

theorem checkedSize_eq (hwanted : wanted < 2 ^ 63) :
    checkedSize config wanted = pageSize config wanted := by
  unfold checkedSize pageSize
  congr 1
  by_cases hpositive : wanted ≤ 0
  · rw [if_pos hpositive]
    by_cases hzero : wanted = 0
    · subst hzero
      rfl
    · rw [unsigned?, if_neg (by omega)]
  · rw [if_neg hpositive, unsigned?_of_nonneg (by omega) (by omega)]
    obtain ⟨n, hn⟩ : ∃ n, wanted.toNat = n + 1 := ⟨wanted.toNat - 1, by omega⟩
    rw [hn]
    rfl

/-- Enough pages are those that have room for all rows. -/
theorem pageCount_le_iff (hsize : 1 ≤ size) {count : Nat} :
    pageCount total size ≤ count ↔ total.toNat ≤ size * count :=
  ceilDiv_le_iff_le_mul hsize

/-- There are no more pages than rows. -/
theorem pageCount_le (hsize : 1 ≤ size) : pageCount total size ≤ total.toNat :=
  (pageCount_le_iff hsize).mpr (Nat.le_mul_of_pos_left _ hsize)

/-- Rounding up is a quotient and one more if there is a remainder. -/
theorem pageCount_eq (hsize : 1 ≤ size) :
    pageCount total size =
      if total.toNat % size = 0 then total.toNat / size else total.toNat / size + 1 := by
  have hrows : size * (total.toNat / size) + total.toNat % size = total.toNat :=
    Nat.div_add_mod _ _
  have hremainder : total.toNat % size < size := Nat.mod_lt _ hsize
  have hnext : size * (total.toNat / size + 1) = size * (total.toNat / size) + size :=
    Nat.mul_succ _ _
  have hle : total.toNat / size ≤ pageCount total size := by
    refine Nat.div_le_of_le_mul ((pageCount_le_iff hsize).mp (Nat.le_refl _))
  split
  · refine Nat.le_antisymm ((pageCount_le_iff hsize).mpr ?_) hle
    omega
  · refine Nat.le_antisymm ((pageCount_le_iff hsize).mpr (by omega)) ?_
    -- Without a remainder's page there is no room for all rows.
    refine Nat.succ_le_of_lt (Nat.lt_of_le_of_ne hle fun heq => ?_)
    have hroom := (pageCount_le_iff hsize).mp heq.ge
    omega

theorem checkedQuotient?_eq (hsize : 1 ≤ size) (hlt : total.toNat < 2 ^ 64) :
    checkedQuotient? total.toNat size = some (pageCount total size) := by
  have hcount : pageCount total size ≤ total.toNat := pageCount_le hsize
  rw [pageCount_eq hsize] at hcount ⊢
  unfold checkedQuotient?
  split
  · rfl
  · rename_i hnot
    rw [if_neg hnot] at hcount
    rw [unsigned?_of_nonneg (Int.natCast_nonneg _) (by omega), Int.toNat_natCast]

theorem checkedCount?_eq (hsize : 1 ≤ size) (htotal : 0 ≤ total) (hlt : total < 2 ^ 63) :
    checkedCount? total size = some (pageCount total size : Int) := by
  have hcount : pageCount total size ≤ total.toNat := pageCount_le hsize
  have hrows : unsigned? total = some total.toNat := unsigned?_of_nonneg htotal (by omega)
  have hquotient := checkedQuotient?_eq hsize (show total.toNat < 2 ^ 64 by omega)
  have hsigned : signed? (pageCount total size : Int) = some (pageCount total size : Int) :=
    if_pos (by omega)
  exact Option.bind_eq_some_iff.mpr
    ⟨_, hrows, Option.bind_eq_some_iff.mpr ⟨_, hquotient, hsigned⟩⟩

theorem unsigned?_natCast {n : Nat} (h : n < 2 ^ 64) : unsigned? n = some n := by
  rw [unsigned?_of_nonneg (Int.natCast_nonneg _) (by omega), Int.toNat_natCast]

theorem signedNumber_eq (wanted : Int) (counted : Option (Int × Nat)) :
    signedNumber wanted (counted.map fun (total, count) => (total, (count : Int))) =
      pageNumber wanted counted := by
  cases counted with
  | none =>
    rw [Option.map_none, signedNumber, pageNumber]
    by_cases hstart : wanted ≤ 0
    · rw [if_pos hstart, if_pos hstart, Nat.cast_one]
    · rw [if_neg hstart, if_neg hstart, Int.toNat_of_nonneg (by omega)]
  | some counted =>
    obtain ⟨total, count⟩ := counted
    rw [Option.map_some, signedNumber, pageNumber]
    by_cases hstart : wanted ≤ 0 ∨ total = 0
    · rw [if_pos hstart, if_pos hstart, Nat.cast_one]
    · rw [if_neg hstart, if_neg hstart]
      split <;> omega

theorem pageNumber_lt (hwanted : wanted < 2 ^ 63) (counted : Option (Int × Nat)) :
    pageNumber wanted counted < 2 ^ 63 := by
  unfold pageNumber
  split <;> split <;> omega

theorem checkedOffset?_eq (hnumber : 1 ≤ number) (hlt : number < 2 ^ 63) :
    checkedOffset? size number = some (pageOffset size number) := by
  have hbefore : unsigned? ((number : Int) - 1) = some (number - 1) := by
    rw [← Nat.cast_one, ← Nat.cast_sub hnumber]
    exact unsigned?_natCast (by omega)
  refine Option.bind_eq_some_iff.mpr ⟨_, hbefore, ?_⟩
  have hmax : maxOffset = 2 ^ 63 - 1 := rfl
  rw [pageOffset, if_neg (by omega), hmax]
  exact congrArg some (by omega)

theorem checkedCounted?_eq {total : Option Int} (hsize : 1 ≤ size)
    (htotal : ∀ n ∈ total, 0 ≤ n ∧ n < 2 ^ 63) :
    checkedCounted? size total =
      some ((countPages size total).map fun (total, count) => (total, (count : Int))) := by
  cases total with
  | none => rfl
  | some n =>
    obtain ⟨hnonneg, hlt⟩ := htotal n rfl
    rw [checkedCounted?, checkedCount?_eq hsize hnonneg hlt]
    rfl

theorem pageNumber_pos {total : Option Int} (hsize : 1 ≤ size) (htotal : ∀ n ∈ total, 0 ≤ n) :
    1 ≤ pageNumber wanted (countPages size total) := by
  cases total with
  | none =>
    rw [countPages, Option.map_none, pageNumber]
    split <;> omega
  | some n =>
    rw [countPages, Option.map_some, pageNumber]
    split
    · exact Nat.le_refl _
    · have hnonneg : 0 ≤ n := htotal n rfl
      have hcount : ¬ pageCount n size ≤ 0 := by
        rw [pageCount_le_iff hsize]
        omega
      omega

/-- No step leaves its 64 bits. -/
theorem SearchRequest.checkedWindow?_eq {request : SearchRequest} {total : Option Int}
    (hpage : request.page < 2 ^ 63) (hperPage : request.perPage < 2 ^ 63)
    (htotal : ∀ n ∈ total, 0 ≤ n ∧ n < 2 ^ 63) :
    request.checkedWindow? config total = some (request.window config total) := by
  have hsize : checkedSize config request.perPage = pageSize config request.perPage :=
    checkedSize_eq hperPage
  have hlt := pageNumber_lt hpage (countPages (pageSize config request.perPage) total)
  have hnumber : unsigned? (signedNumber request.page
      ((countPages (pageSize config request.perPage) total).map fun (total, count) =>
        (total, (count : Int)))) = some (request.window config total).number := by
    rw [signedNumber_eq]
    exact unsigned?_natCast (by omega)
  have hoffset : checkedOffset? (pageSize config request.perPage)
      (request.window config total).number = some (request.window config total).offset :=
    checkedOffset?_eq (pageNumber_pos pageSize_pos fun n hn => (htotal n hn).1) hlt
  unfold checkedWindow?
  rw [hsize]
  refine Option.bind_eq_some_iff.mpr ⟨_, checkedCounted?_eq pageSize_pos htotal, ?_⟩
  refine Option.bind_eq_some_iff.mpr ⟨_, hnumber, ?_⟩
  refine Option.bind_eq_some_iff.mpr ⟨_, hoffset, ?_⟩
  rw [Option.map_map]
  rfl

end Steps

/-! ### Exact windows -/

/-- What is wanted of a window if there are `total` rows and a page is `wanted`. -/
structure Window.IsExact (window : Window) (total wanted : Int) : Prop where
  /-- A page has room for a row. -/
  size_pos : 1 ≤ window.size
  /-- There are as many pages as the rows need. -/
  count_eq : window.count = ⌈(total : ℚ) / window.size⌉
  /-- Pages are numbered from 1. -/
  number_pos : 1 ≤ window.number
  /-- No page behind the last one is returned, but for the first one if there are none. -/
  number_le : (window.number : Int) ≤ max 1 window.count
  /-- The wanted page is returned if there is such a page. -/
  number_eq : 1 ≤ wanted → wanted ≤ window.count → (window.number : Int) = wanted
  /-- The pages before this one are full. -/
  offset_eq : (window.offset : Int) = window.size * (window.number - 1)
  /-- There are rows on the page. -/
  offset_lt : 0 < total → (window.offset : Int) < total

/-- What is wanted of a window if no one knows how many rows there are. -/
structure Window.IsOpen (window : Window) (wanted : Int) : Prop where
  /-- A page has room for a row. -/
  size_pos : 1 ≤ window.size
  /-- It is not known how many pages there are. -/
  count_eq : window.count = -1
  /-- The wanted page is returned, or the first one. -/
  number_eq : (window.number : Int) = max 1 wanted
  /-- The pages before this one are full, as far as that many rows can be left out. -/
  offset_eq : (window.offset : Int) = min ((window.size : Int) * (window.number - 1)) (2 ^ 63 - 1)

section Exact

variable {config : Config} {request : SearchRequest} {total : Int}

theorem pageOffset_eq {size number : Nat} (hnumber : 1 ≤ number) :
    (pageOffset size number : Int) = min ((size : Int) * (number - 1)) (2 ^ 63 - 1) := by
  have hmax : maxOffset = 2 ^ 63 - 1 := rfl
  rw [pageOffset, if_neg (by omega), hmax, Nat.cast_min, Nat.cast_mul, Nat.cast_sub hnumber]
  rfl

/-- The pages but the last one are full, and do not hold all rows. -/
theorem mul_pred_lt {size number : Nat} (hsize : 1 ≤ size) (hnumber : 1 ≤ number)
    (hle : number ≤ pageCount total size) : ((size * (number - 1) : Nat) : Int) < total := by
  have hmore : ¬ pageCount total size ≤ number - 1 := by omega
  rw [pageCount_le_iff hsize] at hmore
  omega

/-- The number of pages is the number of rows by the size of pages, rounded up. -/
theorem pageCount_eq_ceil {size : Nat} (hsize : 1 ≤ size) (htotal : 0 ≤ total) :
    (pageCount total size : Int) = ⌈(total : ℚ) / size⌉ := by
  have hpositive : (0 : ℚ) < size := by exact_mod_cast hsize
  refine (Int.ceil_eq_iff.mpr ⟨?_, ?_⟩).symm
  · rw [lt_div_iff₀ hpositive]
    by_cases hnone : pageCount total size = 0
    · rw [hnone]
      have hnonneg : (0 : ℚ) ≤ total := by exact_mod_cast htotal
      push_cast
      linarith
    · have hlt := mul_pred_lt hsize (by omega) (Nat.le_refl (pageCount total size))
      rw [Nat.cast_mul, Nat.cast_sub (by omega)] at hlt
      have hltRat : (size : ℚ) * (pageCount total size - 1) < total := by exact_mod_cast hlt
      rw [mul_comm]
      exact_mod_cast hltRat
  · rw [div_le_iff₀ hpositive]
    have hle : total.toNat ≤ size * pageCount total size :=
      (pageCount_le_iff hsize).mp (Nat.le_refl _)
    have hleInt : total ≤ (pageCount total size : Int) * size := by
      rw [mul_comm]
      have hcast : ((size * pageCount total size : Nat) : Int) = size * pageCount total size :=
        Nat.cast_mul _ _
      omega
    exact_mod_cast hleInt

theorem pageNumber_le {wanted : Int} {count : Nat} :
    pageNumber wanted (some (total, count)) ≤ max 1 count := by
  rw [pageNumber]
  split <;> omega

/-- A page that there is is returned if it is wanted. -/
theorem pageNumber_of_mem {wanted : Int} {size : Nat} (hsize : 1 ≤ size) (hstart : 1 ≤ wanted)
    (hend : wanted ≤ pageCount total size) :
    (pageNumber wanted (some (total, pageCount total size)) : Int) = wanted := by
  have hrows : pageCount total size ≤ total.toNat := pageCount_le hsize
  rw [pageNumber, if_neg (by omega)]
  omega

theorem SearchRequest.window_number_pos {total : Option Int} (htotal : ∀ n ∈ total, 0 ≤ n) :
    1 ≤ (request.window config total).number :=
  pageNumber_pos pageSize_pos htotal

theorem SearchRequest.window_isExact (htotal : 0 ≤ total) (hlt : total < 2 ^ 63) :
    (request.window config (some total)).IsExact total request.page := by
  have hsize : 1 ≤ pageSize config request.perPage := pageSize_pos
  have hnumber : 1 ≤ (request.window config (some total)).number :=
    window_number_pos (by rintro n ⟨⟩; exact htotal)
  have hle : (request.window config (some total)).number ≤
      max 1 (pageCount total (pageSize config request.perPage)) := pageNumber_le
  have hoffset : ((request.window config (some total)).offset : Int) =
      min ((pageSize config request.perPage : Int) *
        ((request.window config (some total)).number - 1)) (2 ^ 63 - 1) := pageOffset_eq hnumber
  -- Either there are no rows and nothing precedes them, or there is a row on the page.
  have hbefore : (pageSize config request.perPage : Int) *
      ((request.window config (some total)).number - 1) < max 1 total := by
    by_cases hnone : pageCount total (pageSize config request.perPage) = 0
    · have hone : (request.window config (some total)).number = 1 := by omega
      rw [hone, Nat.cast_one, Int.sub_self, Int.mul_zero]
      omega
    · have hrows := mul_pred_lt hsize hnumber (show (request.window config (some total)).number ≤
        pageCount total (pageSize config request.perPage) by omega)
      rw [Nat.cast_mul, Nat.cast_sub hnumber, Nat.cast_one] at hrows
      omega
  rw [min_eq_left (by omega)] at hoffset
  exact {
    size_pos := hsize
    count_eq := pageCount_eq_ceil hsize htotal
    number_pos := hnumber
    number_le := by
      show ((request.window config (some total)).number : Int) ≤
        max 1 (pageCount total (pageSize config request.perPage) : Int)
      omega
    number_eq := pageNumber_of_mem hsize
    offset_eq := hoffset
    offset_lt := by
      intro hpositive
      rw [hoffset]
      omega }

theorem SearchRequest.window_isOpen : (request.window config none).IsOpen request.page := by
  have hnumber : 1 ≤ (request.window config none).number := window_number_pos (by rintro n ⟨⟩)
  refine ⟨pageSize_pos, rfl, ?_, pageOffset_eq hnumber⟩
  show ((pageNumber request.page none : Nat) : Int) = _
  rw [pageNumber]
  split <;> omega

/-- The rows on a page if there are `total` of them. -/
def SearchRequest.rowsOn (request : SearchRequest) (config : Config) (total page : Int) : Set Int :=
  let window := { request with page }.window config (some total)
  Set.Ico window.offset (window.offset + window.size)

theorem SearchRequest.mem_rowsOn {page row : Int} (htotal : 0 ≤ total) (hlt : total < 2 ^ 63)
    (hstart : 1 ≤ page) (hend : page ≤ (request.window config (some total)).count) :
    row ∈ request.rowsOn config total page ↔
      pageSize config request.perPage * (page - 1) ≤ row ∧
        row < pageSize config request.perPage * page := by
  have hexact : ({ request with page }.window config (some total)).IsExact total page :=
    window_isExact htotal hlt
  have hnumber := hexact.number_eq hstart hend
  have hoffset := hexact.offset_eq
  rw [hnumber] at hoffset
  rw [rowsOn, Set.mem_Ico, hoffset]
  have hnext : (pageSize config request.perPage : Int) * (page - 1) +
      pageSize config request.perPage = pageSize config request.perPage * page := by ring
  rw [← hnext]
  rfl

/-- **Each row is on one page.** -/
theorem SearchRequest.pages_partition (htotal : 0 ≤ total) (hlt : total < 2 ^ 63) :
    (Set.Icc 1 (request.window config (some total)).count).PairwiseDisjoint
        (request.rowsOn config total) ∧
      Set.Ico 0 total ⊆
        ⋃ page ∈ Set.Icc 1 (request.window config (some total)).count,
          request.rowsOn config total page := by
  have hsize : 1 ≤ pageSize config request.perPage := pageSize_pos
  constructor
  · -- Of two pages the first one ends before the second one starts.
    have hbefore {p q row : Int} (hp : p ∈ Set.Icc 1 (request.window config (some total)).count)
        (hq : q ∈ Set.Icc 1 (request.window config (some total)).count) (hpq : p < q)
        (hrow : row ∈ request.rowsOn config total p) : row ∉ request.rowsOn config total q := by
      rw [mem_rowsOn htotal hlt hp.1 hp.2] at hrow
      rw [mem_rowsOn htotal hlt hq.1 hq.2]
      have hle : (pageSize config request.perPage : Int) * p ≤
          pageSize config request.perPage * (q - 1) :=
        mul_le_mul_of_nonneg_left (by omega) (by omega)
      omega
    intro p hp q hq hpq
    refine Set.disjoint_left.mpr ?_
    intro row hrow hother
    rcases lt_or_gt_of_ne hpq with hlt | hlt
    · exact hbefore hp hq hlt hrow hother
    · exact hbefore hq hp hlt hother hrow
  · rintro row ⟨hfirst, hlast⟩
    -- The page of a row is found by division.
    obtain ⟨n, rfl⟩ := Int.eq_ofNat_of_zero_le hfirst
    obtain ⟨before, hbefore⟩ : ∃ before, before = n / pageSize config request.perPage := ⟨_, rfl⟩
    have hdivision : pageSize config request.perPage * before +
        n % pageSize config request.perPage = n := hbefore ▸ Nat.div_add_mod _ _
    have hremainder : n % pageSize config request.perPage < pageSize config request.perPage :=
      Nat.mod_lt _ hsize
    have hpage : before + 1 ≤ pageCount total (pageSize config request.perPage) := by
      refine Nat.succ_le_of_lt (Nat.lt_of_not_le fun hle => ?_)
      rw [pageCount_le_iff hsize] at hle
      omega
    have hstart : (1 : Int) ≤ before + 1 := by omega
    have hend : (before : Int) + 1 ≤ (request.window config (some total)).count := by
      show (before : Int) + 1 ≤ (pageCount total (pageSize config request.perPage) : Int)
      omega
    refine Set.mem_iUnion₂.mpr ⟨_, ⟨hstart, hend⟩, (mem_rowsOn htotal hlt hstart hend).mpr ?_⟩
    rw [Int.add_sub_cancel, mul_add, mul_one, ← Nat.cast_mul]
    omega

end Exact

/-! ### Searches -/

/-- The rest of a search once its window is known. -/
def fetchWindow {ω ρ : Type} (connection : Connection ω ρ) (query : SelectQuery) (window : Window)
    (total : Option Int) : Search ω (SearchPage ρ) := do
  let items ← fetchRows connection
    { query with limit := some window.size, offset := some window.offset }
  return {
    page := window.number
    perPage := window.size
    totalItems := total.getD (-1)
    totalPages := window.count
    items }

section Run

variable {ω ρ : Type} {context : Context ω} {resolver : Resolver ω} {connection : Connection ω ρ}
  {request : SearchRequest} {base query : SelectQuery} {s t u : Session ω} {total : Option Int}

/-- The rows of the query are counted, unless that is to be left out. -/
def SearchRequest.Counts (request : SearchRequest) (connection : Connection ω ρ)
    (query : SelectQuery) (t u : Session ω) : Option Int → Prop
  | none => request.skipTotal = true ∧ u = t
  | some total => request.skipTotal = false ∧
    outcome (fetchTotal connection query request.countColumn) t = (.ok total, u)

/-- A search ends with fetching its window. -/
theorem outcome_runSearch (hbase : request.query = some base)
    (hbackend : connection.backend = .sqlite)
    (hlimits : checkLimits context.config request = .ok ())
    (hcompile : outcome (compileQuery context resolver base request.filters request.sort) s =
      (.ok query, t))
    (hcounts : request.Counts connection query t u total) :
    outcome (runSearch context resolver connection request) s =
      outcome (fetchWindow connection query (request.window context.config total) total) u := by
  unfold runSearch
  rw [hbase]
  dsimp only
  rw [if_neg (by rw [hbackend]; decide), hlimits, outcome_bind_of_ok (t := s) (by rfl),
    outcome_bind_of_ok hcompile]
  cases total with
  | none =>
    obtain ⟨hskip, rfl⟩ := hcounts
    rw [if_pos hskip, outcome_bind_of_ok (t := u) (by rfl)]
    rfl
  | some total =>
    obtain ⟨hskip, hfetch⟩ := hcounts
    rw [if_neg (by rw [hskip]; decide), outcome_bind_of_ok hfetch]
    rfl

/-- A page is the last thing that is bound: its size and the number of rows before it. -/
theorem values_of_window {size offset : Nat} {backend : Backend} {statement : Statement}
    (h : { query with limit := some size, offset := some offset }.dataStatement backend =
      .ok statement) :
    ∃ values, statement.values = values ++ [.unsigned size, .unsigned offset] := by
  obtain ⟨columns, source, terms, -, -, -, rfl⟩ := SelectQuery.dataStatement_eq_ok h
  exact ⟨_, by rw [Chunk.values_ofChunks, Chunk.values_append, SelectQuery.values_windowChunks]; rfl⟩

/-- **The window of a search is exact, and no row is lost between pages.**  A search that reaches
its query fetches a window of it, in a statement that binds the size of pages and the number of rows
before the window.  These are what 64 bits give, where no step under- or overflows.

* If there are `n` rows, pages are as many as the rows need, and the returned page is one of them,
  or the first one if there are none; it is the wanted page if there is such a page.  All pages
  before it are full, and there are rows on it.  Each of the rows is on one page.
* If the rows are not counted, the totals are -1, and the wanted page is returned, or the first one.
  All pages before it are full, unless more rows would have to be left out than can be. -/
theorem runSearch_pages
    (hconfig : context.config.defaultPerPage < 2 ^ 64 ∧ context.config.maxPerPage < 2 ^ 64)
    (hpage : request.page < 2 ^ 63) (hperPage : request.perPage < 2 ^ 63)
    (hbase : request.query = some base) (hbackend : connection.backend = .sqlite)
    (hlimits : checkLimits context.config request = .ok ())
    (hcompile : outcome (compileQuery context resolver base request.filters request.sort) s =
      (.ok query, t))
    (hcounts : request.Counts connection query t u total)
    (htotal : ∀ n ∈ total, 0 ≤ n ∧ n < 2 ^ 63) :
    ∃ window, request.checkedWindow? context.config total = some window ∧
      window.size < 2 ^ 64 ∧
      outcome (runSearch context resolver connection request) s =
        outcome (fetchWindow connection query window total) u ∧
      (∀ statement,
        { query with limit := some window.size, offset := some window.offset }.dataStatement
          connection.backend = .ok statement →
        ∃ values, statement.values = values ++ [.unsigned window.size, .unsigned window.offset]) ∧
      (∀ n, total = some n →
        window.IsExact n request.page ∧
        (Set.Icc 1 window.count).PairwiseDisjoint (request.rowsOn context.config n) ∧
        Set.Ico 0 n ⊆ ⋃ page ∈ Set.Icc 1 window.count, request.rowsOn context.config n page) ∧
      (total = none → window.IsOpen request.page) := by
  refine ⟨request.window context.config total,
    request.checkedWindow?_eq hpage hperPage htotal, ?_,
    outcome_runSearch hbase hbackend hlimits hcompile hcounts,
    fun statement hstatement => values_of_window hstatement, ?_, ?_⟩
  · show pageSize context.config request.perPage < 2 ^ 64
    unfold pageSize
    split <;> omega
  · rintro n rfl
    obtain ⟨hnonneg, hlt⟩ := htotal n rfl
    exact ⟨SearchRequest.window_isExact hnonneg hlt, SearchRequest.pages_partition hnonneg hlt⟩
  · rintro rfl
    exact SearchRequest.window_isOpen

end Run

/-- A database that counts a number of rows and returns none of them. -/
def countingConnection (total : Int) : Connection Unit Unit where
  backend := .sqlite
  fetchTotal _ := pure (some total)
  fetchRows _ := pure []

/-- A page behind the last one. -/
def behindLast : SearchRequest where
  query := some (.ofTable "article")
  page := 7
  perPage := 20

theorem behindLast_returned :
    outcome (runSearch sampleContext (AllowList.resolver ⟨[]⟩) (countingConnection 45) behindLast)
        sampleSession =
      outcome (fetchWindow (countingConnection 45) (.ofTable "article")
        { size := 20, number := 3, count := 3, offset := 40 } (some 45)) sampleSession := by
  have hcompile : outcome (compileQuery sampleContext (AllowList.resolver ⟨[]⟩) (.ofTable "article")
      behindLast.filters behindLast.sort) (sampleSession : Session Unit) =
        (.ok (.ofTable "article"), sampleSession) := rfl
  have hcounts : behindLast.Counts (countingConnection 45) (.ofTable "article") sampleSession
      sampleSession (some 45) := ⟨rfl, rfl⟩
  have htotal : ∀ n ∈ some (45 : Int), 0 ≤ n ∧ n < 2 ^ 63 := by
    rintro n ⟨⟩
    decide
  have hwindow : behindLast.checkedWindow? {} (some 45) =
      some { size := 20, number := 3, count := 3, offset := 40 } := by decide +kernel
  obtain ⟨window, hchecked, -, hrun, -⟩ := runSearch_pages (by decide) (by decide) (by decide) rfl
    rfl rfl hcompile hcounts htotal
  obtain rfl := Option.some.inj (hwindow.symm.trans hchecked)
  exact hrun

end PagedSearch
