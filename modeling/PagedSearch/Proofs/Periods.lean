import Mathlib.Data.String.Basic
import PagedSearch.Proofs.Calendar
import PagedSearch.Proofs.Decimals
import PagedSearch.Proofs.Printing
import PagedSearch.Time.Name

/-!
# Periods and the order of texts

A filter compares times as texts.  The parts of a time are written from the greatest to the least,
each with a fixed number of digits, so in the years of four digits the order of texts is the order
of times.  The texts of the first and the last instant of a day, a month or a year therefore have
between them just the texts of the instants in it.

## Main definitions

* `TimeOfDay.millis`, `Instant.millis` — times in whole milliseconds.
* `Instant.IsOrdinary` — the instants of the years 0 to 9999 that are in no leap second.
* `Period`, `Period.Shares` — days, months and years, and the dates in the same one.

## Main results

* `padded_cons_lt_iff` — numbers of one width sort as texts as they do as numbers.
* `dateTimeText_lt_iff` — dates with times sort as texts by date, and then by time.
* `periods_decided` — the texts of a period enclose the texts of its instants and no others.
-/

namespace PagedSearch

/-! ### The order of digits -/

theorem append_lt_append_iff {x y : List Char} (h : x.length = y.length) (s t : List Char) :
    x ++ s < y ++ t ↔ x < y ∨ x = y ∧ s < t := by
  induction x generalizing y with
  | nil =>
    cases List.length_eq_zero_iff.mp h.symm
    simp
  | cons c x ih =>
    obtain ⟨d, y, rfl⟩ := List.exists_cons_of_length_eq_add_one h.symm
    rw [List.cons_append, List.cons_append, List.cons_lt_cons_iff, List.cons_lt_cons_iff,
      ih (Nat.succ.inj h), List.cons.injEq]
    tauto

theorem digitsValue_cons (c : Char) (digits : List Char) :
    digitsValue (c :: digits) =
      (c.toNat - '0'.toNat) * 10 ^ digits.length + digitsValue digits := by
  have happend := digitsValue_append [c] digits
  simpa [digitsValue] using happend

theorem digitsValue_lt {digits : List Char} (h : digits.all Char.isDigit = true) :
    digitsValue digits < 10 ^ digits.length := by
  induction digits with
  | nil => decide
  | cons c digits ih =>
    rw [List.all_cons, Bool.and_eq_true] at h
    have hdigit : c.toNat - '0'.toNat ≤ 9 :=
      Nat.sub_le_sub_right (Char.isDigit_iff_toNat.mp h.1).2 _
    calc digitsValue (c :: digits)
        = (c.toNat - '0'.toNat) * 10 ^ digits.length + digitsValue digits :=
          digitsValue_cons c digits
      _ < 9 * 10 ^ digits.length + 10 ^ digits.length :=
          Nat.add_lt_add_of_le_of_lt (Nat.mul_le_mul_right _ hdigit) (ih h.2)
      _ = 10 ^ (c :: digits).length := by
          rw [List.length_cons, pow_succ]
          omega

/-- Digits sort as texts as the numbers do, if there are as many of them. -/
theorem lt_iff_digitsValue_lt {x y : List Char} (hx : x.all Char.isDigit = true)
    (hy : y.all Char.isDigit = true) (h : x.length = y.length) :
    x < y ↔ digitsValue x < digitsValue y := by
  induction x generalizing y with
  | nil =>
    cases List.length_eq_zero_iff.mp h.symm
    simp
  | cons c x ih =>
    obtain ⟨d, y, rfl⟩ := List.exists_cons_of_length_eq_add_one h.symm
    rw [List.all_cons, Bool.and_eq_true] at hx hy
    have hlength : x.length = y.length := Nat.succ.inj h
    have hltx := digitsValue_lt hx.2
    have hlty := digitsValue_lt hy.2
    have hc := (Char.isDigit_iff_toNat.mp hx.1).1
    have hd := (Char.isDigit_iff_toNat.mp hy.1).1
    have hless : c < d ↔ c.toNat < d.toNat := Iff.rfl
    rw [List.cons_lt_cons_iff, ih hx.2 hy.2 hlength, digitsValue_cons, digitsValue_cons, hlength,
      hless, ← Char.toNat_inj]
    rw [hlength] at hltx
    -- The leading digit decides, since what is behind it is less than one of it.
    rcases lt_trichotomy c.toNat d.toNat with hlt | heq | hgt
    · have hmul := Nat.mul_le_mul_right (10 ^ y.length)
        (show c.toNat - '0'.toNat + 1 ≤ d.toNat - '0'.toNat by omega)
      rw [Nat.add_mul] at hmul
      omega
    · rw [heq]
      omega
    · have hmul := Nat.mul_le_mul_right (10 ^ y.length)
        (show d.toNat - '0'.toNat + 1 ≤ c.toNat - '0'.toNat by omega)
      rw [Nat.add_mul] at hmul
      omega

theorem length_padded {width n : Nat} (hwidth : 0 < width) (h : n < 10 ^ width) :
    (padded width n).length = width := by
  have hle : (decimalDigits n).length ≤ width :=
    (Nat.length_toDigits_le_iff (by decide) hwidth).mpr h
  unfold padded
  rw [List.length_append, List.length_replicate]
  omega

theorem digitsValue_padded (width n : Nat) : digitsValue (padded width n) = n := by
  unfold padded
  rw [digitsValue_append, digitsValue_zeros, digitsValue_decimalDigits]
  omega

theorem all_isDigit_padded (width n : Nat) : (padded width n).all Char.isDigit = true := by
  unfold padded
  rw [List.all_append, all_isDigit_zeros, all_isDigit_decimalDigits]
  rfl

/-- Numbers of one width with the same character behind them sort as texts as they do as numbers,
and where they are the same, what is behind that character decides. -/
theorem padded_cons_lt_iff {width a b : Nat} (hwidth : 0 < width) (ha : a < 10 ^ width)
    (hb : b < 10 ^ width) (c : Char) (s t : List Char) :
    padded width a ++ c :: s < padded width b ++ c :: t ↔ a < b ∨ a = b ∧ s < t := by
  have hlength : (padded width a).length = (padded width b).length := by
    rw [length_padded hwidth ha, length_padded hwidth hb]
  have heq : padded width a = padded width b ↔ a = b :=
    ⟨fun h => by rw [← digitsValue_padded width a, h, digitsValue_padded], fun h => by rw [h]⟩
  have hbehind : c :: s < c :: t ↔ s < t := by
    rw [List.cons_lt_cons_iff]
    simp
  rw [append_lt_append_iff hlength, heq, hbehind,
    lt_iff_digitsValue_lt (all_isDigit_padded _ _) (all_isDigit_padded _ _) hlength,
    digitsValue_padded, digitsValue_padded]

/-! ### The order of dates with times -/

/-- The days of the years that are written with four digits and without a sign. -/
structure Date.IsOrdinary (date : Date) : Prop extends date.IsValid where
  /-- The first year is the year 0. -/
  zero_le_year : 0 ≤ date.year
  /-- The last year is the year 9999. -/
  year_le : date.year ≤ 9999

namespace TimeOfDay

/-- The times of a day that are in no leap second. -/
structure IsOrdinary (time : TimeOfDay) : Prop where
  /-- A day has 24 hours. -/
  hour_lt : time.hour < 24
  /-- An hour has 60 minutes. -/
  minute_lt : time.minute < 60
  /-- A minute has 60 seconds. -/
  second_lt : time.second < 60
  /-- A second has 10⁹ nanoseconds. -/
  nanos_lt : time.nanos < 1000000000

/-- The whole milliseconds since the start of the day. -/
def millis (time : TimeOfDay) : Nat :=
  3600000 * time.hour + 60000 * time.minute + 1000 * time.second + time.nanos / 1000000

theorem isOrdinary_start : start.IsOrdinary := by constructor <;> decide

theorem isOrdinary_last : last.IsOrdinary := by constructor <;> decide

theorem IsOrdinary.millis_lt {time : TimeOfDay} (h : time.IsOrdinary) : time.millis < 86400000 := by
  obtain ⟨hhour, hminute, hsecond, hnanos⟩ := h
  unfold millis
  omega

end TimeOfDay

section DateTimes

variable {date later : Date} {time time' : TimeOfDay}

theorem toList_dateTimeText (hdate : date.IsOrdinary) (htime : time.IsOrdinary) :
    (dateTimeText date time).toList =
      padded 4 date.year.toNat ++ '-' :: (padded 2 date.month ++ '-' ::
        (padded 2 date.day ++ ' ' :: (padded 2 time.hour ++ ':' ::
          (padded 2 time.minute ++ ':' :: (padded 2 time.second ++ '.' ::
            (padded 3 (time.nanos / 1000000) ++ ['Z'])))))) := by
  have hsecond : time.nanos / 1000000000 = 0 := Nat.div_eq_of_lt htime.nanos_lt
  have hnanos : time.nanos % 1000000000 = time.nanos := Nat.mod_eq_of_lt htime.nanos_lt
  rw [dateTimeText, String.toList_ofList, hsecond, hnanos, yearText,
    if_pos ⟨hdate.zero_le_year, hdate.year_le⟩]
  simp only [List.append_assoc, List.cons_append, Nat.add_zero]

/-- Dates with times sort as texts by date, and on the same day by the time in milliseconds. -/
theorem dateTimeText_lt_iff (hdate : date.IsOrdinary) (hlater : later.IsOrdinary)
    (htime : time.IsOrdinary) (htime' : time'.IsOrdinary) :
    dateTimeText date time < dateTimeText later time' ↔
      date.Before later ∨ date = later ∧ time.millis < time'.millis := by
  rw [String.lt_iff_toList_lt, toList_dateTimeText hdate htime, toList_dateTimeText hlater htime']
  obtain ⟨⟨-, hmonth, -, hday⟩, hpos, hyear⟩ := hdate
  obtain ⟨⟨-, hmonth', -, hday'⟩, hpos', hyear'⟩ := hlater
  obtain ⟨hhour, hminute, hsecond, hnanos⟩ := htime
  obtain ⟨hhour', hminute', hsecond', hnanos'⟩ := htime'
  have hlast := Date.daysInMonth_le date.year date.month
  have hlast' := Date.daysInMonth_le later.year later.month
  rw [padded_cons_lt_iff (by decide) (by omega) (by omega),
    padded_cons_lt_iff (by decide) (by omega) (by omega),
    padded_cons_lt_iff (by decide) (by omega) (by omega),
    padded_cons_lt_iff (by decide) (by omega) (by omega),
    padded_cons_lt_iff (by decide) (by omega) (by omega),
    padded_cons_lt_iff (by decide) (by omega) (by omega),
    padded_cons_lt_iff (by decide) (by omega) (by omega)]
  obtain ⟨year, month, day⟩ := date
  obtain ⟨year', month', day'⟩ := later
  simp only [Date.Before, Date.mk.injEq, TimeOfDay.millis, lt_irrefl, and_false, or_false] at *
  omega

end DateTimes

/-! ### The order of instants -/

namespace Instant

/-- The whole milliseconds since the start of 1970-01-01. -/
def millis (instant : Instant) : Int := 1000 * instant.seconds + instant.nanos / 1000000

/-- The instants of the years 0 to 9999 that are in no leap second. -/
structure IsOrdinary (instant : Instant) : Prop where
  /-- The first year is the year 0. -/
  zero_le_year : 0 ≤ instant.date.year
  /-- The last year is the year 9999. -/
  year_le : instant.date.year ≤ 9999
  /-- A second has 10⁹ nanoseconds. -/
  nanos_lt : instant.nanos < 1000000000

theorem IsOrdinary.date {instant : Instant} (h : instant.IsOrdinary) : instant.date.IsOrdinary :=
  ⟨Date.isValid_ofDays _, h.zero_le_year, h.year_le⟩

theorem IsOrdinary.time {instant : Instant} (h : instant.IsOrdinary) :
    instant.time.IsOrdinary := by
  have hlt : (instant.seconds % 86400).toNat < 86400 := by omega
  refine ⟨?_, ?_, ?_, h.nanos_lt⟩ <;> simp only [Instant.time] <;> omega

theorem millis_eq (instant : Instant) :
    instant.millis = 86400000 * instant.days + instant.time.millis := by
  unfold millis days time TimeOfDay.millis
  simp only
  omega

/-- The text of an instant. -/
def text (instant : Instant) : String := dateTimeText instant.date instant.time

/-- Instants sort as texts as they do in time. -/
theorem text_lt_iff {a b : Instant} (ha : a.IsOrdinary) (hb : b.IsOrdinary) :
    a.text < b.text ↔ a.millis < b.millis := by
  have hlta := ha.time.millis_lt
  have hltb := hb.time.millis_lt
  unfold text
  rw [dateTimeText_lt_iff ha.date hb.date ha.time hb.time, millis_eq a, millis_eq b, date, date,
    Date.before_ofDays_iff, Date.ofDays_inj]
  omega

end Instant

/-! ### Periods -/

/-- A kind of period that has a name for its first and one for its last instant. -/
inductive Period where
  /-- A day. -/
  | day
  /-- A month. -/
  | month
  /-- A year. -/
  | year

namespace Period

/-- The name of the first instant. -/
def first : Period → TimeName
  | day => .todayStart
  | month => .monthStart
  | year => .yearStart

/-- The name of the last instant. -/
def last : Period → TimeName
  | day => .todayEnd
  | month => .monthEnd
  | year => .yearEnd

/-- The dates are in the same period. -/
def Shares : Period → Date → Date → Prop
  | day, a, b => a = b
  | month, a, b => a.year = b.year ∧ a.month = b.month
  | year, a, b => a.year = b.year

/-- The first day of the period that a date is in. -/
def firstDate (date : Date) : Period → Date
  | day => date
  | month => date.monthStart
  | year => { year := date.year, month := 1, day := 1 }

/-- The last day of the period that a date is in. -/
def lastDate (date : Date) : Period → Date
  | day => date
  | month => { date with day := Date.daysInMonth date.year date.month }
  | year => { year := date.year, month := 12, day := 31 }

variable {t u : Instant} {date : Date} (period : Period)

theorem value?_first (t : Instant) :
    period.first.value? t = some (.text (dateTimeText (period.firstDate t.date) .start)) := by
  cases period <;> rfl

/-- The last day of a month is found as the day before the first of the next month, which is in the
range of the calendar. -/
theorem value?_last (h : t.IsOrdinary) :
    period.last.value? t = some (.text (dateTimeText (period.lastDate t.date) .last)) := by
  cases period with
  | day => rfl
  | month =>
    have hyear : t.date.nextMonthStart.year ≤ Date.lastYear := by
      have hle := h.year_le
      unfold Date.nextMonthStart Date.lastYear
      split <;> simp only <;> omega
    rw [last, TimeName.value?]
    dsimp only
    rw [if_pos hyear, Date.yesterday_nextMonthStart h.date.toIsValid]
    rfl
  | year => rfl

theorem isOrdinary_firstDate (h : date.IsOrdinary) : (period.firstDate date).IsOrdinary := by
  obtain ⟨hvalid, hpos, hle⟩ := h
  cases period with
  | day => exact ⟨hvalid, hpos, hle⟩
  | month =>
    exact ⟨⟨hvalid.one_le_month, hvalid.month_le, le_rfl, Date.one_le_daysInMonth _ _⟩, hpos, hle⟩
  | year => exact ⟨⟨le_rfl, Nat.le_add_left 1 11, le_rfl, Date.one_le_daysInMonth _ _⟩, hpos, hle⟩

theorem isOrdinary_lastDate (h : date.IsOrdinary) : (period.lastDate date).IsOrdinary := by
  obtain ⟨hvalid, hpos, hle⟩ := h
  cases period with
  | day => exact ⟨hvalid, hpos, hle⟩
  | month =>
    exact ⟨⟨hvalid.one_le_month, hvalid.month_le, Date.one_le_daysInMonth _ _, le_rfl⟩, hpos, hle⟩
  | year => exact ⟨⟨Nat.le_add_left 1 11, le_rfl, Nat.le_add_left 1 30, le_rfl⟩, hpos, hle⟩

/-- A date is in the period of another one exactly if it is not before its first day and not behind
its last one. -/
theorem shares_iff {other : Date} (hother : other.IsValid) :
    period.Shares other date ↔
      ¬ other.Before (period.firstDate date) ∧ ¬ (period.lastDate date).Before other := by
  obtain ⟨hmonth, hmonth', hday, hday'⟩ := hother
  obtain ⟨year, month, day⟩ := date
  obtain ⟨year', month', day'⟩ := other
  cases period with
  | day =>
    simp only [Shares, firstDate, lastDate, Date.Before, Date.mk.injEq]
    omega
  | month =>
    simp only [Shares, firstDate, lastDate, Date.Before, Date.monthStart] at *
    by_cases hsame : year' = year ∧ month' = month
    · obtain ⟨rfl, rfl⟩ := hsame
      omega
    · omega
  | year =>
    have hlast := Date.daysInMonth_le year' month'
    simp only [Shares, firstDate, lastDate, Date.Before] at *
    omega

end Period

/-- **The texts of a period enclose the texts of its instants and no others**, and the texts of
instants sort as the instants do, fractions of a millisecond aside.  The dates are those of the
Gregorian calendar. -/
theorem periods_decided {t u : Instant} (ht : t.IsOrdinary) (hu : u.IsOrdinary) :
    IsGregorian Date.ofDays ∧
    (∃ text text', TimeName.now.value? t = some (.text text) ∧
      TimeName.now.value? u = some (.text text') ∧ (text ≤ text' ↔ t.millis ≤ u.millis)) ∧
    ∀ period : Period, ∃ text first last, TimeName.now.value? u = some (.text text) ∧
      period.first.value? t = some (.text first) ∧ period.last.value? t = some (.text last) ∧
      (first ≤ text ∧ text ≤ last ↔ period.Shares u.date t.date) := by
  refine ⟨Date.isGregorian_ofDays, ⟨t.text, u.text, rfl, rfl, ?_⟩, fun period =>
    ⟨u.text, _, _, rfl, period.value?_first t, period.value?_last ht, ?_⟩⟩
  · rw [← not_lt, ← not_lt, Instant.text_lt_iff hu ht]
  · have hfirst := dateTimeText_lt_iff hu.date (period.isOrdinary_firstDate ht.date) hu.time
      TimeOfDay.isOrdinary_start
    have hlast := dateTimeText_lt_iff (period.isOrdinary_lastDate ht.date) hu.date
      TimeOfDay.isOrdinary_last hu.time
    have hstart : ¬ u.time.millis < TimeOfDay.start.millis := Nat.not_lt_zero _
    have hend : ¬ TimeOfDay.last.millis < u.time.millis :=
      Nat.not_lt.mpr (Nat.le_of_lt_succ hu.time.millis_lt)
    rw [period.shares_iff hu.date.toIsValid, ← not_lt, ← not_lt, Instant.text, hfirst, hlast]
    simp only [hstart, hend, and_false, or_false]

/-- The last instant of a February that has no 29th day, since 1900 was no leap year. -/
def lastOfFebruary : Instant := { seconds := -2203891201, nanos := 999999999 }

/-- The first instant of the March behind it. -/
def firstOfMarch : Instant := { seconds := -2203891200, nanos := 0 }

/-- A nanosecond later it is another month. -/
theorem lastOfFebruary_decided :
    lastOfFebruary.IsOrdinary ∧ firstOfMarch.IsOrdinary ∧
      ∃ text first last, TimeName.now.value? firstOfMarch = some (.text text) ∧
        TimeName.monthStart.value? lastOfFebruary = some (.text first) ∧
        TimeName.monthEnd.value? lastOfFebruary = some (.text last) ∧
        last = "1900-02-28 23:59:59.999Z" ∧ ¬ (first ≤ text ∧ text ≤ last) := by
  have hlastInstant : lastOfFebruary.IsOrdinary := by constructor <;> decide
  have hfirstInstant : firstOfMarch.IsOrdinary := by constructor <;> decide
  obtain ⟨-, -, hperiods⟩ := periods_decided hlastInstant hfirstInstant
  obtain ⟨text, first, last, htext, hfirst, hlast, hdecided⟩ := hperiods .month
  have hmonthEnd : TimeName.monthEnd.value? lastOfFebruary =
      some (.text "1900-02-28 23:59:59.999Z") := by decide
  refine ⟨hlastInstant, hfirstInstant, text, first, last, htext, hfirst, hlast, ?_, ?_⟩
  · rw [Period.last, hmonthEnd] at hlast
    exact (Value.text.inj (Option.some.inj hlast)).symm
  · rw [hdecided]
    rintro ⟨-, hmonth⟩
    exact absurd hmonth (by decide)

end PagedSearch
