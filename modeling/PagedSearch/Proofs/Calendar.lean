import Mathlib.Order.Monotone.Basic
import Mathlib.Tactic.IntervalCases
import PagedSearch.Time.Calendar

/-!
# The Gregorian calendar

`Date.ofDays` computes the date of a day from its number, by divisions in a cycle of 400 years.  The
calendar itself says less and is plainer: every month has its number of days, February has one more
in leap years, and the day after the last of a month is the first of the next month.  Both are the
same.

The year is found from the number of a day in the cycle by a quotient that never steps down.  So it
is enough to know it on the first and the last day of each of the 400 years.

## Main definitions

* `Date.isLeap`, `Date.daysInMonth`, `Date.IsValid` — the days that there are.
* `Date.tomorrow` — the day after.
* `IsGregorian` — the dates of the days before and after 1970-01-01.
* `Date.Before` — the order of dates by year, month and day.

## Main results

* `Date.toDays_ofDays`, `Date.ofDays_toDays` — dates and numbers of days are the same.
* `Date.before_ofDays_iff` — their orders are the same.
* `Date.isGregorian_ofDays` — the dates that are computed are those of the calendar.
* `Date.yesterday_nextMonthStart` — the day before the first of the next month ends the month.
-/

namespace PagedSearch

namespace Date

/-! ### The calendar -/

/-- Whether a year has a 29th of February. -/
def isLeap (year : Int) : Bool := year % 4 = 0 && (year % 100 ≠ 0 || year % 400 = 0)

/-- The days of a month. -/
def daysInMonth (year : Int) (month : Nat) : Nat :=
  match month with
  | 2 => if isLeap year then 29 else 28
  | 4 => 30
  | 6 => 30
  | 9 => 30
  | 11 => 30
  | _ => 31

/-- A day that there is. -/
structure IsValid (date : Date) : Prop where
  /-- January is the first month. -/
  one_le_month : 1 ≤ date.month
  /-- December is the last one. -/
  month_le : date.month ≤ 12
  /-- The days of a month are counted from 1 on. -/
  one_le_day : 1 ≤ date.day
  /-- The month has that day. -/
  day_le : date.day ≤ daysInMonth date.year date.month

/-- The day after. -/
def tomorrow (date : Date) : Date :=
  if date.day < daysInMonth date.year date.month then { date with day := date.day + 1 }
  else date.nextMonthStart

/-- A date is before another one, in the order of years, months and days. -/
def Before (date later : Date) : Prop :=
  date.year < later.year ∨ date.year = later.year ∧
    (date.month < later.month ∨ date.month = later.month ∧ date.day < later.day)

theorem before_trichotomy (a b : Date) : a.Before b ∨ a = b ∨ b.Before a := by
  obtain ⟨year, month, day⟩ := a
  obtain ⟨year', month', day'⟩ := b
  simp only [Before, Date.mk.injEq]
  omega

theorem one_le_daysInMonth (year : Int) (month : Nat) : 1 ≤ daysInMonth year month := by
  unfold daysInMonth
  split
  · split <;> decide
  all_goals decide

theorem daysInMonth_le (year : Int) (month : Nat) : daysInMonth year month ≤ 31 := by
  unfold daysInMonth
  split
  · split <;> decide
  all_goals decide

theorem isValid_nextMonthStart {date : Date} (h : date.IsValid) : date.nextMonthStart.IsValid := by
  have hmonth := h.month_le
  unfold nextMonthStart
  split
  · exact ⟨le_rfl, Nat.le_add_left 1 11, le_rfl, one_le_daysInMonth _ _⟩
  · exact ⟨Nat.le_add_left 1 _, by simp only; omega, le_rfl, one_le_daysInMonth _ _⟩

theorem isValid_tomorrow {date : Date} (h : date.IsValid) : date.tomorrow.IsValid := by
  unfold tomorrow
  split
  · exact ⟨h.one_le_month, h.month_le, Nat.le_add_left 1 _, by simp only; omega⟩
  · exact isValid_nextMonthStart h

/-! ### Days within a cycle -/

/-- The year of a day of the cycle, both counted from 0. -/
def yearOfCycle (day : Nat) : Nat := (day - day / 1460 + day / 36524 - day / 146096) / 365

theorem yearOfCycle_mono : Monotone yearOfCycle := by
  refine monotone_nat_of_le_succ fun day => Nat.div_le_div_right ?_
  -- A quotient steps up by one at most, and where the last one does, so does the one before it.
  have hfour : (day + 1) / 1460 ≤ day / 1460 + 1 := by omega
  have hcentury : day / 36524 ≤ (day + 1) / 36524 := by omega
  have hcycle : (day + 1) / 146096 - day / 146096 ≤ (day + 1) / 36524 - day / 36524 := by omega
  have hle : day / 1460 ≤ day := by omega
  omega

/-- The first day of a year and the day before the next year are in the year. -/
theorem yearOfCycle_daysBeforeYear :
    ∀ year < 400, yearOfCycle (daysBeforeYear year) = year ∧
      yearOfCycle (daysBeforeYear (year + 1) - 1) = year := by
  decide +kernel

/-- A year that starts in March has 365 days, and one more if it ends in a leap year.  The last year
of the cycle has its last day beyond the count. -/
theorem daysBeforeYear_succ {year : Nat} (h : year < 400) :
    daysBeforeYear (year + 1) + (if year = 399 then 1 else 0) =
      daysBeforeYear year + (if isLeap (year + 1) then 366 else 365) := by
  revert year
  unfold isLeap
  decide +kernel

/-- A day of the cycle is in the year that is computed for it. -/
theorem exists_dayOfYear {day : Nat} (h : day < 146097) :
    ∃ dayOfYear, yearOfCycle day < 400 ∧ day = daysBeforeYear (yearOfCycle day) + dayOfYear ∧
      dayOfYear < if isLeap (yearOfCycle day + 1) then 366 else 365 := by
  have hlast : yearOfCycle 146096 = 399 := by decide
  have hlt : yearOfCycle day < 400 := by
    have hmono := yearOfCycle_mono (show day ≤ 146096 by omega)
    omega
  generalize hyear : yearOfCycle day = year at *
  have hle : daysBeforeYear year ≤ day := by
    by_contra hnot
    cases year with
    | zero => exact hnot (Nat.zero_le day)
    | succ before =>
      -- The last day of the year before would be in a later year than it is.
      have hmono := yearOfCycle_mono (show day ≤ daysBeforeYear (before + 1) - 1 by omega)
      rw [(yearOfCycle_daysBeforeYear before (by omega)).2] at hmono
      omega
  have hnext : day < daysBeforeYear (year + 1) + (if year = 399 then 1 else 0) := by
    by_contra hnot
    by_cases hend : year = 399
    · subst hend
      have hcount : daysBeforeYear 400 = 146096 := by decide
      rw [if_pos rfl, hcount] at hnot
      omega
    · rw [if_neg hend] at hnot
      have hmono := yearOfCycle_mono (show daysBeforeYear (year + 1) ≤ day by omega)
      rw [(yearOfCycle_daysBeforeYear (year + 1) (by omega)).1] at hmono
      omega
  rw [daysBeforeYear_succ hlt] at hnext
  exact ⟨day - daysBeforeYear year, hlt, by omega, by omega⟩

/-! ### The computed date -/

/-- The date of a day of a year that starts in March, given how many cycles, years of the cycle and
days of the year precede it. -/
def ofMarch (cycles : Int) (year dayOfYear : Nat) : Date :=
  let month := (5 * dayOfYear + 2) / 153
  { year := year + 400 * cycles + (if month < 10 then 0 else 1)
    month := if month < 10 then month + 3 else month - 9
    day := dayOfYear - daysBeforeMonth month + 1 }

theorem monthOfYear_lt {year dayOfYear : Nat}
    (h : dayOfYear < if isLeap (year + 1) then 366 else 365) :
    (5 * dayOfYear + 2) / 153 < 12 := by
  split at h <;> omega

theorem ofDays_eq (days : Int) :
    ∃ (cycles : Int) (year dayOfYear : Nat), year < 400 ∧
      (dayOfYear < if isLeap (year + 1) then 366 else 365) ∧
      days + epoch = cycle * cycles + daysBeforeYear year + dayOfYear ∧
      ofDays days = ofMarch cycles year dayOfYear := by
  have hday : ((days + epoch) % cycle).toNat < 146097 := by
    unfold cycle
    omega
  obtain ⟨dayOfYear, hyear, hsplit, hlt⟩ := exists_dayOfYear hday
  refine ⟨(days + epoch) / cycle, _, dayOfYear, hyear, hlt, ?_, ?_⟩
  · have hdiv := Int.mul_ediv_add_emod (days + epoch) cycle
    have hnonneg := Int.emod_nonneg (days + epoch) (show cycle ≠ 0 by decide)
    omega
  · have hrest : ((days + epoch) % cycle).toNat -
        daysBeforeYear (yearOfCycle ((days + epoch) % cycle).toNat) = dayOfYear := by
      omega
    have hmonth := monthOfYear_lt hlt
    have hdays : ofDays days =
        let year := yearOfCycle ((days + epoch) % cycle).toNat
        let dayOfYear := ((days + epoch) % cycle).toNat - daysBeforeYear year
        let monthOfYear := (5 * dayOfYear + 2) / 153
        let month := if monthOfYear < 10 then monthOfYear + 3 else monthOfYear - 9
        { year :=
            if month ≤ 2 then (year : Int) + 400 * ((days + epoch) / cycle) + 1
            else year + 400 * ((days + epoch) / cycle)
          month
          day := dayOfYear - daysBeforeMonth monthOfYear + 1 } := rfl
    rw [hdays]
    -- The months up to February are those behind the tenth one from March on.
    simp only [hrest, ofMarch, Date.mk.injEq, and_true]
    split_ifs <;> omega

theorem isLeap_add (year cycles : Int) : isLeap (year + 400 * cycles) = isLeap year := by
  unfold isLeap
  have hfour : (year + 400 * cycles) % 4 = year % 4 := by omega
  have hcentury : (year + 400 * cycles) % 100 = year % 100 := by omega
  have hcycle : (year + 400 * cycles) % 400 = year % 400 := by omega
  rw [hfour, hcentury, hcycle]

theorem isValid_ofMarch {cycles : Int} {year dayOfYear : Nat}
    (h : dayOfYear < if isLeap (year + 1) then 366 else 365) :
    (ofMarch cycles year dayOfYear).IsValid := by
  have hleap : isLeap (year + 400 * cycles + 1) = isLeap (year + 1) := by
    rw [← isLeap_add (year + 1) cycles]
    congr 1
    omega
  have hmonth := monthOfYear_lt h
  have hle : 153 * ((5 * dayOfYear + 2) / 153) ≤ 5 * dayOfYear + 2 := by omega
  have hlt : 5 * dayOfYear + 2 < 153 * ((5 * dayOfYear + 2) / 153) + 153 := by omega
  unfold ofMarch
  generalize (5 * dayOfYear + 2) / 153 = month at *
  cases hyear : isLeap (year + 1) <;>
    simp only [hyear, if_true, if_false, Bool.false_eq_true] at h <;> interval_cases month <;>
    constructor <;> simp [daysInMonth, daysBeforeMonth, hleap, hyear] <;> omega

theorem toDays_ofMarch {cycles : Int} {year dayOfYear : Nat} (hyear : year < 400)
    (h : dayOfYear < if isLeap (year + 1) then 366 else 365) :
    (ofMarch cycles year dayOfYear).toDays =
      cycle * cycles + daysBeforeYear year + dayOfYear - epoch := by
  have hmonth := monthOfYear_lt h
  have hle : 153 * ((5 * dayOfYear + 2) / 153) ≤ 5 * dayOfYear + 2 := by omega
  have hcycles : ((year : Int) + 400 * cycles) / 400 = cycles := by omega
  have hof : (((year : Int) + 400 * cycles) % 400).toNat = year := by omega
  unfold ofMarch
  generalize (5 * dayOfYear + 2) / 153 = month at *
  have hday : daysBeforeMonth month ≤ dayOfYear := by
    unfold daysBeforeMonth
    omega
  by_cases hten : month < 10
  · simp only [hten, if_true, toDays, if_neg (show ¬ month + 3 ≤ 2 by omega),
      if_pos (show 2 < month + 3 by omega), Nat.add_sub_cancel, add_zero, hcycles, hof]
    omega
  · simp only [hten, if_false, toDays, if_pos (show month - 9 ≤ 2 by omega),
      if_neg (show ¬ 2 < month - 9 by omega), Nat.sub_add_cancel (show 9 ≤ month by omega),
      Int.add_sub_cancel, hcycles, hof]
    omega

/-- The number of a day is found again from its date. -/
theorem toDays_ofDays (days : Int) : (ofDays days).toDays = days := by
  obtain ⟨cycles, year, dayOfYear, hyear, hlt, hdays, hof⟩ := ofDays_eq days
  rw [hof, toDays_ofMarch hyear hlt]
  omega

theorem isValid_ofDays (days : Int) : (ofDays days).IsValid := by
  obtain ⟨cycles, year, dayOfYear, -, hlt, -, hof⟩ := ofDays_eq days
  rw [hof]
  exact isValid_ofMarch hlt

/-! ### Days before a month -/

/-- The days before a year that starts in March, counted from the year 0. -/
def daysBefore (year : Int) : Int := 365 * year + year / 4 - year / 100 + year / 400

/-- The days from the first of March of the year 0 to the first of a month. -/
def daysTo (year : Int) (month : Nat) : Int :=
  if month ≤ 2 then daysBefore (year - 1) + daysBeforeMonth (month + 9)
  else daysBefore year + daysBeforeMonth (month - 3)

theorem toDays_eq (date : Date) :
    date.toDays = daysTo date.year date.month + date.day - 1 - epoch := by
  have hyear (year : Int) :
      cycle * (year / 400) + daysBeforeYear (year % 400).toNat = daysBefore year := by
    unfold cycle daysBeforeYear daysBefore
    omega
  unfold toDays daysTo
  by_cases hmonth : date.month ≤ 2
  · simp only [hmonth, if_true, if_neg (Nat.not_lt.mpr hmonth), hyear]
  · simp only [hmonth, if_false, if_pos (Nat.not_le.mp hmonth), hyear]

theorem daysBefore_succ (year : Int) :
    daysBefore (year + 1) = daysBefore year + if isLeap (year + 1) then 366 else 365 := by
  unfold daysBefore isLeap
  simp only [Bool.and_eq_true, Bool.or_eq_true, decide_eq_true_eq]
  split_ifs <;> omega

theorem toDays_nextMonthStart {date : Date} (hpos : 1 ≤ date.month) (hle : date.month ≤ 12) :
    date.nextMonthStart.toDays = date.monthStart.toDays + daysInMonth date.year date.month := by
  obtain ⟨year, month, day⟩ := date
  simp only at hpos hle
  -- Only between February and March does it matter whether the year is a leap year.
  have hyear := daysBefore_succ (year - 1)
  rw [Int.sub_add_cancel] at hyear
  rw [toDays_eq, toDays_eq]
  unfold nextMonthStart monthStart
  cases hleap : isLeap year <;> interval_cases month <;>
    simp [daysInMonth, hleap, daysTo, daysBeforeMonth] at * <;> omega

theorem toDays_eq_monthStart (date : Date) :
    date.toDays = date.monthStart.toDays + date.day - 1 := by
  rw [toDays_eq, toDays_eq]
  dsimp only [monthStart]
  omega

/-- The day after is one day later. -/
theorem toDays_tomorrow {date : Date} (h : date.IsValid) :
    date.tomorrow.toDays = date.toDays + 1 := by
  have hday := h.day_le
  unfold tomorrow
  split
  · rw [toDays_eq_monthStart, toDays_eq_monthStart date]
    dsimp only [monthStart]
    omega
  · rw [toDays_nextMonthStart h.one_le_month h.month_le, toDays_eq_monthStart date]
    omega

/-! ### The order of dates -/

/-- The first day of a month, given how many months after January of the year 0 it is. -/
def firstOfMonth (count : Int) : Date where
  year := count / 12
  month := (count % 12).toNat + 1
  day := 1

/-- How many months after January of the year 0 the date is. -/
def monthCount (date : Date) : Int := 12 * date.year + date.month - 1

theorem firstOfMonth_monthCount {date : Date} (h : date.IsValid) :
    firstOfMonth date.monthCount = date.monthStart := by
  have hpos := h.one_le_month
  have hle := h.month_le
  unfold firstOfMonth monthCount monthStart
  simp only [Date.mk.injEq, and_true]
  omega

theorem toDays_firstOfMonth_succ (count : Int) :
    (firstOfMonth (count + 1)).toDays =
      (firstOfMonth count).toDays +
        daysInMonth (firstOfMonth count).year (firstOfMonth count).month := by
  have hnext : firstOfMonth (count + 1) = (firstOfMonth count).nextMonthStart := by
    unfold firstOfMonth nextMonthStart
    simp only
    split <;> simp only [Date.mk.injEq, and_true] <;> omega
  rw [hnext, toDays_nextMonthStart (Nat.le_add_left 1 _) (by simp only [firstOfMonth]; omega)]
  rfl

theorem toDays_firstOfMonth_le {count later : Int} (h : count ≤ later) :
    (firstOfMonth count).toDays ≤ (firstOfMonth later).toDays := by
  have hmono : Monotone fun count => (firstOfMonth count).toDays := by
    refine monotone_int_of_le_succ fun count => ?_
    have hpos := one_le_daysInMonth (firstOfMonth count).year (firstOfMonth count).month
    rw [toDays_firstOfMonth_succ]
    omega
  exact hmono h

theorem toDays_lt_of_before {date later : Date} (h : date.IsValid) (h' : later.IsValid)
    (hbefore : date.Before later) : date.toDays < later.toDays := by
  have hday := h.day_le
  have hday' := h'.one_le_day
  have hmonth := h.month_le
  have hmonth' := h'.one_le_month
  have hfirst := toDays_firstOfMonth_succ date.monthCount
  rw [firstOfMonth_monthCount h] at hfirst
  rw [toDays_eq_monthStart date, toDays_eq_monthStart later]
  rcases lt_or_ge date.monthCount later.monthCount with hlt | hge
  · -- The month of the later date starts when the month of the other one is over.
    have hmono := toDays_firstOfMonth_le (Int.add_one_le_of_lt hlt)
    simp only [firstOfMonth_monthCount h'] at hmono
    unfold monthStart at *
    simp only at *
    omega
  · -- They are in the same month.
    unfold Before at hbefore
    unfold monthCount at hge
    obtain ⟨hyear, hmonths, hdays⟩ :
        date.year = later.year ∧ date.month = later.month ∧ date.day < later.day := by
      omega
    have hstart : date.monthStart = later.monthStart := by
      unfold monthStart
      rw [hyear, hmonths]
    rw [hstart]
    omega

theorem toDays_inj {a b : Date} (ha : a.IsValid) (hb : b.IsValid) (h : a.toDays = b.toDays) :
    a = b := by
  rcases before_trichotomy a b with hlt | rfl | hgt
  · have hdays := toDays_lt_of_before ha hb hlt
    omega
  · rfl
  · have hdays := toDays_lt_of_before hb ha hgt
    omega

/-- A date is found again from the number of its day. -/
theorem ofDays_toDays {date : Date} (h : date.IsValid) : ofDays date.toDays = date :=
  toDays_inj (isValid_ofDays _) h (toDays_ofDays _)

/-- The order of dates is that of the days. -/
theorem before_ofDays_iff {days later : Int} :
    (ofDays days).Before (ofDays later) ↔ days < later := by
  have hlt {a b : Int} (h : (ofDays a).Before (ofDays b)) : a < b := by
    have hdays := toDays_lt_of_before (isValid_ofDays a) (isValid_ofDays b) h
    rwa [toDays_ofDays, toDays_ofDays] at hdays
  refine ⟨hlt, fun h => ?_⟩
  rcases before_trichotomy (ofDays days) (ofDays later) with hbefore | heq | hafter
  · exact hbefore
  · have hdays := congrArg toDays heq
    rw [toDays_ofDays, toDays_ofDays] at hdays
    omega
  · have hdays := hlt hafter
    omega

theorem ofDays_inj {days other : Int} : ofDays days = ofDays other ↔ days = other := by
  refine ⟨fun h => ?_, fun h => by rw [h]⟩
  rw [← toDays_ofDays days, h, toDays_ofDays]

/-- The day before the first of the next month is the last one of the month. -/
theorem yesterday_nextMonthStart {date : Date} (h : date.IsValid) :
    date.nextMonthStart.yesterday = { date with day := daysInMonth date.year date.month } := by
  have hvalid : IsValid { date with day := daysInMonth date.year date.month } :=
    ⟨h.one_le_month, h.month_le, one_le_daysInMonth _ _, le_rfl⟩
  rw [← ofDays_toDays hvalid, yesterday, toDays_nextMonthStart h.one_le_month h.month_le,
    toDays_eq_monthStart { date with day := _ }]
  rfl

end Date

/-! ### The calendar and what is computed -/

/-- The dates of the days before and after 1970-01-01, each the day after the one before it. -/
structure IsGregorian (calendar : Int → Date) : Prop where
  /-- The days are counted from that day. -/
  epoch : calendar 0 = { year := 1970, month := 1, day := 1 }
  /-- Every day is one that there is. -/
  isValid : ∀ days, (calendar days).IsValid
  /-- One day follows the other. -/
  succ : ∀ days, calendar (days + 1) = (calendar days).tomorrow

/-- The dates that are computed are those of the Gregorian calendar. -/
theorem Date.isGregorian_ofDays : IsGregorian ofDays where
  epoch := rfl
  isValid := isValid_ofDays
  succ days :=
    toDays_inj (isValid_ofDays _) (isValid_tomorrow (isValid_ofDays days)) <| by
      rw [toDays_ofDays, toDays_tomorrow (isValid_ofDays days), toDays_ofDays]

end PagedSearch
