import PagedSearch.Number.Shortest

/-!
# Dates and times

Instants in UTC, in the Gregorian calendar extended over all years.  Days are counted from
1970-01-01, and the calendar is computed in cycles of 400 years that start on the first of March,
so that the day that leap years have more is the last one of its year.

## Main definitions

* `Date`, `Date.ofDays`, `Date.toDays` — dates and the count of days.
* `TimeOfDay`, `Instant` — times of a day, and instants.
* `dateTimeText` — a date and a time as text, which sorts as the instants do in four-digit years.
-/

namespace PagedSearch

/-- A day of the Gregorian calendar. -/
structure Date where
  /-- The year; the year before 1 is 0. -/
  year : Int
  /-- The month, from 1 to 12. -/
  month : Nat
  /-- The day of the month, from 1 on. -/
  day : Nat
  deriving DecidableEq

namespace Date

/-- The days from the first of March of the year 0 to 1970-01-01. -/
def epoch : Int := 719468

/-- The days of a cycle of 400 years. -/
def cycle : Int := 146097

/-- The days of a year that starts in March before the month with this number, counted from 0. -/
def daysBeforeMonth (month : Nat) : Nat := (153 * month + 2) / 5

/-- The days of a cycle before the year with this number, counted from 0. -/
def daysBeforeYear (year : Nat) : Nat := 365 * year + year / 4 - year / 100

/-- The date so many days after 1970-01-01. -/
def ofDays (days : Int) : Date :=
  let shifted := days + epoch
  let dayOfCycle := (shifted % cycle).toNat
  let yearOfCycle :=
    (dayOfCycle - dayOfCycle / 1460 + dayOfCycle / 36524 - dayOfCycle / 146096) / 365
  let dayOfYear := dayOfCycle - daysBeforeYear yearOfCycle
  let monthOfYear := (5 * dayOfYear + 2) / 153
  let month := if monthOfYear < 10 then monthOfYear + 3 else monthOfYear - 9
  let year := (yearOfCycle : Int) + 400 * (shifted / cycle)
  { year := if month ≤ 2 then year + 1 else year
    month
    day := dayOfYear - daysBeforeMonth monthOfYear + 1 }

/-- How many days after 1970-01-01 the date is. -/
def toDays (date : Date) : Int :=
  let year := if date.month ≤ 2 then date.year - 1 else date.year
  let monthOfYear := if 2 < date.month then date.month - 3 else date.month + 9
  let yearOfCycle := (year % 400).toNat
  cycle * (year / 400) + daysBeforeYear yearOfCycle + daysBeforeMonth monthOfYear + date.day - 1 -
    epoch

/-- The first day of the month. -/
def monthStart (date : Date) : Date := { date with day := 1 }

/-- The first day of the month after. -/
def nextMonthStart (date : Date) : Date :=
  if date.month = 12 then { year := date.year + 1, month := 1, day := 1 }
  else { date with month := date.month + 1, day := 1 }

/-- The day before. -/
def yesterday (date : Date) : Date := ofDays (date.toDays - 1)

/-- The last year that dates are computed for. -/
def lastYear : Int := 262142

/-- The day of the week, from 0 for Sunday to 6, given the days since 1970-01-01. -/
def weekday (days : Int) : Int := (days + 4) % 7

end Date

/-- A time of a day. -/
structure TimeOfDay where
  /-- The hour, from 0 to 23. -/
  hour : Nat
  /-- The minute, from 0 to 59. -/
  minute : Nat
  /-- The second, from 0 to 59. -/
  second : Nat
  /-- The nanoseconds after that second; those of a leap second go on from 10⁹. -/
  nanos : Nat
  deriving DecidableEq

/-- The first instant of a day. -/
def TimeOfDay.start : TimeOfDay := { hour := 0, minute := 0, second := 0, nanos := 0 }

/-- The last millisecond of a day. -/
def TimeOfDay.last : TimeOfDay := { hour := 23, minute := 59, second := 59, nanos := 999000000 }

/-- An instant. -/
structure Instant where
  /-- The seconds since the start of 1970-01-01, leap seconds not counted. -/
  seconds : Int
  /-- The nanoseconds after that second; those of a leap second go on from 10⁹. -/
  nanos : Nat
  deriving DecidableEq

namespace Instant

/-- The instant so many milliseconds after the start of 1970-01-01. -/
def ofMillis (millis : Int) : Instant where
  seconds := millis / 1000
  nanos := (millis % 1000).toNat * 1000000

/-- The days since 1970-01-01. -/
def days (instant : Instant) : Int := instant.seconds / 86400

/-- The date. -/
def date (instant : Instant) : Date := Date.ofDays instant.days

/-- The time of the day. -/
def time (instant : Instant) : TimeOfDay :=
  let second := (instant.seconds % 86400).toNat
  { hour := second / 3600, minute := second / 60 % 60, second := second % 60
    nanos := instant.nanos }

end Instant

/-! ### Text -/

/-- A natural number with at least `width` digits. -/
def padded (width n : Nat) : List Char :=
  let digits := decimalDigits n
  List.replicate (width - digits.length) '0' ++ digits

/-- A year: four digits, and a sign and at least four digits outside of the years 0 to 9999. -/
def yearText (year : Int) : List Char :=
  if 0 ≤ year ∧ year ≤ 9999 then padded 4 year.toNat
  else (if year < 0 then '-' else '+') :: padded 4 year.natAbs

/-- A date and a time, as `YYYY-MM-DD HH:MM:SS.mmmZ`.  A leap second is the second 60. -/
def dateTimeText (date : Date) (time : TimeOfDay) : String :=
  String.ofList <|
    yearText date.year ++ '-' :: padded 2 date.month ++ '-' :: padded 2 date.day ++
      ' ' :: padded 2 time.hour ++ ':' :: padded 2 time.minute ++
      ':' :: padded 2 (time.second + time.nanos / 1000000000) ++
      '.' :: padded 3 (time.nanos % 1000000000 / 1000000) ++ ['Z']

end PagedSearch
