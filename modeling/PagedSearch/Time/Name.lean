import PagedSearch.Sql.Value
import PagedSearch.Time.Calendar

/-!
# Names of times

Some identifiers of filters are not fields: those that start with `@` and name the current time or
a part or a period of it.

## Main definitions

* `TimeName`, `TimeName.ofText?` — those identifiers.
* `TimeName.value?` — what one stands for at an instant.
-/

namespace PagedSearch

/-- An identifier that stands for a time. -/
inductive TimeName where
  /-- `@now` -/
  | now
  /-- `@second` -/
  | second
  /-- `@minute` -/
  | minute
  /-- `@hour` -/
  | hour
  /-- `@day` -/
  | day
  /-- `@month` -/
  | month
  /-- `@year` -/
  | year
  /-- `@weekday`, from 0 for Sunday to 6 -/
  | weekday
  /-- `@todayStart` -/
  | todayStart
  /-- `@todayEnd` -/
  | todayEnd
  /-- `@monthStart` -/
  | monthStart
  /-- `@monthEnd` -/
  | monthEnd
  /-- `@yearStart` -/
  | yearStart
  /-- `@yearEnd` -/
  | yearEnd
  deriving DecidableEq

namespace TimeName

/-- The identifier. -/
def text : TimeName → String
  | now => "@now"
  | second => "@second"
  | minute => "@minute"
  | hour => "@hour"
  | day => "@day"
  | month => "@month"
  | year => "@year"
  | weekday => "@weekday"
  | todayStart => "@todayStart"
  | todayEnd => "@todayEnd"
  | monthStart => "@monthStart"
  | monthEnd => "@monthEnd"
  | yearStart => "@yearStart"
  | yearEnd => "@yearEnd"

/-- All names of times. -/
def all : List TimeName :=
  [now, second, minute, hour, day, month, year, weekday, todayStart, todayEnd, monthStart,
    monthEnd, yearStart, yearEnd]

/-- The name of a time that an identifier is, if it is one. -/
def ofText? (text : String) : Option TimeName :=
  all.find? (·.text == text)

/-- The value of a name at an instant: a text for an instant, and a number for a part of one.  The
end of a month has none if the calendar ends there. -/
def value? (name : TimeName) (instant : Instant) : Option Value :=
  let date := instant.date
  let time := instant.time
  let startOf (date : Date) : Option Value := some (.text (dateTimeText date .start))
  let endOf (date : Date) : Option Value := some (.text (dateTimeText date .last))
  match name with
  | now => some (.text (dateTimeText date time))
  | second => some (.int time.second)
  | minute => some (.int time.minute)
  | hour => some (.int time.hour)
  | day => some (.int date.day)
  | month => some (.int date.month)
  | year => some (.int date.year)
  | weekday => some (.int (Date.weekday instant.days))
  | todayStart => startOf date
  | todayEnd => endOf date
  | monthStart => startOf date.monthStart
  | monthEnd =>
    if date.nextMonthStart.year ≤ Date.lastYear then endOf date.nextMonthStart.yesterday else none
  | yearStart => startOf { year := date.year, month := 1, day := 1 }
  | yearEnd => endOf { year := date.year, month := 12, day := 31 }

end TimeName

end PagedSearch
