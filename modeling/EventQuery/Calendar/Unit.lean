import EventQuery.Calendar.Instant

/-!
Calendar units: the buckets a local time can be cut to, and the components that can
be read off it. A local time is the number of milliseconds a clock at that place
shows since 1970-01-01T00:00:00. Weeks start on Monday.
-/
namespace EventQuery

inductive TimeUnit where
  | second | minute | hour | day | week | month | quarter | year
  deriving DecidableEq, Repr

namespace TimeUnit

def all : List TimeUnit := [second, minute, hour, day, week, month, quarter, year]

def keyword : TimeUnit → String
  | second => "SECOND"
  | minute => "MINUTE"
  | hour => "HOUR"
  | day => "DAY"
  | week => "WEEK"
  | month => "MONTH"
  | quarter => "QUARTER"
  | year => "YEAR"

end TimeUnit

inductive TimePart where
  | secondOfMinute | minuteOfHour | hourOfDay | dayOfWeek | dayOfMonth | dayOfYear
  | weekOfYear | monthOfYear | year
  deriving DecidableEq, Repr

namespace TimePart

def all : List TimePart :=
  [secondOfMinute, minuteOfHour, hourOfDay, dayOfWeek, dayOfMonth, dayOfYear, weekOfYear,
    monthOfYear, year]

def keyword : TimePart → String
  | secondOfMinute => "SECOND_OF_MINUTE"
  | minuteOfHour => "MINUTE_OF_HOUR"
  | hourOfDay => "HOUR_OF_DAY"
  | dayOfWeek => "DAY_OF_WEEK"
  | dayOfMonth => "DAY_OF_MONTH"
  | dayOfYear => "DAY_OF_YEAR"
  | weekOfYear => "WEEK_OF_YEAR"
  | monthOfYear => "MONTH_OF_YEAR"
  | year => "YEAR"

end TimePart

namespace Calendar

/-- The day a local time lies in. -/
def localDay (time : Int) : Int := time / Instant.millisPerDay

/-- The first millisecond of a day that belongs to a date. -/
def midnight? (day : Int) : Option Int :=
  if leastDay ≤ day ∧ day ≤ greatestDay then some (day * Instant.millisPerDay) else none

/-- The last multiple of `length` that is not after `time`. -/
def floorTo (length time : Int) : Int := time / length * length

/-- The start of the bucket that holds a local time. -/
def truncate? (unit : TimeUnit) (time : Int) : Option Int :=
  let day := localDay time
  let date := Date.ofDay day
  match unit with
  | .second => some (floorTo 1000 time)
  | .minute => some (floorTo 60000 time)
  | .hour => some (floorTo 3600000 time)
  | .day => midnight? day
  | .week => midnight? (day - daysFromMonday day)
  | .month => midnight? (Date.toDay ⟨date.year, date.month, 1⟩)
  | .quarter => midnight? (Date.toDay ⟨date.year, (date.month - 1) / 3 * 3 + 1, 1⟩)
  | .year => midnight? (Date.toDay ⟨date.year, 1, 1⟩)

/-- A component of a local time. Days of the week and all dates count from one;
weeks belong to the year that has their Thursday. -/
def component (part : TimePart) (time : Int) : Int :=
  let day := localDay time
  let clock := time % Instant.millisPerDay
  match part with
  | .secondOfMinute => clock / 1000 % 60
  | .minuteOfHour => clock / 60000 % 60
  | .hourOfDay => clock / 3600000
  | .dayOfWeek => daysFromMonday day + 1
  | .dayOfMonth => (Date.ofDay day).day
  | .dayOfYear => dayOfYear day
  | .weekOfYear => weekOfYear day
  | .monthOfYear => (Date.ofDay day).month
  | .year => (Date.ofDay day).year

end Calendar

end EventQuery
