/-!
Dates of the proleptic Gregorian calendar and their day numbers. Day 0 is
1970-01-01. Years are counted from March, so that a leap day is the last day of
its year; 400 such years have 146097 days.
-/
namespace EventQuery.Calendar

structure Date where
  year : Int
  month : Nat
  day : Nat
  deriving DecidableEq, Repr

def isLeapYear (year : Int) : Bool := year % 4 == 0 && (year % 100 != 0 || year % 400 == 0)

def daysInMonth (year : Int) (month : Nat) : Nat :=
  match month with
  | 2 => if isLeapYear year then 29 else 28
  | 4 => 30
  | 6 => 30
  | 9 => 30
  | 11 => 30
  | _ => 31

/-- Years outside this range have no dates. -/
def leastYear : Int := -262143

def greatestYear : Int := 262142

namespace Date

def IsValid (date : Date) : Prop :=
  leastYear ≤ date.year ∧ date.year ≤ greatestYear ∧ 1 ≤ date.month ∧ date.month ≤ 12 ∧
    1 ≤ date.day ∧ date.day ≤ daysInMonth date.year date.month

instance (date : Date) : Decidable date.IsValid := by
  unfold IsValid
  infer_instance

/-- The day number of a date. -/
def toDay (date : Date) : Int :=
  let year := if date.month ≤ 2 then date.year - 1 else date.year
  let month : Int := if date.month ≤ 2 then date.month + 9 else date.month - 3
  let era := year / 400
  let yearOfEra := year % 400
  let dayOfYear := (153 * month + 2) / 5 + date.day - 1
  era * 146097 + (yearOfEra * 365 + yearOfEra / 4 - yearOfEra / 100 + dayOfYear) - 719468

/-- The date of a day number. -/
def ofDay (day : Int) : Date :=
  let shifted := day + 719468
  let era := shifted / 146097
  let dayOfEra := shifted % 146097
  let yearOfEra :=
    (dayOfEra - dayOfEra / 1460 + dayOfEra / 36524 - dayOfEra / 146096) / 365
  let dayOfYear := dayOfEra - (365 * yearOfEra + yearOfEra / 4 - yearOfEra / 100)
  let month := (5 * dayOfYear + 2) / 153
  let year := era * 400 + yearOfEra
  ⟨if month < 10 then year else year + 1,
    (if month < 10 then month + 3 else month - 9).toNat,
    (dayOfYear - (153 * month + 2) / 5 + 1).toNat⟩

end Date

/-- The first and the last day number that is a date. -/
def leastDay : Int := Date.toDay ⟨leastYear, 1, 1⟩

def greatestDay : Int := Date.toDay ⟨greatestYear, 12, 31⟩

/-- Days since Monday: 0 for Monday, 6 for Sunday. Day 0 was a Thursday. -/
def daysFromMonday (day : Int) : Int := (day + 3) % 7

/-- The number of a day in its year, from 1. -/
def dayOfYear (day : Int) : Int := day - Date.toDay ⟨(Date.ofDay day).year, 1, 1⟩ + 1

/-- The Thursday of the week of a day decides which year the week belongs to. -/
def thursday (day : Int) : Int := day - daysFromMonday day + 3

/-- The year of the week of a day, weeks starting on Monday and belonging to the
year that holds their Thursday. -/
def weekYear (day : Int) : Int := (Date.ofDay (thursday day)).year

/-- The number of the week of a day within its week year, from 1. -/
def weekOfYear (day : Int) : Int := (dayOfYear (thursday day) - 1) / 7 + 1

end EventQuery.Calendar
