import EventQuery.Calendar.Instant
import Mathlib

/-!
Dates and their day numbers. Months are numbered through, and each starts on a day of its own: the
date of a day is in the month that starts last before it. So day numbers and dates determine each
other, and later days have later dates.
-/
namespace EventQuery.Calendar.Date

/-! ### Years from March to March -/

/-- The days from 1 March of year 0 to 1 March of a year. -/
def daysToMarch (year : Int) : Int := 365 * year + year / 4 - year / 100 + year / 400

theorem daysToMarch_era (era year : Int) :
    daysToMarch (era * 400 + year) = era * 146097 + daysToMarch year := by
  simp only [daysToMarch]
  omega

theorem daysToMarch_succ_le (year : Int) : daysToMarch (year + 1) ≤ daysToMarch year + 366 := by
  have fourth : year / 400 = year / 100 / 4 := by omega
  have fourth' : (year + 1) / 400 = (year + 1) / 100 / 4 := by omega
  simp only [daysToMarch]
  omega

/-- A day of an era less the leap days before it, so that every year has 365 days. -/
def withoutLeapDays (day : Int) : Int := day - day / 1460 + day / 36524 - day / 146096

theorem withoutLeapDays_mono {day day' : Int} (early : day ≤ day') :
    withoutLeapDays day ≤ withoutLeapDays day' := by
  have fourth : day / 146096 = day / 36524 / 4 := by omega
  have fourth' : day' / 146096 = day' / 36524 / 4 := by omega
  simp only [withoutLeapDays]
  omega

/-- The first day of a year of the era, and the day before it. -/
theorem withoutLeapDays_daysToMarch {year : Int} (first : 0 ≤ year) (last : year < 400) :
    withoutLeapDays (daysToMarch year) = 365 * year ∧
      (0 < year → withoutLeapDays (daysToMarch year - 1) < 365 * year) := by
  obtain ⟨century, leap, common, rfl, _, _, _⟩ : ∃ century leap common : Int,
      year = 100 * century + 4 * leap + common ∧ (0 ≤ century ∧ century < 4) ∧
        (0 ≤ leap ∧ leap < 25) ∧ 0 ≤ common ∧ common < 4 :=
    ⟨year / 100, year % 100 / 4, year % 4, by omega, by omega, by omega, by omega⟩
  have days : daysToMarch (100 * century + 4 * leap + common) =
      36524 * century + 1461 * leap + 365 * common := by
    simp only [daysToMarch]
    omega
  rw [days]
  generalize start : 36524 * century + 1461 * leap + 365 * common = day
  have centuries : day / 36524 = century := by omega
  have leaps : day / 1460 = 25 * century + leap := by omega
  have eras : day / 146096 = 0 := by omega
  simp only [withoutLeapDays]
  refine ⟨by omega, fun later => ?_⟩
  have leaps' : (day - 1) / 1460 = 25 * century + leap := by omega
  have centuries' : (day - 1) / 36524 ≤ century := by omega
  have eras' : (day - 1) / 146096 = 0 := by omega
  omega

/-- The year of a day in an era of 146097 days. -/
theorem daysToMarch_of_era {day year : Int} (first : 0 ≤ day) (last : day < 146097)
    (found : withoutLeapDays day / 365 = year) :
    0 ≤ year ∧ year < 400 ∧ daysToMarch year ≤ day ∧ day < daysToMarch (year + 1) := by
  have year_nonneg : 0 ≤ year := by
    simp only [withoutLeapDays] at found
    omega
  have year_lt : year < 400 := by
    simp only [withoutLeapDays] at found
    omega
  refine ⟨year_nonneg, year_lt, ?_, ?_⟩
  · by_contra early
    by_cases zero : year = 0
    · rw [zero] at early
      simp only [daysToMarch] at early
      omega
    · have below := withoutLeapDays_mono (show day ≤ daysToMarch year - 1 by omega)
      have before := (withoutLeapDays_daysToMarch year_nonneg year_lt).2 (by omega)
      omega
  · by_contra late
    by_cases final : year = 399
    · rw [final] at late
      simp only [daysToMarch] at late
      omega
    · have above := withoutLeapDays_mono (show daysToMarch (year + 1) ≤ day by omega)
      have next : withoutLeapDays (daysToMarch (year + 1)) = 365 * (year + 1) :=
        (withoutLeapDays_daysToMarch (by omega) (by omega)).1
      omega

/-- The year from March to March that a day lies in, the days counted from 1 March of year 0. -/
def marchYear (day : Int) : Int := day / 146097 * 400 + withoutLeapDays (day % 146097) / 365

theorem daysToMarch_marchYear (day : Int) :
    daysToMarch (marchYear day) ≤ day ∧ day < daysToMarch (marchYear day + 1) := by
  obtain ⟨_, _, start, stop⟩ := daysToMarch_of_era (Int.emod_nonneg day (by decide))
    (Int.emod_lt_of_pos day (by decide)) rfl
  rw [marchYear, Int.add_assoc, daysToMarch_era, daysToMarch_era]
  constructor <;> omega

/-! ### Months -/

/-- The number of the month of a date, counted from January of year 0. -/
def monthNumber (date : Date) : Int := date.year * 12 + date.month - 1

/-- The day number of the first day of a month. -/
def monthStart (month : Int) : Int :=
  daysToMarch ((month - 2) / 12) + (153 * ((month - 2) % 12) + 2) / 5 - 719468

/-- Months that are counted from March. -/
theorem monthStart_march (number year month : Int) (same : number = year * 12 + month + 2)
    (first : 0 ≤ month) (last : month < 12) :
    monthStart number = daysToMarch year + (153 * month + 2) / 5 - 719468 := by
  have inYear : (number - 2) / 12 = year := by omega
  have inMonth : (number - 2) % 12 = month := by omega
  rw [monthStart, inYear, inMonth]

theorem toDay_eq {date : Date} (first : 1 ≤ date.month) (last : date.month ≤ 12) :
    date.toDay = monthStart date.monthNumber + date.day - 1 := by
  obtain ⟨year, month, day⟩ := date
  simp only [toDay] at *
  split
  · have start := monthStart_march (monthNumber ⟨year, month, day⟩) (year - 1) (month + 9)
      (by simp only [monthNumber]; omega) (by omega) (by omega)
    simp only [daysToMarch] at start
    omega
  · have start := monthStart_march (monthNumber ⟨year, month, day⟩) year (month - 3)
      (by simp only [monthNumber]; omega) (by omega) (by omega)
    simp only [daysToMarch] at start
    omega

/-- A month is as long as it should be. -/
theorem monthStart_succ (number year : Int) (month : Nat)
    (same : number = year * 12 + month - 1) (first : 1 ≤ month) (last : month ≤ 12) :
    monthStart (number + 1) = monthStart number + daysInMonth year month := by
  by_cases early : month ≤ 2
  · have start := monthStart_march number (year - 1) (month + 9) (by omega) (by omega) (by omega)
    by_cases february : month = 2
    · have next := monthStart_march (number + 1) year 0 (by omega) (by omega) (by omega)
      have leap : isLeapYear year = true ↔ year % 4 = 0 ∧ (year % 100 ≠ 0 ∨ year % 400 = 0) := by
        simp [isLeapYear]
      subst february
      simp only [daysToMarch] at start next
      simp only [daysInMonth, leap]
      split <;> omega
    · have next := monthStart_march (number + 1) (year - 1) 11 (by omega) (by omega) (by omega)
      obtain rfl : month = 1 := by omega
      simp only [daysInMonth]
      omega
  · have start := monthStart_march number year (month - 3) (by omega) (by omega) (by omega)
    have next := monthStart_march (number + 1) year (month - 2) (by omega) (by omega) (by omega)
    have known : month = 3 ∨ month = 4 ∨ month = 5 ∨ month = 6 ∨ month = 7 ∨ month = 8 ∨
        month = 9 ∨ month = 10 ∨ month = 11 ∨ month = 12 := by omega
    rcases known with rfl | rfl | rfl | rfl | rfl | rfl | rfl | rfl | rfl | rfl <;>
      simp only [daysInMonth] <;> omega

theorem monthStart_strictMono : StrictMono monthStart := by
  refine strictMono_int_of_lt_succ fun number => ?_
  have next := monthStart_succ number (number / 12) (number % 12 + 1).toNat
    (by omega) (by omega) (by omega)
  have long : 1 ≤ daysInMonth (number / 12) (number % 12 + 1).toNat := by
    unfold daysInMonth
    split
    case h_1 => split <;> decide
    all_goals decide
  omega

/-! ### The date of a day -/

/-- The month, counted from March, of a day in a year from March to March. -/
theorem month_of_dayOfYear {day month : Int} (first : 0 ≤ day) (last : day ≤ 365)
    (found : (5 * day + 2) / 153 = month) :
    (0 ≤ month ∧ month < 12) ∧ (153 * month + 2) / 5 ≤ day ∧
      day < (153 * (month + 1) + 2) / 5 := by
  omega

theorem ofDay_eq {day year dayOfYear month : Int} (isYear : marchYear (day + 719468) = year)
    (inYear : day + 719468 - daysToMarch year = dayOfYear)
    (isMonth : (5 * dayOfYear + 2) / 153 = month) :
    ofDay day = ⟨if month < 10 then year else year + 1,
      (if month < 10 then month + 3 else month - 9).toNat,
      (dayOfYear - (153 * month + 2) / 5 + 1).toNat⟩ := by
  subst isMonth inYear isYear
  obtain ⟨first, last, -, -⟩ := daysToMarch_of_era (Int.emod_nonneg (day + 719468) (by decide))
    (Int.emod_lt_of_pos (day + 719468) (by decide)) rfl
  have same : day + 719468 - daysToMarch (marchYear (day + 719468)) =
      (day + 719468) % 146097 - (365 * (withoutLeapDays ((day + 719468) % 146097) / 365) +
        withoutLeapDays ((day + 719468) % 146097) / 365 / 4 -
          withoutLeapDays ((day + 719468) % 146097) / 365 / 100) := by
    rw [marchYear, daysToMarch_era]
    simp only [daysToMarch]
    omega
  rw [same]
  rfl

/-- The date of a day is in the month that started last. -/
theorem ofDay_spec (day : Int) :
    (1 ≤ (ofDay day).month ∧ (ofDay day).month ≤ 12) ∧ 1 ≤ (ofDay day).day ∧
      monthStart (ofDay day).monthNumber + (ofDay day).day - 1 = day ∧
      day < monthStart ((ofDay day).monthNumber + 1) := by
  obtain ⟨start, stop⟩ := daysToMarch_marchYear (day + 719468)
  generalize isYear : marchYear (day + 719468) = year at start stop
  have short := daysToMarch_succ_le year
  generalize inYear : day + 719468 - daysToMarch year = dayOfYear
  generalize isMonth : (5 * dayOfYear + 2) / 153 = month
  obtain ⟨⟨first, last⟩, low, high⟩ := month_of_dayOfYear (by omega) (by omega) isMonth
  rw [ofDay_eq isYear inYear isMonth]
  have number : monthNumber ⟨if month < 10 then year else year + 1,
      (if month < 10 then month + 3 else month - 9).toNat,
      (dayOfYear - (153 * month + 2) / 5 + 1).toNat⟩ = year * 12 + month + 2 := by
    simp only [monthNumber]
    split <;> omega
  rw [number, monthStart_march _ year month rfl first last]
  dsimp only
  refine ⟨by split <;> omega, by omega, by omega, ?_⟩
  -- counted from March, the last month is February: behind it the next year starts
  by_cases february : month = 11
  · rw [monthStart_march _ (year + 1) 0 (by omega) (by omega) (by omega)]
    omega
  · rw [monthStart_march _ year (month + 1) (by omega) (by omega) (by omega)]
    omega

theorem toDay_ofDay (day : Int) : (ofDay day).toDay = day := by
  obtain ⟨⟨first, last⟩, -, same, -⟩ := ofDay_spec day
  rw [toDay_eq first last, same]

/-- A day is between the starts of its month and of the next one. -/
theorem monthNumber_spec (day : Int) : monthStart (ofDay day).monthNumber ≤ day ∧
    day < monthStart ((ofDay day).monthNumber + 1) := by
  obtain ⟨-, positive, same, stop⟩ := ofDay_spec day
  omega

theorem day_le_daysInMonth (day : Int) :
    (ofDay day).day ≤ daysInMonth (ofDay day).year (ofDay day).month := by
  obtain ⟨⟨first, last⟩, -, same, stop⟩ := ofDay_spec day
  have next := monthStart_succ (ofDay day).monthNumber _ _ rfl first last
  omega

/-- Later days have later dates: the year decides, then the month, then the day of the month. -/
theorem ofDay_lt {day day' : Int} (before : day < day') :
    (ofDay day).year < (ofDay day').year ∨ (ofDay day).year = (ofDay day').year ∧
      ((ofDay day).month < (ofDay day').month ∨ (ofDay day).month = (ofDay day').month ∧
        (ofDay day).day < (ofDay day').day) := by
  obtain ⟨⟨first, last⟩, positive, same, -⟩ := ofDay_spec day
  obtain ⟨⟨first', last'⟩, positive', same', stop'⟩ := ofDay_spec day'
  have early : (ofDay day).monthNumber < (ofDay day').monthNumber + 1 := by
    rw [← monthStart_strictMono.lt_iff_lt]
    omega
  by_cases together : (ofDay day).monthNumber = (ofDay day').monthNumber
  · rw [together] at same
    simp only [monthNumber] at together
    omega
  · simp only [monthNumber] at *
    omega

/-- The days of years that have dates are dates themselves. -/
theorem isValid_ofDay {day : Int} (first : leastYear ≤ (ofDay day).year)
    (last : (ofDay day).year ≤ greatestYear) : (ofDay day).IsValid := by
  obtain ⟨month, positive, -, -⟩ := ofDay_spec day
  exact ⟨first, last, month.1, month.2, positive, day_le_daysInMonth day⟩

theorem inRange_of_year {day : Int} (first : leastYear ≤ (ofDay day).year)
    (last : (ofDay day).year ≤ greatestYear) : leastDay ≤ day ∧ day ≤ greatestDay := by
  obtain ⟨early, late⟩ := (ofDay_spec day).1
  obtain ⟨start, stop⟩ := monthNumber_spec day
  have least : leastDay = monthStart (leastYear * 12) := by decide
  have greatest : greatestDay + 1 = monthStart (greatestYear * 12 + 12) := by decide
  have low : monthStart (leastYear * 12) ≤ monthStart (ofDay day).monthNumber := by
    apply monthStart_strictMono.monotone
    simp only [monthNumber]
    omega
  have high : monthStart ((ofDay day).monthNumber + 1) ≤ monthStart (greatestYear * 12 + 12) := by
    apply monthStart_strictMono.monotone
    simp only [monthNumber]
    omega
  omega

end EventQuery.Calendar.Date
