import EventQuery.Calendar.Unit
import EventQuery.Proofs.Dates

/-!
Buckets of local time. The buckets of a unit follow each other without a gap, and truncation gives
the start of the one that holds a time. Where every bucket of a unit starts with a bucket of a finer
one, truncating to the finer unit first makes no difference.
-/
namespace EventQuery.Calendar

open Date (monthStart monthStart_strictMono monthNumber)

variable {unit finer : TimeUnit} {time time' start start' : Int}

/-! ### Starts of buckets -/

/-- The start of a bucket. Weeks are counted from the one of 29 December 1969, months from January
of year 0. -/
def bucketStart (unit : TimeUnit) (number : Int) : Int :=
  match unit with
  | .second => number * 1000
  | .minute => number * 60000
  | .hour => number * 3600000
  | .day => number * Instant.millisPerDay
  | .week => (number * 7 - 3) * Instant.millisPerDay
  | .month => monthStart number * Instant.millisPerDay
  | .quarter => monthStart (number * 3) * Instant.millisPerDay
  | .year => monthStart (number * 12) * Instant.millisPerDay

/-- The number of the bucket that holds a local time. -/
def bucketNumber (unit : TimeUnit) (time : Int) : Int :=
  match unit with
  | .second => time / 1000
  | .minute => time / 60000
  | .hour => time / 3600000
  | .day => localDay time
  | .week => (localDay time + 3) / 7
  | .month => (Date.ofDay (localDay time)).monthNumber
  | .quarter => (Date.ofDay (localDay time)).monthNumber / 3
  | .year => (Date.ofDay (localDay time)).monthNumber / 12

theorem bucketStart_strictMono (unit : TimeUnit) : StrictMono (bucketStart unit) := by
  intro number number' before
  have months : ∀ length : Int, 0 < length →
      monthStart (number * length) < monthStart (number' * length) := fun length positive =>
    monthStart_strictMono (Int.mul_lt_mul_of_pos_right before positive)
  have month := monthStart_strictMono before
  have quarter := months 3 (by decide)
  have year := months 12 (by decide)
  cases unit <;> simp only [bucketStart, Instant.millisPerDay] <;> omega

/-- The day of a time is between the starts of two months if the month of its date is between the
two. -/
theorem between_months {first next : Int} (start : first ≤ (Date.ofDay (localDay time)).monthNumber)
    (stop : (Date.ofDay (localDay time)).monthNumber < next) :
    monthStart first * Instant.millisPerDay ≤ time ∧
      time < monthStart next * Instant.millisPerDay := by
  have inMonth := Date.monthNumber_spec (localDay time)
  have low := monthStart_strictMono.monotone start
  have high := monthStart_strictMono.monotone (Int.add_one_le_of_lt stop)
  simp only [localDay, Instant.millisPerDay] at *
  omega

theorem bucketNumber_spec (unit : TimeUnit) (time : Int) :
    bucketStart unit (bucketNumber unit time) ≤ time ∧
      time < bucketStart unit (bucketNumber unit time + 1) := by
  cases unit with
  | second | minute | hour | day | week =>
    simp only [bucketStart, bucketNumber, localDay, Instant.millisPerDay]
    omega
  | month | quarter | year =>
    simp only [bucketStart, bucketNumber]
    apply between_months <;> omega

/-- The number of the one interval that holds a point, when each ends where the next one starts. -/
theorem eq_of_between {start : Int → Int} (increasing : StrictMono start) {point n n' : Int}
    (inside : start n ≤ point ∧ point < start (n + 1))
    (inside' : start n' ≤ point ∧ point < start (n' + 1)) : n = n' := by
  have early := increasing.lt_iff_lt.1 (inside.1.trans_lt inside'.2)
  have late := increasing.lt_iff_lt.1 (inside'.1.trans_lt inside.2)
  omega

theorem bucketNumber_eq_iff {number : Int} : bucketNumber unit time = number ↔
    bucketStart unit number ≤ time ∧ time < bucketStart unit (number + 1) := by
  constructor
  · rintro rfl
    exact bucketNumber_spec unit time
  · exact eq_of_between (bucketStart_strictMono unit) (bucketNumber_spec unit time)

theorem bucketNumber_mono (unit : TimeUnit) (early : time ≤ time') :
    bucketNumber unit time ≤ bucketNumber unit time' := by
  have start := (bucketNumber_spec unit time).1
  have stop := (bucketNumber_spec unit time').2
  have before := (bucketStart_strictMono unit).lt_iff_lt.1 (start.trans_lt (early.trans_lt stop))
  omega

/-! ### Truncation -/

/-- Starts of days and of longer buckets have to belong to a date. -/
def IsStartOf (unit : TimeUnit) (start : Int) : Prop :=
  match unit with
  | .second | .minute | .hour => True
  | _ => Instant.InRange start

theorem midnight?_eq_some {day : Int} : midnight? day = some start ↔
    start = day * Instant.millisPerDay ∧ Instant.InRange start := by
  have inverse : day * Instant.millisPerDay / Instant.millisPerDay = day :=
    Int.mul_ediv_cancel _ (by decide)
  simp only [midnight?, Option.ite_none_right_eq_some, Option.some.injEq]
  constructor
  · rintro ⟨inRange, rfl⟩
    exact ⟨rfl, by rwa [Instant.InRange, inverse]⟩
  · rintro ⟨rfl, inRange⟩
    exact ⟨by rwa [Instant.InRange, inverse] at inRange, rfl⟩

theorem toDay_first {year number : Int} {month : Nat} (same : number = year * 12 + month - 1)
    (first : 1 ≤ month) (last : month ≤ 12) :
    Date.toDay ⟨year, month, 1⟩ = monthStart number := by
  rw [Date.toDay_eq first last, monthNumber, same]
  exact Int.add_sub_cancel _ 1

/-- Truncation gives the start of the bucket that holds the time, and fails where there is no such
date. -/
theorem truncate?_eq_some : truncate? unit time = some start ↔
    start = bucketStart unit (bucketNumber unit time) ∧ IsStartOf unit start := by
  obtain ⟨first, last⟩ := (Date.ofDay_spec (localDay time)).1
  have short : ∀ length : Int, some (floorTo length time) = some start ↔
      start = time / length * length ∧ True := fun length => by
    rw [Option.some.injEq, floorTo, and_true, eq_comm]
  have long : ∀ day day' : Int, day = day' → (midnight? day = some start ↔
      start = day' * Instant.millisPerDay ∧ Instant.InRange start) := by
    rintro day _ rfl
    exact midnight?_eq_some
  cases unit with
  | second | minute | hour => exact short _
  | day => exact long _ _ rfl
  | week =>
    have monday : localDay time - daysFromMonday (localDay time) =
        (localDay time + 3) / 7 * 7 - 3 := by
      simp only [daysFromMonday]
      omega
    exact long _ _ monday
  | month => exact long _ _ (toDay_first rfl first last)
  | quarter =>
    have quarter : Date.toDay ⟨(Date.ofDay (localDay time)).year,
        ((Date.ofDay (localDay time)).month - 1) / 3 * 3 + 1, 1⟩ =
          monthStart ((Date.ofDay (localDay time)).monthNumber / 3 * 3) :=
      toDay_first (by simp only [monthNumber]; omega) (by omega) (by omega)
    exact long _ _ quarter
  | year =>
    have january : Date.toDay ⟨(Date.ofDay (localDay time)).year, 1, 1⟩ =
        monthStart ((Date.ofDay (localDay time)).monthNumber / 12 * 12) :=
      toDay_first (by simp only [monthNumber]; omega) (by decide) (by decide)
    exact long _ _ january

theorem truncate?_congr (same : bucketNumber unit time = bucketNumber unit time') :
    truncate? unit time = truncate? unit time' := by
  apply Option.ext
  intro start
  rw [truncate?_eq_some, truncate?_eq_some, same]

theorem truncate?_eq_none : truncate? unit time = none ↔
    ¬IsStartOf unit (bucketStart unit (bucketNumber unit time)) := by
  rw [Option.eq_none_iff_forall_ne_some]
  simp only [ne_eq, truncate?_eq_some, not_and, forall_eq]

/-- The calendar starts with a whole year, so the buckets of a date start on dates, except that its
week may start before all of them. -/
theorem truncate?_eq_none_of_inRange (inRange : Instant.InRange time) :
    truncate? unit time = none ↔
      unit = .week ∧ localDay time - daysFromMonday (localDay time) < leastDay := by
  obtain ⟨least, greatest⟩ := inRange
  have early := (bucketNumber_spec unit time).1
  have onDay : ∀ day, day * Instant.millisPerDay ≤ time →
      (Instant.InRange (day * Instant.millisPerDay) ↔ leastDay ≤ day) := by
    intro day before
    simp only [Instant.InRange, Instant.millisPerDay] at *
    omega
  -- no month of the least year starts before the least day, so neither do its quarters and years
  have first : leastDay = monthStart (leastYear * 12) := by decide
  have inMonth : ∀ number, monthStart number * Instant.millisPerDay ≤ time →
      leastYear * 12 ≤ number → Instant.InRange (monthStart number * Instant.millisPerDay) := by
    intro number before late
    rw [onDay _ before, first]
    exact monthStart_strictMono.monotone late
  have begun : leastYear * 12 ≤ (Date.ofDay (localDay time)).monthNumber := by
    have stop := (Date.monthNumber_spec (localDay time)).2
    rw [first] at least
    have before := monthStart_strictMono.lt_iff_lt.1 (least.trans_lt stop)
    omega
  have quarter : leastYear * 12 ≤ (Date.ofDay (localDay time)).monthNumber / 3 * 3 := by
    simp only [leastYear] at *
    omega
  have year : leastYear * 12 ≤ (Date.ofDay (localDay time)).monthNumber / 12 * 12 := by
    omega
  rw [truncate?_eq_none]
  cases unit with
  | second | minute | hour => simp [IsStartOf]
  | day =>
    have starts : IsStartOf .day (bucketStart .day (bucketNumber .day time)) :=
      (onDay _ early).2 least
    simp [starts]
  | week =>
    have monday : IsStartOf .week (bucketStart .week (bucketNumber .week time)) ↔
        leastDay ≤ (localDay time + 3) / 7 * 7 - 3 := onDay _ early
    simp only [monday, daysFromMonday, true_and]
    omega
  | month =>
    have starts : IsStartOf .month (bucketStart .month (bucketNumber .month time)) :=
      inMonth _ early begun
    simp [starts]
  | quarter =>
    have starts : IsStartOf .quarter (bucketStart .quarter (bucketNumber .quarter time)) :=
      inMonth _ early quarter
    simp [starts]
  | year =>
    have starts : IsStartOf .year (bucketStart .year (bucketNumber .year time)) :=
      inMonth _ early year
    simp [starts]

/-! ### Units inside units -/

/-- Every bucket of the unit starts with a bucket of the finer one. -/
def Refines (finer unit : TimeUnit) : Prop :=
  ∀ number, ∃ number', bucketStart unit number = bucketStart finer number'

theorem Refines.refl (unit : TimeUnit) : Refines unit unit := fun number => ⟨number, rfl⟩

theorem Refines.trans {unit' : TimeUnit} (first : Refines finer unit)
    (second : Refines unit unit') : Refines finer unit' := by
  intro number
  obtain ⟨middle, same⟩ := second number
  obtain ⟨number', same'⟩ := first middle
  exact ⟨number', same.trans same'⟩

instance : IsTrans TimeUnit Refines := ⟨fun _ _ _ => Refines.trans⟩

/-- The unit comes before the other one among those that years are divided into, or among those
that weeks are divided into. -/
def IsFiner (finer unit : TimeUnit) : Prop :=
  [finer, unit].Sublist [.second, .minute, .hour, .day, .month, .quarter, .year] ∨
    [finer, unit].Sublist [.second, .minute, .hour, .day, .week]

instance (finer unit : TimeUnit) : Decidable (IsFiner finer unit) :=
  inferInstanceAs (Decidable (_ ∨ _))

/-- From one unit to the next one. -/
theorem refines_chains :
    List.IsChain Refines [.second, .minute, .hour, .day, .month, .quarter, .year] ∧
      List.IsChain Refines [.second, .minute, .hour, .day, .week] := by
  have multiple : ∀ length finest : Int, ∀ number : Int,
      number * (length * finest) = number * length * finest := fun _ _ _ => (Int.mul_assoc ..).symm
  have second : Refines .second .minute := fun number => ⟨number * 60, multiple 60 1000 number⟩
  have minute : Refines .minute .hour := fun number => ⟨number * 60, multiple 60 60000 number⟩
  have hour : Refines .hour .day := fun number => ⟨number * 24, multiple 24 3600000 number⟩
  have day : Refines .day .month := fun number => ⟨monthStart number, rfl⟩
  have day' : Refines .day .week := fun number => ⟨number * 7 - 3, rfl⟩
  have month : Refines .month .quarter := fun number => ⟨number * 3, rfl⟩
  have quarter : Refines .quarter .year := fun number => ⟨number * 4, by
    simp only [bucketStart, Int.mul_assoc]
    rfl⟩
  simp [second, minute, hour, day, day', month, quarter]

theorem IsFiner.refines (isFiner : IsFiner finer unit) : Refines finer unit := by
  obtain ⟨years, weeks⟩ := refines_chains
  rcases isFiner with inYear | inWeek
  · exact List.pairwise_pair.1 ((List.isChain_iff_pairwise.1 years).sublist inYear)
  · exact List.pairwise_pair.1 ((List.isChain_iff_pairwise.1 weeks).sublist inWeek)

/-- The start of the finer bucket is in the same bucket of the unit. -/
theorem Refines.bucketNumber_eq (refines : Refines finer unit) (time : Int) :
    bucketNumber unit (bucketStart finer (bucketNumber finer time)) = bucketNumber unit time := by
  obtain ⟨low, high⟩ := bucketNumber_spec finer time
  obtain ⟨start, stop⟩ := bucketNumber_spec unit time
  obtain ⟨number, same⟩ := refines (bucketNumber unit time)
  rw [bucketNumber_eq_iff]
  refine ⟨?_, low.trans_lt stop⟩
  rw [same] at start ⊢
  have before := (bucketStart_strictMono finer).lt_iff_lt.1 (start.trans_lt high)
  exact (bucketStart_strictMono finer).monotone (Int.le_of_lt_add_one before)

/-! ### Components -/

/-- The components that tell the buckets of a unit apart; none do so for weeks. -/
def bucketKey (unit : TimeUnit) (time : Int) : List Int :=
  match unit with
  | .year => [component .year time]
  | .quarter => [component .year time, (component .monthOfYear time - 1) / 3]
  | .month => [component .year time, component .monthOfYear time]
  | .day => [component .year time, component .dayOfYear time]
  | .hour => [component .year time, component .dayOfYear time, component .hourOfDay time]
  | .minute => [component .year time, component .dayOfYear time, component .hourOfDay time,
      component .minuteOfHour time]
  | .second => [component .year time, component .dayOfYear time, component .hourOfDay time,
      component .minuteOfHour time, component .secondOfMinute time]
  | .week => []

/-- Year and day of the year determine the day. -/
theorem localDay_eq_iff : localDay time = localDay time' ↔
    component .year time = component .year time' ∧
      component .dayOfYear time = component .dayOfYear time' := by
  simp only [component, dayOfYear]
  constructor
  · intro same
    rw [same]
    exact ⟨rfl, rfl⟩
  · rintro ⟨year, day⟩
    rw [year] at day
    omega

theorem bucketNumber_eq_iff_bucketKey (notWeek : unit ≠ .week) :
    bucketNumber unit time = bucketNumber unit time' ↔
      bucketKey unit time = bucketKey unit time' := by
  obtain ⟨first, last⟩ := (Date.ofDay_spec (localDay time)).1
  obtain ⟨first', last'⟩ := (Date.ofDay_spec (localDay time')).1
  cases unit with
  | week => exact absurd rfl notWeek
  | month | quarter | year =>
    simp only [bucketNumber, bucketKey, component, monthNumber, List.cons.injEq, and_true]
    omega
  | day =>
    simp only [bucketNumber, bucketKey, List.cons.injEq, and_true]
    exact localDay_eq_iff
  | second | minute | hour =>
    simp only [bucketNumber, bucketKey, List.cons.injEq, and_true, ← and_assoc, ← localDay_eq_iff]
    simp only [component, localDay, Instant.millisPerDay]
    omega

/-! ### Bucketing -/

theorem eq_iff_bucketKey (notWeek : unit ≠ .week) (cut : truncate? unit time = some start)
    (cut' : truncate? unit time' = some start') :
    start = start' ↔ bucketKey unit time = bucketKey unit time' := by
  rw [(truncate?_eq_some.1 cut).1, (truncate?_eq_some.1 cut').1,
    (bucketStart_strictMono unit).injective.eq_iff, bucketNumber_eq_iff_bucketKey notWeek]

/-- A week starts at midnight on a Monday, less than seven days before every time in it. -/
theorem starts_on_monday (cut : truncate? .week time = some start) :
    component .dayOfWeek start = 1 ∧ start % Instant.millisPerDay = 0 ∧
      time < start + 7 * Instant.millisPerDay := by
  obtain ⟨rfl, -⟩ := truncate?_eq_some.1 cut
  have stop := (bucketNumber_spec .week time).2
  simp only [bucketStart, component, localDay, daysFromMonday, Instant.millisPerDay] at *
  omega

/-- Truncation is a bucketing of local times. Every time of a date has a bucket, but for the week of
the first date. The start of the bucket is not after the time and is its own bucket's start; later
times have no earlier buckets; two times are in one bucket exactly if the components of the unit
agree; and truncating to a finer unit first makes no difference. -/
theorem truncate?_bucketing (unit : TimeUnit) :
    (∀ time, Instant.InRange time → (truncate? unit time = none ↔
      unit = .week ∧ localDay time - daysFromMonday (localDay time) < leastDay)) ∧
    (∀ time start, truncate? unit time = some start →
      start ≤ time ∧ truncate? unit start = some start) ∧
    (∀ time time' start start', truncate? unit time = some start →
      truncate? unit time' = some start' →
        (time ≤ time' → start ≤ start') ∧
        (unit ≠ .week → (start = start' ↔ bucketKey unit time = bucketKey unit time'))) ∧
    (∀ finer, IsFiner finer unit → ∀ time middle, truncate? finer time = some middle →
      truncate? unit middle = truncate? unit time) ∧
    (∀ time start, unit = .week → truncate? unit time = some start →
      component .dayOfWeek start = 1 ∧ start % Instant.millisPerDay = 0 ∧
        time < start + 7 * Instant.millisPerDay) := by
  have through : ∀ {finer}, Refines finer unit → ∀ {time middle},
      truncate? finer time = some middle → truncate? unit middle = truncate? unit time := by
    intro finer refines time middle cut
    obtain ⟨rfl, -⟩ := truncate?_eq_some.1 cut
    exact truncate?_congr (refines.bucketNumber_eq time)
  refine ⟨fun time inRange => truncate?_eq_none_of_inRange inRange, ?_, ?_, ?_, ?_⟩
  · intro time start cut
    refine ⟨?_, (through (.refl unit) cut).trans cut⟩
    obtain ⟨rfl, -⟩ := truncate?_eq_some.1 cut
    exact (bucketNumber_spec unit time).1
  · intro time time' start start' cut cut'
    refine ⟨fun early => ?_, fun notWeek => eq_iff_bucketKey notWeek cut cut'⟩
    rw [(truncate?_eq_some.1 cut).1, (truncate?_eq_some.1 cut').1]
    exact (bucketStart_strictMono unit).monotone (bucketNumber_mono unit early)
  · intro finer isFiner time middle cut
    exact through isFiner.refines cut
  · rintro time start rfl cut
    exact starts_on_monday cut

/-- A millisecond before the year 1900, and the quarter it is in, reached through its day. -/
theorem truncate?_bucketing_quarter :
    IsFiner .day .quarter ∧ truncate? .day (-2208988800001) = some (-2209075200000) ∧
      truncate? .quarter (-2209075200000) = truncate? .quarter (-2208988800001) ∧
      truncate? .quarter (-2208988800001) = some (-2216937600000) :=
  ⟨by decide, by decide,
    (truncate?_bucketing .quarter).2.2.2.1 .day (by decide) _ _ (by decide), by decide⟩

end EventQuery.Calendar
