import EventQuery.Constant.Cast
import EventQuery.Proofs.Dates
import EventQuery.Proofs.DecimalText

/-!
The written form of instants. Every part of it has a fixed width while years have four digits, so
the strict reader takes it apart again, and texts are in the order of the instants.
-/
namespace EventQuery

/-! ### Digits of a fixed width -/

namespace Number.Reader

variable {digits digits' : List Char}

theorem bounds_of_isDigit {c : Char} (digit : isDigit c = true) :
    48 ≤ c.toNat ∧ c.toNat ≤ 57 ∧ digitValue c = c.toNat - 48 := by
  simp only [isDigit, Bool.and_eq_true, decide_eq_true_eq, Char.le_def,
    UInt32.le_iff_toNat_le] at digit
  exact ⟨digit.1, digit.2, rfl⟩

theorem digitsValue_cons (c : Char) (digits : List Char) :
    digitsValue (c :: digits) = digitValue c * 10 ^ digits.length + digitsValue digits := by
  rw [← List.singleton_append, digitsValue_append]
  simp [digitsValue]

theorem digitsValue_lt (all : digits.all isDigit = true) :
    digitsValue digits < 10 ^ digits.length := by
  induction digits with
  | nil => decide
  | cons c digits ih =>
    rw [List.all_cons, Bool.and_eq_true] at all
    have first := bounds_of_isDigit all.1
    have others := ih all.2
    have most := Nat.mul_le_mul_right (10 ^ digits.length) (show digitValue c ≤ 9 by omega)
    rw [digitsValue_cons, List.length_cons, Nat.pow_succ]
    omega

/-- Of two runs of digits of one length the smaller number comes first, whatever follows. -/
theorem append_lt_append_of_digits (same : digits.length = digits'.length)
    (all : digits.all isDigit = true) (all' : digits'.all isDigit = true)
    (less : digitsValue digits < digitsValue digits') (rest rest' : List Char) :
    digits ++ rest < digits' ++ rest' := by
  induction digits generalizing digits' with
  | nil =>
    rw [List.length_nil, eq_comm, List.length_eq_zero_iff] at same
    rw [same] at less
    exact absurd less (Nat.lt_irrefl _)
  | cons c digits ih =>
    cases digits' with
    | nil => cases same
    | cons d digits' =>
      rw [List.all_cons, Bool.and_eq_true] at all all'
      have first := bounds_of_isDigit all.1
      have first' := bounds_of_isDigit all'.1
      have same : digits.length = digits'.length := Nat.succ.inj same
      have below := digitsValue_lt all.2
      have below' := digitsValue_lt all'.2
      rw [digitsValue_cons, digitsValue_cons, same] at less
      rw [same] at below
      rw [List.cons_append, List.cons_append, List.cons_lt_cons_iff]
      rcases Nat.lt_trichotomy (digitValue c) (digitValue d) with lower | equal | higher
      · refine .inl (Char.lt_def.2 (UInt32.lt_iff_toNat_lt.2 ?_))
        show c.toNat < d.toNat
        omega
      · have sameDigit : c = d := Char.toNat_inj.1 (by omega)
        rw [equal] at less
        exact .inr ⟨sameDigit, ih same all.2 all'.2 (by omega)⟩
      · have more := Nat.mul_le_mul_right (10 ^ digits'.length) (Nat.succ_le_of_lt higher)
        rw [Nat.succ_mul] at more
        omega

end Number.Reader

namespace Calendar.Instant

open Number.Reader

variable {width n n' : Nat}

/-- The written form of a number that is not too long: as many digits as are asked for, with the
value of the number. -/
theorem padded_spec (positive : 0 < width) (fits : n < 10 ^ width) :
    (padded width n).toList.length = width ∧ (padded width n).toList.all isDigit = true ∧
      digitsValue (padded width n).toList = n := by
  have short := Nat.toDigits_length 10 n width positive fits
  have shape : (padded width n).toList =
      Number.Layout.zeros (width - (Nat.toDigits 10 n).length) ++ Nat.toDigits 10 n := by
    rw [padded, String.toList_append, toList_toString, Reading.toList_pushn, ← String.length_toList,
      toList_toString]
    rfl
  rw [shape]
  refine ⟨?_, ?_, ?_⟩
  · rw [List.length_append, Number.Layout.zeros, List.length_replicate]
    omega
  · rw [List.all_append, all_isDigit_zeros, all_isDigit_toDigits]
    rfl
  · rw [Number.Layout.digitsValue_zeros_append, digitsValue_toDigits]

/-- A number of a fixed width is read, whatever follows. -/
theorem number?_padded (positive : 0 < width) (fits : n < 10 ^ width) (rest : List Char) :
    number? width width ((padded width n).toList ++ rest) = some (n, rest) := by
  obtain ⟨length, all, value⟩ := padded_spec positive fits
  have first : ((padded width n).toList ++ rest).take width = (padded width n).toList :=
    List.take_left' length
  have run : (padded width n).toList.takeWhile isDigit = (padded width n).toList :=
    List.takeWhile_eq_self_iff.2 (List.all_eq_true.1 all)
  rw [number?, first, run, if_neg (by omega), value, List.drop_left]

theorem mark?_self (c : Char) (rest : List Char) : mark? c (c :: rest) = some rest := if_pos rfl

/-- One part is read, and then the others. -/
theorem bind_of_eq_some {α β : Type} {part : Option α} {value : α} {next : α → Option β}
    {result : Option β} (reads : part = some value) (others : next value = result) :
    (part >>= next) = result := by
  rw [reads]
  exact others

theorem pair?_padded (fits : n < 100) (rest : List Char) :
    pair? ((padded 2 n).toList ++ rest) = some (n, rest) :=
  number?_padded (by decide) fits rest

/-- A fraction of three digits in front of the mark of universal time. -/
theorem fraction?_padded (fits : n < 1000) :
    fraction? ('.' :: ((padded 3 n).toList ++ ['Z'])) = some (n, ['Z']) := by
  have wide : n < 10 ^ 3 := fits
  obtain ⟨length, all, value⟩ := padded_spec (by decide) wide
  have stops : ∀ c ∈ ['Z'].head?, isDigit c = false := by
    rintro _ ⟨⟩
    decide
  rw [fraction?, Reading.takeWhile_append all stops, Reading.dropWhile_append all stops,
    List.take_of_length_le (by omega)]
  have written : (padded 3 n).toList ≠ [] := by
    intro absent
    rw [absent] at length
    cases length
  simp [written, value, length, Number.tenTo]

/-- Of two numbers of a fixed width the smaller one comes first, and if they are equal, what
follows decides. -/
theorem padded_append_lt {rest rest' : List Char} (mark : Char) (positive : 0 < width)
    (fits : n < 10 ^ width) (fits' : n' < 10 ^ width) (before : n < n' ∨ n = n' ∧ rest < rest') :
    (padded width n).toList ++ mark :: rest < (padded width n').toList ++ mark :: rest' := by
  obtain ⟨length, all, value⟩ := padded_spec positive fits
  obtain ⟨length', all', value'⟩ := padded_spec positive fits'
  rcases before with less | ⟨rfl, less⟩
  · apply append_lt_append_of_digits (length.trans length'.symm) all all'
    rwa [value, value']
  · exact List.append_left_lt (List.cons_lt_cons_self.2 less)

/-! ### Instants of years with four digits -/

/-- The year of an instant, in universal time. -/
def year (ms : Int) : Int := (Date.ofDay (ms / millisPerDay)).year

/-- The year of the instant is written in four digits. -/
def HasShortYear (ms : Int) : Prop := 0 ≤ year ms ∧ year ms ≤ 9999

instance (ms : Int) : Decidable (HasShortYear ms) := inferInstanceAs (Decidable (_ ∧ _))

/-- What is written of a time of day. -/
def clockStamp (msOfDay : Nat) : List Char :=
  (padded 2 (msOfDay / 3600000)).toList ++ ':' :: ((padded 2 (msOfDay / 60000 % 60)).toList ++
    ':' :: ((padded 2 (msOfDay / 1000 % 60)).toList ++
      '.' :: ((padded 3 (msOfDay % 1000)).toList ++ ['Z'])))

/-- What is written of a date and a time of day. -/
def stamp (date : Date) (msOfDay : Nat) : List Char :=
  (padded 4 date.year.toNat).toList ++ '-' :: ((padded 2 date.month).toList ++
    '-' :: ((padded 2 date.day).toList ++ 'T' :: clockStamp msOfDay))

variable {ms ms' : Int}

theorem inRange_of_hasShortYear (short : HasShortYear ms) : InRange ms := by
  obtain ⟨first, last⟩ := short
  apply Date.inRange_of_year
  · exact Int.le_trans (by decide) first
  · exact Int.le_trans last (by decide)

theorem text?_of_hasShortYear (short : HasShortYear ms) : text? ms =
    some (String.ofList (stamp (Date.ofDay (ms / millisPerDay)) (ms % millisPerDay).toNat)) := by
  rw [text?, if_pos (inRange_of_hasShortYear short)]
  refine congrArg some (String.toList_injective ?_)
  have digits : yearText (Date.ofDay (ms / millisPerDay)).year =
      padded 4 (Date.ofDay (ms / millisPerDay)).year.toNat := if_pos short
  simp [dateText, clockText, digits, stamp, clockStamp]

theorem daysInMonth_le (year : Int) (month : Nat) : daysInMonth year month ≤ 31 := by
  unfold daysInMonth
  split
  case h_1 => split <;> decide
  all_goals decide

theorem clock?_of_inDay {msOfDay : Nat} (inDay : msOfDay < 86400000) :
    clock? (msOfDay / 3600000) (msOfDay / 60000 % 60) (msOfDay / 1000 % 60) (msOfDay % 1000) =
      some (msOfDay : Int) := by
  rw [clock?, if_pos (by omega)]
  exact congrArg some (Int.ofNat_inj.2 (by omega))

/-- The strict reader takes the parts of a stamp one by one. -/
theorem strict?_stamp {date : Date} {msOfDay : Nat} (valid : date.IsValid) (first : 0 ≤ date.year)
    (last : date.year ≤ 9999) (inDay : msOfDay < 86400000) :
    strict? (stamp date msOfDay) = some (date.toDay * millisPerDay + msOfDay) := by
  have month : date.month < 100 := by
    have := valid.2.2.2.1
    omega
  have day : date.day < 100 := by
    have := valid.2.2.2.2.2
    have := daysInMonth_le date.year date.month
    omega
  have short : date.year.toNat < 10 ^ 4 := by omega
  have readYear := number?_padded (by decide) short
  have isDate : date? (date.year.toNat : Int) date.month date.day = some date.toDay := by
    rw [Int.toNat_of_nonneg first, date?, if_pos valid]
  -- part by part, in the order in which they are written
  rw [strict?, stamp, clockStamp]
  apply bind_of_eq_some (readYear _)
  apply bind_of_eq_some (mark?_self _ _)
  apply bind_of_eq_some (pair?_padded month _)
  apply bind_of_eq_some (mark?_self _ _)
  apply bind_of_eq_some (pair?_padded day _)
  apply bind_of_eq_some (Eq.refl (some _))
  apply bind_of_eq_some (pair?_padded (by omega) _)
  apply bind_of_eq_some (mark?_self _ _)
  apply bind_of_eq_some (pair?_padded (by omega) _)
  apply bind_of_eq_some (mark?_self _ _)
  apply bind_of_eq_some (pair?_padded (by omega) _)
  apply bind_of_eq_some (fraction?_padded (by omega))
  apply bind_of_eq_some (Eq.refl (some (0, [])))
  apply bind_of_eq_some isDate
  apply bind_of_eq_some (clock?_of_inDay inDay)
  simp

/-- A text of an instant of a year with four digits denotes that instant. -/
theorem parse?_stamp (short : HasShortYear ms) :
    parse? (String.ofList (stamp (Date.ofDay (ms / millisPerDay)) (ms % millisPerDay).toNat)) =
      some ms := by
  have ⟨first, last⟩ := short
  have valid : (Date.ofDay (ms / millisPerDay)).IsValid :=
    Date.isValid_ofDay (Int.le_trans (by decide) first) (Int.le_trans last (by decide))
  have inDay : (ms % millisPerDay).toNat < 86400000 := by
    simp only [millisPerDay]
    omega
  have same : ms / millisPerDay * millisPerDay + (ms % millisPerDay).toNat = ms := by
    simp only [millisPerDay]
    omega
  rw [parse?, String.toList_ofList, strict?_stamp valid first last inDay, Date.toDay_ofDay, same]
  rfl

theorem clockStamp_lt {msOfDay msOfDay' : Nat} (before : msOfDay < msOfDay')
    (inDay : msOfDay' < 86400000) : clockStamp msOfDay < clockStamp msOfDay' := by
  have millis (less : msOfDay % 1000 < msOfDay' % 1000) :
      (padded 3 (msOfDay % 1000)).toList ++ ['Z'] < (padded 3 (msOfDay' % 1000)).toList ++ ['Z'] :=
    padded_append_lt 'Z' (by decide) (by omega) (by omega) (.inl less)
  have order : msOfDay / 3600000 < msOfDay' / 3600000 ∨ msOfDay / 3600000 = msOfDay' / 3600000 ∧
      (msOfDay / 60000 % 60 < msOfDay' / 60000 % 60 ∨
        msOfDay / 60000 % 60 = msOfDay' / 60000 % 60 ∧
        (msOfDay / 1000 % 60 < msOfDay' / 1000 % 60 ∨
          msOfDay / 1000 % 60 = msOfDay' / 1000 % 60 ∧ msOfDay % 1000 < msOfDay' % 1000)) := by
    omega
  apply padded_append_lt ':' (by decide) (by omega) (by omega)
  refine order.imp_right (And.imp_right fun order => ?_)
  apply padded_append_lt ':' (by decide) (by omega) (by omega)
  refine order.imp_right (And.imp_right fun order => ?_)
  apply padded_append_lt '.' (by decide) (by omega) (by omega)
  exact order.imp_right (And.imp_right millis)

/-- Earlier instants have smaller texts. -/
theorem stamp_lt (short : HasShortYear ms) (short' : HasShortYear ms') (before : ms < ms') :
    stamp (Date.ofDay (ms / millisPerDay)) (ms % millisPerDay).toNat <
      stamp (Date.ofDay (ms' / millisPerDay)) (ms' % millisPerDay).toNat := by
  have ⟨first, last⟩ := short
  have ⟨first', last'⟩ := short'
  simp only [year] at first last first' last'
  have inYear := (Date.ofDay_spec (ms / millisPerDay)).1
  have inYear' := (Date.ofDay_spec (ms' / millisPerDay)).1
  have inMonth := (Date.day_le_daysInMonth (ms / millisPerDay)).trans (daysInMonth_le _ _)
  have inMonth' := (Date.day_le_daysInMonth (ms' / millisPerDay)).trans (daysInMonth_le _ _)
  have order : ms / millisPerDay < ms' / millisPerDay ∨ ms / millisPerDay = ms' / millisPerDay ∧
      (ms % millisPerDay).toNat < (ms' % millisPerDay).toNat := by
    simp only [millisPerDay]
    omega
  have clock : (ms % millisPerDay).toNat < (ms' % millisPerDay).toNat →
      clockStamp (ms % millisPerDay).toNat < clockStamp (ms' % millisPerDay).toNat := by
    intro less
    refine clockStamp_lt less ?_
    simp only [millisPerDay]
    omega
  -- the clock decides only within a day
  rcases order with later | ⟨same, less⟩
  · have order := Date.ofDay_lt later
    apply padded_append_lt '-' (by decide) (by omega) (by omega)
    refine order.imp (fun less => by omega) (And.imp (fun same => by rw [same]) fun order => ?_)
    apply padded_append_lt '-' (by decide) (by omega) (by omega)
    refine order.imp_right (And.imp_right fun less => ?_)
    exact padded_append_lt 'T' (by decide) (by omega) (by omega) (.inl less)
  · rw [same]
    apply padded_append_lt '-' (by decide) (by omega) (by omega) (.inr ⟨rfl, ?_⟩)
    apply padded_append_lt '-' (by decide) (by omega) (by omega) (.inr ⟨rfl, ?_⟩)
    exact padded_append_lt 'T' (by decide) (by omega) (by omega) (.inr ⟨rfl, clock less⟩)

end Calendar.Instant

/-! ### Constants -/

namespace Constant

open Calendar Calendar.Instant

theorem isBlank_of_isDigit {c : Char} (digit : Number.Reader.isDigit c = true) :
    Text.Blank.isBlank c = false := by
  have bounds := Number.Reader.bounds_of_isDigit digit
  simp [Text.Blank.isBlank, Text.Blank.ranges]
  omega

theorem trimmed_stamp (date : Date) (msOfDay : Nat) (short : date.year.toNat < 10 ^ 4) :
    Text.Blank.trimmed (String.ofList (stamp date msOfDay)) =
      String.ofList (stamp date msOfDay) := by
  obtain ⟨length, all, -⟩ := padded_spec (by decide) short
  rw [Text.Blank.trimmed, String.toList_ofList]
  refine congrArg String.ofList (Text.Blank.trim_eq_self_iff.2 ⟨?_, ?_⟩)
  · intro c first
    rw [stamp] at first
    generalize (padded 4 date.year.toNat).toList = digits at length all first
    cases digits with
    | nil => cases length
    | cons d rest =>
      obtain rfl : d = c := Option.some.inj first
      rw [List.all_cons, Bool.and_eq_true] at all
      exact isBlank_of_isDigit all.1
  · intro c last
    have mark : ∃ front, stamp date msOfDay = front ++ ['Z'] :=
      ⟨_, by simp only [stamp, clockStamp, ← List.cons_append, ← List.append_assoc]; rfl⟩
    obtain ⟨front, mark⟩ := mark
    rw [mark, List.getLast?_concat] at last
    cases last
    decide

theorem cast_datetime_of_read {text : String} {ms : Int64}
    (read : (parse? (Text.Blank.trimmed text)).bind Number.Width.int64? = some ms) :
    (string text).cast .datetime = .ok (datetime ms) := by
  rw [cast, if_neg nofun, if_neg nofun]
  show ofText text .datetime = _
  unfold ofText
  dsimp only
  rw [read]

/-- An instant of a year with four digits has a text, which denotes it; the texts of such instants
are in their order; and converting the instant to a text and back gives the instant. -/
theorem cast_string_cast_datetime (ms : Int64) (short : HasShortYear ms.toInt) :
    ∃ text, text? ms.toInt = some text ∧ parse? text = some ms.toInt ∧
      (∀ ms' : Int64, HasShortYear ms'.toInt → ms < ms' →
        ∃ text', text? ms'.toInt = some text' ∧ text < text') ∧
      (datetime ms).cast .string = .ok (string text) ∧
      (string text).cast .datetime = .ok (datetime ms) := by
  have written := text?_of_hasShortYear short
  have denotes := parse?_stamp short
  refine ⟨_, written, denotes, fun ms' short' before => ?_, ?_, ?_⟩
  · refine ⟨_, text?_of_hasShortYear short', String.lt_iff.2 ?_⟩
    rw [String.toList_ofList, String.toList_ofList]
    exact stamp_lt short short' (Int64.lt_iff_toInt_lt.1 before)
  · rw [cast, if_neg nofun, if_neg nofun]
    simp only [written]
  · have year : (Date.ofDay (ms.toInt / millisPerDay)).year.toNat < 10 ^ 4 := by
      have ⟨first, last⟩ := short
      simp only [year] at first last
      omega
    apply cast_datetime_of_read
    rw [trimmed_stamp _ _ year, denotes, Option.bind_some, Number.Width.int64?_toInt]

/-- The last millisecond of a leap day before 1970. -/
theorem cast_string_cast_datetime_leap : HasShortYear (-57974400001 : Int64).toInt ∧
    (datetime (-57974400001)).cast .string = .ok (string "1968-02-29T23:59:59.999Z") ∧
    (string "1968-02-29T23:59:59.999Z").cast .datetime = .ok (datetime (-57974400001)) := by
  have short : HasShortYear (-57974400001 : Int64).toInt := by decide
  obtain ⟨text, written, -, -, there, back⟩ := cast_string_cast_datetime _ short
  have same : text? (-57974400001 : Int64).toInt = some "1968-02-29T23:59:59.999Z" := by
    decide +kernel
  obtain rfl : text = "1968-02-29T23:59:59.999Z" := Option.some.inj (written.symm.trans same)
  exact ⟨short, there, back⟩

end Constant

end EventQuery
