import EventQuery.Analysis.Bind
import EventQuery.Analysis.Validate
import EventQuery.Calendar.Places
import EventQuery.Proofs.Clocks
import EventQuery.Proofs.Literals
import EventQuery.Proofs.Reduction

/-!
Truncation to seconds and minutes. The local time is cut, and the way back leads to the earliest
instant with the local time that is left. This is in the same second or minute if clocks were set
alike then, and an earlier one if they were set back in between.
-/
namespace EventQuery

open Outcome

/-! ### Short units -/

namespace TimeUnit

/-- The unit is so short that it divides a minute, and this is its length in milliseconds. -/
def HasShortLength (unit : TimeUnit) (length : Int) : Prop :=
  unit = .second ∧ length = 1000 ∨ unit = .minute ∧ length = 60000

end TimeUnit

namespace Calendar

variable {unit : TimeUnit} {length : Int}

theorem truncate?_of_short (short : unit.HasShortLength length) (time : Int) :
    truncate? unit time = some (floorTo length time) := by
  rcases short with ⟨rfl, rfl⟩ | ⟨rfl, rfl⟩ <;> rfl

theorem floorTo_of_short (short : unit.HasShortLength length) (time : Int) :
    length ≤ 60000 ∧ floorTo length time ≤ time ∧ time < floorTo length time + length := by
  rcases short with ⟨-, rfl⟩ | ⟨-, rfl⟩ <;> simp only [floorTo] <;> omega

end Calendar

namespace TimeZone

open Calendar

variable {zone : TimeZone} {unit : TimeUnit} {length ms earliest : Int}

/-- The earliest instant with the local time of the start of a unit is not after any instant in that
unit, and less than a unit before it exactly if clocks are as far ahead at both. -/
theorem RegularBetween.lt_add_length_iff
    (regular : zone.RegularBetween (-259200000) 2146176000000) (short : unit.HasShortLength length)
    (after : 0 ≤ ms) (before : ms < 2145916800000)
    (least : IsLeast {other | zone.localTime other = floorTo length (zone.localTime ms)} earliest) :
    earliest ≤ ms ∧ (ms < earliest + length ↔ zone.offsetAt earliest = zone.offsetAt ms) := by
  obtain ⟨isShort, past, inside⟩ := floorTo_of_short short (zone.localTime ms)
  have ahead := zone.natAbs_offsetAt_lt ms
  have ahead' := zone.natAbs_offsetAt_lt earliest
  have shows : earliest + zone.offsetAt earliest * 1000 = floorTo length (zone.localTime ms) :=
    least.1
  have shown : zone.localTime ms = ms + zone.offsetAt ms * 1000 := rfl
  have early : earliest ≤ ms := regular.le_of_isLeast least past (by omega) (by omega)
  refine ⟨early, fun within => ?_, fun same => by omega⟩
  -- Different offsets are a minute apart, so they lead out of the unit.
  by_contra different
  have := regular.apart earliest ms (by omega) (by omega) (by omega) (by omega) different
  omega

end TimeZone

/-! ### Folding -/

namespace Reduce

open Calendar

variable {zone : TimeZone} {unit : TimeUnit} {length ms time : Int} {start : Int64}

private theorem inRange_of_near (after : -172860000 ≤ ms) (before : ms < 2146176000000) :
    Instant.InRange ms := by
  have least : leastDay ≤ -3 := by decide
  have greatest : 24840 ≤ greatestDay := by decide
  simp only [Instant.InRange, Instant.millisPerDay]
  omega

/-- In years like ours the start of a bucket is the earliest instant that has its local time. -/
private theorem startOf?_eq_some_iff (after : -86460000 ≤ time) (before : time < 2146003200000) :
    startOf? zone time = some start ↔
      IsLeast {other | zone.localTime other = time} start.toInt := by
  rw [← TimeZone.instantOf?_eq_some_iff]
  simp only [startOf?, Option.bind_eq_some_iff, Option.filter_eq_some_iff, decide_eq_true_eq]
  constructor
  · rintro ⟨instant, ⟨found, -⟩, word⟩
    rw [found, Number.Width.toInt_of_int64? word]
  · intro found
    have shows : start.toInt + zone.offsetAt start.toInt * 1000 = time :=
      (TimeZone.instantOf?_eq_some_iff.1 found).1
    have ahead := zone.natAbs_offsetAt_lt start.toInt
    exact ⟨start.toInt, ⟨found, inRange_of_near (by omega) (by omega)⟩,
      Number.Width.int64?_toInt start⟩

theorem quantumConstant_truncate_eq_ok {span : Span} {ms : Int64} {constant : Constant}
    (short : unit.HasShortLength length) (after : 0 ≤ ms.toInt)
    (before : ms.toInt < 2145916800000) :
    quantumConstant span (.truncate unit) (some zone) (.datetime ms) = .ok constant ↔
      ∃ start : Int64, constant = .datetime start ∧
        IsLeast {other | zone.localTime other = floorTo length (zone.localTime ms.toInt)}
          start.toInt := by
  obtain ⟨isShort, past, inside⟩ := floorTo_of_short short (zone.localTime ms.toInt)
  have ahead := zone.natAbs_offsetAt_lt ms.toInt
  have shown : zone.localTime ms.toInt = ms.toInt + zone.offsetAt ms.toInt * 1000 := rfl
  have inRange : Instant.InRange ms.toInt := inRange_of_near (by omega) (by omega)
  have inRange' : Instant.InRange (zone.localTime ms.toInt) :=
    inRange_of_near (by omega) (by omega)
  have stays : ¬LeavesCalendar zone ms.toInt := fun leaves => leaves.2 inRange'
  have late : -86460000 ≤ floorTo length (zone.localTime ms.toInt) := by omega
  have early : floorTo length (zone.localTime ms.toInt) < 2146003200000 := by omega
  rw [quantumConstant_datetime_eq_ok, Option.getD_some, and_iff_right stays]
  simp only [quantized, if_pos inRange, truncate?_of_short short, Option.bind_some,
    ← startOf?_eq_some_iff late early]
  cases startOf? zone (floorTo length (zone.localTime ms.toInt)) with
  | none => simp
  | some start => simp [eq_comm]

theorem exists_quantumConstant_truncate_iff {span : Span} {ms : Int64}
    (short : unit.HasShortLength length) (after : 0 ≤ ms.toInt)
    (before : ms.toInt < 2145916800000) :
    (∃ constant, quantumConstant span (.truncate unit) (some zone) (.datetime ms) = .ok constant) ↔
      ∃ other, zone.localTime other = floorTo length (zone.localTime ms.toInt) := by
  simp only [quantumConstant_truncate_eq_ok short after before, ← TimeZone.exists_isLeast_iff]
  constructor
  · rintro ⟨_, start, -, least⟩
    exact ⟨start.toInt, least⟩
  · rintro ⟨earliest, least⟩
    obtain ⟨isShort, past, inside⟩ := floorTo_of_short short (zone.localTime ms.toInt)
    have ahead := zone.natAbs_offsetAt_lt ms.toInt
    have ahead' := zone.natAbs_offsetAt_lt earliest
    have shows : earliest + zone.offsetAt earliest * 1000 =
        floorTo length (zone.localTime ms.toInt) := least.1
    have shown : zone.localTime ms.toInt = ms.toInt + zone.offsetAt ms.toInt * 1000 := rfl
    have word : Number.Width.int64? earliest = some (Int64.ofInt earliest) :=
      if_pos (by omega)
    exact ⟨_, _, rfl, (Number.Width.toInt_of_int64? word).symm ▸ least⟩

end Reduce

/-! ### Expressions -/

theorem Constant.cast_ofInteger_datetime (ms : Int64) :
    (ofInteger ms).cast .datetime = .ok (.datetime ms) := by
  rw [cast_ofInteger (.inr (.inr (.inl rfl))), ofIntegral, Number.Width.int64?_toInt]
  rfl

namespace ValueExpr

/-- `TRUNCATE(unit, CAST(ms AS DATETIME), 'zone')`, whose zone is `known` once it is looked up. -/
def truncation (span castSpan literalSpan : Span) (unit : TimeUnit) (ms : Int64) (zone : String)
    (known : Option TimeZone) : ValueExpr :=
  .quantum span (.truncate unit) (.cast castSpan .datetime (.constant literalSpan (.ofInteger ms)))
    (some zone) known

variable {span castSpan literalSpan : Span} {unit : TimeUnit} {ms : Int64} {name : String}
  {zone : TimeZone}

theorem validate_truncation [ZoneTable] (named : ZoneTable.find? name = some zone) :
    (truncation span castSpan literalSpan unit ms name none).validate =
      .ok (truncation span castSpan literalSpan unit ms name (some zone)) := by
  simp [truncation, validate, timeZone, named]

theorem reduce_truncation :
    (truncation span castSpan literalSpan unit ms name (some zone)).reduce =
      Reduce.quantumConstant span (.truncate unit) (some zone) (.datetime ms) := by
  rw [truncation, reduce, reduce, reduce]
  show Reduce.orFault castSpan ((Constant.ofInteger ms).cast .datetime) >>=
    Reduce.quantumConstant span (.truncate unit) (some zone) = _
  rw [Constant.cast_ofInteger_datetime]
  rfl

/-- `TRUNCATE` to seconds or minutes of an instant from 1970 to 2037, in a zone whose clocks are
regular then. It folds exactly if clocks show the start of the unit at all, and what it folds to is
the earliest instant when they do. This is not after the given instant, and the given one is in the
unit that starts there exactly if clocks are as far ahead at one as at the other, so that they were
not set back in between. -/
theorem truncation_of_short [ZoneTable] {length : Int}
    (named : ZoneTable.find? name = some zone)
    (regular : zone.RegularBetween (-259200000) 2146176000000)
    (short : unit.HasShortLength length) (after : 0 ≤ ms.toInt)
    (before : ms.toInt < 2145916800000) (context : Context) :
    ∃ bound valid : ValueExpr,
      (truncation span castSpan literalSpan unit ms name none).bind context = .ok bound ∧
      bound.validate = .ok valid ∧
      ((∃ constant, valid.reduce = .ok constant) ↔
        ∃ other, zone.localTime other = Calendar.floorTo length (zone.localTime ms.toInt)) ∧
      ∀ constant, valid.reduce = .ok constant → ∃ start : Int64, constant = .datetime start ∧
        IsLeast {other | zone.localTime other =
          Calendar.floorTo length (zone.localTime ms.toInt)} start.toInt ∧
        start.toInt ≤ ms.toInt ∧
        (ms.toInt < start.toInt + length ↔
          zone.offsetAt start.toInt = zone.offsetAt ms.toInt) := by
  refine ⟨_, _, rfl, validate_truncation named, ?_, fun constant folds => ?_⟩
  · simp only [reduce_truncation]
    exact Reduce.exists_quantumConstant_truncate_iff short after before
  · rw [reduce_truncation, Reduce.quantumConstant_truncate_eq_ok short after before] at folds
    obtain ⟨start, same, least⟩ := folds
    exact ⟨start, same, least, regular.lt_add_length_iff short after before least⟩

/-! ### Clocks set back in Berlin -/

open Places

private theorem offsets_berlin : ∀ clock ∈ TimeZone.berlin.first ::
    TimeZone.berlin.changes.map TimeZone.Change.clock,
    clock.offset = 3600 ∨ clock.offset = 7200 := by decide +kernel

private theorem offsetAt_berlin (ms : Int) :
    TimeZone.berlin.offsetAt ms = 3600 ∨ TimeZone.berlin.offsetAt ms = 7200 :=
  offsets_berlin _ (TimeZone.clockFrom_mem ..)

private theorem regularBetween_berlin :
    TimeZone.berlin.RegularBetween (-259200000) 2146176000000 where
  apart ms ms' _ _ _ _ different := by
    have first := offsetAt_berlin ms
    have second := offsetAt_berlin ms'
    omega
  advancing earlier listed later listed' _ _ order := by
    -- All changes are at one o'clock in universal time.
    have hour : ∀ change ∈ TimeZone.berlin.changes, change.instant % 86400 = 3600 := by
      decide +kernel
    have isHour := hour earlier listed
    have isHour' := hour later listed'
    have offset := offsets_berlin _ (List.mem_cons_of_mem _ (List.mem_map_of_mem listed))
    have offset' := offsets_berlin _ (List.mem_cons_of_mem _ (List.mem_map_of_mem listed'))
    unfold TimeZone.Change.shows
    omega

/-- The second pass of the hour that clocks in Berlin went through twice on 25 October 2020. -/
theorem truncation_of_short_backward : ZoneTable.find? "Europe/Berlin" = some .berlin ∧
    TimeZone.berlin.RegularBetween (-259200000) 2146176000000 ∧
    TimeUnit.HasShortLength .second 1000 ∧ 0 ≤ (1603587600000 : Int64).toInt ∧
    (1603587600000 : Int64).toInt < 2145916800000 ∧ ∃ bound valid : ValueExpr,
      (truncation .none .none .none .second 1603587600000 "Europe/Berlin" none).bind
        (.start ⟨.relation ["user"], [.relation ["user"]]⟩ ⟨.utc, true⟩ .builtin) = .ok bound ∧
      bound.validate = .ok valid ∧ ∃ start : Int64, valid.reduce = .ok (.datetime start) ∧
        start.toInt ≤ (1603587600000 : Int64).toInt := by
  have named : ZoneTable.find? "Europe/Berlin" = some TimeZone.berlin := by decide +kernel
  have short : TimeUnit.HasShortLength .second 1000 := .inl ⟨rfl, rfl⟩
  have after : 0 ≤ (1603587600000 : Int64).toInt := by decide
  have before : (1603587600000 : Int64).toInt < 2145916800000 := by decide
  obtain ⟨bound, valid, binds, validates, folds, starts⟩ :=
    truncation_of_short named regularBetween_berlin short after before
      (.start ⟨.relation ["user"], [.relation ["user"]]⟩ ⟨.utc, true⟩ .builtin)
  -- Clocks show whole seconds at whole seconds.
  obtain ⟨constant, found⟩ := folds.2 ⟨1603587600000, by decide +kernel⟩
  obtain ⟨start, rfl, -, early, -⟩ := starts constant found
  exact ⟨named, regularBetween_berlin, short, after, before, bound, valid, binds, validates, start,
    found, early⟩

/-- Both passes of that hour are truncated to the first one, an hour before the second one. -/
theorem not_truncation_within_second :
    (truncation .none .none .none .second 1603587600000 "Europe/Berlin" (some .berlin)).reduce =
      .ok (.datetime 1603584000000) ∧
    (truncation .none .none .none .second 1603584000000 "Europe/Berlin" (some .berlin)).reduce =
      .ok (.datetime 1603584000000) ∧
    ¬(1603587600000 : Int64) < (1603584000000 : Int64) + 1000 := by
  refine ⟨?_, ?_, by decide⟩ <;> rw [reduce_truncation] <;> decide +kernel

end ValueExpr

end EventQuery
