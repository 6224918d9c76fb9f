import EventQuery.Calendar.Zone
import Mathlib.Order.Bounds.Defs

/-!
What clocks in a zone show. From one change to the next they go on evenly. Where they are set back
local times come again, and where they are set forward local times never come; the instant of a
local time is the first one when it comes.
-/
namespace EventQuery.TimeZone

variable {start : Option Int} {clock : Clock} {time instant : Int} {changes : List Change}

/-! ### Changes -/

theorem clockFrom_mem (clock : Clock) (second : Int) (changes : List Change) :
    clockFrom clock second changes ∈ clock :: changes.map Change.clock := by
  induction changes generalizing clock with
  | nil => exact List.mem_singleton_self _
  | cons change rest ih =>
    rw [clockFrom]
    split
    · exact List.mem_cons_self
    · exact List.mem_cons_of_mem _ (ih change.clock)

theorem lt_of_ordered {first : Int} (ordered : Ordered (some first) changes) :
    ∀ change ∈ changes, first < change.instant := by
  induction changes generalizing first with
  | nil => exact List.forall_mem_nil _
  | cons change rest ih =>
    obtain ⟨later, ordered⟩ := ordered
    have isLater := later first rfl
    exact List.forall_mem_cons.2 ⟨isLater, fun other listed =>
      Int.lt_trans isLater (ih ordered other listed)⟩

/-- Until a second clocks are as they were at first, or they are as they were set at some change
from that change on. -/
theorem exists_last_changeFrom (ordered : Ordered start changes) (second : Int) :
    (∀ earlier ≤ second, clockFrom clock earlier changes = clock) ∨
      ∃ change ∈ changes, change.instant ≤ second ∧
        ∀ between, change.instant ≤ between → between ≤ second →
          clockFrom clock between changes = change.clock := by
  induction changes generalizing start clock with
  | nil => exact .inl fun _ _ => rfl
  | cons change rest ih =>
    obtain ⟨_, ordered⟩ := ordered
    by_cases before : second < change.instant
    · exact .inl fun earlier early => if_pos (Int.lt_of_le_of_lt early before)
    · right
      rcases ih ordered with same | ⟨last, listed, early, same⟩
      · exact ⟨change, List.mem_cons_self, Int.not_lt.1 before, fun between late early =>
          (if_neg (Int.not_lt.2 late)).trans (same between early)⟩
      · have isLater := lt_of_ordered ordered last listed
        exact ⟨last, List.mem_cons_of_mem _ listed, early, fun between late early =>
          (if_neg (by omega)).trans (same between late early)⟩

/-- What the search finds is an instant, not before `start`, when clocks show the time. -/
theorem of_instantFrom? (ordered : Ordered start changes)
    (found : instantFrom? time start clock changes = some instant) :
    (∀ first ∈ start, first * 1000 ≤ instant) ∧
      instant + (clockFrom clock (instant / 1000) changes).offset * 1000 = time := by
  induction changes generalizing start clock with
  | nil =>
    simp only [instantFrom?, Option.ite_none_right_eq_some, Option.some.injEq] at found
    obtain ⟨late, rfl⟩ := found
    refine ⟨fun first isStart => ?_, by rw [clockFrom]; omega⟩
    subst isStart
    simpa using late
  | cons change rest ih =>
    obtain ⟨later, ordered⟩ := ordered
    rw [instantFrom?] at found
    split at found
    case isTrue inside =>
      obtain rfl := Option.some.inj found
      simp only [Bool.and_eq_true, decide_eq_true_eq] at inside
      obtain ⟨late, early⟩ := inside
      have before : (time - clock.offset * 1000) / 1000 < change.instant := by omega
      refine ⟨fun first isStart => ?_, by rw [clockFrom, if_pos before]; omega⟩
      subst isStart
      simpa using late
    case isFalse =>
      -- The search went on from this change, so what it found is not before it.
      obtain ⟨late, shows⟩ := ih ordered found
      have behind := late change.instant rfl
      have after : ¬instant / 1000 < change.instant := by omega
      refine ⟨fun first isStart => ?_, by rwa [clockFrom, if_neg after]⟩
      have := later first isStart
      omega

/-- The search finds an instant, and no later one than any instant from `start` on when clocks show
the time. -/
theorem exists_instantFrom? (ordered : Ordered start changes)
    (late : ∀ first ∈ start, first * 1000 ≤ instant)
    (shows : instant + (clockFrom clock (instant / 1000) changes).offset * 1000 = time) :
    ∃ earliest ≤ instant, instantFrom? time start clock changes = some earliest := by
  have fromStart : (start.all fun first => first * 1000 ≤ instant) = true := by
    simpa [Option.all_eq_true] using late
  induction changes generalizing start clock with
  | nil =>
    rw [clockFrom] at shows
    obtain rfl : time - clock.offset * 1000 = instant := by omega
    exact ⟨_, Int.le_refl _, by rw [instantFrom?, if_pos fromStart]⟩
  | cons change rest ih =>
    obtain ⟨later, ordered⟩ := ordered
    rw [instantFrom?]
    rw [clockFrom] at shows
    split at shows
    case isTrue before =>
      obtain rfl : time - clock.offset * 1000 = instant := by omega
      have early : time - clock.offset * 1000 < change.instant * 1000 := by omega
      exact ⟨_, Int.le_refl _, by rw [if_pos (by simp [fromStart, early])]⟩
    case isFalse after =>
      have behind : change.instant * 1000 ≤ instant := by omega
      split
      -- Clocks showed the time before the change already.
      case isTrue inside =>
        simp only [Bool.and_eq_true, decide_eq_true_eq] at inside
        exact ⟨_, by omega, rfl⟩
      case isFalse =>
        refine ih ordered ?_ shows ?_
        · rintro first ⟨⟩
          exact behind
        · simpa using behind

/-! ### Zones -/

variable {zone : TimeZone}

/-- No clock is a day ahead or behind. -/
theorem natAbs_offsetAt_lt (zone : TimeZone) (ms : Int) : (zone.offsetAt ms).natAbs < 86400 :=
  zone.bounded _ (clockFrom_mem ..)

/-- The last change until an instant, if there was any. -/
theorem exists_last_change (zone : TimeZone) (ms : Int) :
    (∀ earlier ≤ ms, zone.offsetAt earlier = zone.first.offset) ∨
      ∃ change ∈ zone.changes, change.instant * 1000 ≤ ms ∧
        ∀ between, change.instant * 1000 ≤ between → between ≤ ms →
          zone.offsetAt between = change.clock.offset := by
  rcases exists_last_changeFrom zone.ordered (ms / 1000) with same | ⟨change, listed, early, same⟩
  · exact .inl fun earlier early => congrArg Clock.offset (same _ (by omega))
  · exact .inr ⟨change, listed, by omega, fun between late early =>
      congrArg Clock.offset (same _ (by omega) (by omega))⟩

/-- The instant of a local time is the first one when clocks show it. -/
theorem instantOf?_eq_some_iff :
    zone.instantOf? time = some instant ↔ IsLeast {ms | zone.localTime ms = time} instant := by
  constructor
  · intro found
    refine ⟨(of_instantFrom? zone.ordered found).2, fun ms shows => ?_⟩
    obtain ⟨earliest, early, found'⟩ := exists_instantFrom? zone.ordered nofun shows
    rwa [Option.some.inj (found.symm.trans found')]
  · rintro ⟨shows, least⟩
    obtain ⟨earliest, early, found⟩ := exists_instantFrom? zone.ordered nofun shows
    have shows' := (of_instantFrom? zone.ordered found).2
    rwa [Int.le_antisymm early (least shows')] at found

theorem exists_isLeast_iff :
    (∃ earliest, IsLeast {ms | zone.localTime ms = time} earliest) ↔
      ∃ ms, zone.localTime ms = time := by
  constructor
  · rintro ⟨earliest, shows, -⟩
    exact ⟨earliest, shows⟩
  · rintro ⟨ms, shows⟩
    obtain ⟨earliest, -, found⟩ := exists_instantFrom? zone.ordered nofun shows
    exact ⟨earliest, instantOf?_eq_some_iff.1 found⟩

/-- What clocks show, in seconds, right after a change. -/
def Change.shows (change : Change) : Int := change.instant + change.clock.offset

/-- How clocks are set from one instant to another, in milliseconds: the offsets that they have are
a minute apart, and after a change they show no earlier time than after any change before it. -/
structure RegularBetween (zone : TimeZone) (start stop : Int) : Prop where
  apart : ∀ ms ms', start ≤ ms → ms < stop → start ≤ ms' → ms' < stop →
    zone.offsetAt ms ≠ zone.offsetAt ms' → 60 ≤ (zone.offsetAt ms - zone.offsetAt ms').natAbs
  advancing : ∀ earlier ∈ zone.changes, ∀ later ∈ zone.changes,
    start ≤ earlier.instant * 1000 → later.instant * 1000 < stop →
      earlier.instant < later.instant → earlier.shows ≤ later.shows

/-- A local time that has passed came first at an instant that has passed. -/
theorem RegularBetween.le_of_isLeast {start stop ms earliest : Int}
    (regular : zone.RegularBetween start stop)
    (least : IsLeast {ms | zone.localTime ms = time} earliest) (past : time ≤ zone.localTime ms)
    (early : start ≤ time - zone.offsetAt ms * 1000) (late : ms + 172800000 ≤ stop) :
    earliest ≤ ms := by
  refine Int.not_lt.1 fun after => ?_
  have shows : earliest + zone.offsetAt earliest * 1000 = time := least.1
  have ahead := zone.natAbs_offsetAt_lt ms
  rw [localTime] at past
  -- Otherwise clocks showed the time not after `ms`.
  have changed : zone.offsetAt (time - zone.offsetAt ms * 1000) ≠ zone.offsetAt ms := by
    intro same
    have showed : zone.localTime (time - zone.offsetAt ms * 1000) = time := by
      rw [localTime, same]
      omega
    have := least.2 showed
    omega
  rcases zone.exists_last_change earliest with first | ⟨last, lastListed, lastEarly, lastSame⟩
  · exact changed ((first _ (by omega)).trans (first ms (by omega)).symm)
  rcases zone.exists_last_change ms with first | ⟨change, listed, isEarly, same⟩
  · exact changed ((first _ (by omega)).trans (first ms (by omega)).symm)
  have isSet := same ms isEarly (Int.le_refl ms)
  have isLastSet := lastSame earliest lastEarly (Int.le_refl earliest)
  -- Clocks were set after the time that is asked for, or else nothing changed.
  have between : time - zone.offsetAt ms * 1000 < change.instant * 1000 :=
    Int.not_le.1 fun behind => changed ((same _ behind (by omega)).trans isSet.symm)
  have isLater : ms < last.instant * 1000 := Int.not_le.1 fun behind => by
    have := lastSame ms behind (by omega)
    omega
  have bounded := zone.natAbs_offsetAt_lt earliest
  have inside : last.instant * 1000 < stop := by omega
  have advances := regular.advancing change listed last lastListed (by omega) inside (by omega)
  simp only [Change.shows] at advances
  omega

end EventQuery.TimeZone
