/-!
Time zones: how the clocks of a place are set, and the instants when that changed. Which zones there
are is not for these rules to say; a `ZoneTable` knows them by name.
-/
namespace EventQuery

namespace TimeZone

/-- How clocks are set: seconds ahead of universal time, and the letters their time is known by. -/
structure Clock where
  offset : Int
  letters : String
  deriving DecidableEq, Repr

/-- From the second `instant` on, clocks are set like this. -/
structure Change where
  instant : Int
  clock : Clock
  deriving DecidableEq, Repr

/-- The changes are in order, from `start` on if that is given. -/
def Ordered (start : Option Int) : List Change → Prop
  | [] => True
  | change :: rest =>
    (∀ earlier ∈ start, earlier < change.instant) ∧ Ordered (some change.instant) rest

instance decidableOrdered :
    ∀ (start : Option Int) (changes : List Change), Decidable (Ordered start changes)
  | _, [] => isTrue trivial
  | _, change :: rest =>
    have := decidableOrdered (some change.instant) rest
    inferInstanceAs (Decidable (_ ∧ _))

end TimeZone

/-- How clocks in a zone were set at first, and the changes since. -/
structure TimeZone where
  name : String
  first : TimeZone.Clock
  changes : List TimeZone.Change
  ordered : TimeZone.Ordered none changes := by decide +kernel
  /-- No clock is a day ahead or behind. -/
  bounded : ∀ clock ∈ first :: changes.map TimeZone.Change.clock, clock.offset.natAbs < 86400 := by
    decide +kernel
  deriving DecidableEq, Repr

/-- The zones that have a name. -/
class ZoneTable where
  find? : String → Option TimeZone

namespace TimeZone

def utc : TimeZone where
  name := "UTC"
  first := ⟨0, "UTC"⟩
  changes := []

/-- How clocks are set at a second, when `clock` held before the changes. -/
def clockFrom (clock : Clock) (second : Int) : List Change → Clock
  | [] => clock
  | change :: rest =>
    if second < change.instant then clock else clockFrom change.clock second rest

/-- How clocks are set at an instant. -/
def clockAt (zone : TimeZone) (ms : Int) : Clock :=
  clockFrom zone.first (ms / 1000) zone.changes

/-- The offset of local clocks at an instant, in seconds. -/
def offsetAt (zone : TimeZone) (ms : Int) : Int := (zone.clockAt ms).offset

/-- What clocks in the zone show at an instant. -/
def localTime (zone : TimeZone) (ms : Int) : Int := ms + zone.offsetAt ms * 1000

/-- The first instant, from `start` on if that is given, when clocks show `time`. -/
def instantFrom? (time : Int) (start : Option Int) (clock : Clock) : List Change → Option Int
  | [] =>
    let instant := time - clock.offset * 1000
    if start.all fun start => start * 1000 ≤ instant then some instant else none
  | change :: rest =>
    let instant := time - clock.offset * 1000
    if (start.all fun start => start * 1000 ≤ instant) && instant < change.instant * 1000 then
      some instant
    else instantFrom? time (some change.instant) change.clock rest

/-- The earliest instant when clocks show a local time; a time that clocks skip has none. -/
def instantOf? (zone : TimeZone) (time : Int) : Option Int :=
  instantFrom? time none zone.first zone.changes

end TimeZone

end EventQuery
