import Cron.Zone.Basic

/-!
Moments: wall times that may belong to a zone. A moment without a zone is read by the local clocks
wherever it has to be an instant.
-/
namespace Cron

/-- A wall time, the zone it belongs to, and which of two passes is meant where the zone's clocks
show it twice. -/
structure Moment where
  wall : WallTime
  zone : Option Zone
  second : Bool
deriving DecidableEq

namespace Moment

instance : Inhabited Moment := ⟨⟨default, none, false⟩⟩

def ofWall (wall : WallTime) : Moment := ⟨wall, none, false⟩

/-- The distance from UTC in seconds, for a moment with a zone. -/
def offset? (m : Moment) : Option Int :=
  m.zone.map fun zone => zone.rule.offsetOfWall m.wall.seconds m.second

/-- The microseconds of UTC since the calendar began, for a moment with a zone. -/
def absolute? (m : Moment) : Option Int :=
  m.offset?.map fun offset => m.wall.micros - 1000000 * offset

def ofUtc (zone : Zone) (instant : WallTime) : Except Fault Moment :=
  match zone.ofUtc instant with
  | .error fault => .error fault
  | .ok (wall, second) => .ok ⟨wall, some zone, second⟩

/-- What the local clocks show at an instant of UTC, as a moment without a zone. -/
def localOfUtc (clocks : ClockRule) (instant : WallTime) : Except Fault Moment :=
  match instant.addSeconds? (clocks.offsetAt instant.seconds) with
  | none => .error .beyondRange
  | some wall => .ok (ofWall wall)

def calendarSeconds : Nat := 86400 * calendarDays

/-- The year outside the calendar that is met when the local clocks are asked for a wall time.
They are asked what they show when UTC has this time, and a day before the instant it names, or a
day after it for the second pass. -/
def yearOutside? (clocks : ClockRule) (wall : WallTime) (second : Bool) : Option Nat :=
  let shown : Int := wall.seconds + clocks.offsetAt wall.seconds
  if shown < 0 then some 0
  else if (calendarSeconds : Int) ≤ shown then some 10000
  else if second then
    if calendarSeconds ≤ wall.seconds + 86400 then some 10000 else none
  else if wall.seconds < 86400 then some 0
  else none

/-- The instant of UTC at which a wall time of the local clocks is read. -/
def utcOfLocal (clocks : ClockRule) (wall : WallTime) (second : Bool) : Except Fault WallTime :=
  match yearOutside? clocks wall second with
  | some year => .error (.input (.yearOutside year))
  | none =>
    match wall.addSeconds? (-clocks.offsetOfReading wall.seconds second) with
    | none => .error .beyondRange
    | some instant => (localOfUtc clocks instant).map fun _ => instant

def toUtc (clocks : ClockRule) (m : Moment) : Except Fault WallTime :=
  match m.zone with
  | some zone => zone.toUtc m.wall m.second
  | none => utcOfLocal clocks m.wall m.second

/-- The moment in the clocks of a zone, or in the local ones as a moment without a zone. What
already has these clocks is left as it is. -/
def localize (clocks : ClockRule) (m : Moment) : Option Zone → Except Fault Moment
  | none =>
    match m.zone with
    | none => .ok m
    | some zone => zone.toUtc m.wall m.second >>= localOfUtc clocks
  | some target =>
    if m.zone.any (·.isSame target) then .ok m
    else m.toUtc clocks >>= ofUtc target

/-- The microseconds from one moment to another: between wall times if both have the same clocks,
between instants otherwise. -/
def since (later earlier : Moment) : Except Fault Int :=
  match later.zone, earlier.zone with
  | none, none => .ok (later.wall.micros - earlier.wall.micros)
  | some a, some b =>
    if a.isSame b then .ok (later.wall.micros - earlier.wall.micros)
    else
      .ok ((later.wall.micros - 1000000 * a.rule.offsetOfWall later.wall.seconds later.second) -
        (earlier.wall.micros - 1000000 * b.rule.offsetOfWall earlier.wall.seconds earlier.second))
  | _, _ => .error .mixedClocks

end Moment

end Cron
