import Cron.Calendar.WallTime
import Cron.Fault
import Cron.Zone.Region

/-!
Zones, and the conversion of wall times between them by way of UTC.
-/
namespace Cron

/-- What relates wall times to UTC: nothing, a fixed distance in whole seconds, or the clocks of a
region. Distances with a fraction of a second are left out: no label gives one. -/
inductive Zone
  | utc
  | fixed (offset : Int)
  | region (place : Region)
deriving Repr, DecidableEq

namespace Zone

/-- The zone at a fixed distance from UTC; without a distance it is UTC itself. -/
def ofOffset (offset : Int) : Zone := if offset = 0 then utc else fixed offset

def rule : Zone → ClockRule
  | utc => .constant 0
  | fixed offset => .constant offset
  | region place => place.rule

/-- Whether two zones are one and the same clock: UTC, or a region of one name. Two fixed
distances are kept apart even if they agree. -/
def isSame : Zone → Zone → Bool
  | utc, utc => true
  | region a, region b => a.name == b.name
  | _, _ => false

/-- The wall time in a zone at an instant of UTC, and whether it comes the second time then. -/
def ofUtc (zone : Zone) (instant : WallTime) : Except Fault (WallTime × Bool) :=
  let offset := zone.rule.offsetAt instant.seconds
  match instant.addSeconds? offset with
  | none => .error .beyondRange
  | some wall => .ok (wall, zone.rule.offsetOfWall wall.seconds false != offset)

/-- The instant of UTC that a wall time in a zone is read as. -/
def toUtc (zone : Zone) (wall : WallTime) (second : Bool) : Except Fault WallTime :=
  match wall.addSeconds? (-zone.rule.offsetOfWall wall.seconds second) with
  | none => .error .beyondRange
  | some instant => .ok instant

end Zone

end Cron
