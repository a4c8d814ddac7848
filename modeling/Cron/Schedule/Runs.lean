import Cron.Moment.Basic
import Cron.Schedule.Normal

/-!
The next runs of a schedule. Minutes are walked one by one: wall minutes for a moment without a
zone, minutes of UTC for one with a zone. There a wall time that the clocks leave out is never
met, and one that they show twice counts the first time only.
-/
namespace Cron.Schedule

/-- What a walk tests each wall time against: the values of a schedule as sets, made once. -/
structure Sieve where
  minutes : Nat
  hours : Nat
  months : Nat
  days : Nat
  weekdays : Nat
  monthly : Bool
  weekly : Bool

def sieve (s : Schedule) : Sieve :=
  ⟨s.minute.bits, s.hour.bits, s.month.bits, s.dayOfMonth.bits, s.dayOfWeek.bits,
    s.dayOfMonth.isRestricted, s.dayOfWeek.isRestricted⟩

def Sieve.passes (sieve : Sieve) (w : WallTime) : Bool :=
  sieve.minutes.testBit w.minute && sieve.hours.testBit w.hour &&
    (sieve.months.testBit w.date.month &&
      dayRule sieve.monthly sieve.weekly (sieve.days.testBit w.date.day)
        (sieve.weekdays.testBit w.weekday))

@[simp]
theorem passes_sieve (s : Schedule) (w : WallTime) : s.sieve.passes w = s.matchesTime w := by
  simp only [sieve, Sieve.passes, Field.testBit_bits, matchesTime, matchesDay]

/-- The first `count` wall times among the next `minutes` that match, where `found` holds earlier
ones, last one first. The minute after each has to exist before it is tested. -/
def wallRuns (sieve : Sieve) (minutes count : Nat) (candidate : WallTime) (found : List Moment) :
    Except Fault (List Moment) :=
  match minutes with
  | 0 => .ok found.reverse
  | minutes + 1 =>
    match candidate.nextMinute? with
    | none => .error .beyondRange
    | some next =>
      if sieve.passes candidate then
        if count ≤ 1 then .ok (.ofWall candidate :: found).reverse
        else wallRuns sieve minutes (count - 1) next (.ofWall candidate :: found)
      else wallRuns sieve minutes count next found

/-- The first `count` wall times of a zone at the next `minutes` of UTC that match. `latest` is the
latest wall time shown so far: no wall time up to it is looked at again. -/
def zoneRuns (sieve : Sieve) (zone : Zone) (minutes count : Nat) (candidate : WallTime)
    (latest : Option WallTime) (found : List Moment) : Except Fault (List Moment) :=
  match minutes with
  | 0 => .ok found.reverse
  | minutes + 1 =>
    let offset := zone.rule.offsetAt candidate.seconds
    match candidate.addSeconds? offset, candidate.nextMinute? with
    | some wall, some next =>
      if latest.any fun latest => wall.micros ≤ latest.micros then
        zoneRuns sieve zone minutes count next latest found
      else if sieve.passes wall then
        let run : Moment :=
          ⟨wall, some zone, zone.rule.offsetOfWall wall.seconds false != offset⟩
        if count ≤ 1 then .ok (run :: found).reverse
        else zoneRuns sieve zone minutes (count - 1) next (some wall) (run :: found)
      else zoneRuns sieve zone minutes count next (some wall) found
    | _, _ => .error .beyondRange

def nextRuns (s : Schedule) (start : Moment) (count minutes : Int) :
    Except Fault (List Moment) :=
  if count ≤ 0 ∨ minutes ≤ 0 then .ok []
  else
    match start.wall.floorMinute.nextMinute? with
    | none => .error .beyondRange
    | some first =>
      match start.zone with
      | none => wallRuns s.sieve minutes.toNat count.toNat first []
      | some zone => do
        let instant ← zone.toUtc first false
        zoneRuns s.sieve zone minutes.toNat count.toNat instant none []

def defaultCount : Int := 10

/-- How many minutes are looked through, if nothing else is said: a year of 365 days. -/
def defaultMinutes : Int := 525600

def nextRun (expression : String) (after : Moment) (minutes : Int) :
    Except Fault (Option Moment) := do
  let s ← ofExpression expression
  let runs ← s.nextRuns after 1 minutes
  .ok runs.head?

structure RunQuery where
  schedule : Schedule
  start : Moment
  count : Int
  minutes : Int

/-- The runs that a request asks for. Its numbers must not be negative. -/
def RunQuery.run (query : RunQuery) : Except Fault (List Moment) :=
  let refused := (if query.count < 0 then [⟨["count"], .tooSmall⟩] else []) ++
    (if query.minutes < 0 then [⟨["horizon_minutes"], .tooSmall⟩] else [])
  if refused.isEmpty then query.schedule.nextRuns query.start query.count query.minutes
  else .error (.settings refused)

end Cron.Schedule
