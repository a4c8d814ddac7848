import Cron.Moment.Iso
import Cron.Number.Dyadic
import Cron.Field.Phrase
import Cron.Schedule.Runs
import Cron.Zone.Label

/-!
Runs as they are shown: the moment, its text, and how long it is until then.
-/
namespace Cron

inductive WaitUnit
  | minute
  | hour
  | day
  | week
deriving Repr, DecidableEq

def WaitUnit.text : WaitUnit → String
  | minute => "minute"
  | hour => "hour"
  | day => "day"
  | week => "week"

structure Wait where
  amount : Int
  unit : WaitUnit
deriving Repr, DecidableEq

namespace Wait

/-- The seconds of a span, as the nearest binary fraction. -/
def secondsOf (micros : Int) : Number.Dyadic := Number.nearest micros 1000000

/-- The wait of a span: in the largest unit of which it holds one, weeks from seven days on. What
lies back stays in minutes. -/
def ofMicros (micros : Int) : Wait :=
  let seconds := secondsOf micros
  let minutes := (seconds.divNat 60).floor
  let hours := (seconds.divNat 3600).floor
  let days := (seconds.divNat 86400).floor
  if minutes < 60 then ⟨minutes, .minute⟩
  else if hours < 24 then ⟨hours, .hour⟩
  else if days < 7 then ⟨days, .day⟩
  else ⟨days / 7, .week⟩

def text (wait : Wait) : String :=
  "in " ++ toString wait.amount ++ " " ++ wait.unit.text ++ (if wait.amount = 1 then "" else "s")

end Wait

def relativeLabel (run now : Moment) : Except Fault String :=
  (run.since now).map fun micros => (Wait.ofMicros micros).text

/-- A wall time with the names of day and month; the year has no zeros before it. -/
def displayText (w : WallTime) : String :=
  let date := w.date
  let day := FieldName.dayOfWeek.valueText w.weekday
  let month := FieldName.month.valueText date.month
  String.ofList (day.toList.take 3) ++ ", " ++ Text.padNumber 2 date.day ++ " " ++
    String.ofList (month.toList.take 3) ++ " " ++ toString date.year ++ ", " ++
    timeText w.hour w.minute

structure ShownRun where
  moment : Moment
  formatted : String
  relative : String

def showRun (run now : Moment) : Except Fault ShownRun := do
  let relative ← relativeLabel run now
  .ok ⟨run, displayText run.wall, relative⟩

namespace Schedule

def upcoming (clocks : ClockRule) (s : Schedule) (now : Moment) (count minutes : Int)
    (zone : String) : Except Fault (List ShownRun) := do
  let target ← Zone.ofLabel zone
  let start ← now.localize clocks target
  let runs ← s.nextRuns start count minutes
  runs.mapM fun run => showRun run start

end Schedule

def upcomingRuns (clocks : ClockRule) (expression : String) (now : Moment) (count minutes : Int)
    (zone : String) : Except Fault (List ShownRun) := do
  let s ← Schedule.ofExpression expression
  s.upcoming clocks now count minutes zone

end Cron
