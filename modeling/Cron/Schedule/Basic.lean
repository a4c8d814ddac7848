import Cron.Calendar.WallTime
import Cron.Field.Basic

/-!
Schedules: the five fields of an expression, and the wall times that they match.
-/
namespace Cron

/-- A schedule, and the expression it was read from. -/
structure Schedule where
  expression : String
  minute : Field
  hour : Field
  dayOfMonth : Field
  month : Field
  dayOfWeek : Field
deriving Repr, DecidableEq

namespace Schedule

def field (s : Schedule) : FieldName → Field
  | .minute => s.minute
  | .hour => s.hour
  | .dayOfMonth => s.dayOfMonth
  | .month => s.month
  | .dayOfWeek => s.dayOfWeek

def fields (s : Schedule) : List Field := FieldName.all.map s.field

def tokens (s : Schedule) : List String := (Text.words s.expression.toList).map String.ofList

/-- Whether a day counts: `monthly` and `weekly` say whether the days of the month and those of
the week are restricted. Where both are, a day that is among either is enough. -/
def dayRule (monthly weekly inMonth inWeek : Bool) : Bool :=
  if monthly && weekly then inMonth || inWeek
  else if monthly then inMonth
  else if weekly then inWeek
  else true

def matchesDay (s : Schedule) (day weekday : Nat) : Bool :=
  dayRule s.dayOfMonth.isRestricted s.dayOfWeek.isRestricted (s.dayOfMonth.admits day)
    (s.dayOfWeek.admits weekday)

/-- Whether a schedule matches what a clock and a calendar show. -/
def matchesTime (s : Schedule) (w : WallTime) : Bool :=
  s.minute.admits w.minute && s.hour.admits w.hour &&
    (s.month.admits w.date.month && s.matchesDay w.date.day w.weekday)

/-- The schedule of an expression of five words. The first word at fault decides the error. -/
def parse (expression : String) : Except Fault Schedule :=
  match (Text.words expression.toList).map String.ofList with
  | [a, b, c, d, e] => do
    let minute ← Field.parse .minute a
    let hour ← Field.parse .hour b
    let dayOfMonth ← Field.parse .dayOfMonth c
    let month ← Field.parse .month d
    let dayOfWeek ← Field.parse .dayOfWeek e
    .ok ⟨" ".intercalate [a, b, c, d, e], minute, hour, dayOfMonth, month, dayOfWeek⟩
  | words => .error (.expression (.fieldCount words.length))

end Schedule

end Cron
