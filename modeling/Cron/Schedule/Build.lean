import Cron.Json.Basic
import Cron.Schedule.Normal

/-!
Expressions put together from a value for each field, and the values that are commonly chosen.
-/
namespace Cron

def FieldName.presets : FieldName → List (String × String)
  | .minute =>
    [("*", "Every minute"),
     ("0", "At minute 0"),
     ("*/5", "Every 5 minutes"),
     ("*/10", "Every 10 minutes"),
     ("*/15", "Every 15 minutes"),
     ("*/30", "Every 30 minutes")]
  | .hour =>
    [("*", "Every hour"),
     ("0", "Midnight"),
     ("9", "9am"),
     ("12", "Noon"),
     ("*/2", "Every 2 hours"),
     ("*/6", "Every 6 hours"),
     ("9-17", "9am through 5pm")]
  | .dayOfMonth =>
    [("*", "Every day"),
     ("1", "1st of the month"),
     ("15", "15th of the month"),
     ("1,15", "1st and 15th")]
  | .month =>
    [("*", "Every month"),
     ("1", "January"),
     ("*/3", "Every quarter"),
     ("1-6", "January through June")]
  | .dayOfWeek =>
    [("*", "Every day of the week"),
     ("1-5", "Weekdays"),
     ("0,6", "Weekends"),
     ("1", "Monday"),
     ("0", "Sunday")]

namespace Schedule

/-- A value without its blanks, so that it is one word; a star if nothing is left. -/
def fieldWord (value : String) : String :=
  let kept := Text.squeeze value.toList
  if kept.isEmpty then "*" else String.ofList kept

/-- The expression with the given values, if it is one. -/
def build (value : FieldName → String) : Except Fault String := do
  let expression := " ".intercalate (FieldName.all.map fun name => fieldWord (value name))
  let _ ← ofExpression expression
  .ok expression

/-- The value that a request gives for a field. What counts as nothing leaves the field open. -/
def givenText : Json → Except Fault String
  | .text s => .ok s
  | v => if v.isBlank then .ok "" else .error .noText

/-- The expression with the values that a request gives by field; no other names are allowed. -/
def buildGiven (given : List (String × Json)) : Except Fault String := do
  if given.any fun g => (FieldName.ofText? g.1).isNone then .error .wrongKind
  let texts ← FieldName.all.mapM fun name =>
    givenText ((Json.lookup? name.text given).getD (.text "*"))
  let named := FieldName.all.zip texts
  build fun name => ((named.find? fun n => n.1 = name).map (·.2)).getD "*"

end Schedule

end Cron
