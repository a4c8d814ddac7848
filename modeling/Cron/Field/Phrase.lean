import Cron.Field.Basic
import Cron.Text.Pieces

/-!
Fields in English: `9am`, `Monday through Friday`, `every minute`. A phrase looks up the ends of its
field and the names of values. It is written once for any way to look them up; as it is shown, it is
there only if nothing is missing.
-/
namespace Cron

/-- The names of the months by number, where no month has the number zero. -/
def monthNames : List String :=
  ["", "January", "February", "March", "April", "May", "June", "July", "August", "September",
    "October", "November", "December"]

/-- The names of the days of the week, Sunday being zero. -/
def dayNames : List String :=
  ["Sunday", "Monday", "Tuesday", "Wednesday", "Thursday", "Friday", "Saturday"]

/-- Whether each number is one more than the number before it. -/
def climbs : List Int → Bool
  | a :: b :: rest => b == a + 1 && climbs (b :: rest)
  | _ => true

/-- Whether there are at least two numbers, each one more than the last. -/
def isConsecutive (values : List Int) : Bool := 2 ≤ values.length && climbs values

def hourText (hour : Int) : String :=
  if hour = 0 then "12am (midnight)"
  else if hour = 12 then "12pm (noon)"
  else if hour < 12 then toString hour ++ "am"
  else toString (hour - 12) ++ "pm"

def timeText (hour minute : Int) : String :=
  Text.padNumber 2 hour ++ ":" ++ Text.padNumber 2 minute

def ordinal (n : Int) : String :=
  toString n ++
    if 10 ≤ n % 100 ∧ n % 100 ≤ 20 then "th"
    else if n % 10 = 1 then "st"
    else if n % 10 = 2 then "nd"
    else if n % 10 = 3 then "rd"
    else "th"

namespace FieldName

def title : FieldName → String
  | minute => "Minute"
  | hour => "Hour"
  | dayOfMonth => "Day of Month"
  | month => "Month"
  | dayOfWeek => "Day of Week"

def openPhrase : FieldName → String
  | minute => "every minute"
  | hour => "every hour"
  | dayOfMonth => "every day"
  | month => "every month"
  | dayOfWeek => "every day of the week"

/-- The text of a value, if the tables of names hold one. -/
def valueText? (field : FieldName) (v : Nat) : Option String :=
  match field with
  | minute => some (Text.padNumber 2 v)
  | hour => some (hourText v)
  | dayOfMonth => some (ordinal v)
  | month => monthNames[v]?
  | dayOfWeek => dayNames[v]?

def valueText (field : FieldName) (v : Nat) : String := (field.valueText? v).getD ""

end FieldName

namespace Field

/-- Whether the values of a field are a run of two or more. -/
def isRun (field : Field) : Bool := isConsecutive (field.values.map Int.ofNat)

def firstValue (field : Field) : Nat := field.values.head?.getD 0

def lastValue (field : Field) : Nat := field.values.getLast?.getD 0

/-- The values of a field as numbers, with commas between them. -/
def numbers (field : Field) : String := Text.joined ", " (field.values.map toString)

end Field

/-- How the first and the last value of a field and the text of a value are looked up. -/
structure LookUps (m : Type → Type) where
  first : Field → m Nat
  last : Field → m Nat
  text : FieldName → Nat → m String

namespace LookUps

/-- Look-ups that find nothing where something is missing. -/
def checked : LookUps Option where
  first field := field.values.head?
  last field := field.values.getLast?
  text := FieldName.valueText?

/-- Look-ups that find zero or an empty text where something is missing. -/
def plain : LookUps Id where
  first := Field.firstValue
  last := Field.lastValue
  text := FieldName.valueText

end LookUps

namespace Field

def phraseBy {m : Type → Type} [Monad m] (look : LookUps m) (field : Field) : m String :=
  if field.isWildcard then pure field.name.openPhrase
  else if field.values.length = 1 then do look.text field.name (← look.first field)
  else if field.isRun then do
    let first ← look.first field
    let last ← look.last field
    if field.name = .minute then pure ("minutes " ++ toString first ++ "-" ++ toString last)
    else do
      let first ← look.text field.name first
      let last ← look.text field.name last
      pure (first ++ " through " ++ last)
  else if field.name = .minute then pure ("minutes " ++ field.numbers)
  else do
    let texts ← field.values.mapM (look.text field.name)
    pure (Text.joined ", " texts)

/-- The phrase of a field, if all that it names is there. -/
def phrase? (field : Field) : Option String := field.phraseBy .checked

def phrase (field : Field) : String := field.phraseBy .plain

end Field

end Cron
