import Cron.Text.Numeral
import Cron.Zone.Basic

/-!
Labels of zones, as requests and settings give them.
-/
namespace Cron.Zone

def pair? (a b : Char) : Option Nat := do
  let a ← Text.digit? a
  let b ← Text.digit? b
  some (10 * a + b)

/-- The distance in a label such as `+05:30` or `-0800`, as sign, hours and minutes. -/
def offsetParts? (cs : List Char) : Option (Bool × Nat × Nat) :=
  match cs with
  | sign :: a :: b :: rest =>
    let digits := if rest.length = 3 && rest.head? = some ':' then rest.tail else rest
    match digits with
    | [c, d] => do
      let hours ← pair? a b
      let minutes ← pair? c d
      if sign = '+' then some (false, hours, minutes)
      else if sign = '-' then some (true, hours, minutes)
      else none
    | _ => none
  | _ => none

/-- The directories of the names of regions. A name within another directory is unknown. -/
def directories : List String :=
  ["Africa", "America", "America/Argentina", "America/Indiana", "America/Kentucky",
   "America/North_Dakota", "Antarctica", "Arctic", "Asia", "Atlantic", "Australia", "Brazil",
   "Canada", "Chile", "Etc", "Europe", "Indian", "Mexico", "Pacific", "US"]

/-- The last part of a name, if it stands in a known directory or in none. -/
def fileName? (name : List Char) : Option (List Char) :=
  let last := (name.reverse.takeWhile (· != '/')).reverse
  let directory := name.take (name.length - last.length - 1)
  if last.length = name.length ∨ String.ofList directory ∈ directories then some last else none

/-- The most bytes of a name that is looked for in a directory. -/
def maxName : Nat := 255

/-- Whether a sign keeps a name from being looked for. -/
def isUnfit : Text.Sign → Bool
  | .char c => c == '\x00'
  | .half _ => true

/-- What is wrong with a name that is no region's: it is the name of a directory, it is too long to
be looked for, or it is unknown. Halves of pairs and null characters are not looked for. -/
def faultOf (label : String) (name : List Char) : Fault :=
  let unknown := Fault.input (.unknownZone label)
  if String.ofList name ∈ directories then .directory
  else if (Text.signs name).any isUnfit then unknown
  else
    match fileName? name with
    | some last => if maxName < (String.ofList last).utf8ByteSize then .longName else unknown
    | none => unknown

/-- The zone of a label, where nothing stands for the local clocks. An empty label is `local`;
otherwise a label is UTC, a distance of less than a day, or the name of a region. -/
def ofLabel (label : String) : Except Fault (Option Zone) :=
  let inner := Text.trim label.toList
  let text := String.ofList inner
  if inner.isEmpty || text.toLower = "local" then .ok none
  else if text.toUpper = "UTC" || text.toUpper = "Z" then .ok (some utc)
  else
    match offsetParts? inner with
    | some (negative, hours, minutes) =>
      let distance := 3600 * hours + 60 * minutes
      if 86400 ≤ distance then .error (.input (.offsetTooLarge label))
      else .ok (some (ofOffset (if negative then -(distance : Int) else distance)))
    | none =>
      match Region.ofName? text with
      | some place => .ok (some (region place))
      | none => .error (faultOf label inner)

end Cron.Zone
