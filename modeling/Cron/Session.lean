import Cron.Schedule.Build
import Cron.Schedule.Sentence
import Cron.Upcoming

/-!
Sessions: one step after another with a current schedule and a cursor, which is a moment. A step
that fails changes nothing.
-/
namespace Cron

structure Session where
  schedule : Option Schedule
  cursor : Option Moment

namespace Session

def start : Session := ⟨none, none⟩

inductive Step
  | use (expression : String)
  | build (fields : List (String × Json))
  | seek (moment : Moment)
  /-- Find the next runs from the cursor and move it to the last of them. -/
  | next (count minutes : Int)
  | localize (zone : String)
  | hits
  | weekday
  | get (field : String)
  | admits (field : String) (value : Json)
  /-- Change a field of the schedule, which nothing can. -/
  | set (field : String)
  | describe
  | relative (run : Moment)

inductive Finding
  | text (s : String)
  | moment (m : Moment)
  | moments (ms : List Moment)
  | truth (b : Bool)
  | number (n : Nat)
  | field (field : Field)

def fieldOf (session : Session) (name : String) : Except Fault Field := do
  let s ← present .wrongKind session.schedule
  let name ← present (.unknownName name) (FieldName.ofText? name)
  .ok (s.field name)

def natural? : Json → Option Nat
  | .int (.ofNat n) => some n
  | .bool b => some (if b then 1 else 0)
  | .real (.finite false size) => if size.isInteger then some size.truncate.toNat else none
  | .real x => if x.isZero then some 0 else none
  | _ => none

def withSchedule (session : Session) (s : Schedule) : Session := { session with schedule := some s }

def withCursor (session : Session) (m : Moment) : Session := { session with cursor := some m }

/-- The next runs from the cursor. Where none are asked for nothing is needed to find them. -/
def runs (session : Session) (count minutes : Int) : Except Fault (List Moment) :=
  if count ≤ 0 ∨ minutes ≤ 0 then .ok []
  else do
    let s ← present .noText session.schedule
    let start ← present .noText session.cursor
    s.nextRuns start count minutes

def step (clocks : ClockRule) (session : Session) : Step → Except Fault (Session × Finding)
  | .use expression => do
    let s ← Schedule.ofExpression expression
    .ok (session.withSchedule s, .text s.expression)
  | .build fields => do
    let expression ← Schedule.buildGiven fields
    let s ← Schedule.ofExpression expression
    .ok (session.withSchedule s, .text expression)
  | .seek m => .ok (session.withCursor m, .moment m)
  | .next count minutes => do
    let found ← session.runs count minutes
    .ok ({ session with cursor := found.getLast?.or session.cursor }, .moments found)
  | .localize zone => do
    let target ← Zone.ofLabel zone
    let cursor ← present .noText session.cursor
    let m ← cursor.localize clocks target
    .ok (session.withCursor m, .moment m)
  | .hits => do
    let s ← present .noText session.schedule
    let cursor ← present .noText session.cursor
    .ok (session, .truth (s.matchesTime cursor.wall))
  | .weekday => do
    let cursor ← present .noText session.cursor
    .ok (session, .number cursor.wall.weekday)
  | .get name => do
    let field ← session.fieldOf name
    .ok (session, .field field)
  | .admits name value => do
    let field ← session.fieldOf name
    .ok (session, .truth ((natural? value).any field.admits))
  | .set name => do
    let _ ← present .noText session.schedule
    .error (.settings [⟨[name], .frozen⟩])
  | .describe => do
    let s ← present .noText session.schedule
    let sentence ← present .noEntry s.sentence?
    .ok (session, .text sentence)
  | .relative run => do
    let cursor ← present .wrongKind session.cursor
    let label ← relativeLabel run cursor
    .ok (session, .text label)

/-- A step that may fail: the session after it, and what it finds. A failing one changes nothing. -/
def perform (clocks : ClockRule) (session : Session) (s : Step) : Session × Except Fault Finding :=
  match session.step clocks s with
  | .ok (after, finding) => (after, .ok finding)
  | .error fault => (session, .error fault)

/-- The session after some steps, and what each of them finds. -/
def run (clocks : ClockRule) (session : Session) :
    List Step → Session × List (Except Fault Finding)
  | [] => (session, [])
  | s :: rest =>
    let (after, found) := session.perform clocks s
    let (last, more) := run clocks after rest
    (last, found :: more)

end Session

end Cron
