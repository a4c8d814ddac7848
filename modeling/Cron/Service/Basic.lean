import Cron.Json.Reader
import Cron.Schedule.Sentence
import Cron.Service.Address
import Cron.Settings.Basic
import Cron.Upcoming

/-!
The requests that the program answers over HTTP, and its answers. A request is taken as the
transport hands it on. What the transport itself refuses never gets here: a body of a mebibyte or
more where a body is read, which it answers with 413, and a request line or a header that is too
long.
-/
namespace Cron

/-! Errors, tables and runs as JSON values. -/

/-- An error in an expression: its message, its kind, and the field at fault. A range error has
the bounds too. -/
def ExpressionError.toJson (error : ExpressionError) : Json :=
  let bounds := error.bounds?.map fun (low, high) => ("bounds", Json.list [.int low, .int high])
  let field := (error.field?.map fun name => Json.text name.text).getD .null
  .object ([("error", .text error.message),
    ("kind", .text (if error.bounds?.isSome then "range" else "format")),
    ("field", field)] ++ bounds.toList)

def Schedule.Row.toJson (row : Schedule.Row) : Json :=
  .object
    [("label", .text row.title),
     ("value", .text row.word),
     ("range", .text row.bounds),
     ("explanation", .text row.phrase),
     ("expanded", .text row.values)]

def ShownRun.toJson (run : ShownRun) : Json :=
  .object
    [("at", .text run.moment.iso),
     ("formatted", .text run.formatted),
     ("relative", .text run.relative)]

/-! Requests and their answers. -/

structure Request where
  method : String
  address : Address
  body : String
deriving Repr, DecidableEq

structure Response where
  status : Nat
  body : Option Json

inductive Failure
  | refused (body : Json)
  /-- Something is at fault that the answer does not tell. -/
  | fault (fault : Fault)

namespace Service

inductive Route
  | health
  | explain
  | next
deriving Repr, DecidableEq

namespace Route

def all : List Route := [health, explain, next]

def path : Route → String
  | health => "/health"
  | explain => "/cron/explain"
  | next => "/cron/next"

def methods : Route → List String
  | explain => ["POST"]
  | health | next => ["GET", "HEAD"]

/-- What a request asks for, or the status of its answer if it asks for nothing. The method may be
written in letters of either case. -/
def ofRequest (request : Request) : Except Nat Route :=
  match all.find? fun route => route.path = request.address.path with
  | none => .error 404
  | some route => if request.method.toUpper ∈ route.methods then .ok route else .error 405

end Route

def refusal (message : String) : Failure := .refused (.object [("error", .text message)])

def badCount (v : Json) : Failure := refusal ("Invalid count: " ++ v.shown)

/-- The number that a count gives. A fraction is cut off. -/
def readCount (v : Json) : Except Failure Int :=
  match v with
  | .int n => .ok n
  | .real (.finite negative size) => .ok (if negative then -size.truncate else size.truncate)
  | .real (.infinite _) => .error (.fault .beyondRange)
  | .text s =>
    match Text.readInteger s.toList with
    | .ok n => .ok n
    | .error _ => .error (badCount v)
  | v => .error (badCount v)

/-- How many runs a request gets: as many as it asks for, but not more than the settings allow.
One that does not say gets the default of the settings. -/
def countOf (scheduler : SchedulerSettings) : Json → Except Failure Nat
  | .null | .text "" => .ok scheduler.defaultCount
  | v => do
    let n ← readCount v
    if n < 0 then .error (refusal "count must be >= 0") else .ok (min n.toNat scheduler.maxCount)

def zoneOf (scheduler : SchedulerSettings) (v : Json) : Except Failure String :=
  if v.isBlank then .ok scheduler.timezone
  else
    match v with
    | .text s => .ok s
    | _ => .error (.fault .noText)

/-- A result, where an error in a text refuses the request. -/
def refusing {α : Type} : Except Fault α → Except Failure α
  | .ok a => .ok a
  | .error (.input error) => .error (refusal error.message)
  | .error (.expression error) => .error (.refused error.toJson)
  | .error fault => .error (.fault fault)

/-- The schedule of an expression. An error of the expression refuses the request, and no other
error does. -/
def scheduleOf (expression : String) : Except Failure Schedule :=
  match Schedule.ofExpression expression with
  | .ok s => .ok s
  | .error (.expression error) => .error (.refused error.toJson)
  | .error fault => .error (.fault fault)

def runsOf (settings : Settings) (clocks : ClockRule) (now : Moment) (s : Schedule)
    (count zone : Json) : Except Failure Json := do
  let count ← countOf settings.scheduler count
  let zone ← zoneOf settings.scheduler zone
  let runs ← refusing (s.upcoming clocks now count settings.scheduler.horizon.minutes zone)
  .ok (.list (runs.map ShownRun.toJson))

/-- The value in the body of a request, if no more than `levels` values lie in each other. How many
may do so depends on how much of the stack is taken already. -/
def bodyOf (levels : Nat) (request : Request) : Except Failure Json :=
  match Json.read levels request.body with
  | .ok v => .ok v
  | .error .malformed => .error (refusal "Invalid JSON")
  | .error (.tooLong digits) => .error (.fault (.input (.tooManyDigits digits)))
  | .error .tooDeep => .error (.fault .tooDeep)

/-- The expression in a body: the text of its value, if that is not blank. -/
def expressionOf (body : Json) : Except Failure String :=
  let given := (body.member? "expression").getD .null
  if given.isBlank || (Text.trim given.display.toList).isEmpty then
    .error (refusal "Missing required field: expression")
  else .ok given.display

def explain (levels : Nat) (settings : Settings) (clocks : ClockRule) (now : Moment)
    (request : Request) : Except Failure Json := do
  let body ← bodyOf levels request
  let expression ← expressionOf body
  let s ← scheduleOf expression
  let given := fun name => (body.member? name).getD .null
  let runs ← runsOf settings clocks now s (given "count") (given "timezone")
  let sentence ← refusing (present .noEntry s.sentence?)
  let rows ← refusing (present .noEntry s.breakdown?)
  .ok (.object
    [("expression", .text expression),
     ("normalized", .text s.expression),
     ("description", .text sentence),
     ("breakdown", .list (rows.map Schedule.Row.toJson)),
     ("next_runs", runs)])

def parameter? (request : Request) (name : String) : Option String :=
  (request.address.query.find? fun p => p.1 = name).map (·.2)

def next (settings : Settings) (clocks : ClockRule) (now : Moment) (request : Request) :
    Except Failure Json := do
  let expression := String.ofList (Text.trim ((parameter? request "expression").getD "").toList)
  if expression.isEmpty then .error (refusal "Missing required parameter: expression")
  else do
    let s ← scheduleOf expression
    let given := fun name => ((parameter? request name).map Json.text).getD .null
    let runs ← runsOf settings clocks now s (given "count") (given "timezone")
    .ok (.object [("expression", .text expression), ("next_runs", runs)])

def health : Json := .object [("status", .text "ok")]

def respond : Except Failure Json → Except Fault Response
  | .ok body => .ok ⟨200, some body⟩
  | .error (.refused body) => .ok ⟨400, some body⟩
  | .error (.fault fault) => .error fault

/-- The answer to a request, where the stack has room for `levels` values in each other. -/
def answerWithin (levels : Nat) (settings : Settings) (clocks : ClockRule) (now : Moment)
    (request : Request) : Except Fault Response :=
  match Route.ofRequest request with
  | .error status => .ok ⟨status, none⟩
  | .ok .health => respond (.ok health)
  | .ok .explain => respond (explain levels settings clocks now request)
  | .ok .next => respond (next settings clocks now request)

/-- The levels that a stack of a thousand calls leaves where requests are handed on. -/
def maxDepth : Nat := 977

def answer (settings : Settings) (clocks : ClockRule) (now : Moment) (request : Request) :
    Except Fault Response := answerWithin maxDepth settings clocks now request

end Service

/-- A request with its body as it comes in, as bytes. -/
structure Delivery where
  method : String
  address : Address
  body : ByteArray

namespace Delivery

/-- A delivery without its body. -/
def head (d : Delivery) : Request := ⟨d.method, d.address, ""⟩

end Delivery

namespace Service

end Service

end Cron
