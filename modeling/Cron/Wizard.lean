import Cron.CommandLine.Report
import Cron.Schedule.Build

/-!
Expressions built in a dialogue. For each field a value is selected among the common ones, or typed
in; a typed value is asked for again until it fits.
-/
namespace Cron

namespace Wizard

/-- A question for a field: which value to select, or which to type in. -/
inductive Question
  | select (field : FieldName)
  | typed (field : FieldName)
deriving Repr, DecidableEq

inductive Verdict
  | accepted
  | refused (message : String)
  | cancelled
deriving Repr, DecidableEq

def customChoice : String := "__custom__"

/-- The choices of a selection, with the value of each. -/
def choices (field : FieldName) : List (String × String) :=
  (field.presets.map fun (value, label) => (label ++ "  (" ++ value ++ ")", value)) ++
    [("Custom value...", customChoice)]

def Question.text : Question → String
  | select field => field.title ++ ":"
  | typed field => field.title ++ " (e.g. 1-5, */10, 0,30):"

end Wizard

/-- A dialogue in progress: the values of the first fields, and whether the value of the next one
is to be typed in. -/
structure Wizard where
  values : List String
  isTyping : Bool
deriving Repr, DecidableEq

namespace Wizard

def start : Wizard := ⟨[], false⟩

/-- What is asked next, until all fields have a value. -/
def question? (w : Wizard) : Option Question :=
  (FieldName.all[w.values.length]?).map fun field =>
    if w.isTyping then .typed field else .select field

/-- The values of the fields by name; what is not given is left open. -/
def valueOf (values : List String) (name : FieldName) : String :=
  (((FieldName.all.zip values).find? fun entry => entry.1 = name).map (·.2)).getD "*"

/-- The verdict on a typed value: it fits if it makes an expression with all other fields open. -/
def verdictOn (field : FieldName) (value : String) : Except Fault Verdict :=
  match Schedule.build fun name => if name = field then value else "*" with
  | .ok _ => .ok .accepted
  | .error (.expression error) => .ok (.refused error.message)
  | .error fault => .error fault

def answer (w : Wizard) (question : Question) (value : String) : Except Fault (Verdict × Wizard) :=
  match question with
  | .select _ =>
    if value = customChoice then .ok (.accepted, { w with isTyping := true })
    else .ok (.accepted, ⟨w.values ++ [value], false⟩)
  | .typed field =>
    match verdictOn field value with
    | .ok .accepted => .ok (.accepted, ⟨w.values ++ [value], false⟩)
    | .ok verdict => .ok (verdict, w)
    | .error fault => .error fault

/-- The questions asked, with what became of the answers, and the values of all fields unless the
dialogue is cancelled. Where an answer is missing the dialogue is cancelled. -/
def run (w : Wizard) :
    List (Option String) → Except Fault (List (Question × Verdict) × Option (List String))
  | some value :: rest =>
    match w.question? with
    | none => .ok ([], some w.values)
    | some question => do
      let (verdict, w) ← w.answer question value
      let (asked, values) ← run w rest
      .ok ((question, verdict) :: asked, values)
  | _ =>
    match w.question? with
    | none => .ok ([], some w.values)
    | some question => .ok ([(question, .cancelled)], none)

def banner : String :=
  String.join
    (["",
      "  ____                  ____",
      " / ___|_ __ ___  _ __  / ___|  ___ ___  _ __   ___",
      "| |   | '__/ _ \\| '_ \\ \\___ \\ / __/ _ \\| '_ \\ / _ \\",
      "| |___| | | (_) | | | | ___) | (_| (_) | |_) |  __/",
      " \\____|_|  \\___/|_| |_||____/ \\___\\___/| .__/ \\___|",
      "                                       |_|",
      ""].map (· ++ "\n"))

def opening : String :=
  banner ++ "  Parse, explain and preview cron expressions\n\n" ++
    "  Build a cron expression field by field.\n\n"

def closing (expression sentence : String) (runs : List ShownRun) : String :=
  "\n  Expression:  " ++ expression ++ "\n  Meaning:     " ++ sentence ++ "\n\n" ++
    CommandLine.runLines 1 runs ++ "\n"

/-- What a dialogue leaves behind: the questions, the expression if there is one, and what is
printed. -/
structure Outcome where
  asked : List (Question × Verdict)
  expression : Option String
  report : CommandLine.Report
deriving Repr, DecidableEq

def defaultCount : Int := 5

def finish (clocks : ClockRule) (now : Moment) (zone : String) (count : Int)
    (asked : List (Question × Verdict)) (values : List String) : Except Fault Outcome := do
  let expression ← Schedule.build (valueOf values)
  let s ← Schedule.ofExpression expression
  let sentence ← present .noEntry s.sentence?
  let runs ← s.upcoming clocks now count Schedule.defaultMinutes zone
  .ok ⟨asked, some expression, .done (opening ++ closing expression sentence runs)⟩

/-- A dialogue with given answers. Nothing is asked if the zone is at fault. -/
def hold (clocks : ClockRule) (now : Moment) (zone : String) (count : Int)
    (answers : List (Option String)) : Except Fault Outcome :=
  match Zone.ofLabel zone with
  | .error (.input error) => .ok ⟨[], none, .failed error.message⟩
  | .error fault => .error fault
  | .ok _ => do
    let (asked, values) ← start.run answers
    match values with
    | none => .ok ⟨asked, none, .done (opening ++ "\n  Builder cancelled.\n\n")⟩
    | some values => finish clocks now zone count asked values

end Wizard

end Cron
