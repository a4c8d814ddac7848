import Cron.CommandLine.Run
import Cron.Settings.Files
import Std.Time.DateTime.Timestamp

/-!
The program: it gathers what it sees of the machine, runs the command, and prints the report.

What the library leaves out, and where it takes something as given instead:

* the stack. A reading that goes one level deeper for each value within another has the number of
  levels as an argument, and what is proved of it holds for every number (`Json.read`,
  `Document.read`, `Environment.resolveWithin`, `Service.answerWithin`, `Settings.loadWithin`). The
  numbers in `maxDepth` are those of one caller;
* the directories of a machine. A command is run for any paths that are those of directories
  (`CommandLine.run`); by itself a `Machine` knows only of those with files of settings in them;
* the transport of requests: a body of a mebibyte or more, a long request line and long headers,
  which it refuses by itself, the encodings of a body other than UTF-8, and the headers of answers
  (`Service.Basic`). Requests are not served here;
* distances between clocks that have a fraction of a second (`Zone.Basic`), and regions that are not
  in the table (`Region.all`);
* files of settings that are no JSON text, and of variables the quotes and the references
  (`Settings.Files`);
* the lines of the log. Only its level is read (`LogLevel`);
* the look of the dialogue: colours, and how a choice is moved through (`Wizard`).
-/
namespace Cron.Main

def textOf? (path : String) : IO (Option String) := do
  try
    let text ← IO.FS.readFile path
    return some text
  catch _ => return none

def environment : IO Environment := do
  let text := (← textOf? "/proc/self/environ").getD ""
  let entries := (Text.pieces '\x00' text.toList).filterMap (Text.cut? '=')
  return ⟨entries.map fun (name, value) => (String.ofList name, String.ofList value)⟩

def homes : IO Homes := do
  let text := (← textOf? "/etc/passwd").getD ""
  let rows := (Text.pieces '\n' text.toList).map fun line =>
    (Text.pieces ':' line).map String.ofList
  return ⟨"/", rows.filterMap fun row =>
    match row with
    | name :: _ :: _ :: _ :: _ :: home :: _ => some (name, home)
    | _ => none⟩

/-- The day on which the count of seconds of this machine begins. -/
def firstDay : Nat := Date.toDay ⟨1970, 1, 1⟩

def now (clocks : ClockRule) : IO Moment := do
  let seconds := (← Std.Time.Timestamp.now).toSecondsSinceUnixEpoch.toInt
  let instant := ((86400 * firstDay : Int) + seconds).toNat
  let shown := moved instant (clocks.offsetAt instant)
  return .ofWall ((WallTime.ofMicros? (1000000 * shown)).getD default)

def filesOf (directory : String) : IO HomeFiles := do
  let entries ← textOf? (directory ++ "/.env")
  let settings ← textOf? (directory ++ "/config.yaml")
  match HomeFiles.ofTexts entries settings with
  | .ok files => return files
  | .error _ => throw (IO.userError ("unreadable settings in " ++ directory))

/-- Those of a path and the paths above it that are directories. -/
def directoriesAbove (path : Path) : IO (List Path) :=
  ((List.range (path.parts.length + 1)).map fun count =>
    { path with parts := path.parts.take count }).filterM fun path => do
      try
        let _ ← IO.FS.realPath (path.text ++ "/.")
        return true
      catch _ => return false

/-- What this program sees of the machine, and which paths it finds to be those of directories. Of
the files only those are read that the command needs. -/
def machine (words : List String) : IO (CommandLine.Machine × List Path) := do
  let environment ← environment
  let homes ← homes
  let zone := (environment.get? "TZ").bind Region.ofName?
  let clocks := (zone.getD Region.universal).rule
  let initialHome := Settings.homeWithin ((environment.get? "HOME").getD homes.own)
  let bare : CommandLine.Machine :=
    ⟨homes, initialHome, environment, clocks, ← now clocks, fun _ => .empty⟩
  match CommandLine.parse words with
  | .error _ => return (bare, [])
  | .ok invocation =>
    let directory := do
      let environment ← CommandLine.environmentOf bare invocation.home
      let path ← Settings.homeOf homes initialHome environment
      .ok path
    match directory with
    | .error _ => return (bare, [])
    | .ok directory =>
      let files ← filesOf directory.text
      return ({ bare with files := fun _ => files }, ← directoriesAbove directory)

/-- The value that a line of input selects: a choice by its number, or the line itself. -/
def selected (question : Wizard.Question) (line : String) : String :=
  match question, (Text.readNumeral line.toList).toOption with
  | .select field, some n => (((Wizard.choices field)[n - 1]?).map (·.2)).getD line
  | _, _ => line

/-- Holds a dialogue over the standard input. The questions go to the error output. -/
partial def dialogue (w : Wizard) (answers : List (Option String)) :
    IO (List (Option String)) := do
  match w.question? with
  | none => return answers.reverse
  | some question =>
    IO.eprintln question.text
    if let .select field := question then
      for (choice, number) in (Wizard.choices field).zipIdx do
        IO.eprintln ("  " ++ toString (number + 1) ++ ". " ++ choice.1)
    let line ← (← IO.getStdin).getLine
    if line.isEmpty then return (none :: answers).reverse
    let value := selected question (String.ofList (Text.dropLineEnd line.toList))
    match w.answer question value with
    | .ok (.refused message, w) =>
      IO.eprintln message
      dialogue w (some value :: answers)
    | .ok (_, w) => dialogue w (some value :: answers)
    | .error _ => return (some value :: answers).reverse

def answersFor (words : List String) : IO (List (Option String)) := do
  match CommandLine.parse words with
  | .ok ⟨_, .build _⟩ => dialogue .start []
  | _ => return []

def brokenExit : UInt32 := 1

end Cron.Main

open Cron in
/-- Runs the command that the words give, and prints its report. -/
def main (words : List String) : IO UInt32 := do
  let (machine, directories) ← Main.machine words
  let answers ← Main.answersFor words
  match CommandLine.runWordsIn directories.contains machine answers words with
  | .ok report =>
    IO.print report.out
    IO.eprint report.err
    return report.exit.toUInt32
  | .error fault =>
    IO.eprintln (fault.inputMessage?.getD "no answer can be given")
    return Main.brokenExit
