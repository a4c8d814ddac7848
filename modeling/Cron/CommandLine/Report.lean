import Cron.Schedule.Sentence
import Cron.Upcoming

/-!
What the program prints.
-/
namespace Cron.CommandLine

/-- What a command leaves behind: its exit code, and the texts on the two outputs. -/
structure Report where
  exit : Nat
  out : String
  err : String
deriving Repr, DecidableEq

def Report.done (out : String) : Report := ⟨0, out, ""⟩

def Report.failed (message : String) : Report := ⟨1, "", "  Error: " ++ message ++ "\n"⟩

/-- The lines of numbered runs, from a given number on. -/
def runLines (number : Nat) : List ShownRun → String
  | [] => ""
  | run :: rest =>
    "  " ++ Text.padLeft 2 ' ' (toString number) ++ ". " ++ run.formatted ++ "  (" ++
      run.relative ++ ")\n" ++ runLines (number + 1) rest

/-- The runs of a schedule, or a line that says that there are none. -/
def runText (runs : List ShownRun) : String :=
  "\n" ++
    (if runs.isEmpty then "  No upcoming runs found within the search horizon.\n"
    else runLines 1 runs) ++ "\n"

def rowText (row : Schedule.Row) : String :=
  "  " ++ Text.padRight 13 row.title ++ " " ++ Text.padRight 10 row.word ++ " " ++ row.phrase ++
    "\n  " ++ Text.padRight 13 "" ++ " " ++ Text.padRight 10 "" ++ " valid: " ++ row.bounds ++
    "  values: " ++ row.values ++ "\n"

/-- A schedule with its sentence and its table. -/
def scheduleText (s : Schedule) (sentence : String) (rows : List Schedule.Row) : String :=
  "\n  " ++ s.expression ++ "\n  " ++ sentence ++ "\n\n" ++
    String.join (rows.map rowText) ++ "\n"

end Cron.CommandLine
