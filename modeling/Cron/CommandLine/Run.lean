import Cron.CommandLine.Command
import Cron.Settings.Files
import Cron.Wizard

/-!
Commands as they are run: what they print, given what the program sees of the machine.
-/
namespace Cron.CommandLine

/-- What the program sees of the machine that it runs on. -/
structure Machine where
  homes : Homes
  initialHome : String
  environment : Environment
  clocks : ClockRule
  now : Moment
  files : String → HomeFiles

/-- Whether a path is that of a directory, as far as the files of the machine tell: files are in it,
or it is where paths start. -/
def Machine.holds (machine : Machine) (path : Path) : Bool :=
  path.parts.isEmpty || !(machine.files path.text).isEmpty

/-- The environment in which a command runs: a home directory that is given is the one that the
environment names. -/
def environmentOf (machine : Machine) (home : Option String) : Except Fault Environment :=
  match home with
  | none | some "" => .ok machine.environment
  | some home => do
    let path ← (Path.ofText home).expandHome machine.homes machine.environment
    machine.environment.assign Settings.homeVariable path.text

def settingsOf (isDirectory : Path → Bool) (machine : Machine) (home : Option String) :
    Except Fault Settings := do
  let environment ← environmentOf machine home
  let path ← Settings.homeOf machine.homes machine.initialHome environment
  if (path.child "config.yaml").isTooLong isDirectory then .error .longName
  (Settings.load machine.homes machine.initialHome environment (machine.files path.text)).2

def givenOr (given : Option String) (other : String) : String :=
  match given with
  | none | some "" => other
  | some s => s

/-- The report on a result: a text at fault fails the command. -/
def reportOf : Except Fault String → Except Fault Report
  | .ok out => .ok (.done out)
  | .error fault =>
    match fault.inputMessage? with
    | some message => .ok (.failed message)
    | none => .error fault

def explain (expression : String) : Except Fault Report :=
  match Schedule.ofExpression expression with
  | .ok s => do
    let sentence ← present .noEntry s.sentence?
    let rows ← present .noEntry s.breakdown?
    .ok (.done (scheduleText s sentence rows))
  | .error (.expression error) => .ok (.failed error.message)
  | .error fault => .error fault

/-- How many minutes are looked through: those of the length that is given, or those of the
settings. -/
def minutesOf (settings : Settings) (horizon : Option String) : Except Fault Int :=
  match horizon with
  | none | some "" => .ok settings.scheduler.horizon.minutes
  | some text => (Duration.ofText text).map Duration.minutes

/-- The next runs of an expression. An amount that is withheld is found out only when runs are to
be counted. -/
def next (machine : Machine) (settings : Settings) (expression : String) (count : Amount)
    (zone horizon : Option String) : Except Fault Report :=
  reportOf do
    let minutes ← minutesOf settings horizon
    let runs := fun n : Int => upcomingRuns machine.clocks expression machine.now n minutes
      (givenOr zone settings.scheduler.timezone)
    match count with
    | .unsaid => (runs settings.scheduler.defaultCount).map runText
    | .number n => (runs n).map runText
    | .withheld => do
      let _ ← runs 0
      .error .wrongKind

def build (machine : Machine) (settings : Settings) (zone : Option String)
    (answers : List (Option String)) : Except Fault Report := do
  let outcome ← Wizard.hold machine.clocks machine.now
    (givenOr zone settings.scheduler.timezone) Wizard.defaultCount answers
  .ok outcome.report

/-- The report on a command, where `answers` are those of the dialogue. Requests are not served
here. -/
def run (isDirectory : Path → Bool) (machine : Machine) (answers : List (Option String))
    (invocation : Invocation) : Except Fault Report :=
  match invocation.command with
  | .explain expression => explain expression
  | .next expression count zone horizon => do
    let settings ← settingsOf isDirectory machine invocation.home
    next machine settings expression count zone horizon
  | .build zone => do
    let settings ← settingsOf isDirectory machine invocation.home
    build machine settings zone answers
  | .serve _ => .ok (.failed "Requests are served by another program.")

def usageExit : Nat := 2

def runWordsIn (isDirectory : Path → Bool) (machine : Machine) (answers : List (Option String))
    (words : List String) : Except Fault Report :=
  match parse words with
  | .ok invocation => run isDirectory machine answers invocation
  | .error (.help text) => .ok (.done text)
  | .error .usage => .ok ⟨usageExit, "", programUsage ++ "\n"⟩

def runWords (machine : Machine) (answers : List (Option String)) (words : List String) :
    Except Fault Report := runWordsIn machine.holds machine answers words

end Cron.CommandLine
