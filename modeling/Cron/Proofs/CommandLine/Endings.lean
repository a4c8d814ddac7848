import Cron.Proofs.CommandLine.Messages
import Cron.Proofs.Runs.Middle
import Cron.Proofs.Runs.Upcoming
import Cron.Proofs.Schedule.Breakdown
import Cron.Proofs.Settings.Layers

/-!
How the commands that explain an expression and list its runs end. Either command is done, or fails
with one line that says why and prints nothing else, unless it meets a fault that has no message. A
command reads the horizon first, then the expression, then the zone; the runs are looked for last.
-/
namespace Cron.CommandLine

open Text

variable {α : Type} {p : Prop} {machine : Machine} {settings : Settings} {homeZone : Zone}

/-- The number of runs that an amount asks for. -/
def Amount.wanted? (settings : Settings) : Amount → Option Int
  | unsaid => some settings.scheduler.defaultCount
  | withheld => none
  | number n => some n

theorem next_eq (machine : Machine) (settings : Settings) (expression : String) (count : Amount)
    (zone horizon : Option String) :
    next machine settings expression count zone horizon = reportOf (do
      let minutes ← minutesOf settings horizon
      let runs ← upcomingRuns machine.clocks expression machine.now
        ((count.wanted? settings).getD 0) minutes (givenOr zone settings.scheduler.timezone)
      if count = .withheld then .error .wrongKind else .ok (runText runs)) := by
  have hmap : ∀ {x : Except Fault (List ShownRun)}, count ≠ .withheld → x.map runText =
      (x >>= fun runs => if count = .withheld then .error .wrongKind else .ok (runText runs)) := by
    intro x hcount
    simp only [if_neg hcount]
    cases x <;> rfl
  unfold next
  congr 2
  funext minutes
  cases count with
  | unsaid => exact hmap (by simp)
  | withheld => rfl
  | number n => exact hmap (by simp)

end Cron.CommandLine
