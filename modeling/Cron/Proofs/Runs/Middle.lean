import Cron.Proofs.Calendar.Years
import Cron.Proofs.Moment.Localize
import Cron.Proofs.Runs.Calendar

/-!
Far from the ends of the calendar. A local wall time there is told to the clocks of every zone, and
a walk from there leaves the calendar only if it is to look through hundreds of years.
-/
namespace Cron

open Date

variable {home zone : Zone} {target : Option Zone} {w : WallTime} {m : Moment}

namespace Schedule

end Schedule

end Cron
