import Cron.Duration

/-!
The settings of the program, with the values that hold where nothing is said.
-/
namespace Cron

/-- How far ahead runs are looked for: a text, and the length of time that it gives. -/
structure Horizon where
  text : String
  length : Duration
  valid : (Duration.ofText text).toOption = some length

namespace Horizon

def minutes (horizon : Horizon) : Int := horizon.length.minutes

def ofText (s : String) : Except Fault Horizon :=
  match h : Duration.ofText s with
  | .ok length => .ok ⟨s, length, by rw [h]; rfl⟩
  | .error fault => .error fault

def year : Horizon where
  text := "365d"
  length := ⟨31536000, by decide, by decide⟩
  valid := by decide +kernel

end Horizon

/-- Where requests are taken. -/
structure ServerSettings where
  host : String
  portNumber : Int

/-- How runs are looked for. At least one run has to be allowed. -/
structure SchedulerSettings where
  timezone : String
  defaultCount : Nat
  maxCount : Nat
  one_le_maxCount : 1 ≤ maxCount
  horizon : Horizon

/-- The settings of the program. -/
structure Settings where
  homeDir : String
  server : ServerSettings
  scheduler : SchedulerSettings
  logLevel : String

def ServerSettings.initial : ServerSettings := ⟨"127.0.0.1", 8321⟩

def SchedulerSettings.initial : SchedulerSettings := ⟨"local", 10, 100, by decide, .year⟩

/-- The settings where nothing is said but the home directory. -/
def Settings.initial (homeDir : String) : Settings := ⟨homeDir, .initial, .initial, "INFO"⟩

end Cron
