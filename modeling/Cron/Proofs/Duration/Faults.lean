import Cron.CommandLine.Run
import Cron.Proofs.Duration.Minutes
import Cron.Proofs.Settings.Sections

/-!
What a text of a length is refused for. Besides the faults of its form there are two, each met once
the form is right: a long s that passes for a unit, and a length beyond all lengths. The settings
and the command line expect faults of the form alone, so either of the two ends them.
-/
namespace Cron

namespace Duration

/-- Texts of a number with a long s behind it, where a unit is looked for. -/
def PassesForUnit (s : String) : Prop := ∃ n, IsMarked s.toList n (some 'ſ')

/-- Texts of a number of units that is beyond all lengths. -/
def IsBeyond (s : String) : Prop :=
  ∃ n mark seconds, IsMarked s.toList n mark ∧ IsUnit mark seconds ∧ 86400000000000 ≤ n * seconds

variable {s : String}

theorem ofText_of_isBeyond (h : IsBeyond s) : ofText s = .error .beyondRange := by
  obtain ⟨n, mark, seconds, hmarked, hunit, hbeyond⟩ := h
  rw [ofText_of_isUnit hmarked hunit, ofSeconds, dif_neg]
  omega

-- The two faults beside those of the form, and that there are no others.
theorem ofText_faults (s : String) :
    (¬ PassesForUnit s ∧ ¬ IsBeyond s ∧
        ((∃ d, ofText s = .ok d) ∨ ∃ error, ofText s = .error (.input error))) ∨
      (PassesForUnit s ∧ ofText s = .error (.unknownName "ſ")) ∨
      IsBeyond s ∧ ofText s = .error .beyondRange := by
  have hneither : ∀ {x}, ofText s = x → x ≠ .error (.unknownName "ſ") → x ≠ .error .beyondRange →
      ¬ PassesForUnit s ∧ ¬ IsBeyond s := by
    rintro x rfl hname hrange
    exact ⟨fun ⟨n, h⟩ => hname (ofText_of_long_s h), fun h => hrange (ofText_of_isBeyond h)⟩
  rcases ofText_cases s with ⟨error, herror⟩ | ⟨n, mark, seconds, hmarked, hunit⟩ | ⟨n, hmarked⟩
  · obtain ⟨hpasses, hbeyond⟩ := hneither herror (by simp) (by simp)
    exact .inl ⟨hpasses, hbeyond, .inr ⟨error, herror⟩⟩
  · rcases Nat.lt_or_ge (n * seconds) 86400000000000 with hroom | hroom
    · have hread : ∃ d, ofText s = .ok d := by
        rw [ofText_of_isUnit hmarked hunit, ofSeconds, dif_pos (by omega)]
        exact ⟨_, rfl⟩
      obtain ⟨d, hd⟩ := hread
      obtain ⟨hpasses, hbeyond⟩ := hneither hd (by simp) (by simp)
      exact .inl ⟨hpasses, hbeyond, .inl ⟨d, hd⟩⟩
    · have hbeyond : IsBeyond s := ⟨n, mark, seconds, hmarked, hunit, hroom⟩
      exact .inr (.inr ⟨hbeyond, ofText_of_isBeyond hbeyond⟩)
  · exact .inr (.inl ⟨⟨n, hmarked⟩, ofText_of_long_s hmarked⟩)

theorem ofText_isOk_or_input_iff :
    ((∃ d, ofText s = .ok d) ∨ ∃ error, ofText s = .error (.input error)) ↔
      ¬ PassesForUnit s ∧ ¬ IsBeyond s := by
  rcases ofText_faults s with ⟨hpasses, hbeyond, hread⟩ | ⟨hpasses, hread⟩ | ⟨hbeyond, hread⟩
  · exact iff_of_true hread ⟨hpasses, hbeyond⟩
  · exact iff_of_false (by simp [hread]) fun h => h.1 hpasses
  · exact iff_of_false (by simp [hread]) fun h => h.2 hbeyond

theorem passesForUnit_iff : PassesForUnit s ↔ ofText s = .error (.unknownName "ſ") := by
  constructor
  · rintro ⟨n, h⟩
    exact ofText_of_long_s h
  · intro h
    rcases ofText_faults s with ⟨-, -, hread⟩ | ⟨hpasses, -⟩ | ⟨-, hread⟩
    · simp [h] at hread
    · exact hpasses
    · simp [h] at hread

theorem isBeyond_iff : IsBeyond s ↔ ofText s = .error .beyondRange := by
  constructor
  · exact ofText_of_isBeyond
  · intro h
    rcases ofText_faults s with ⟨-, -, hread⟩ | ⟨-, hread⟩ | ⟨hbeyond, -⟩
    · simp [h] at hread
    · simp [h] at hread
    · exact hbeyond

end Duration

open Duration

variable {s : String} {fault : Fault}

namespace Settings

/-- A horizon that is right is kept, with the minutes that its text gives. -/
theorem readScheduler_put_horizon_iff (members : List (String × Json)) :
    ((∃ scheduler, readScheduler (Json.put "horizon" (.text s) members) = .ok scheduler ∧
          scheduler.horizon.text = s ∧
          (Duration.ofText s).map minutes = .ok scheduler.horizon.minutes) ∨
        ∃ refused, readScheduler (Json.put "horizon" (.text s) members) =
          .error (.settings refused)) ↔
      ¬ PassesForUnit s ∧ ¬ IsBeyond s := by
  have hother : ∀ {fault}, Duration.ofText s = .error fault → (∀ error, fault ≠ .input error) →
      (∀ refused, fault ≠ .settings refused) →
      readScheduler (Json.put "horizon" (.text s) members) = .error fault :=
    fun hread hinput hsettings =>
      readScheduler_of_error (readHorizon_of_error hread hinput) hsettings
  rcases ofText_faults s with ⟨hpasses, hbeyond, ⟨d, hd⟩ | ⟨error, herror⟩⟩ | ⟨hpasses, hread⟩ |
    ⟨hbeyond, hread⟩
  · refine iff_of_true ?_ ⟨hpasses, hbeyond⟩
    obtain ⟨horizon, hhorizon, rfl⟩ := readHorizon_of_ok ["scheduler"] members hd
    rcases readScheduler_of_ok hhorizon with ⟨scheduler, hscheduler, rfl⟩ | hrefused
    · exact .inl ⟨scheduler, hscheduler, rfl, scheduler.horizon.map_minutes_ofText⟩
    · exact .inr hrefused
  · refine iff_of_true (.inr ?_) ⟨hpasses, hbeyond⟩
    exact readScheduler_of_settings (readHorizon_of_input herror)
  · refine iff_of_false ?_ fun h => h.1 hpasses
    simp [hother hread (by simp) (by simp)]
  · refine iff_of_false ?_ fun h => h.2 hbeyond
    simp [hother hread (by simp) (by simp)]

end Settings

namespace CommandLine

variable {machine : Machine} {settings : Settings} {expression : String} {count : Amount}
  {zone : Option String}

theorem minutesOf_some (hs : s ≠ "") :
    minutesOf settings (some s) = (Duration.ofText s).map Duration.minutes := by
  unfold minutesOf
  split
  · next h => cases h
  · next h => exact absurd (Option.some.inj h) hs
  · next h =>
    cases h
    rfl

/-- A horizon of the command line counts like the same one in the settings. -/
theorem next_eq_withHorizon {horizon : Horizon} (hs : horizon.text ≠ "") :
    next machine settings expression count zone (some horizon.text) =
      next machine (settings.withHorizon horizon) expression count zone none := by
  rw [next, minutesOf_some hs, horizon.map_minutes_ofText]
  rfl

theorem next_of_input {error : InputError} (hs : s ≠ "")
    (h : Duration.ofText s = .error (.input error)) :
    next machine settings expression count zone (some s) = .ok (.failed error.message) := by
  rw [next, minutesOf_some hs, h]
  rfl

theorem next_of_error (hs : s ≠ "") (h : Duration.ofText s = .error fault)
    (hfault : fault.inputMessage? = none) :
    next machine settings expression count zone (some s) = .error fault := by
  rw [next, minutesOf_some hs, h]
  show reportOf (.error fault) = _
  rw [reportOf, hfault]

-- An expression without words is reported, whatever the horizon.
theorem exists_next_without_words (machine : Machine) (settings : Settings) :
    ∃ report, next machine settings "" .unsaid none none = .ok report := by
  have hrefused : Schedule.ofExpression "" = .error (.expression (.fieldCount 0)) := by
    decide
  have hruns : ∀ n minutes zone, upcomingRuns machine.clocks "" machine.now n minutes zone =
      .error (.expression (.fieldCount 0)) := by
    intro n minutes zone
    rw [upcomingRuns, hrefused]
    rfl
  refine ⟨.failed (ExpressionError.fieldCount 0).message, ?_⟩
  simp only [next, minutesOf, ok_bind, hruns]
  rfl

/-- The command fails as it does with a horizon that the settings hold. -/
theorem next_some_horizon_iff (machine : Machine) (settings : Settings) :
    (∀ expression count zone fault,
        next machine settings expression count zone (some s) = .error fault →
          ∃ horizon : Horizon, (s ≠ "" → horizon.text = s) ∧
            next machine (settings.withHorizon horizon) expression count zone none =
              .error fault) ↔
      ¬ PassesForUnit s ∧ ¬ IsBeyond s := by
  have hempty : Duration.ofText "" = .error (.input (.noDuration "''")) := by decide
  have hother : ∀ {fault}, Duration.ofText s = .error fault → fault.inputMessage? = none →
      ¬ ∀ expression count zone fault,
        next machine settings expression count zone (some s) = .error fault →
          ∃ horizon : Horizon, (s ≠ "" → horizon.text = s) ∧
            next machine (settings.withHorizon horizon) expression count zone none =
              .error fault := by
    intro fault hread hfault h
    have hs : s ≠ "" := by
      rintro rfl
      rw [hempty] at hread
      cases hread
      cases hfault
    obtain ⟨horizon, -, hnext⟩ := h "" .unsaid none fault (next_of_error hs hread hfault)
    obtain ⟨report, hreport⟩ := exists_next_without_words machine (settings.withHorizon horizon)
    rw [hreport] at hnext
    cases hnext
  rcases ofText_faults s with ⟨hpasses, hbeyond, hread⟩ | ⟨hpasses, hread⟩ | ⟨hbeyond, hread⟩
  · refine iff_of_true ?_ ⟨hpasses, hbeyond⟩
    intro expression count zone fault hnext
    by_cases hs : s = ""
    · subst hs
      exact ⟨settings.scheduler.horizon, fun h => absurd rfl h, hnext⟩
    · rcases hread with ⟨d, hd⟩ | ⟨error, herror⟩
      · obtain ⟨horizon, -, rfl⟩ := Horizon.ofText_of_ok hd
        exact ⟨horizon, fun _ => rfl, next_eq_withHorizon hs ▸ hnext⟩
      · rw [next_of_input hs herror] at hnext
        cases hnext
  · exact iff_of_false (hother hread rfl) fun h => h.1 hpasses
  · exact iff_of_false (hother hread rfl) fun h => h.2 hbeyond

end CommandLine

namespace Duration

/-- A text gives a length or is refused for its form, unless it holds a long s for a unit or gives
a length beyond all lengths. So it is with the minutes of the text; so with a section of the
settings, which keeps the text as its horizon or is refused; and so with a horizon of the command
line, which fails only as the same horizon of the settings does. Each of the two is refused with a
fault of its own. -/
theorem ofText_isExpected_iff (s : String) :
    (((∃ d, ofText s = .ok d) ∨ ∃ error, ofText s = .error (.input error)) ↔
      ¬ PassesForUnit s ∧ ¬ IsBeyond s) ∧
    (((∃ n, (ofText s).map minutes = .ok n) ∨
        ∃ error, (ofText s).map minutes = .error (.input error)) ↔
      ¬ PassesForUnit s ∧ ¬ IsBeyond s) ∧
    (∀ members : List (String × Json),
      ((∃ scheduler, Settings.readScheduler (Json.put "horizon" (.text s) members) =
              .ok scheduler ∧ scheduler.horizon.text = s ∧
            (ofText s).map minutes = .ok scheduler.horizon.minutes) ∨
          ∃ refused, Settings.readScheduler (Json.put "horizon" (.text s) members) =
            .error (.settings refused)) ↔
        ¬ PassesForUnit s ∧ ¬ IsBeyond s) ∧
    (∀ (machine : CommandLine.Machine) (settings : Settings),
      (∀ expression count zone fault,
          CommandLine.next machine settings expression count zone (some s) = .error fault →
            ∃ horizon : Horizon, (s ≠ "" → horizon.text = s) ∧
              CommandLine.next machine (settings.withHorizon horizon) expression count zone none =
                .error fault) ↔
        ¬ PassesForUnit s ∧ ¬ IsBeyond s) ∧
    (PassesForUnit s ↔ ofText s = .error (.unknownName "ſ")) ∧
    (IsBeyond s ↔ ofText s = .error .beyondRange) := by
  refine ⟨ofText_isOk_or_input_iff, ?_, Settings.readScheduler_put_horizon_iff,
    CommandLine.next_some_horizon_iff, passesForUnit_iff, isBeyond_iff⟩
  rw [← ofText_isOk_or_input_iff]
  cases ofText s with
  | ok d => simp [Except.map]
  | error fault => simp [Except.map]

/-- A five with a long s is refused as an unknown name. -/
theorem not_isExpected_five_long_s :
    ofText "5ſ" = .error (.unknownName "ſ") ∧
      ¬ ((∃ d, ofText "5ſ" = .ok d) ∨ ∃ error, ofText "5ſ" = .error (.input error)) := by
  have hread : ofText "5ſ" = .error (.unknownName "ſ") := by decide
  simp [hread]

end Duration

end Cron
