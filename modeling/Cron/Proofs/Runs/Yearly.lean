import Cron.Proofs.Calendar.Dates
import Cron.Proofs.Runs.Wall
import Cron.Proofs.Schedule.Breakdown

/-!
The default horizon and schedules that run every year. The horizon is a year of 365 days, and a
schedule that has one date only may have its next run 366 days later. No other schedule that runs
every year has a longer gap between its runs than the horizon.
-/
namespace Cron

namespace WallTime

variable {v w : WallTime}

theorem dayCount_eq (w : WallTime) : w.dayCount = w.minutes / 1440 := by
  rw [dayCount, minutes]
  omega

theorem toDay_date (w : WallTime) : w.date.toDay = w.dayCount := (Date.ofDay_spec w.dayCount).2.2

theorem exists_onDay (v : WallTime) {n : Nat} (h : n < calendarDays) :
    ∃ w : WallTime, w.dayCount = n ∧ w.hour = v.hour ∧ w.minute = v.minute ∧
      w.minutes = 1440 * n + v.minutes % 1440 := by
  have hmicros : 86400000000 * n + v.micros % 86400000000 < calendarMicros := by
    have hcalendar : calendarMicros = calendarDays * 86400000000 := rfl
    omega
  obtain ⟨w, hw⟩ : ∃ w : WallTime, w.micros = 86400000000 * n + v.micros % 86400000000 :=
    ⟨⟨_, hmicros⟩, rfl⟩
  refine ⟨w, ?_, ?_, ?_, ?_⟩
  · rw [dayCount]
    omega
  · rw [hour, hour]
    omega
  · rw [minute, minute, minutes, minutes]
    omega
  · rw [minutes, minutes]
    omega

theorem minutes_eq (w : WallTime) : w.minutes = 1440 * w.dayCount + 60 * w.hour + w.minute := by
  rw [minute, hour, dayCount, minutes]
  omega

-- What a schedule looks at is the same at all times of a minute.
theorem floorMinute_same (w : WallTime) :
    w.floorMinute.dayCount = w.dayCount ∧ w.floorMinute.hour = w.hour ∧
      w.floorMinute.minutes = w.minutes := by
  simp only [floorMinute, dayCount, hour, minutes]
  omega

theorem minutes_lt_of_year_lt (h : v.date.year < w.date.year) : v.minutes < w.minutes := by
  by_contra hle
  have hday : w.dayCount ≤ v.dayCount := by
    rw [dayCount_eq, dayCount_eq]
    exact Nat.div_le_div_right (Nat.le_of_not_lt hle)
  exact Nat.not_le_of_lt h (Date.yearOfDay_mono hday)

end WallTime

namespace Schedule

/-- Whether a schedule runs in every year of the calendar. -/
def RunsEveryYear (s : Schedule) : Prop :=
  ∀ year, 1 ≤ year → year ≤ 9999 → ∃ w : WallTime, w.date.year = year ∧ s.matchesTime w = true

/-- Whether a schedule has runs on a day. -/
def HasDay (s : Schedule) (n : Nat) : Prop :=
  s.month.admits (Date.ofDay n).month = true ∧
    s.matchesDay (Date.ofDay n).day (Date.weekdayOfDay n) = true

/-- Whether the days of the month are restricted, and those of the week are not. -/
def IsMonthly (s : Schedule) : Prop :=
  s.dayOfMonth.isRestricted = true ∧ s.dayOfWeek.isRestricted = false

/-- No run is due after a wall time, within the default horizon. -/
def NoneWithin (s : Schedule) (start : WallTime) : Prop :=
  ∀ w : WallTime, s.matchesTime w = true → start.minutes < w.minutes →
    start.minutes + defaultMinutes < w.minutes

/-- A schedule runs on one date of the year only. A start is not before its last run in one year
and is more than the default horizon before its first run in the next, 366 days later. -/
def Overleaps (s : Schedule) (start : WallTime) : Prop :=
  ∃ year month day, 1 ≤ year ∧ year < 9999 ∧
    (∀ w : WallTime, s.matchesTime w = true → w.date.month = month ∧ w.date.day = day) ∧
    (Date.mk (year + 1) month day).toDay = (Date.mk year month day).toDay + 366 ∧
    ∀ w : WallTime, s.matchesTime w = true →
      (w.date.year = year → w.minutes ≤ start.minutes) ∧
      (w.date.year = year + 1 → start.minutes + defaultMinutes < w.minutes)

variable {s : Schedule} {expression : String} {start : Moment} {v w : WallTime}
  {n first month day : Nat}

theorem matchesTime_iff :
    s.matchesTime w = true ↔
      (s.minute.admits w.minute = true ∧ s.hour.admits w.hour = true) ∧ s.HasDay w.dayCount := by
  simp only [matchesTime, Bool.and_eq_true]
  rfl

theorem matchesTime_floorMinute (s : Schedule) (w : WallTime) :
    s.matchesTime w.floorMinute = s.matchesTime w := by
  obtain ⟨hday, hhour, hminutes⟩ := w.floorMinute_same
  simp only [matchesTime, WallTime.minute, WallTime.date, WallTime.weekday, hday, hhour, hminutes]

theorem exists_match_onDay (hv : s.matchesTime v = true) (hn : n < calendarDays)
    (hday : s.HasDay n) :
    ∃ w : WallTime, s.matchesTime w = true ∧ w.minutes = 1440 * n + v.minutes % 1440 := by
  obtain ⟨w, hcount, hhour, hminute, hminutes⟩ := v.exists_onDay hn
  refine ⟨w, ?_, hminutes⟩
  rw [matchesTime_iff] at hv ⊢
  rw [hcount, hhour, hminute]
  exact ⟨hv.1, hday⟩

/-! The next run, if there is one within the default horizon. -/

-- Two years before its end the calendar has room for the horizon.
theorem micros_add_lt (h : w.date.year < 9998) :
    w.micros + 60000000 * 525601 < calendarMicros := by
  have hbounds := (Date.yearOfDay_bounds w.dayCount).2
  have hmono := Date.daysBeforeYear_mono (show 1 ≤ w.date.year + 1 by omega)
    (show w.date.year + 1 ≤ 9998 by omega)
  have hlast : Date.daysBeforeYear 9998 = 3651329 := by decide
  have hyear : Date.yearOfDay w.dayCount = w.date.year := rfl
  rw [hyear] at hbounds
  rw [hlast] at hmono
  have hday : w.dayCount < 3651329 := hbounds.trans_le hmono
  have hcalendar : calendarMicros = 3652059 * 86400000000 := rfl
  rw [WallTime.dayCount] at hday
  omega

-- The minutes of the horizon have no match exactly if no wall time within them has.
theorem filter_minutesFrom_eq_nil_iff {start first : WallTime}
    (hfirst : start.floorMinute.nextMinute? = some first) :
    (first.minutesFrom defaultMinutes.toNat).filter s.sieve.passes = [] ↔ s.NoneWithin start := by
  have hmicros := WallTime.micros_of_nextMinute? hfirst
  have hminutes : defaultMinutes = defaultMinutes.toNat := rfl
  rw [List.filter_eq_nil_iff]
  simp only [passes_sieve, WallTime.mem_minutesFrom]
  rw [NoneWithin, hminutes]
  generalize defaultMinutes.toNat = minutes
  constructor
  · intro hnone w hw hafter
    by_contra hwithin
    refine hnone w.floorMinute ⟨w.minutes - start.minutes - 1, by omega, ?_⟩ ?_
    · rw [hmicros]
      simp only [WallTime.floorMinute]
      omega
    · rwa [matchesTime_floorMinute]
  · rintro hnone w ⟨k, hk, hk'⟩ hw
    have hlater : w.minutes = start.minutes + 1 + k := by
      simp only [WallTime.floorMinute, WallTime.minutes] at *
      omega
    have hlate := hnone w hw (by omega)
    omega

theorem nextRuns_eq_take {first : WallTime} {count minutes : Int} (hz : start.zone = none)
    (hc : 1 ≤ count) (hm : 1 ≤ minutes) (hfirst : start.wall.floorMinute.nextMinute? = some first)
    (hend : first.micros + 60000000 * minutes.toNat < calendarMicros) :
    s.nextRuns start count minutes =
      .ok ((((first.minutesFrom minutes.toNat).filter s.sieve.passes).take count.toNat).map
        .ofWall) := by
  rw [nextRuns, if_neg (by omega), hfirst, hz]
  exact wallRuns_eq [] (by omega) hend

theorem exists_nextRun_default (hs : ofExpression expression = .ok s) (hz : start.zone = none)
    (hstart : start.wall.date.year < 9998) :
    ∃ run, nextRun expression start defaultMinutes = .ok run ∧
      (run = none ↔ s.NoneWithin start.wall) := by
  have hroom := micros_add_lt hstart
  have hfloor : start.wall.floorMinute.micros ≤ start.wall.micros := Nat.mul_div_le _ _
  obtain ⟨first, hfirst⟩ := WallTime.exists_nextMinute? (w := start.wall.floorMinute) (by omega)
  have hmicros := WallTime.micros_of_nextMinute? hfirst
  have hend : first.micros + 60000000 * defaultMinutes.toNat < calendarMicros := by
    have hminutes : defaultMinutes.toNat = 525600 := rfl
    omega
  have hruns := nextRuns_eq_take (s := s) hz (Int.le_refl 1)
    (show 1 ≤ defaultMinutes by decide) hfirst hend
  have hnone := filter_minutesFrom_eq_nil_iff (s := s) hfirst
  generalize (first.minutesFrom defaultMinutes.toNat).filter s.sieve.passes = due at hruns hnone
  have hrun : nextRun expression start defaultMinutes =
      .ok ((due.take 1).map Moment.ofWall).head? := by
    rw [nextRun, hs, ok_bind, hruns]
    rfl
  refine ⟨_, hrun, ?_⟩
  rw [← hnone]
  cases due <;> simp

/-! Days with runs among 365 in a row. -/

-- Unless the days of the month alone are restricted, every week within a month has runs.
theorem exists_hasDay_of_not_monthly (hs : s.IsSound) (hopen : ¬ s.IsMonthly) (hlo : 1 ≤ month)
    (hhi : month ≤ 12) (hmonth : s.month.admits month = true) (first : Nat) :
    ∃ n, first ≤ n ∧ n < first + 365 ∧ s.HasDay n := by
  have hweek : s.dayOfWeek.IsSound := hs.field .dayOfWeek
  have hname : s.dayOfWeek.name = .dayOfWeek := hs.name_eq .dayOfWeek
  obtain ⟨weekday, hmem⟩ := List.exists_mem_of_ne_nil _ hweek.nonempty
  have hlt : weekday < 7 := by
    have hle := (hweek.within weekday hmem).2
    rw [hname] at hle
    exact Nat.lt_succ_of_le hle
  have hadmits : s.dayOfWeek.admits weekday = true := List.contains_iff_mem.2 hmem
  obtain ⟨n, hfirst, hlast, hmonths⟩ := Date.exists_week hlo hhi first
  obtain ⟨k, hk, hk', hweekday⟩ := Date.exists_weekdayOfDay_eq hlt n
  refine ⟨k, hfirst.trans hk, by omega, ?_, ?_⟩
  · rwa [hmonths k hk hk']
  · rw [matchesDay, hweekday, hadmits]
    cases hdays : s.dayOfMonth.isRestricted <;> cases hweekdays : s.dayOfWeek.isRestricted <;>
      simp_all [dayRule, IsMonthly]

theorem IsMonthly.hasDay_iff (h : s.IsMonthly) (n : Nat) :
    s.HasDay n ↔ s.month.admits (Date.ofDay n).month = true ∧
      s.dayOfMonth.admits (Date.ofDay n).day = true := by
  simp [HasDay, matchesDay, dayRule, h.1, h.2]

section Missed
variable (hmissed : ∀ n, first ≤ n → n < first + 365 → ¬ s.HasDay n)
include hmissed

theorem isMonthly_of_missed (hs : s.IsSound) (hday : s.HasDay n) : s.IsMonthly := by
  by_contra hopen
  have hmonth := Date.ofDay_month_bounds n
  obtain ⟨k, hlo, hhi, hhas⟩ :=
    exists_hasDay_of_not_monthly hs hopen hmonth.1 hmonth.2 hday.1 first
  exact hmissed k hlo hhi hhas

-- A date that is missed by 365 days in a row lies right before and right after them.
theorem IsMonthly.exists_gap (h : s.IsMonthly) (hdate : Date.IsYearly month day)
    (hmonth : s.month.admits month = true) (hday : s.dayOfMonth.admits day = true) :
    ∃ year, 1 ≤ year ∧ (Date.mk year month day).toDay + 1 = first ∧
      (Date.mk (year + 1) month day).toDay = first + 365 ∧
      ∃ leap, 1 ≤ leap ∧ Date.isLeapYear leap = true ∧ first ≤ (Date.mk leap 2 29).toDay ∧
        (Date.mk leap 2 29).toDay < first + 365 := by
  obtain ⟨year, hy, ⟨hlo, hhi⟩ | hgap⟩ := hdate.exists_year first
  · have hhas : s.HasDay (Date.mk year month day).toDay := by
      rw [h.hasDay_iff, Date.ofDay_toDay hy (hdate.isValid year)]
      exact ⟨hmonth, hday⟩
    exact absurd hhas (hmissed _ hlo hhi)
  · exact ⟨year, hy, hgap⟩

-- There is one such date only: another would have to be missed as well, and so would the leap day.
theorem IsMonthly.date_eq (h : s.IsMonthly) (hdate : Date.IsYearly month day)
    (hmonth : s.month.admits month = true) (hday : s.dayOfMonth.admits day = true)
    (hn : s.HasDay n) : (Date.ofDay n).month = month ∧ (Date.ofDay n).day = day := by
  obtain ⟨year, hy, hbefore, -, leap, hleap, hisLeap, hlo, hhi⟩ :=
    h.exists_gap hmissed hdate hmonth hday
  rw [h.hasDay_iff] at hn
  rcases Date.isYearly_or_leap (Date.ofDay_spec n).2.1 with hyearly | ⟨htwo, hlast, -⟩
  · obtain ⟨other, hy', hbefore', -⟩ := h.exists_gap hmissed hyearly hn.1 hn.2
    have hsame : (Date.mk other (Date.ofDay n).month (Date.ofDay n).day).toDay =
        (Date.mk year month day).toDay := by
      omega
    have hdates := congrArg Date.ofDay hsame
    rw [Date.ofDay_toDay hy' (hyearly.isValid other), Date.ofDay_toDay hy (hdate.isValid year)]
      at hdates
    injection hdates with _ hmonths hdays
    exact ⟨hmonths, hdays⟩
  · rw [htwo, hlast] at hn
    have hhas : s.HasDay (Date.mk leap 2 29).toDay := by
      rw [h.hasDay_iff, Date.ofDay_toDay hleap (Date.isValid_leapDay hisLeap)]
      exact hn
    exact absurd hhas (hmissed _ hlo hhi)

end Missed

-- At one time of the day, the horizon takes in 365 days.
theorem exists_first_day (start : WallTime) {time : Nat} (htime : time < 1440) :
    ∃ first, start.dayCount ≤ first ∧ first ≤ start.dayCount + 1 ∧
      ∀ n, first ≤ n → n < first + 365 →
        start.minutes < 1440 * n + time ∧ 1440 * n + time ≤ start.minutes + defaultMinutes := by
  have hday := start.dayCount_eq
  rw [defaultMinutes]
  by_cases hlater : start.minutes % 1440 < time
  · exact ⟨start.dayCount, by omega, by omega, fun n hlo hhi => ⟨by omega, by omega⟩⟩
  · exact ⟨start.dayCount + 1, by omega, by omega, fun n hlo hhi => ⟨by omega, by omega⟩⟩

theorem exists_missed {start : WallTime} (hstart : start.date.year < 9998)
    (hnone : s.NoneWithin start) (hv : s.matchesTime v = true) :
    ∃ first, start.dayCount ≤ first ∧ first ≤ start.dayCount + 1 ∧
      ∀ n, first ≤ n → n < first + 365 → ¬ s.HasDay n := by
  obtain ⟨first, hlo, hhi, hwindow⟩ :=
    exists_first_day start (Nat.mod_lt v.minutes (show 0 < 1440 by decide))
  refine ⟨first, hlo, hhi, fun n hn hn' hday => ?_⟩
  have hcalendar : n < calendarDays := by
    have hroom := micros_add_lt hstart
    have hmicros : calendarMicros = calendarDays * 86400000000 := rfl
    rw [WallTime.dayCount] at hhi
    omega
  obtain ⟨w, hw, hminutes⟩ := exists_match_onDay hv hcalendar hday
  have hinside := hwindow n hn hn'
  have houtside := hnone w hw (by omega)
  omega

-- Year one is no leap year, so its dates come every year.
theorem isYearly_of_year_eq_one (h : w.date.year = 1) : Date.IsYearly w.date.month w.date.day := by
  refine (Date.isYearly_or_leap (Date.ofDay_spec w.dayCount).2.1).resolve_right ?_
  rintro ⟨-, -, hleap⟩
  change Date.isLeapYear w.date.year = true at hleap
  rw [h] at hleap
  cases hleap

theorem overleaps_of_noneWithin {start : WallTime} (hs : s.IsSound) (hyears : s.RunsEveryYear)
    (hstart : start.date.year < 9998) (hnone : s.NoneWithin start) : s.Overleaps start := by
  obtain ⟨v, hfirstYear, hv⟩ := hyears 1 (Nat.le_refl 1) (by decide)
  obtain ⟨first, hlo, hhi, hmissed⟩ := exists_missed hstart hnone hv
  have hday := (matchesTime_iff.1 hv).2
  have hmonthly := isMonthly_of_missed hmissed hs hday
  have hadmits := (hmonthly.hasDay_iff v.dayCount).1 hday
  have hyearly := isYearly_of_year_eq_one hfirstYear
  obtain ⟨year, hy, hbefore, hafter, -⟩ :=
    hmonthly.exists_gap hmissed hyearly hadmits.1 hadmits.2
  have hdate : ∀ w : WallTime, s.matchesTime w = true →
      w.date.month = v.date.month ∧ w.date.day = v.date.day := fun w hw =>
    hmonthly.date_eq hmissed hyearly hadmits.1 hadmits.2 (matchesTime_iff.1 hw).2
  have hcount : ∀ w : WallTime, s.matchesTime w = true →
      w.minutes / 1440 = (Date.mk w.date.year v.date.month v.date.day).toDay := by
    intro w hw
    rw [← (hdate w hw).1, ← (hdate w hw).2, ← w.dayCount_eq]
    exact w.toDay_date.symm
  have hstartDay := start.dayCount_eq
  refine ⟨year, v.date.month, v.date.day, hy, ?_, hdate, by omega, fun w hw => ⟨?_, ?_⟩⟩
  · have hmono := Date.yearOfDay_mono
      (show (Date.mk year v.date.month v.date.day).toDay ≤ start.dayCount by omega)
    rw [Date.yearOfDay_toDay hy (hyearly.isValid year)] at hmono
    change year ≤ start.date.year at hmono
    omega
  · intro hyear
    have hminutes := hcount w hw
    rw [hyear] at hminutes
    by_contra hlate
    have houtside := hnone w hw (Nat.lt_of_not_le hlate)
    rw [defaultMinutes] at houtside
    omega
  · intro hyear
    have hminutes := hcount w hw
    rw [hyear] at hminutes
    exact hnone w hw (by omega)

-- Runs of earlier years come before those of the one year, and runs of later years after the next.
theorem noneWithin_of_overleaps {start : WallTime} (hyears : s.RunsEveryYear)
    (h : s.Overleaps start) : s.NoneWithin start := by
  obtain ⟨year, month, day, hlo, hhi, -, -, hruns⟩ := h
  obtain ⟨u, huyear, hu⟩ := hyears year hlo (by omega)
  obtain ⟨v, hvyear, hv⟩ := hyears (year + 1) (by omega) (by omega)
  have hbefore := (hruns u hu).1 huyear
  have hafter := (hruns v hv).2 hvyear
  intro w hw hlate
  rcases Nat.lt_trichotomy w.date.year year with hlt | heq | hgt
  · have hless := WallTime.minutes_lt_of_year_lt (v := w) (w := u) (by omega)
    omega
  · have hearly := (hruns w hw).1 heq
    omega
  · rcases Nat.eq_or_lt_of_le (Nat.succ_le_of_lt hgt) with hnext | hmore
    · exact (hruns w hw).2 hnext.symm
    · have hless := WallTime.minutes_lt_of_year_lt (v := v) (w := w) (by omega)
      omega

/-! Midnight of the first of January. -/

def yearly : Schedule :=
  ⟨"0 0 1 1 *", .ofValues .minute [0] false, .ofValues .hour [0] false,
    .ofValues .dayOfMonth [1] false, .ofValues .month [1] false, .wildcard .dayOfWeek⟩

theorem ofExpression_yearly : ofExpression "@yearly" = .ok yearly := by decide

theorem matchesTime_yearly_iff :
    yearly.matchesTime w = true ↔
      (w.minute = 0 ∧ w.hour = 0) ∧ w.date.month = 1 ∧ w.date.day = 1 := by
  simp [matchesTime, matchesDay, yearly, Field.admits, dayRule, Field.isRestricted,
    Field.wildcard]

theorem minutes_of_matchesTime_yearly (h : yearly.matchesTime w = true) :
    w.minutes = 1440 * Date.daysBeforeYear w.date.year := by
  obtain ⟨⟨hminute, hhour⟩, hmonth, hday⟩ := matchesTime_yearly_iff.1 h
  have hcount := w.toDay_date
  rw [Date.toDay, hmonth, hday] at hcount
  rw [w.minutes_eq, hminute, hhour, ← hcount]
  rfl

theorem runsEveryYear_yearly : yearly.RunsEveryYear := by
  intro year hlo hhi
  have hnewYear : Date.IsYearly 1 1 := by
    rw [Date.IsYearly]
    decide
  have hdate := Date.ofDay_toDay hlo (hnewYear.isValid year)
  have hmono := Date.daysBeforeYear_mono hlo hhi
  have hlast : Date.daysBeforeYear 9999 < calendarDays := by decide
  have hcount : (Date.mk year 1 1).toDay = Date.daysBeforeYear year := rfl
  have hday : yearly.HasDay (Date.mk year 1 1).toDay := by
    rw [IsMonthly.hasDay_iff ⟨rfl, rfl⟩, hdate]
    exact ⟨rfl, rfl⟩
  have hmidnight : yearly.matchesTime default = true := by decide
  obtain ⟨w, hw, hminutes⟩ := exists_match_onDay hmidnight (by omega) hday
  refine ⟨w, ?_, hw⟩
  have hsame : w.dayCount = (Date.mk year 1 1).toDay := by
    have hcount := w.dayCount_eq
    have hlt := Nat.mod_lt (default : WallTime).minutes (show 0 < 1440 by decide)
    omega
  rw [WallTime.date, hsame, hdate]

theorem overleaps_yearly {start : WallTime}
    (h : start.minutes = 1440 * Date.daysBeforeYear 2028) : yearly.Overleaps start := by
  refine ⟨2028, 1, 1, by decide, by decide, ?_, by decide, ?_⟩
  · intro w hw
    exact (matchesTime_yearly_iff.1 hw).2
  · intro w hw
    have hminutes := minutes_of_matchesTime_yearly hw
    have hgap : Date.daysBeforeYear (2028 + 1) = Date.daysBeforeYear 2028 + 366 := by decide
    rw [h, defaultMinutes]
    constructor
    · intro hyear
      rw [hminutes, hyear]
    · intro hyear
      rw [hyear] at hminutes
      omega

/-- The next run of a schedule that runs every year is found within the default horizon, from every
start without a zone before the last two years, unless the schedule has one date only and the start
lies between that date and its return after 366 days, more than the horizon before it. -/
theorem nextRun_default_eq_none_iff (hs : ofExpression expression = .ok s)
    (hyears : s.RunsEveryYear) (hz : start.zone = none) (hstart : start.wall.date.year < 9998) :
    ∃ run, nextRun expression start defaultMinutes = .ok run ∧
      (run = none ↔ s.Overleaps start.wall) := by
  obtain ⟨text, hparse⟩ := exists_parse_of_ofExpression hs
  have hsound := isSound_of_parse hparse
  obtain ⟨run, hrun, hnone⟩ := exists_nextRun_default hs hz hstart
  refine ⟨run, hrun, hnone.trans ⟨?_, ?_⟩⟩
  · exact overleaps_of_noneWithin hsound hyears hstart
  · exact noneWithin_of_overleaps hyears

/-- From noon of an autumn day. -/
theorem nextRun_default_eq_none_iff_yearly :
    let start := Moment.ofWall ⟨(86400 * Date.toDay ⟨2026, 10, 17⟩ + 43200) * 1000000, by decide⟩
    ofExpression "@yearly" = .ok yearly ∧ yearly.RunsEveryYear ∧ start.zone = none ∧
      start.wall.date.year < 9998 ∧
      ∃ run, nextRun "@yearly" start defaultMinutes = .ok run ∧
        (run = none ↔ yearly.Overleaps start.wall) := by
  intro start
  have hstart : start.wall.date.year < 9998 := by decide
  exact ⟨ofExpression_yearly, runsEveryYear_yearly, rfl, hstart,
    nextRun_default_eq_none_iff ofExpression_yearly runsEveryYear_yearly rfl hstart⟩

/-- From midnight of the first day of a leap year, midnight of the next year's first day is beyond
the default horizon. -/
theorem nextRun_yearly_eq_none :
    let start := Moment.ofWall ⟨86400 * Date.toDay ⟨2028, 1, 1⟩ * 1000000, by decide⟩
    ofExpression "@yearly" = .ok yearly ∧ yearly.RunsEveryYear ∧ start.zone = none ∧
      start.wall.date.year < 9998 ∧ nextRun "@yearly" start defaultMinutes = .ok none := by
  intro start
  have hstart : start.wall.date.year < 9998 := by decide
  have hgap : yearly.Overleaps start.wall := overleaps_yearly (by decide)
  have hnone := noneWithin_of_overleaps runsEveryYear_yearly hgap
  obtain ⟨run, hrun, hiff⟩ := exists_nextRun_default ofExpression_yearly rfl hstart
  rw [hiff.2 hnone] at hrun
  exact ⟨ofExpression_yearly, runsEveryYear_yearly, rfl, hstart, hrun⟩

end Schedule

end Cron
