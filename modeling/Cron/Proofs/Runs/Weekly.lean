import Cron.Proofs.Runs.Calendar
import Cron.Proofs.Schedule.Breakdown

/-!
Weekly schedules. A schedule that restricts neither the days of the month nor the months looks at
the time of day and at the day of the week alone, and both come again after seven days. So two walks
that begin a week apart stay a week apart, minute by minute, whatever months and leap days lie
between.
-/
namespace Cron

namespace WallTime

/-- A wall time comes seven days after another. -/
def IsWeekAfter (later w : WallTime) : Prop := later.micros = w.micros + 604800000000

variable {later w next : WallTime}

theorem IsWeekAfter.time_eq (h : later.IsWeekAfter w) :
    later.minute = w.minute ∧ later.hour = w.hour := by
  rw [IsWeekAfter] at h
  simp only [minute, minutes, hour]
  omega

theorem IsWeekAfter.weekday_eq (h : later.IsWeekAfter w) : later.weekday = w.weekday := by
  have hdays : later.dayCount = w.dayCount + 7 := by
    rw [IsWeekAfter] at h
    simp only [dayCount]
    omega
  rw [weekday, weekday, hdays, Date.weekdayOfDay_add_seven]

theorem IsWeekAfter.floorMinute (h : later.IsWeekAfter w) :
    later.floorMinute.IsWeekAfter w.floorMinute := by
  simp only [IsWeekAfter, WallTime.floorMinute, minutes] at h ⊢
  omega

-- Where the later wall time has a next minute, so has the earlier one.
theorem IsWeekAfter.exists_nextMinute? (h : later.IsWeekAfter w)
    (hnext : later.nextMinute? = some next) :
    ∃ next', w.nextMinute? = some next' ∧ next.IsWeekAfter next' := by
  have hmicros := micros_of_nextMinute? hnext
  have hlt := next.lt
  rw [IsWeekAfter] at h
  obtain ⟨next', hnext'⟩ := WallTime.exists_nextMinute? (w := w) (by omega)
  have hmicros' := micros_of_nextMinute? hnext'
  refine ⟨next', hnext', ?_⟩
  rw [IsWeekAfter]
  omega

end WallTime

/-- A moment comes seven days after another on the same clocks. -/
structure Moment.IsWeekAfter (later m : Moment) : Prop where
  wall : later.wall.IsWeekAfter m.wall
  zone_eq : later.zone = m.zone
  second_eq : later.second = m.second

namespace Schedule

/-- A schedule that neither the day of the month nor the month restricts. -/
structure IsWeekly (s : Schedule) : Prop where
  days_open : s.dayOfMonth.isRestricted = false
  admits_month : ∀ month, 1 ≤ month → month ≤ 12 → s.month.admits month = true

variable {expression : String} {s : Schedule} {later candidate w : WallTime}

-- The day of the month is open exactly if its word is the bare star.
theorem dayOfMonth_of_star (hs : ofExpression expression = .ok s)
    (hday : s.tokens[2]? = some "*") : s.dayOfMonth = .wildcard .dayOfMonth := by
  obtain ⟨text, hparse⟩ := exists_parse_of_ofExpression hs
  have htokens := forall₂_tokens hparse
  obtain ⟨hi, hstar⟩ := List.getElem?_eq_some_iff.1 hday
  have hread := htokens.get (by decide) hi
  change Field.parse .dayOfMonth s.tokens[2] = .ok s.dayOfMonth at hread
  rw [hstar] at hread
  exact (Except.ok.inj hread).symm

theorem IsWeekly.matchesTime_eq (h : s.IsWeekly) (hw : later.IsWeekAfter w) :
    s.matchesTime later = s.matchesTime w := by
  have hmonth : ∀ v : WallTime, s.month.admits v.date.month = true := fun v =>
    have hbounds := Date.ofDay_month_bounds v.dayCount
    h.admits_month _ hbounds.1 hbounds.2
  have hday : s.matchesDay later.date.day later.weekday = s.matchesDay w.date.day w.weekday := by
    rw [matchesDay, matchesDay, h.days_open, hw.weekday_eq]
    rfl
  rw [matchesTime, matchesTime, hmonth, hmonth, hday, hw.time_eq.1, hw.time_eq.2]

/-- Two walks that begin a week apart stay a week apart: if the later one gives runs, the earlier
one gives those a week before. -/
theorem IsWeekly.exists_wallRuns_eq (h : s.IsWeekly) {minutes count : Nat}
    {found found' runs : List Moment} (hw : later.IsWeekAfter candidate)
    (hfound : List.Forall₂ Moment.IsWeekAfter found found')
    (hruns : wallRuns s.sieve minutes count later found = .ok runs) :
    ∃ runs', wallRuns s.sieve minutes count candidate found' = .ok runs' ∧
      List.Forall₂ Moment.IsWeekAfter runs runs' := by
  induction minutes generalizing count later candidate found found' with
  | zero =>
    cases hruns
    exact ⟨_, rfl, List.rel_reverse hfound⟩
  | succ minutes ih =>
    cases hnext : later.nextMinute? with
    | none =>
      rw [wallRuns, hnext] at hruns
      cases hruns
    | some next =>
      obtain ⟨next', hnext', hweek⟩ := hw.exists_nextMinute? hnext
      have hpasses : s.sieve.passes later = s.sieve.passes candidate := by
        rw [passes_sieve, passes_sieve, h.matchesTime_eq hw]
      by_cases hp : s.sieve.passes candidate = true
      · rw [wallRuns_of_passes hnext (hpasses.trans hp)] at hruns
        rw [wallRuns_of_passes hnext' hp]
        have hboth : List.Forall₂ Moment.IsWeekAfter (.ofWall later :: found)
            (.ofWall candidate :: found') := .cons ⟨hw, rfl, rfl⟩ hfound
        split at hruns
        · next hlast =>
          cases hruns
          exact ⟨_, if_pos hlast, List.rel_reverse hboth⟩
        · next hmore =>
          rw [if_neg hmore]
          exact ih hweek hboth hruns
      · rw [Bool.not_eq_true] at hp
        rw [wallRuns_of_not_passes hnext (hpasses.trans hp)] at hruns
        rw [wallRuns_of_not_passes hnext' hp]
        exact ih hweek hfound hruns

theorem IsWeekly.exists_nextRuns_eq (h : s.IsWeekly) {start after : Moment} {count minutes : Int}
    {runs : List Moment} (hz : start.zone = none) (hz' : after.zone = none)
    (hweek : after.wall.IsWeekAfter start.wall)
    (hruns : s.nextRuns after count minutes = .ok runs) :
    ∃ runs', s.nextRuns start count minutes = .ok runs' ∧
      List.Forall₂ Moment.IsWeekAfter runs runs' := by
  unfold nextRuns at hruns ⊢
  split at hruns
  · next hnone =>
    cases hruns
    exact ⟨[], if_pos hnone, .nil⟩
  · next hsome =>
    rw [if_neg hsome, hz]
    rw [hz'] at hruns
    cases hfirst : after.wall.floorMinute.nextMinute? with
    | none =>
      rw [hfirst] at hruns
      cases hruns
    | some first =>
      obtain ⟨first', hfirst', hweek'⟩ := hweek.floorMinute.exists_nextMinute? hfirst
      rw [hfirst] at hruns
      rw [hfirst']
      exact h.exists_wallRuns_eq hweek' .nil hruns

/-- Take a schedule whose word for the day of the month is the star, and whose months are all
twelve. From a start without a zone and from the one seven days later it gives the same runs, each
seven days later, as long as the later walk stays on the calendar; the earlier one then does too. -/
theorem nextRuns_isWeekAfter {start after : Moment} {count minutes : Int}
    (hs : ofExpression expression = .ok s) (hday : s.tokens[2]? = some "*")
    (hmonths : ∀ month, 1 ≤ month → month ≤ 12 → s.month.admits month = true)
    (hz : start.zone = none) (hz' : after.zone = none)
    (hweek : after.wall.IsWeekAfter start.wall) (hkeeps : s.KeepsCalendar after count minutes) :
    ∃ runs runs', s.nextRuns start count minutes = .ok runs ∧
      s.nextRuns after count minutes = .ok runs' ∧
      List.Forall₂ Moment.IsWeekAfter runs' runs := by
  have hopen : s.dayOfMonth.isRestricted = false := by
    rw [dayOfMonth_of_star hs hday]
    rfl
  have hweekly : s.IsWeekly := ⟨hopen, hmonths⟩
  have hnozone : ∀ zone ∈ after.zone, zone.IsKnown := by simp [hz']
  rcases s.nextRuns_cases hnozone count minutes with ⟨-, runs', hruns', -⟩ | ⟨hleaves, -⟩
  · obtain ⟨runs, hruns, hall⟩ := hweekly.exists_nextRuns_eq hz hz' hweek hruns'
    exact ⟨runs, runs', hruns, hruns', hall⟩
  · exact absurd hkeeps hleaves

/-- Mondays at nine, from the last week of February in a leap year and from the week after it. -/
theorem nextRuns_isWeekAfter_leap_day :
    let s : Schedule := ⟨"0 9 * * 1", .ofValues .minute [0] false, .ofValues .hour [9] false,
      .wildcard .dayOfMonth, .wildcard .month, .ofValues .dayOfWeek [1] false⟩
    let start : Moment :=
      .ofWall ⟨(86400 * Date.toDay ⟨2024, 2, 26⟩ + 37845) * 1000000, by decide⟩
    let after : Moment :=
      .ofWall ⟨(86400 * Date.toDay ⟨2024, 3, 4⟩ + 37845) * 1000000, by decide⟩
    ofExpression "0 9 * * MON" = .ok s ∧ s.tokens[2]? = some "*" ∧
      (∀ month, 1 ≤ month → month ≤ 12 → s.month.admits month = true) ∧
      start.zone = none ∧ after.zone = none ∧ after.wall.IsWeekAfter start.wall ∧
      s.KeepsCalendar after 2 20160 ∧
      ∃ runs runs', s.nextRuns start 2 20160 = .ok runs ∧ s.nextRuns after 2 20160 = .ok runs' ∧
        List.Forall₂ Moment.IsWeekAfter runs' runs := by
  intro s start after
  have hs : ofExpression "0 9 * * MON" = .ok s := by decide +kernel
  have hday : s.tokens[2]? = some "*" := by decide +kernel
  have hmonths : ∀ month, 1 ≤ month → month ≤ 12 → s.month.admits month = true := by
    intro month hlo hhi
    exact List.contains_iff_mem.2 (FieldName.mem_domain.2 ⟨hlo, hhi⟩)
  have hweek : after.wall.IsWeekAfter start.wall := by
    rw [WallTime.IsWeekAfter]
    decide
  have hkeeps : s.KeepsCalendar after 2 20160 := by
    intro _ _
    have hfirst : after.wall.floorMinute.nextMinute? =
        some ⟨after.wall.micros + 15000000, by decide⟩ := by decide +kernel
    have hsteady : Zone.utc.rule.IsSteady := Zone.IsKnown.isSteady trivial
    exact ⟨_, _, hfirst, Zone.toUtc_utc _, staysInside_of_le hsteady (by decide) (by decide)⟩
  exact ⟨hs, hday, hmonths, rfl, rfl, hweek, hkeeps,
    nextRuns_isWeekAfter hs hday hmonths rfl rfl hweek hkeeps⟩

end Schedule

end Cron
