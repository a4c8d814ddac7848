import Cron.Proofs.Runs.Zone

/-!
Where the runs after a moment of a zone lie as instants. The walk begins a wall minute after the
moment, at the first pass of that minute, and so may begin at a distance from UTC other than the
moment's own. The runs lie after the moment and within the horizon unless it does.
-/
namespace Cron

def Moment.floorMinute (m : Moment) : Moment := { m with wall := m.wall.floorMinute }

/-- As instants, a moment lies after a start and the start's minute, and at most some minutes after
the latter. -/
def Moment.IsWithin (m start : Moment) (minutes : Int) : Prop :=
  ∃ x f a, m.absolute? = some x ∧ start.floorMinute.absolute? = some f ∧
    start.absolute? = some a ∧ f < x ∧ a < x ∧ x ≤ f + 60000000 * minutes

namespace Schedule

variable {zone : Zone} {sieve : Sieve} {candidate wall : WallTime} {latest : Option WallTime}

-- The moment that the walk makes of a candidate is the candidate as an instant.
theorem absolute?_of_shows (hs : zone.rule.IsSteady) (hw : zone.Shows candidate wall) :
    Moment.absolute? ⟨wall, some zone,
        zone.rule.offsetOfWall wall.seconds false != zone.rule.offsetAt candidate.seconds⟩ =
      some (candidate.micros : Int) := by
  have hmicros := Zone.shows_iff.1 hw
  unfold Moment.absolute? Moment.offset?
  rw [Option.map_some, Option.map_some, hs.offsetOfWall_of_shown hw.shown_seconds, Option.some_inj]
  show (wall.micros : Int) - 1000000 * zone.rule.offsetAt candidate.seconds = candidate.micros
  omega

-- Every run of a walk is one of the instants that it comes to.
theorem exists_of_mem_zoneRuns (hs : zone.rule.IsSteady) {minutes count : Nat}
    {found runs : List Moment}
    (h : zoneRuns sieve zone minutes count candidate latest found = .ok runs) {r : Moment}
    (hr : r ∈ runs) :
    r ∈ found ∨ ∃ k : Nat, k < minutes ∧
      r.absolute? = some (candidate.micros + 60000000 * k : Int) := by
  induction minutes generalizing count candidate latest found with
  | zero =>
    unfold zoneRuns at h
    cases h
    exact Or.inl (List.mem_reverse.1 hr)
  | succ minutes ih =>
    -- what is found later lies a minute further on
    have hlater : ∀ {next : WallTime}, candidate.nextMinute? = some next →
        (∃ k : Nat, k < minutes ∧ r.absolute? = some (next.micros + 60000000 * k : Int)) →
        ∃ k : Nat, k < minutes + 1 ∧
          r.absolute? = some (candidate.micros + 60000000 * k : Int) := by
      intro next hnext hex
      rcases hex with ⟨k, hk, habs⟩
      refine ⟨k + 1, by omega, ?_⟩
      have hm := WallTime.micros_of_nextMinute? hnext
      rw [habs, Option.some_inj]
      omega
    unfold zoneRuns at h
    dsimp only at h
    split at h
    · next wall next hwall hnext =>
      have hw : zone.Shows candidate wall := Zone.shows_iff_addSeconds?.2 hwall
      have hfound : ∀ {r' : Moment}, r' ∈ (⟨wall, some zone,
          zone.rule.offsetOfWall wall.seconds false !=
            zone.rule.offsetAt candidate.seconds⟩ :: found : List Moment) →
          r' ∈ found ∨ ∃ k : Nat, k < minutes + 1 ∧
            r'.absolute? = some (candidate.micros + 60000000 * k : Int) := by
        intro r' hmem
        rcases List.mem_cons.1 hmem with rfl | hmem
        · exact Or.inr ⟨0, by omega, by rw [absolute?_of_shows hs hw]; simp⟩
        · exact Or.inl hmem
      split at h
      · exact (ih h).imp_right (hlater hnext)
      · split at h
        · split at h
          · cases h
            exact hfound (List.mem_reverse.1 hr)
          · rcases ih h with hmem | hk
            · exact hfound hmem
            · exact Or.inr (hlater hnext hk)
        · exact (ih h).imp_right (hlater hnext)
    · cases h

-- The bounds in microseconds: the start's minute has the start's own distance from UTC.
theorem isWithin_iff {start r : Moment} {minutes x : Int} (hz : start.zone = some zone)
    (hs : zone.rule.IsSteady) (hr : r.absolute? = some x) :
    r.IsWithin start minutes ↔
      (start.wall.floorMinute.micros : Int) -
          1000000 * zone.rule.offsetOfWall start.wall.seconds start.second < x ∧
        start.wall.micros - 1000000 * zone.rule.offsetOfWall start.wall.seconds start.second < x ∧
        x ≤ start.wall.floorMinute.micros -
          1000000 * zone.rule.offsetOfWall start.wall.seconds start.second +
            60000000 * minutes := by
  have hminute : start.wall.floorMinute.seconds = 60 * (start.wall.seconds / 60) := by
    simp only [WallTime.floorMinute, WallTime.minutes, WallTime.seconds]
    omega
  have hfloor : start.floorMinute.absolute? = some (start.wall.floorMinute.micros -
      1000000 * zone.rule.offsetOfWall start.wall.seconds start.second : Int) := by
    unfold Moment.absolute? Moment.offset? Moment.floorMinute
    rw [hz, Option.map_some, Option.map_some, hminute, hs.offsetOfWall_floor]
  have hstart : start.absolute? = some (start.wall.micros -
      1000000 * zone.rule.offsetOfWall start.wall.seconds start.second : Int) := by
    unfold Moment.absolute? Moment.offset?
    rw [hz, Option.map_some, Option.map_some]
  unfold Moment.IsWithin
  rw [hr, hfloor, hstart]
  constructor
  · intro hex
    rcases hex with ⟨_, _, _, hx, hf, ha, hbounds⟩
    cases hx
    cases hf
    cases ha
    exact hbounds
  · intro hbounds
    exact ⟨_, _, _, rfl, rfl, rfl, hbounds⟩

def everyMinute : Schedule :=
  ⟨"* * * * *", .wildcard .minute, .wildcard .hour, .wildcard .dayOfMonth, .wildcard .month,
    .wildcard .dayOfWeek⟩

theorem ofExpression_everyMinute : ofExpression "* * * * *" = .ok everyMinute := rfl

theorem matchesTime_everyMinute (w : WallTime) : everyMinute.matchesTime w = true := by
  have hmonth := Date.ofDay_month_bounds w.dayCount
  have hadmits : ∀ {name : FieldName} {v : Nat}, name.low ≤ v → v ≤ name.high →
      (Field.wildcard name).admits v = true := fun hlo hhi =>
    List.contains_iff_mem.2 (FieldName.mem_domain.2 ⟨hlo, hhi⟩)
  have hminute : everyMinute.minute.admits w.minute = true :=
    hadmits (Nat.zero_le _) (Nat.le_of_lt_succ (Nat.mod_lt _ (by decide)))
  have hhour : everyMinute.hour.admits w.hour = true :=
    hadmits (Nat.zero_le _) (Nat.le_of_lt_succ (Nat.mod_lt _ (by decide)))
  have hdate : everyMinute.month.admits w.date.month = true := hadmits hmonth.1 hmonth.2
  rw [matchesTime, hminute, hhour, hdate]
  rfl

-- With the distance of the next minute's first pass being the start's own, every run lies within
-- the bounds: the walk begins a minute after the start's minute as an instant too.
theorem isWithin_of_mem_nextRuns {s : Schedule} {start r : Moment} {count minutes : Int}
    {runs : List Moment} (hz : start.zone = some zone) (hs : zone.rule.IsSteady)
    (hsame : ∀ first, start.wall.floorMinute.nextMinute? = some first →
      zone.rule.offsetOfWall first.seconds false =
        zone.rule.offsetOfWall start.wall.seconds start.second)
    (h : s.nextRuns start count minutes = .ok runs) (hr : r ∈ runs) : r.IsWithin start minutes := by
  unfold nextRuns at h
  split at h
  · cases h
    cases hr
  · rw [hz] at h
    cases hfirst : start.wall.floorMinute.nextMinute? with
    | none =>
      rw [hfirst] at h
      cases h
    | some first =>
      rw [hfirst] at h
      change (zone.toUtc first false >>= _) = _ at h
      cases hread : zone.toUtc first false with
      | error fault =>
        rw [hread] at h
        cases h
      | ok instant =>
        rw [hread] at h
        have hinstant := Zone.toUtc_eq_ok.1 hread
        have hmicros := WallTime.micros_of_nextMinute? hfirst
        rw [hsame first hfirst] at hinstant
        rcases exists_of_mem_zoneRuns hs h hr with hr | ⟨k, hk, habs⟩
        · cases hr
        · rw [isWithin_iff hz hs habs]
          simp only [WallTime.floorMinute, WallTime.minutes] at *
          omega

-- Distances differ only away from the ends of the calendar, so there the walk does begin.
theorem exists_first_candidate {start : Moment} {first : WallTime} (hs : zone.rule.IsSteady)
    (hfirst : start.wall.floorMinute.nextMinute? = some first)
    (hne : zone.rule.offsetOfWall first.seconds false ≠
      zone.rule.offsetOfWall start.wall.seconds start.second) :
    ∃ instant wall next, zone.toUtc first false = .ok instant ∧ zone.Shows instant wall ∧
      instant.nextMinute? = some next := by
  have hcalendar : 1000000 * Moment.calendarSeconds = calendarMicros := by decide
  have hmicros := WallTime.micros_of_nextMinute? hfirst
  have hlt := start.wall.lt
  have hlt' := first.lt
  have hnear : start.wall.seconds < first.seconds ∧ first.seconds ≤ start.wall.seconds + 60 := by
    simp only [WallTime.floorMinute, WallTime.minutes, WallTime.seconds] at *
    omega
  have hlast : first.seconds ≤ Moment.calendarSeconds := by
    simp only [WallTime.seconds]
    omega
  have haway := hs.wall_bounds_of_offsetOfWall_ne hnear.1 hlast hne
  have hbound := hs.offsetOfWall_bounded first.seconds false
  have hfirstMicros : 1000000 * first.seconds ≤ first.micros ∧
      first.micros < 1000000 * first.seconds + 1000000 := by
    simp only [WallTime.seconds]
    omega
  obtain ⟨instant, hinstant⟩ := WallTime.exists_micros_eq
    (n := first.micros - 1000000 * zone.rule.offsetOfWall first.seconds false)
    (by omega) (by omega)
  have hbound' := hs.bounded instant.seconds
  obtain ⟨wall, hwall⟩ := WallTime.exists_micros_eq
    (n := instant.micros + 1000000 * zone.rule.offsetAt instant.seconds) (by omega) (by omega)
  rcases WallTime.exists_nextMinute? (w := instant) (by omega) with ⟨next, hnext⟩
  exact ⟨instant, wall, next, Zone.toUtc_eq_ok.2 hinstant, Zone.shows_iff.2 hwall, hnext⟩

-- If the run of five stars in the minute that a walk begins with lies within the bounds, the
-- distance of that minute's first pass is the start's own.
theorem offsetOfWall_eq_of_isWithin {start : Moment} {first : WallTime}
    (hz : start.zone = some zone) (hs : zone.rule.IsSteady)
    (hfirst : start.wall.floorMinute.nextMinute? = some first)
    (h : ∀ runs, everyMinute.nextRuns start 1 1 = .ok runs → ∀ r ∈ runs, r.IsWithin start 1) :
    zone.rule.offsetOfWall first.seconds false =
      zone.rule.offsetOfWall start.wall.seconds start.second := by
  by_contra hne
  rcases exists_first_candidate hs hfirst hne with ⟨instant, wall, next, hread, hw, hnext⟩
  have hrun : everyMinute.nextRuns start 1 1 = .ok [⟨wall, some zone,
      zone.rule.offsetOfWall wall.seconds false != zone.rule.offsetAt instant.seconds⟩] := by
    rw [nextRuns, if_neg (by decide), hfirst, hz]
    show (zone.toUtc first false >>= fun instant =>
      zoneRuns everyMinute.sieve zone 1 1 instant none []) = _
    rw [hread]
    show zoneRuns everyMinute.sieve zone 1 1 instant none [] = _
    rw [zoneRuns_succ hw hnext, passes_sieve, matchesTime_everyMinute]
    rfl
  have hwithin := h _ hrun _ List.mem_cons_self
  rw [isWithin_iff hz hs (absolute?_of_shows hs hw)] at hwithin
  -- both distances are whole minutes apart, and the bounds leave room for one minute only
  have hmicros := WallTime.micros_of_nextMinute? hfirst
  have hinstant := Zone.toUtc_eq_ok.1 hread
  have hwhole := hs.offsetOfWall_sub_mod first.seconds false 0
  have hwhole' := hs.offsetOfWall_sub_mod start.wall.seconds start.second 0
  omega

/-- All runs after a moment of a known zone that its clocks show, for every schedule, count and
horizon, lie after the moment and within the horizon exactly if one of three things holds. The
clocks show the moment's wall time once; it is the first of two passes, and the next minute comes
twice too; or it is the second of two passes, and the next minute does not come twice. -/
theorem nextRuns_isWithin_iff {start : Moment} (hz : start.zone = some zone) (hk : zone.IsKnown)
    (hshown : ∃ t, zone.Shows t start.wall) :
    (∀ expression s, ofExpression expression = .ok s → ∀ count minutes runs,
        s.nextRuns start count minutes = .ok runs → ∀ r ∈ runs, r.IsWithin start minutes) ↔
      (zone.ShowsTwice start.wall → ∀ next, start.wall.floorMinute.nextMinute? = some next →
        (start.second = true ↔ ¬ zone.ShowsTwice next)) := by
  have hs := hk.isSteady
  rcases hshown with ⟨t, ht⟩
  -- the minute after the start's, in seconds
  have hnext : ∀ next, start.wall.floorMinute.nextMinute? = some next →
      next.seconds = 60 * (start.wall.seconds / 60) + 60 := by
    intro next hnext
    have hmicros := WallTime.micros_of_nextMinute? hnext
    simp only [WallTime.floorMinute, WallTime.minutes, WallTime.seconds] at *
    omega
  have hoffsets := hs.offsetOfWall_next_iff ht.shown_seconds start.second
  constructor
  · intro hwithin htwice next hfirst
    have hsame := offsetOfWall_eq_of_isWithin hz hs hfirst
      (hwithin _ _ ofExpression_everyMinute 1 1)
    rw [Zone.showsTwice_iff hs] at htwice ⊢
    rw [hnext next hfirst] at hsame ⊢
    exact hoffsets.1 hsame htwice
  · intro hpass expression s _ count minutes runs hruns r hr
    apply isWithin_of_mem_nextRuns hz hs _ hruns hr
    intro first hfirst
    rw [hnext first hfirst, hoffsets]
    intro htwice
    have hfirst' := hpass ((Zone.showsTwice_iff hs).2 htwice) first hfirst
    rwa [Zone.showsTwice_iff hs, hnext first hfirst] at hfirst'

/-- At half past one in the first pass, on the night that New York's clocks are set back. -/
theorem nextRuns_isWithin_iff_new_york :
    let zone : Zone := .region ⟨"America/New_York", Region.northAmerica (Region.hm (-5) 0)⟩
    let start : Moment :=
      ⟨⟨(86400 * Date.toDay ⟨2026, 11, 1⟩ + 5400) * 1000000, by decide⟩, some zone, false⟩
    start.zone = some zone ∧ zone.IsKnown ∧ (∃ t, zone.Shows t start.wall) ∧
      ((∀ expression s, ofExpression expression = .ok s → ∀ count minutes runs,
          s.nextRuns start count minutes = .ok runs → ∀ r ∈ runs, r.IsWithin start minutes) ↔
        (zone.ShowsTwice start.wall → ∀ next, start.wall.floorMinute.nextMinute? = some next →
          (start.second = true ↔ ¬ zone.ShowsTwice next))) := by
  intro zone start
  have hk : zone.IsKnown := by decide
  have hshown : ∃ t, zone.Shows t start.wall :=
    ⟨⟨(86400 * Date.toDay ⟨2026, 11, 1⟩ + 5400 + 14400) * 1000000, by decide⟩,
      Zone.shows_iff.2 (by decide +kernel)⟩
  exact ⟨rfl, hk, hshown, nextRuns_isWithin_iff rfl hk hshown⟩

/-- At half past one in the second pass the run at the next minute is one before the start. -/
theorem exists_run_before_start_new_york :
    let zone : Zone := .region ⟨"America/New_York", Region.northAmerica (Region.hm (-5) 0)⟩
    let night := 86400 * Date.toDay ⟨2026, 11, 1⟩
    let start : Moment := ⟨⟨(night + 5400) * 1000000, by decide⟩, some zone, true⟩
    let run : Moment := ⟨⟨(night + 5460) * 1000000, by decide⟩, some zone, false⟩
    zone.IsKnown ∧ (∃ t, zone.Shows t start.wall) ∧
      ∃ s, ofExpression "31 1 * * *" = .ok s ∧ s.nextRuns start 1 10 = .ok [run] ∧
        ¬ run.IsWithin start 10 := by
  intro zone night start run
  have hk : zone.IsKnown := by decide
  have hshown : ∃ t, zone.Shows t start.wall :=
    ⟨⟨(night + 5400 + 14400) * 1000000, by decide⟩, Zone.shows_iff.2 (by decide +kernel)⟩
  have hrun : run.absolute? = some ((night + 5460 + 14400) * 1000000) := by decide +kernel
  refine ⟨hk, hshown, ⟨"31 1 * * *", .ofValues .minute [31] false, .ofValues .hour [1] false,
    .wildcard .dayOfMonth, .wildcard .month, .wildcard .dayOfWeek⟩, rfl, by decide +kernel, ?_⟩
  rw [isWithin_iff rfl hk.isSteady hrun]
  decide +kernel

end Schedule

end Cron
