import Cron.Proofs.Runs.Calendar
import Cron.Proofs.Zone.Labels
import Cron.Proofs.Zone.Names
import Cron.Upcoming

/-!
Runs as they are shown, from an instant on. A run has the clocks of the start that it is shown with,
so showing it never fails; what can fail is the calendar.
-/
namespace Cron

/-- An instant as a moment of UTC. -/
def Moment.utc (instant : WallTime) : Moment := ⟨instant, some .utc, false⟩

variable {clocks : ClockRule} {instant : WallTime} {target : Option Zone}

-- An instant is told to the clocks of a zone, or to the local ones.
theorem Moment.localize_utc (clocks : ClockRule) (instant : WallTime) (target : Option Zone) :
    (utc instant).localize clocks target =
      match target with
      | none => localOfUtc clocks instant
      | some zone => ofUtc zone instant := by
  have hread := Zone.toUtc_utc instant
  cases target with
  | none =>
    show Zone.utc.toUtc instant false >>= localOfUtc clocks = _
    rw [hread, ok_bind]
  | some zone =>
    have hnew : (if Zone.utc.isSame zone then .ok (utc instant)
        else Zone.utc.toUtc instant false >>= ofUtc zone) = ofUtc zone instant := by
      rw [hread, ok_bind]
      split
      · next hsame =>
        cases zone with
        | utc =>
          have hadd : instant.addSeconds? 0 = some instant :=
            WallTime.addSeconds?_eq_some.2 (by omega)
          have hutc : Zone.utc.ofUtc instant = .ok (instant, false) := by
            unfold Zone.ofUtc
            dsimp only
            rw [show Zone.utc.rule.offsetAt instant.seconds = 0 from rfl, hadd]
            rfl
          rw [ofUtc, hutc]
          rfl
        | fixed offset => cases hsame
        | region place => cases hsame
      · rfl
    exact hnew

theorem Moment.localize_cases (clocks : ClockRule) (instant : WallTime) (target : Option Zone) :
    (∃ start, (utc instant).localize clocks target = .ok start ∧ start.zone = target ∧
        ∀ zone ∈ target, zone.Shows instant start.wall) ∨
      (utc instant).localize clocks target = .error .beyondRange := by
  rw [localize_utc]
  cases target with
  | none =>
    dsimp only
    unfold localOfUtc
    split
    · exact .inr rfl
    · exact .inl ⟨_, rfl, rfl, by simp⟩
  | some zone =>
    dsimp only
    unfold ofUtc Zone.ofUtc
    dsimp only
    cases hwall : instant.addSeconds? (zone.rule.offsetAt instant.seconds) with
    | none => exact .inr rfl
    | some wall =>
      refine .inl ⟨_, rfl, rfl, ?_⟩
      rintro _ ⟨⟩
      exact Zone.shows_iff_addSeconds?.2 hwall

-- On the same clocks the span is the one between the wall times, also where two fixed distances
-- are taken for different zones.
theorem Moment.since_of_zone_eq {run start : Moment} (h : run.zone = start.zone) :
    run.since start = .ok (run.wall.micros - start.wall.micros) := by
  unfold since
  rw [h]
  cases start.zone with
  | none => rfl
  | some zone =>
    dsimp only
    split
    · rfl
    · next hsame =>
      cases zone with
      | fixed offset =>
        simp only [Zone.rule, ClockRule.offsetOfWall_constant]
        congr 1
        omega
      | utc => exact absurd rfl hsame
      | region place => exact absurd (Zone.isSame_self (by simp)) hsame

theorem exists_showRun {run start : Moment} (h : run.zone = start.zone) :
    ∃ shown, showRun run start = .ok shown := by
  have hlabel : relativeLabel run start =
      .ok (Wait.ofMicros (run.wall.micros - start.wall.micros)).text := by
    rw [relativeLabel, Moment.since_of_zone_eq h]
    rfl
  rw [showRun, hlabel, ok_bind]
  exact ⟨_, rfl⟩

namespace Schedule

/-- The runs from an instant on can be looked for within the calendar: the clocks show the instant,
and the walk from there on does not leave it. -/
def FitsCalendar (clocks : ClockRule) (s : Schedule) (instant : WallTime) (target : Option Zone)
    (count minutes : Int) : Prop :=
  ∃ start, (Moment.utc instant).localize clocks target = .ok start ∧
    s.KeepsCalendar start count minutes

theorem exists_shown {start : Moment} {runs : List Moment} (h : ∀ r ∈ runs, r.zone = start.zone) :
    ∃ shown, runs.mapM (fun run => showRun run start) = .ok shown := by
  cases hshown : runs.mapM fun run => showRun run start with
  | ok shown => exact ⟨shown, rfl⟩
  | error fault =>
    obtain ⟨before, run, after, rfl, -, hfault⟩ := mapM_eq_error_iff.1 hshown
    have hmem : run ∈ before ++ run :: after := List.mem_append_right _ List.mem_cons_self
    obtain ⟨shown, hok⟩ := exists_showRun (h run hmem)
    rw [hfault] at hok
    cases hok

-- The first minute that a walk reads comes after the instant, and so is not the calendar's first.
theorem le_micros_of_reading {label : String} {start : Moment} {first reading : WallTime}
    (hlabel : Zone.ofLabel label = .ok target)
    (hstart : (Moment.utc instant).localize clocks target = .ok start)
    (hfirst : start.wall.floorMinute.nextMinute? = some first)
    (hread : (start.zone.getD .utc).toUtc first false = .ok reading) :
    60000000 ≤ reading.micros := by
  have hm := WallTime.micros_of_nextMinute? hfirst
  obtain ⟨_, heq, hz, hshows⟩ | herror := Moment.localize_cases clocks instant target
  rotate_left
  · rw [hstart] at herror
    cases herror
  rw [hstart] at heq
  cases heq
  cases target with
  | none =>
    rw [hz, Option.getD_none, Zone.toUtc_utc] at hread
    cases hread
    omega
  | some zone =>
    have hs := (Zone.isKnown_of_ofLabel label hlabel).isSteady
    have hwhole := Zone.offsetAt_mod_of_ofLabel hlabel
    rw [hz, Option.getD_some] at hread
    have hreading := Zone.toUtc_eq_ok.1 hread
    have hwall := Zone.shows_iff.1 (hshows zone rfl)
    have hbound := hs.offsetOfWall_bounded first.seconds false
    have hbound' := hs.bounded instant.seconds
    by_contra hlt
    -- so near to the calendar's beginning the clocks do not change
    have hfloor : start.wall.floorMinute.micros = 60000000 * (start.wall.micros / 60000000) := rfl
    have hcalm : instant.seconds ≤ 691200 := by
      simp only [WallTime.seconds]
      omega
    have hearly : first.seconds ≤ 604800 := by
      simp only [WallTime.seconds]
      omega
    rw [hs.offsetOfWall_of_early hearly] at hreading
    rw [hs.calmStart _ hcalm] at hwall
    omega

/-- A walk that fits in the calendar leaves room in it for two more minutes than those that it has
to look at. -/
theorem FitsCalendar.le_calendarMicros {s : Schedule} {label : String} {count minutes : Int}
    (h : s.FitsCalendar clocks instant target count minutes)
    (hlabel : Zone.ofLabel label = .ok target) (hc : 1 ≤ count) (hm : 1 ≤ minutes) :
    60000000 * (min count minutes + 2) ≤ calendarMicros := by
  have hcalendar : calendarMicros = 60000000 * 5258964960 := by decide
  obtain ⟨start, hstart, hkeeps⟩ := h
  obtain ⟨first, reading, hfirst, hread, hin⟩ := hkeeps hc hm
  have hlow := le_micros_of_reading hlabel hstart hfirst hread
  -- up to the last of these minutes, fewer wall times are due than are wanted
  obtain ⟨last, hlast⟩ : ∃ last : Nat, (last : Int) + 1 = min count minutes :=
    ⟨(min count minutes - 1).toNat, by omega⟩
  have hfew := s.length_dueWithin_le (start.zone.getD .utc) reading last
  obtain ⟨t, wall, next, ht, -, hnext⟩ := hin last (by omega) (by omega)
  have hmicros := WallTime.micros_of_addMinutes? ht
  have hmicros' := WallTime.micros_of_nextMinute? hnext
  have hlt := next.lt
  omega

theorem upcoming_cases (s : Schedule) (clocks : ClockRule) (instant : WallTime) {label : String}
    (hlabel : Zone.ofLabel label = .ok target) (count minutes : Int) :
    (s.FitsCalendar clocks instant target count minutes ∧
        ∃ shown, s.upcoming clocks (.utc instant) count minutes label = .ok shown ∧
          shown.length ≤ count.toNat ∧ shown.length ≤ minutes.toNat) ∨
      ¬ s.FitsCalendar clocks instant target count minutes ∧
        s.upcoming clocks (.utc instant) count minutes label = .error .beyondRange := by
  unfold upcoming FitsCalendar
  rw [hlabel, ok_bind]
  rcases Moment.localize_cases clocks instant target with ⟨start, hstart, hz, -⟩ | herror
  · have hknown : ∀ zone ∈ start.zone, zone.IsKnown := by
      intro zone hzone
      rw [hz] at hzone
      cases hzone
      exact Zone.isKnown_of_ofLabel label hlabel
    rw [hstart, ok_bind]
    rcases s.nextRuns_cases hknown count minutes with
      ⟨hkeeps, runs, hruns, hcount, hminutes, hzones⟩ | hleaves
    · obtain ⟨shown, hshown⟩ := exists_shown hzones
      have hlength := (mapM_eq_ok_iff.1 hshown).length_eq
      rw [hruns, ok_bind]
      exact .inl ⟨⟨start, rfl, hkeeps⟩, shown, hshown, hlength ▸ hcount, hlength ▸ hminutes⟩
    · right
      rw [hleaves.2, error_bind]
      refine ⟨?_, rfl⟩
      rintro ⟨start', heq, hkeeps⟩
      cases heq
      exact hleaves.1 hkeeps
  · right
    rw [herror, error_bind]
    exact ⟨by simp, rfl⟩

/-- No more runs are shown than are asked for, and than there are minutes in the horizon; and those
minutes lie within the calendar. -/
theorem length_le_of_upcoming {s : Schedule} {label : String} {count minutes : Int}
    {shown : List ShownRun}
    (h : s.upcoming clocks (.utc instant) count minutes label = .ok shown) :
    shown.length ≤ count.toNat ∧ shown.length ≤ minutes.toNat ∧
      (1 ≤ count → 1 ≤ minutes → 60000000 * (min count minutes + 2) ≤ calendarMicros) := by
  obtain ⟨target, hlabel, -⟩ := bind_eq_ok_iff.1 h
  obtain ⟨hfits, shown', hshown, hcount, hminutes⟩ | ⟨-, herror⟩ :=
    s.upcoming_cases clocks instant hlabel count minutes
  · rw [hshown] at h
    cases h
    exact ⟨hcount, hminutes, hfits.le_calendarMicros hlabel⟩
  · rw [herror] at h
    cases h

end Schedule

end Cron
