import Cron.Proofs.Moment.Localize
import Cron.Proofs.Runs.Upcoming

/-!
How long it is until a run. Between moments on different clocks a label tells the time that passes;
between moments on the same clocks it tells how far these are moved, which is more or less where the
clocks are set forward or back in between.
-/
namespace Cron

/-- How far the clocks of a zone are set forward from one instant to another, in microseconds; it is
negative where they are set back. -/
def Zone.setForward (zone : Zone) (u t : WallTime) : Int :=
  1000000 * (zone.rule.offsetAt t.seconds - zone.rule.offsetAt u.seconds)

/-- The label of the time that passes from one instant to another. -/
def elapsedLabel (u t : WallTime) : String := (Wait.ofMicros (t.micros - u.micros)).text

/-- The label of the time by which the clocks of a zone move on from one instant to another. -/
def Zone.movedLabel (zone : Zone) (u t : WallTime) : String :=
  (Wait.ofMicros (t.micros - u.micros + zone.setForward u t)).text

theorem Zone.movedLabel_of_setForward {zone : Zone} {u t : WallTime}
    (h : zone.setForward u t = 0) : zone.movedLabel u t = elapsedLabel u t := by
  rw [movedLabel, h, Int.add_zero, elapsedLabel]

namespace Moment

variable {home a b zone target : Zone} {m m' now run : Moment} {t u : WallTime}

-- A reading of a moment is the instant that it names.
theorem eq_of_toUtc (hhome : home.IsKnown) (hz : ∀ zone ∈ m.zone, zone.IsKnown)
    (h : m.Names home t) (hread : m.toUtc home.rule = .ok u) : u = t := by
  cases hzone : m.zone with
  | some zone =>
    rw [toUtc_of_names hzone (hz zone hzone) h] at hread
    cases hread
    rfl
  | none =>
    rw [names_of_no_zone hzone] at h
    rw [toUtc, hzone] at hread
    dsimp only at hread
    rw [utcOfLocal_of_names hhome.isSteady h] at hread
    split at hread
    · cases hread
    · cases hread
      rfl

theorem names_of_localize (hhome : home.IsKnown) (hz : ∀ zone ∈ m.zone, zone.IsKnown)
    (htarget : target.IsKnown) (h : m.Names home t)
    (hlocalize : m.localize home.rule (some target) = .ok m') :
    m'.zone = some target ∧ m'.Names home t := by
  rw [localize] at hlocalize
  split at hlocalize
  · next hsame =>
    cases hlocalize
    obtain ⟨zone, hzone, hsame'⟩ := (Option.any_eq_true _ _).1 hsame
    rw [(hz zone hzone).eq_of_isSame htarget hsame'] at hzone
    exact ⟨hzone, h⟩
  · obtain ⟨u, hread, hu⟩ := bind_eq_ok_iff.1 hlocalize
    obtain rfl := eq_of_toUtc hhome hz h hread
    rcases ofUtc_cases htarget.isSteady u with ⟨m'', hok, hzone, hnames⟩ | ⟨-, herror⟩
    · rw [hok] at hu
      cases hu
      exact ⟨hzone, (names_of_zone hzone).2 hnames⟩
    · rw [herror] at hu
      cases hu

/-- The span between moments with zones: the time that passes, and what their clocks are set forward
in between if these are the same. -/
theorem since_of_names (ha : a.IsKnown) (hb : b.IsKnown) (hrun : run.zone = some a)
    (hnow : now.zone = some b) (ht : run.Names home t) (hu : now.Names home u) :
    run.since now = .ok (t.micros - u.micros + if a = b then a.setForward u t else 0) := by
  rw [names_of_zone hrun] at ht
  rw [names_of_zone hnow] at hu
  have hwall := Zone.shows_iff.1 ht.shows
  have hwall' := Zone.shows_iff.1 hu.shows
  have hread := ((Zone.names_iff ha.isSteady).1 ht).2
  have hread' := ((Zone.names_iff hb.isSteady).1 hu).2
  by_cases hsame : a = b
  · subst hsame
    rw [since_of_zone_eq (hrun.trans hnow.symm), if_pos rfl, Zone.setForward]
    congr 1
    omega
  · rw [since, hrun, hnow]
    dsimp only
    rw [if_neg fun h => hsame (ha.eq_of_isSame hb h), if_neg hsame, hread, hread']
    congr 1
    omega

end Moment

section Labels
variable {home a b target : Zone} {run now : Moment} {t u : WallTime} {s : Schedule}
  {label : String} {count minutes : Int} {shown : List ShownRun}

theorem relativeLabel_of_names (ha : a.IsKnown) (hb : b.IsKnown) (hrun : run.zone = some a)
    (hnow : now.zone = some b) (ht : run.Names home t) (hu : now.Names home u) :
    relativeLabel run now = .ok (if a = b then a.movedLabel u t else elapsedLabel u t) := by
  have hlabel : relativeLabel run now = .ok (Wait.ofMicros (t.micros - u.micros +
      if a = b then a.setForward u t else 0)).text := by
    rw [relativeLabel, Moment.since_of_names ha hb hrun hnow ht hu]
    rfl
  rw [hlabel]
  split
  · rfl
  · rw [Int.add_zero, elapsedLabel]

-- In UTC the time that passes is told.
theorem relativeLabel_utc (t u : WallTime) :
    relativeLabel (.utc t) (.utc u) = .ok (elapsedLabel u t) := rfl

-- A run that is shown for a zone has its label from a start there, which names the instant too.
theorem Schedule.exists_of_mem_upcoming {r : ShownRun} (hhome : home.IsKnown)
    (hz : ∀ zone ∈ now.zone, zone.IsKnown) (hu : now.Names home u)
    (hlabel : Zone.ofLabel label = .ok (some target))
    (hshown : s.upcoming home.rule now count minutes label = .ok shown) (hr : r ∈ shown) :
    ∃ t, r.moment.zone = some target ∧ r.moment.Names home t ∧
      r.relative = target.movedLabel u t := by
  have htarget := Zone.isKnown_of_ofLabel label hlabel
  rw [upcoming, hlabel, ok_bind] at hshown
  obtain ⟨start, hstart, hshown⟩ := bind_eq_ok_iff.1 hshown
  obtain ⟨runs, hruns, hshown⟩ := bind_eq_ok_iff.1 hshown
  obtain ⟨hzone, hstart'⟩ := Moment.names_of_localize hhome hz htarget hu hstart
  have hknown : ∀ zone ∈ start.zone, zone.IsKnown := by
    rw [hzone]
    rintro _ ⟨⟩
    exact htarget
  obtain ⟨run, hrun, hrelative⟩ := exists_mem_of_forall₂ (mapM_eq_ok_iff.1 hshown) hr
  obtain ⟨hclocks, hsecond, t, ht⟩ := exists_firstShows_of_mem_nextRuns hknown hruns hrun
  rw [hzone] at hclocks
  rw [hzone, Option.getD_some, Zone.firstShows_iff_names, ← hsecond] at ht
  have hnames : run.Names home t := (Moment.names_of_zone hclocks).2 ht
  have htold := relativeLabel_of_names htarget htarget hclocks hzone hnames hstart'
  rw [if_pos rfl] at htold
  rw [showRun, htold, ok_bind] at hrelative
  cases hrelative
  exact ⟨t, hclocks, hnames, rfl⟩

/-- Between moments of known zones a label tells the time that passes, as it does between the two
instants in UTC, exactly if the moments are on different clocks, or what these are set forward in
between makes no difference to the label: on the same clocks it tells the time by which they move
on. So does the label of each run that is shown in a zone, from the instant on that it is asked for,
and it tells the time that passes where the clocks are not set forward or back until then. -/
theorem relativeLabel_eq_utc_iff (hhome : home.IsKnown) (hz : ∀ zone ∈ now.zone, zone.IsKnown)
    (hu : now.Names home u) :
    (∀ (run : Moment) (a b : Zone) (t : WallTime), run.zone = some a → a.IsKnown →
      now.zone = some b → run.Names home t →
      relativeLabel run now = .ok (if a = b then a.movedLabel u t else elapsedLabel u t) ∧
        (relativeLabel run now = relativeLabel (.utc t) (.utc u) ↔
          (a = b → a.movedLabel u t = elapsedLabel u t))) ∧
      ∀ (s : Schedule) (label : String) (target : Zone) (count minutes : Int)
        (shown : List ShownRun), Zone.ofLabel label = .ok (some target) →
        s.upcoming home.rule now count minutes label = .ok shown →
        ∀ r ∈ shown, ∃ t, r.moment.zone = some target ∧ r.moment.Names home t ∧
          r.relative = target.movedLabel u t ∧
          (target.setForward u t = 0 → r.relative = elapsedLabel u t) := by
  constructor
  · intro run a b t hrun ha hnow ht
    have hpair := relativeLabel_of_names ha (hz b hnow) hrun hnow ht hu
    refine ⟨hpair, ?_⟩
    rw [hpair, relativeLabel_utc, Except.ok.injEq]
    by_cases hsame : a = b
    · rw [if_pos hsame, forall_prop_of_true hsame]
    · rw [if_neg hsame]
      exact iff_of_true rfl fun h => absurd h hsame
  · intro s label target count minutes shown hlabel hshown r hr
    obtain ⟨t, hzone, hnames, hrelative⟩ :=
      Schedule.exists_of_mem_upcoming hhome hz hu hlabel hshown hr
    exact ⟨t, hzone, hnames, hrelative, fun h => hrelative.trans (Zone.movedLabel_of_setForward h)⟩

/-- An hour and a minute pass as New York's clocks are set back, from the last minute of the first
pass to two o'clock. That is told from Berlin's clocks; but a run that is shown in New York then has
the label of a minute. -/
theorem relativeLabel_eq_utc_iff_new_york :
    let home := Zone.utc
    let york : Zone := .region ⟨"America/New_York", Region.northAmerica (Region.hm (-5) 0)⟩
    let berlin : Zone := .region ⟨"Europe/Berlin", Region.europe (Region.hm 1 0)⟩
    let night := 86400 * Date.toDay ⟨2026, 11, 1⟩
    let u : WallTime := ⟨(night + 7140 + 14400) * 1000000, by decide⟩
    let t : WallTime := ⟨(night + 7200 + 18000) * 1000000, by decide⟩
    let now : Moment := ⟨⟨(night + 7140 + 14400 + 3600) * 1000000, by decide⟩, some berlin, false⟩
    let run : Moment := ⟨⟨(night + 7200) * 1000000, by decide⟩, some york, false⟩
    let s : Schedule := ⟨"0 * * * *", .ofValues .minute [0] false, .wildcard .hour,
      .wildcard .dayOfMonth, .wildcard .month, .wildcard .dayOfWeek⟩
    let shown : List ShownRun := [⟨run, "Sun, 01 Nov 2026, 02:00", "in 1 minute"⟩]
    home.IsKnown ∧ (∀ zone ∈ now.zone, zone.IsKnown) ∧ now.Names home u ∧ run.zone = some york ∧
      york.IsKnown ∧ now.zone = some berlin ∧ run.Names home t ∧
      Zone.ofLabel "America/New_York" = .ok (some york) ∧
      s.upcoming home.rule now 1 180 "America/New_York" = .ok shown ∧
      (relativeLabel run now = .ok (if york = berlin then york.movedLabel u t else
          elapsedLabel u t) ∧
        (relativeLabel run now = relativeLabel (.utc t) (.utc u) ↔
          (york = berlin → york.movedLabel u t = elapsedLabel u t))) ∧
      ∀ r ∈ shown, ∃ t, r.moment.zone = some york ∧ r.moment.Names home t ∧
        r.relative = york.movedLabel u t ∧
        (york.setForward u t = 0 → r.relative = elapsedLabel u t) := by
  intro home york berlin night u t now run s shown
  have hhome : home.IsKnown := trivial
  have hyork : york.IsKnown := by decide
  have hberlin : berlin.IsKnown := by decide
  have hz : ∀ zone ∈ now.zone, zone.IsKnown := by
    rintro _ ⟨⟩
    exact hberlin
  have hu : now.Names home u :=
    Moment.names_of_offset hberlin (by decide +kernel) (by decide +kernel)
  have ht : run.Names home t :=
    Moment.names_of_offset hyork (by decide +kernel) (by decide +kernel)
  have hlabel : Zone.ofLabel "America/New_York" = .ok (some york) := by decide +kernel
  have hshown : s.upcoming home.rule now 1 180 "America/New_York" = .ok shown := by
    let start : Moment := ⟨⟨(night + 7140) * 1000000, by decide⟩, some york, false⟩
    have hstart : now.localize home.rule (some york) = .ok start := by decide +kernel
    have hruns : s.nextRuns start 1 180 = .ok [run] := by decide +kernel
    have hrelative : relativeLabel run start = .ok "in 1 minute" := by decide +kernel
    have hformatted : displayText run.wall = "Sun, 01 Nov 2026, 02:00" := by decide +kernel
    rw [Schedule.upcoming, hlabel, ok_bind, hstart, ok_bind, hruns, ok_bind, List.mapM_cons,
      showRun, hrelative, hformatted]
    rfl
  have hboth := relativeLabel_eq_utc_iff hhome hz hu
  exact ⟨hhome, hz, hu, rfl, hyork, rfl, ht, hlabel, hshown,
    hboth.1 run york berlin t rfl hyork rfl ht, hboth.2 s _ york 1 180 shown hlabel hshown⟩

/-- Between moments on those clocks a minute is told where an hour and a minute pass. -/
theorem relativeLabel_ne_utc_new_york :
    let york : Zone := .region ⟨"America/New_York", Region.northAmerica (Region.hm (-5) 0)⟩
    let night := 86400 * Date.toDay ⟨2026, 11, 1⟩
    let u : WallTime := ⟨(night + 7140 + 14400) * 1000000, by decide⟩
    let t : WallTime := ⟨(night + 7200 + 18000) * 1000000, by decide⟩
    let now : Moment := ⟨⟨(night + 7140) * 1000000, by decide⟩, some york, false⟩
    let run : Moment := ⟨⟨(night + 7200) * 1000000, by decide⟩, some york, false⟩
    york.IsKnown ∧ run.Names york t ∧ now.Names york u ∧
      relativeLabel run now = .ok "in 1 minute" ∧
      relativeLabel (.utc t) (.utc u) = .ok "in 1 hour" ∧
      relativeLabel run now ≠ relativeLabel (.utc t) (.utc u) := by
  intro york night u t now run
  have hyork : york.IsKnown := by decide
  have ht : run.Names york t :=
    Moment.names_of_offset hyork (by decide +kernel) (by decide +kernel)
  have hu : now.Names york u :=
    Moment.names_of_offset hyork (by decide +kernel) (by decide +kernel)
  have hlabel : relativeLabel run now = .ok "in 1 minute" := by decide +kernel
  have hlabel' : relativeLabel (.utc t) (.utc u) = .ok "in 1 hour" := by decide +kernel
  refine ⟨hyork, ht, hu, hlabel, hlabel', ?_⟩
  rw [hlabel, hlabel']
  decide

end Labels

end Cron
