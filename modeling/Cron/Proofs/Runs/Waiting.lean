import Cron.Proofs.Number.Rounding
import Cron.Proofs.Runs.Elapsed

/-!
Waits, and the spans that they tell. Minutes, hours and days are counted by themselves, each from
the rounded seconds, and the counts are then held against three limits. Since rounding moves no
count, each span has one unit and one amount, and a longer span has no lesser ones.
-/
namespace Cron

/-- The microseconds in one of a unit. -/
def WaitUnit.micros : WaitUnit → Int
  | minute => 60000000
  | hour => 3600000000
  | day => 86400000000
  | week => 604800000000

namespace Wait

/-- A hundred years in microseconds, with as many leap days as they can have. -/
def century : Int := 36525 * 86400000000

/-- A wait tells a span: its unit is the largest that the span reaches, or minutes if it reaches
none, and it has as many of them as the span holds. -/
structure Tells (w : Wait) (span : Int) : Prop where
  reached : w.unit = .minute ∨ w.unit.micros ≤ span
  largest : ∀ unit : WaitUnit, w.unit.micros < unit.micros → span < unit.micros
  le : w.amount * w.unit.micros ≤ span
  lt : span < (w.amount + 1) * w.unit.micros

/-- The order of waits by their units, and by the amounts within one. -/
def Le (v w : Wait) : Prop :=
  v.unit.micros < w.unit.micros ∨ v.unit = w.unit ∧ v.amount ≤ w.amount

variable {a b span : Int} {w : Wait}

-- The rounded seconds have the same whole minutes, hours and days as the span itself.
theorem floor_secondsOf (hlo : 0 ≤ span) (hhi : span < century) {k : Nat} (hpos : 0 < k)
    (hk : k ≤ 86400) : ((secondsOf span).divNat k).floor = span / (1000000 * k) := by
  obtain ⟨n, rfl⟩ := Int.eq_ofNat_of_zero_le hlo
  rw [century] at hhi
  rw [secondsOf, Number.floor_divNat_nearest (by decide) hpos (by omega)]
  push_cast
  rfl

theorem ofMicros_eq (hlo : 0 ≤ span) (hhi : span < century) :
    ofMicros span =
      if span / 60000000 < 60 then ⟨span / 60000000, .minute⟩
      else if span / 3600000000 < 24 then ⟨span / 3600000000, .hour⟩
      else if span / 86400000000 < 7 then ⟨span / 86400000000, .day⟩
      else ⟨span / 86400000000 / 7, .week⟩ := by
  have hfloor := @floor_secondsOf span hlo hhi
  unfold ofMicros
  dsimp only
  rw [hfloor (by decide) (by decide), hfloor (by decide) (by decide),
    hfloor (by decide) (by decide)]
  rfl

theorem tells_ofMicros (hlo : 0 ≤ span) (hhi : span < century) : (ofMicros span).Tells span := by
  have hunits : ∀ {P : WaitUnit → Prop}, P .minute → P .hour → P .day → P .week → ∀ unit, P unit :=
    fun hminute hhour hday hweek unit => by cases unit <;> assumption
  rw [ofMicros_eq hlo hhi]
  split_ifs
  · refine ⟨.inl rfl, hunits ?_ ?_ ?_ ?_, ?_, ?_⟩ <;> simp only [WaitUnit.micros] <;> omega
  all_goals
    refine ⟨.inr ?_, hunits ?_ ?_ ?_ ?_, ?_, ?_⟩ <;> simp only [WaitUnit.micros] <;> omega

theorem Tells.amount_bounds (h : w.Tells span) (hspan : 0 ≤ span) :
    (w.unit = .minute → 0 ≤ w.amount ∧ w.amount < 60) ∧
      (w.unit = .hour → 1 ≤ w.amount ∧ w.amount < 24) ∧
      (w.unit = .day → 1 ≤ w.amount ∧ w.amount < 7) ∧ (w.unit = .week → 1 ≤ w.amount) := by
  obtain ⟨hreached, hlargest, hle, hlt⟩ := h
  have hhour := hlargest .hour
  have hday := hlargest .day
  have hweek := hlargest .week
  refine ⟨?_, ?_, ?_, ?_⟩
  all_goals
    intro hunit
    rw [hunit] at hreached hle hlt hhour hday hweek
    simp only [WaitUnit.micros, reduceCtorEq, false_or] at *
    omega

theorem floor_secondsOf_mono (ha : 0 ≤ a) (hab : a ≤ b) {k : Nat} (hk : 0 < k) :
    ((secondsOf a).divNat k).floor ≤ ((secondsOf b).divNat k).floor := by
  obtain ⟨m, rfl⟩ := Int.eq_ofNat_of_zero_le ha
  obtain ⟨n, rfl⟩ := Int.eq_ofNat_of_zero_le (ha.trans hab)
  exact Number.floor_divNat_nearest_mono (by decide) hk (by omega)

/-- A longer span is told by no lesser wait, however long it is. -/
theorem ofMicros_mono (ha : 0 ≤ a) (hab : a ≤ b) : (ofMicros a).Le (ofMicros b) := by
  have hminutes := floor_secondsOf_mono ha hab (k := 60) (by decide)
  have hhours := floor_secondsOf_mono ha hab (k := 3600) (by decide)
  have hdays := floor_secondsOf_mono ha hab (k := 86400) (by decide)
  unfold ofMicros
  dsimp only
  generalize ((secondsOf a).divNat 60).floor = minutes at *
  generalize ((secondsOf b).divNat 60).floor = minutes' at *
  generalize ((secondsOf a).divNat 3600).floor = hours at *
  generalize ((secondsOf b).divNat 3600).floor = hours' at *
  generalize ((secondsOf a).divNat 86400).floor = days at *
  generalize ((secondsOf b).divNat 86400).floor = days' at *
  -- a span past a limit leaves no longer one before it
  split_ifs
  all_goals
    simp only [Le, WaitUnit.micros, reduceCtorEq, false_and, true_and, or_false]
    omega

theorem amount_ofMicros_nonneg (hspan : 0 ≤ span) : 0 ≤ (ofMicros span).amount := by
  have hfloor : ∀ k, 0 < k → k ≤ 86400 → 0 ≤ ((secondsOf span).divNat k).floor := by
    intro k hpos hk
    have hzero := floor_secondsOf Int.le_rfl (show 0 < century by decide) hpos hk
    rw [Int.zero_ediv] at hzero
    exact hzero.symm.trans_le (floor_secondsOf_mono Int.le_rfl hspan hpos)
  have hminutes := hfloor 60 (by decide) (by decide)
  have hhours := hfloor 3600 (by decide) (by decide)
  have hdays := hfloor 86400 (by decide) (by decide)
  unfold ofMicros
  dsimp only
  split_ifs <;> dsimp only <;> omega

end Wait

variable {run now start : Moment} {clocks : ClockRule} {s : Schedule} {count minutes : Int}
  {label : String} {shown : List ShownRun}

/-! Spans between moments. -/

theorem Moment.exists_since (h : run.zone.isSome = now.zone.isSome) :
    ∃ span, run.since now = .ok span := by
  unfold since
  cases hrun : run.zone with
  | none =>
    cases hnow : now.zone with
    | none => exact ⟨_, rfl⟩
    | some b =>
      rw [hrun, hnow] at h
      cases h
  | some a =>
    cases hnow : now.zone with
    | none =>
      rw [hrun, hnow] at h
      cases h
    | some b =>
      dsimp only
      split
      · exact ⟨_, rfl⟩
      · exact ⟨_, rfl⟩

theorem Moment.isKnown_of_localize {target : Option Zone} (hz : ∀ zone ∈ now.zone, zone.IsKnown)
    (htarget : ∀ zone ∈ target, zone.IsKnown) (h : now.localize clocks target = .ok start) :
    ∀ zone ∈ start.zone, zone.IsKnown := by
  cases target with
  | none =>
    cases hnow : now.zone with
    | none =>
      rw [localize, hnow] at h
      cases h
      exact hz
    | some zone =>
      rw [localize, hnow] at h
      obtain ⟨instant, -, h⟩ := bind_eq_ok_iff.1 h
      unfold localOfUtc at h
      split at h
      · cases h
      · cases h
        simp [ofWall]
  | some target =>
    rw [localize] at h
    split at h
    · cases h
      exact hz
    · obtain ⟨instant, -, h⟩ := bind_eq_ok_iff.1 h
      unfold ofUtc at h
      split at h
      · cases h
      · cases h
        exact htarget

theorem moment_of_showRun {r : ShownRun} (h : showRun run start = .ok r) :
    r.moment = run ∧ relativeLabel run start = .ok r.relative := by
  obtain ⟨relative, hrelative, h⟩ := bind_eq_ok_iff.1 h
  cases h
  exact ⟨rfl, hrelative⟩

namespace Schedule

/-- Runs have the clocks of the start, come after it on them, and ascend. -/
theorem ascending_nextRuns {runs : List Moment} (hk : ∀ zone ∈ start.zone, zone.IsKnown)
    (h : s.nextRuns start count minutes = .ok runs) :
    (∀ r ∈ runs, r.zone = start.zone ∧ start.wall.micros < r.wall.micros) ∧
      runs.Pairwise (·.wall.micros < ·.wall.micros) := by
  by_cases hnone : count ≤ 0 ∨ minutes ≤ 0
  · rw [nextRuns, if_pos hnone] at h
    cases h
    simp
  have hc : 1 ≤ count := by omega
  have hm : 1 ≤ minutes := by omega
  obtain ⟨first, instant, hfirst, hread, hin⟩ := keepsCalendar_of_nextRuns hk h hc hm
  rcases s.nextRuns_of_first hk hc hm hfirst hread with ⟨-, hruns⟩ | ⟨hout, -⟩
  rotate_left
  · exact absurd hin hout
  rw [h] at hruns
  cases hruns
  have hmicros := WallTime.micros_of_nextMinute? hfirst
  simp only [WallTime.floorMinute, WallTime.minutes] at hmicros
  have hminute : first.micros % 60000000 = 0 := by omega
  have hdue := enumerates_dueWithin (s := s) (isKnown_getD hk).isSteady hminute hread minutes.toNat
  constructor
  · intro r hr
    obtain ⟨w, hw, rfl⟩ := List.mem_map.1 hr
    have hafter := ((hdue.mem_iff w).1 (List.mem_of_mem_take hw)).2.1
    exact ⟨rfl, by dsimp only; omega⟩
  · exact (hdue.ascending.sublist (List.take_sublist ..)).map _ fun _ _ hlt => hlt

/-- The runs that are shown ascend from the start that they are told from. -/
theorem ascending_upcoming (hz : ∀ zone ∈ now.zone, zone.IsKnown)
    (h : s.upcoming clocks now count minutes label = .ok shown) :
    ∃ start, (Zone.ofLabel label >>= now.localize clocks) = .ok start ∧
      (∀ r ∈ shown, r.moment.zone = start.zone ∧ start.wall.micros < r.moment.wall.micros ∧
        relativeLabel r.moment start = .ok r.relative) ∧
      shown.Pairwise (·.moment.wall.micros < ·.moment.wall.micros) := by
  obtain ⟨target, hlabel, h⟩ := bind_eq_ok_iff.1 h
  obtain ⟨start, hstart, h⟩ := bind_eq_ok_iff.1 h
  obtain ⟨runs, hruns, h⟩ := bind_eq_ok_iff.1 h
  have htarget : ∀ zone ∈ target, zone.IsKnown := by
    rintro zone rfl
    exact Zone.isKnown_of_ofLabel label hlabel
  obtain ⟨hafter, hascending⟩ :=
    ascending_nextRuns (Moment.isKnown_of_localize hz htarget hstart) hruns
  have hshown := mapM_eq_ok_iff.1 h
  have hmoments : runs = shown.map (·.moment) := by
    rw [← List.forall₂_eq_eq_eq, List.forall₂_map_right_iff]
    exact hshown.imp fun _ _ hrun => (moment_of_showRun hrun).1.symm
  refine ⟨start, bind_eq_ok_iff.2 ⟨target, hlabel, hstart⟩, fun r hr => ?_, ?_⟩
  · obtain ⟨run, hrun, hr⟩ := exists_mem_of_forall₂ hshown hr
    obtain ⟨rfl, hrelative⟩ := moment_of_showRun hr
    obtain ⟨hzone, hlt⟩ := hafter _ hrun
    exact ⟨hzone, hlt, hrelative⟩
  · rwa [hmoments, List.pairwise_map] at hascending

end Schedule

/-- A wait is told for a run that is shown: it is that of the span from a start on. -/
def ShownRun.IsTold (r : ShownRun) (start : Moment) (w : Wait) : Prop :=
  r.relative = w.text ∧ ∃ span, 0 < span ∧ r.moment.since start = .ok span ∧ w = .ofMicros span

/-- Between moments of one kind a label tells the span, if that is not negative and is less than a
hundred years: in the largest unit that the span reaches, and by how many of them it holds. Longer
spans have no lesser waits. So the waits that are told for runs that are shown together never
decrease, and none is negative. -/
theorem relativeLabel_tells :
    (∀ run now : Moment, run.zone.isSome = now.zone.isSome →
      ∃ span, run.since now = .ok span ∧ (0 ≤ span → span < Wait.century →
        ∃ w : Wait, w = .ofMicros span ∧ w.Tells span ∧
          relativeLabel run now = .ok ("in " ++ toString w.amount ++ " " ++ w.unit.text ++
            if w.amount = 1 then "" else "s") ∧
          (w.unit = .minute → 0 ≤ w.amount ∧ w.amount < 60) ∧
          (w.unit = .hour → 1 ≤ w.amount ∧ w.amount < 24) ∧
          (w.unit = .day → 1 ≤ w.amount ∧ w.amount < 7) ∧ (w.unit = .week → 1 ≤ w.amount))) ∧
      (∀ a b : Int, 0 ≤ a → a ≤ b → (Wait.ofMicros a).Le (Wait.ofMicros b)) ∧
      ∀ (clocks : ClockRule) (s : Schedule) (now : Moment) (count minutes : Int) (label : String)
        (shown : List ShownRun), (∀ zone ∈ now.zone, zone.IsKnown) →
        s.upcoming clocks now count minutes label = .ok shown →
        ∃ start waits, (Zone.ofLabel label >>= now.localize clocks) = .ok start ∧
          List.Forall₂ (fun r w => ShownRun.IsTold r start w) shown waits ∧
          waits.Pairwise Wait.Le ∧ ∀ w ∈ waits, 0 ≤ w.amount := by
  refine ⟨?_, fun a b => Wait.ofMicros_mono, ?_⟩
  · intro run now hkind
    obtain ⟨span, hsince⟩ := Moment.exists_since hkind
    refine ⟨span, hsince, fun hlo hhi => ⟨_, rfl, Wait.tells_ofMicros hlo hhi, ?_,
      (Wait.tells_ofMicros hlo hhi).amount_bounds hlo⟩⟩
    rw [relativeLabel, hsince]
    rfl
  · intro clocks s now count minutes label shown hz hshown
    obtain ⟨start, hstart, hruns, hascending⟩ := Schedule.ascending_upcoming hz hshown
    -- the span until a run, on the clocks of the start
    obtain ⟨span, hspan⟩ : ∃ span : ShownRun → Int,
        ∀ r, span r = r.moment.wall.micros - start.wall.micros := ⟨_, fun _ => rfl⟩
    have hpos : ∀ r ∈ shown, 0 < span r := fun r hr => by
      have hlt := (hruns r hr).2.1
      rw [hspan]
      omega
    refine ⟨start, shown.map fun r => .ofMicros (span r), hstart, ?_, ?_, ?_⟩
    · rw [List.forall₂_map_right_iff, List.forall₂_same]
      intro r hr
      obtain ⟨hzone, -, hrelative⟩ := hruns r hr
      have hsince : r.moment.since start = .ok (span r) := by
        rw [hspan, Moment.since_of_zone_eq hzone]
      rw [relativeLabel, hsince] at hrelative
      exact ⟨(Except.ok.inj hrelative).symm, span r, hpos r hr, hsince, rfl⟩
    · rw [List.pairwise_map]
      refine hascending.imp_of_mem fun {q r} hq hr hlt => ?_
      refine Wait.ofMicros_mono (hpos q hq).le ?_
      rw [hspan, hspan]
      omega
    · intro w hw
      obtain ⟨r, hr, rfl⟩ := List.mem_map.1 hw
      exact Wait.amount_ofMicros_nonneg (hpos r hr).le

/-- From a microsecond before nine no minute is left until nine, and one hour until ten. -/
theorem relativeLabel_tells_before_nine :
    let day := 86400 * Date.toDay ⟨2026, 10, 17⟩
    let now : Moment := .utc ⟨(day + 32400) * 1000000 - 1, by decide⟩
    let nine : Moment := .utc ⟨(day + 32400) * 1000000, by decide⟩
    let ten : Moment := .utc ⟨(day + 36000) * 1000000, by decide⟩
    let s : Schedule := ⟨"0 * * * *", .ofValues .minute [0] false, .wildcard .hour,
      .wildcard .dayOfMonth, .wildcard .month, .wildcard .dayOfWeek⟩
    let shown : List ShownRun := [⟨nine, "Sat, 17 Oct 2026, 09:00", "in 0 minutes"⟩,
      ⟨ten, "Sat, 17 Oct 2026, 10:00", "in 1 hour"⟩]
    ten.zone.isSome = now.zone.isSome ∧ ten.since now = .ok 3600000001 ∧
      (∃ w : Wait, w = .ofMicros 3600000001 ∧ w.Tells 3600000001 ∧
        relativeLabel ten now = .ok ("in " ++ toString w.amount ++ " " ++ w.unit.text ++
          if w.amount = 1 then "" else "s") ∧
        (w.unit = .minute → 0 ≤ w.amount ∧ w.amount < 60) ∧
        (w.unit = .hour → 1 ≤ w.amount ∧ w.amount < 24) ∧
        (w.unit = .day → 1 ≤ w.amount ∧ w.amount < 7) ∧ (w.unit = .week → 1 ≤ w.amount)) ∧
      (Wait.ofMicros 1).Le (Wait.ofMicros 3600000001) ∧
      (∀ zone ∈ now.zone, zone.IsKnown) ∧
      s.upcoming (.constant 0) now 2 180 "UTC" = .ok shown ∧
      ∃ start waits, (Zone.ofLabel "UTC" >>= now.localize (.constant 0)) = .ok start ∧
        List.Forall₂ (fun r w => ShownRun.IsTold r start w) shown waits ∧
        waits.Pairwise Wait.Le ∧ ∀ w ∈ waits, 0 ≤ w.amount := by
  intro day now nine ten s shown
  have hkind : ten.zone.isSome = now.zone.isSome := by decide
  have hsince : ten.since now = .ok 3600000001 := by decide +kernel
  have hz : ∀ zone ∈ now.zone, zone.IsKnown := by
    rintro _ ⟨⟩
    trivial
  have hshown : s.upcoming (.constant 0) now 2 180 "UTC" = .ok shown := by
    have hlabel : Zone.ofLabel "UTC" = .ok (some .utc) := by decide +kernel
    have hstart : now.localize (.constant 0) (some .utc) = .ok now := rfl
    have hruns : s.nextRuns now 2 180 = .ok [nine, ten] := by decide +kernel
    have hnine : relativeLabel nine now = .ok "in 0 minutes" := by decide +kernel
    have hten : relativeLabel ten now = .ok "in 1 hour" := by decide +kernel
    have hformatted : displayText nine.wall = "Sat, 17 Oct 2026, 09:00" := by decide +kernel
    have hformatted' : displayText ten.wall = "Sat, 17 Oct 2026, 10:00" := by decide +kernel
    rw [Schedule.upcoming, hlabel, ok_bind, hstart, ok_bind, hruns, ok_bind, List.mapM_cons,
      List.mapM_cons, showRun, hnine, hformatted, showRun, hten, hformatted']
    rfl
  obtain ⟨span, hspan, htells⟩ := relativeLabel_tells.1 ten now hkind
  obtain rfl : span = 3600000001 := Except.ok.inj (hspan.symm.trans hsince)
  exact ⟨hkind, hsince, htells (by decide) (by decide +kernel),
    relativeLabel_tells.2.1 1 3600000001 (by decide) (by decide), hz, hshown,
    relativeLabel_tells.2.2 (.constant 0) s now 2 180 "UTC" shown hz hshown⟩

end Cron
