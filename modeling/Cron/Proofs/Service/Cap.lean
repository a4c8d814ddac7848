import Cron.Proofs.Runs.Bounds
import Cron.Proofs.Runs.Upcoming
import Cron.Proofs.Service.Asked

/-!
How many runs an answer holds. A count that a request gives is cut off at the greatest one that the
settings allow, and the default of the settings is not. So the cap holds for every request exactly
if the settings keep their default below it, or no walk can find more runs than it allows.
-/
namespace Cron

theorem WallTime.length_minutesFrom {w : WallTime} {n : Nat}
    (h : w.micros + 60000000 * n < calendarMicros) : (w.minutesFrom n).length = n := by
  induction n generalizing w with
  | zero => rfl
  | succ n ih =>
    rw [Nat.mul_succ, ← Nat.add_assoc] at h
    obtain ⟨next, hnext⟩ := exists_nextMinute? (w := w) (by omega)
    have hm := micros_of_nextMinute? hnext
    rw [minutesFrom_succ hnext, List.length_cons, ih (by omega)]

namespace Schedule

variable {instant : WallTime} {count minutes : Nat}

-- In the clocks of UTC every minute is fresh, and five stars match it.
theorem dueWithin_everyMinute (instant : WallTime) (n : Nat) :
    everyMinute.dueWithin .utc instant n = instant.minutesFrom n := by
  have hfresh : Zone.utc.freshWall? = some := by
    funext t
    have hadd : t.addSeconds? 0 = some t := WallTime.addSeconds?_eq_some.2 (by omega)
    show (t.addSeconds? 0).filter _ = some t
    rw [hadd]
    rfl
  rw [dueWithin, hfresh, List.filterMap_some, List.filter_eq_self]
  exact fun w _ => matchesTime_everyMinute w

theorem length_dueWithin_everyMinute (count minutes : Nat)
    (h : instant.micros + 60000000 * min count minutes < calendarMicros) :
    min count minutes ≤ (everyMinute.dueWithin .utc instant minutes).length := by
  have hprefix := everyMinute.dueWithin_prefix .utc instant (Nat.min_le_right count minutes)
  have hlength := hprefix.length_le
  rwa [dueWithin_everyMinute instant (min count minutes), WallTime.length_minutesFrom h] at hlength

theorem staysInside_everyMinute (count minutes : Nat)
    (h : instant.micros + 60000000 * min count minutes < calendarMicros) :
    everyMinute.StaysInside .utc instant count minutes := by
  intro k hk hfew
  -- from the minute on at which enough was found there is nothing to show
  have hlt : k < count := by
    by_contra hle
    have hmin : min count k = min count minutes := by omega
    have hlength := length_dueWithin_everyMinute count k (hmin ▸ h)
    omega
  let t : WallTime := ⟨instant.micros + 60000000 * k, by omega⟩
  have ht : instant.addMinutes? k = some t := WallTime.addMinutes?_eq_some.2 rfl
  have hinside : t.micros + 60000000 < calendarMicros := by
    show instant.micros + 60000000 * k + 60000000 < calendarMicros
    omega
  obtain ⟨next, hnext⟩ := WallTime.exists_nextMinute? hinside
  exact ⟨t, t, next, ht, Zone.shows_iff.2 (Int.add_zero _).symm, hnext⟩

/-- From the beginning of the calendar on five stars are due at every minute that it holds. -/
theorem exists_upcoming_everyMinute (clocks : ClockRule) {count minutes : Int} (hc : 1 ≤ count)
    (hm : 1 ≤ minutes) (h : 60000000 * (min count minutes + 2) ≤ calendarMicros) :
    ∃ instant shown, everyMinute.upcoming clocks (.utc instant) count minutes "UTC" = .ok shown ∧
      min count minutes ≤ shown.length := by
  let instant : WallTime := ⟨0, by decide⟩
  let first : WallTime := ⟨60000000, by decide⟩
  have hlabel : Zone.ofLabel "UTC" = .ok (some .utc) := by decide +kernel
  have hstart : (Moment.utc instant).localize clocks (some .utc) = .ok (.utc instant) := rfl
  have hfirst : (Moment.utc instant).wall.floorMinute.nextMinute? = some first := by decide
  have hroom : first.micros + 60000000 * min count.toNat minutes.toNat < calendarMicros := by
    show 60000000 + 60000000 * min count.toNat minutes.toNat < calendarMicros
    omega
  have hin := staysInside_everyMinute count.toNat minutes.toNat hroom
  have hlength := length_dueWithin_everyMinute count.toNat minutes.toNat hroom
  have hutc : ∀ zone ∈ (Moment.utc instant).zone, zone.IsKnown := by
    rintro _ ⟨⟩
    trivial
  let runs : List Moment :=
    ((everyMinute.dueWithin .utc first minutes.toNat).take count.toNat).map
      fun w => ⟨w, some .utc, false⟩
  have hruns : everyMinute.nextRuns (.utc instant) count minutes = .ok runs :=
    ((everyMinute.nextRuns_of_first hutc hc hm hfirst (Zone.toUtc_utc first)).resolve_right
      fun hout => hout.1 hin).2
  have hzones : ∀ r ∈ runs, r.zone = (Moment.utc instant).zone := by
    intro r hr
    obtain ⟨w, -, rfl⟩ := List.mem_map.1 hr
    rfl
  obtain ⟨shown, hshown⟩ := exists_shown hzones
  have hshows := (mapM_eq_ok_iff.1 hshown).length_eq
  refine ⟨instant, shown, ?_, ?_⟩
  · rw [upcoming, hlabel, ok_bind, hstart, ok_bind, hruns, ok_bind]
    exact hshown
  · rw [← hshows, List.length_map, List.length_take]
    omega

end Schedule

namespace Service

/-- The greatest count that a request gets: the cap of the settings if it gives one, and their
default if it does not. -/
def limitOf (scheduler : SchedulerSettings) : Json → Nat
  | .null | .text "" => scheduler.defaultCount
  | _ => scheduler.maxCount

theorem limitOf_of_given {scheduler : SchedulerSettings} {v : Json} (hnull : v ≠ .null)
    (hempty : v ≠ .text "") : limitOf scheduler v = scheduler.maxCount := by
  unfold limitOf
  split
  · exact absurd rfl hnull
  · exact absurd rfl hempty
  · rfl

theorem countOf_le {scheduler : SchedulerSettings} {v : Json} {n : Nat}
    (h : countOf scheduler v = .ok n) :
    n ≤ limitOf scheduler v ∧ (n = scheduler.defaultCount ∨ n ≤ scheduler.maxCount) := by
  unfold countOf at h
  split at h
  · cases h
    exact ⟨Nat.le_refl _, .inl rfl⟩
  · cases h
    exact ⟨Nat.le_refl _, .inl rfl⟩
  · next hnull hempty =>
    obtain ⟨k, -, hk⟩ := bind_eq_ok_iff.1 h
    rw [limitOf_of_given hnull hempty]
    split at hk
    · cases hk
    · cases hk
      have hmax := Nat.min_le_right k.toNat scheduler.maxCount
      exact ⟨hmax, .inr hmax⟩

/-- Every answer with runs holds at most as many as the cap of the settings says. -/
def Caps (settings : Settings) : Prop :=
  ∀ levels clocks instant request page runs,
    answerWithin levels settings clocks (.utc instant) request = .ok ⟨200, some page⟩ →
      page.member? "next_runs" = some (.list runs) → runs.length ≤ settings.scheduler.maxCount

-- A request without a count, for five stars in the clocks of UTC.
theorem asks_everyMinute (levels : Nat) :
    Asks levels ⟨"GET", ⟨"/cron/next", [("expression", "* * * * *"), ("timezone", "UTC")]⟩, ""⟩
      (.ok ⟨"* * * * *", .null, .text "UTC"⟩) :=
  .next (by decide +kernel)

/-- Settings that leave a walk room for more runs than their cap give them to some request. -/
theorem not_caps {settings : Settings}
    (hcount : settings.scheduler.maxCount < settings.scheduler.defaultCount)
    (hminutes : settings.scheduler.maxCount < settings.scheduler.horizon.minutes)
    (hroom : 60000000 * (min (settings.scheduler.defaultCount : Int)
      settings.scheduler.horizon.minutes + 2) ≤ calendarMicros) : ¬ Caps settings := by
  have hcap := settings.scheduler.one_le_maxCount
  let clocks : ClockRule := .constant 0
  obtain ⟨instant, shown, hshown, hlength⟩ :=
    Schedule.exists_upcoming_everyMinute clocks (by omega) (by omega) hroom
  have hfound : Asked.find settings clocks (.utc instant) ⟨"* * * * *", .null, .text "UTC"⟩ =
      .ok (Schedule.everyMinute, .list (shown.map ShownRun.toJson)) :=
    Asked.find_eq_ok_iff.2 ⟨_, "UTC", shown, rfl, rfl, rfl, hshown, rfl⟩
  obtain ⟨page, hpage, hanswer⟩ :=
    (asks_everyMinute maxDepth).exists_answer_eq settings clocks (.utc instant)
  rw [ok_bind, hfound, ok_bind] at hanswer
  intro hcaps
  have hle := hcaps maxDepth clocks instant _ _ _ hanswer (hpage _ _)
  rw [List.length_map] at hle
  omega

/-- An answer with runs holds at most as many as its request gets. No answer exceeds the cap of the
settings exactly if their default count does not, or their horizon is no longer than the cap, or the
calendar has no room for a walk that finds more. -/
theorem caps_iff (settings : Settings) :
    (∀ levels clocks instant request asked page, Asks levels request (.ok asked) →
        answerWithin levels settings clocks (.utc instant) request = .ok ⟨200, some page⟩ →
        ∃ runs, page.member? "next_runs" = some (.list runs) ∧
          runs.length ≤ limitOf settings.scheduler asked.count) ∧
      (Caps settings ↔ settings.scheduler.defaultCount ≤ settings.scheduler.maxCount ∨
        settings.scheduler.horizon.minutes ≤ settings.scheduler.maxCount ∨
        calendarMicros < 60000000 * (min (settings.scheduler.defaultCount : Int)
          settings.scheduler.horizon.minutes + 2)) := by
  constructor
  · intro levels clocks instant request asked page hasks hanswer
    obtain ⟨a, found, ⟨⟩, hfound, hpage⟩ := hasks.exists_find_eq hanswer
    obtain ⟨n, label, shown, -, hcount, -, hshown, hruns⟩ := Asked.find_eq_ok_iff.1 hfound
    have hle := (countOf_le hcount).1
    have hlength := (Schedule.length_le_of_upcoming hshown).1
    refine ⟨_, hpage.trans (congrArg some hruns), ?_⟩
    rw [List.length_map]
    omega
  constructor
  · intro hcaps
    by_contra hnot
    rw [not_or, not_or, not_le, not_le, not_lt] at hnot
    exact not_caps hnot.1 hnot.2.1 hnot.2.2 hcaps
  · intro hrange levels clocks instant request page runs hanswer hruns
    obtain ⟨asked, hasks⟩ := exists_asks hanswer hruns
    obtain ⟨a, found, -, hfound, hpage⟩ := hasks.exists_find_eq hanswer
    obtain ⟨n, label, shown, -, hcount, -, hshown, hlist⟩ := Asked.find_eq_ok_iff.1 hfound
    obtain ⟨hle, hle', hroom⟩ := Schedule.length_le_of_upcoming hshown
    rw [hruns, hlist] at hpage
    cases hpage
    rw [List.length_map]
    obtain rfl | hmax := (countOf_le hcount).2
    · omega
    · omega

/-- With a default of three and a cap of two, a request that gives no count is answered with three
runs. -/
theorem not_caps_default_above_cap :
    let scheduler : SchedulerSettings := ⟨"UTC", 3, 2, by decide, .year⟩
    let settings : Settings := ⟨"~/.cronscope", .initial, scheduler, "INFO"⟩
    let morning : WallTime := ⟨(86400 * Date.toDay ⟨2026, 10, 17⟩ + 28800) * 1000000, by decide⟩
    let get : Request :=
      ⟨"GET", ⟨"/cron/next", [("expression", "* * * * *"), ("timezone", "UTC")]⟩, ""⟩
    (∃ page runs, answer settings (.constant 0) (.utc morning) get = .ok ⟨200, some page⟩ ∧
        page.member? "next_runs" = some (.list runs) ∧ runs.length = 3) ∧ ¬ Caps settings := by
  intro scheduler settings morning get
  have hlength : (Schedule.everyMinute.upcoming (.constant 0) (.utc morning) (3 : Nat)
      settings.scheduler.horizon.minutes "UTC").toOption.map List.length = some 3 := by
    decide +kernel
  obtain ⟨shown, hok, hthree⟩ := Option.map_eq_some_iff.1 hlength
  have hshown := eq_ok_of_toOption hok
  have hfound : Asked.find settings (.constant 0) (.utc morning) ⟨"* * * * *", .null, .text "UTC"⟩ =
      .ok (Schedule.everyMinute, .list (shown.map ShownRun.toJson)) :=
    Asked.find_eq_ok_iff.2 ⟨3, "UTC", shown, rfl, rfl, rfl, hshown, rfl⟩
  obtain ⟨page, hpage, hanswer⟩ :=
    (asks_everyMinute maxDepth).exists_answer_eq settings (.constant 0) (.utc morning)
  rw [ok_bind, hfound, ok_bind] at hanswer
  have hruns : (shown.map ShownRun.toJson).length = 3 := by rw [List.length_map, hthree]
  refine ⟨⟨_, _, hanswer, hpage _ _, hruns⟩, fun hcaps => ?_⟩
  have hle := hcaps maxDepth _ _ _ _ _ hanswer (hpage _ _)
  rw [hruns] at hle
  exact absurd hle (by decide)

end Service

end Cron
