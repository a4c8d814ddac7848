import Cron.Proofs.Calendar.Minutes
import Cron.Schedule.Runs

/-!
Runs after a moment without a zone: the first of the matching minutes within the horizon.
-/
namespace Cron.Schedule

-- A minute that passes is found; the walk ends with it if no other is wanted.
theorem wallRuns_of_passes {sieve : Sieve} {candidate next : WallTime}
    (hnext : candidate.nextMinute? = some next) (hp : sieve.passes candidate = true)
    (minutes count : Nat) (found : List Moment) :
    wallRuns sieve (minutes + 1) count candidate found =
      if count ≤ 1 then .ok (.ofWall candidate :: found).reverse
      else wallRuns sieve minutes (count - 1) next (.ofWall candidate :: found) := by
  rw [wallRuns, hnext]
  simp only [hp, if_true]

theorem wallRuns_of_not_passes {sieve : Sieve} {candidate next : WallTime}
    (hnext : candidate.nextMinute? = some next) (hp : sieve.passes candidate = false)
    (minutes count : Nat) (found : List Moment) :
    wallRuns sieve (minutes + 1) count candidate found =
      wallRuns sieve minutes count next found := by
  rw [wallRuns, hnext]
  simp only [hp, Bool.false_eq_true, if_false]

-- A walk that stays on the calendar finds the first of the minutes that pass.
theorem wallRuns_eq {sieve : Sieve} {minutes count : Nat} {candidate : WallTime}
    (found : List Moment) (hc : 1 ≤ count)
    (hr : candidate.micros + 60000000 * minutes < calendarMicros) :
    wallRuns sieve minutes count candidate found =
      .ok (found.reverse ++
        (((candidate.minutesFrom minutes).filter sieve.passes).take count).map .ofWall) := by
  induction minutes generalizing candidate count found with
  | zero =>
    simp [wallRuns, WallTime.minutesFrom_zero]
  | succ minutes ih =>
    rw [Nat.mul_succ, ← Nat.add_assoc] at hr
    rcases WallTime.exists_nextMinute? (w := candidate) (by omega) with ⟨next, hnext⟩
    have hm := WallTime.micros_of_nextMinute? hnext
    have hr' : next.micros + 60000000 * minutes < calendarMicros := by omega
    rw [WallTime.minutesFrom_succ hnext]
    by_cases hp : sieve.passes candidate = true
    · rw [wallRuns_of_passes hnext hp, List.filter_cons_of_pos hp]
      split
      · next hlast =>
        obtain rfl : count = 1 := by omega
        simp
      · next hmore =>
        obtain ⟨rest, rfl⟩ : ∃ rest, count = rest + 1 := ⟨count - 1, by omega⟩
        rw [Nat.add_sub_cancel, ih _ (by omega) hr']
        simp
    · rw [Bool.not_eq_true] at hp
      rw [wallRuns_of_not_passes hnext hp, ih found hc hr', List.filter_cons_of_neg (by simp [hp])]

/-- The runs after a moment without a zone are the first `count` of the minutes within the horizon
that match, in order. The test that the walk applies is the schedule's own. -/
theorem nextRuns_of_no_zone {s : Schedule} {start : Moment} {count minutes : Int}
    (hz : start.zone = none) (hc : 1 ≤ count) (hm : 1 ≤ minutes)
    (hr : start.wall.floorMinute.micros + 60000000 * (minutes + 1) < calendarMicros) :
    (∃ due : List WallTime,
      Enumerates due (fun w =>
        (∃ k : Nat, 1 ≤ k ∧ k ≤ minutes ∧
          w.micros = start.wall.floorMinute.micros + 60000000 * k) ∧
        s.matchesTime w = true) ∧
      s.nextRuns start count minutes = .ok ((due.take count.toNat).map .ofWall)) ∧
    ∀ w, s.sieve.passes w = s.matchesTime w := by
  refine ⟨?_, passes_sieve s⟩
  rcases WallTime.exists_nextMinute? (w := start.wall.floorMinute) (by omega) with ⟨first, hfirst⟩
  have hmicros := WallTime.micros_of_nextMinute? hfirst
  have hwalk : wallRuns s.sieve minutes.toNat count.toNat first [] = _ :=
    wallRuns_eq [] (by omega) (by omega)
  refine ⟨(first.minutesFrom minutes.toNat).filter s.sieve.passes, ⟨?_, ?_⟩, ?_⟩
  · exact (WallTime.pairwise_minutesFrom first _).filter _
  · intro w
    rw [List.mem_filter, passes_sieve, WallTime.mem_minutesFrom]
    apply and_congr_left
    intro _
    constructor
    · intro hex
      rcases hex with ⟨k, hk, hw⟩
      exact ⟨k + 1, by omega, by omega, by omega⟩
    · intro hex
      rcases hex with ⟨k, hk, hle, hw⟩
      exact ⟨k - 1, by omega, by omega⟩
  · rw [nextRuns, if_neg (by omega), hfirst, hz]
    exact hwalk

/-- From the last half hour before a leap day, noon of that day is within a day. -/
theorem nextRuns_of_no_zone_leap_day :
    let s : Schedule := ⟨"0 12 29 2 *", .ofValues .minute [0] false, .ofValues .hour [12] false,
      .ofValues .dayOfMonth [29] false, .ofValues .month [2] false, .wildcard .dayOfWeek⟩
    let start : Moment :=
      .ofWall ⟨(86400 * Date.toDay ⟨2024, 2, 28⟩ + 84645) * 1000000, by decide⟩
    start.zone = none ∧ (1 : Int) ≤ 3 ∧ (1 : Int) ≤ 1440 ∧
      start.wall.floorMinute.micros + 60000000 * ((1440 : Int) + 1) < calendarMicros ∧
      (∃ due : List WallTime,
        Enumerates due (fun w =>
          (∃ k : Nat, 1 ≤ k ∧ k ≤ (1440 : Int) ∧
            w.micros = start.wall.floorMinute.micros + 60000000 * k) ∧
          s.matchesTime w = true) ∧
        s.nextRuns start 3 1440 = .ok ((due.take 3).map .ofWall)) ∧
      ∀ w, s.sieve.passes w = s.matchesTime w :=
  ⟨rfl, by decide, by decide, by decide,
    nextRuns_of_no_zone rfl (by decide) (by decide) (by decide)⟩

end Cron.Schedule
