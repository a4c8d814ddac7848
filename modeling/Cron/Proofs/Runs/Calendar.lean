import Cron.Proofs.Readings
import Cron.Proofs.Runs.Wall
import Cron.Proofs.Runs.Zone

/-!
Where walks end. A walk gives runs exactly if it stays within the calendar, and there is no other
way for it to fail. A walk over wall minutes is the walk over the minutes of UTC.
-/
namespace Cron

theorem Zone.Inside.of_next {zone : Zone} {instant next : WallTime} {k : Nat}
    (h : zone.Inside next k) (hnext : instant.nextMinute? = some next) :
    zone.Inside instant (k + 1) := by
  obtain ⟨t, wall, after, ht, hw, hafter⟩ := h
  refine ⟨t, wall, after, ?_, hw, hafter⟩
  have hm := WallTime.micros_of_nextMinute? hnext
  rw [WallTime.addMinutes?_eq_some] at ht ⊢
  omega

theorem Zone.toUtc_utc (w : WallTime) : Zone.utc.toUtc w false = .ok w :=
  Zone.toUtc_eq_ok.2 (Int.sub_zero _).symm

theorem Zone.toUtc_eq_error {zone : Zone} {w : WallTime} {second : Bool} {fault : Fault}
    (h : zone.toUtc w second = .error fault) : fault = .beyondRange := by
  unfold Zone.toUtc at h
  split at h
  · cases h
    rfl
  · cases h

namespace Schedule

variable {s : Schedule} {sieve : Sieve} {zone : Zone} {instant candidate : WallTime}
  {latest : Option WallTime} {minutes count k : Nat} {found : List Moment}

-- A minute that is not inside the calendar ends the walk.
theorem zoneRuns_succ_cases (sieve : Sieve) (zone : Zone) (minutes count : Nat)
    (candidate : WallTime) (latest : Option WallTime) (found : List Moment) :
    (∃ wall next, zone.Shows candidate wall ∧ candidate.nextMinute? = some next) ∨
      zoneRuns sieve zone (minutes + 1) count candidate latest found = .error .beyondRange := by
  cases hwall : candidate.addSeconds? (zone.rule.offsetAt candidate.seconds) with
  | none =>
    right
    rw [zoneRuns, hwall]
  | some wall =>
    cases hnext : candidate.nextMinute? with
    | none =>
      right
      rw [zoneRuns, hwall, hnext]
    | some next => exact .inl ⟨wall, next, Zone.shows_iff_addSeconds?.2 hwall, rfl⟩

/-- A walk that gives runs stays within the calendar: it comes to a minute only while it has not
found enough. -/
theorem staysInside_of_zoneRuns (hs : zone.rule.IsSteady)
    (hrecord : zone.rule.IsRecord instant.seconds) {runs : List Moment}
    (hk : instant.addMinutes? k = some candidate) (hl : IsLatest zone instant k latest)
    (h : zoneRuns s.sieve zone minutes count candidate latest found = .ok runs) :
    s.StaysInside zone candidate count minutes := by
  induction minutes generalizing count k candidate latest found with
  | zero => exact fun j hj => absurd hj (Nat.not_lt_zero j)
  | succ minutes ih =>
    obtain ⟨wall, next, hw, hnext⟩ | herror :=
      zoneRuns_succ_cases s.sieve zone minutes count candidate latest found
    rotate_left
    · rw [herror] at h
      cases h
    have hk' := WallTime.addMinutes?_succ hk hnext
    have hfresh := hl.freshWall?_eq hs hrecord hk hw
    rw [zoneRuns_succ hw hnext] at h
    intro j hj hfew
    cases j with
    | zero =>
      have hstart : candidate.addMinutes? 0 = some candidate :=
        WallTime.addMinutes?_eq_some.2 (by omega)
      exact ⟨candidate, wall, next, hstart, hw, hnext⟩
    | succ j =>
      apply Zone.Inside.of_next _ hnext
      by_cases hany : (latest.any fun latest => wall.micros ≤ latest.micros) = true
      · rw [dueWithin_succ_of_stale hnext (hfresh.trans (if_pos hany))] at hfew
        rw [if_pos hany] at h
        exact ih hk' (hl.skip hk hw hany) h j (by omega) hfew
      · have hraise := hl.raise hk hw (Bool.not_eq_true _ ▸ hany)
        rw [dueWithin_succ_of_fresh hnext (hfresh.trans (if_neg hany))] at hfew
        rw [if_neg hany, passes_sieve] at h
        split at h
        · next hmatch =>
          rw [if_pos hmatch, List.length_cons] at hfew
          rw [if_neg (by omega)] at h
          exact ih hk' hraise h j (by omega) (by omega)
        · next hmatch =>
          rw [if_neg hmatch] at hfew
          exact ih hk' hraise h j (by omega) hfew

theorem zoneRuns_eq_error {fault : Fault}
    (h : zoneRuns sieve zone minutes count candidate latest found = .error fault) :
    fault = .beyondRange := by
  induction minutes generalizing count candidate latest found with
  | zero => cases h
  | succ minutes ih =>
    obtain ⟨wall, next, hw, hnext⟩ | herror :=
      zoneRuns_succ_cases sieve zone minutes count candidate latest found
    · rw [zoneRuns_succ hw hnext] at h
      split at h
      · exact ih h
      · split at h
        · dsimp only at h
          split at h
          · cases h
          · exact ih h
        · exact ih h
    · rw [herror] at h
      cases h
      rfl

-- Clocks that stand at UTC show no wall time twice, so each minute is tested.
theorem wallRuns_eq_utc (hl : ∀ l, latest = some l → l.micros < candidate.micros)
    (found : List Moment) :
    wallRuns sieve minutes count candidate (found.map fun run => .ofWall run.wall) =
      (zoneRuns sieve .utc minutes count candidate latest found).map
        (List.map fun run => .ofWall run.wall) := by
  induction minutes generalizing count candidate latest found with
  | zero => simp only [wallRuns, zoneRuns, Except.map, List.map_reverse]
  | succ minutes ih =>
    have hw : Zone.utc.Shows candidate candidate := Zone.shows_iff.2 (Int.add_zero _).symm
    cases hnext : candidate.nextMinute? with
    | none =>
      have herror := (zoneRuns_succ_cases sieve .utc minutes count candidate latest
        found).resolve_left (by simp [hnext])
      rw [wallRuns, hnext, herror]
      rfl
    | some next =>
      have hm := WallTime.micros_of_nextMinute? hnext
      have hany : (latest.any fun latest => candidate.micros ≤ latest.micros) = false := by
        rw [Option.any_eq_false]
        intro l hlatest
        simpa using hl l hlatest
      have hl' : ∀ l, some candidate = some l → l.micros < next.micros := by
        rintro l ⟨⟩
        omega
      rw [zoneRuns_succ hw hnext, hany, if_neg Bool.false_ne_true]
      by_cases hp : sieve.passes candidate = true
      · rw [wallRuns_of_passes hnext hp, if_pos hp]
        dsimp only
        split
        · simp [Except.map]
        · exact ih hl' (⟨candidate, some .utc, Zone.utc.rule.offsetOfWall candidate.seconds false !=
            Zone.utc.rule.offsetAt candidate.seconds⟩ :: found)
      · rw [Bool.not_eq_true] at hp
        rw [wallRuns_of_not_passes hnext hp, if_neg (by simp [hp])]
        exact ih hl' found

/-- The walk after a start stays within the calendar, from the minute after the start's own on. A
start without a zone is walked as one of UTC. -/
def KeepsCalendar (s : Schedule) (start : Moment) (count minutes : Int) : Prop :=
  1 ≤ count → 1 ≤ minutes → ∃ first instant,
    start.wall.floorMinute.nextMinute? = some first ∧
    (start.zone.getD .utc).toUtc first false = .ok instant ∧
    s.StaysInside (start.zone.getD .utc) instant count.toNat minutes.toNat

-- A walk from a reading either finds what is due, or leaves the calendar.
theorem zoneRuns_cases (s : Schedule) {zone : Zone} {first instant : WallTime} {count : Nat}
    (hk : zone.IsKnown) (hread : zone.toUtc first false = .ok instant) (hc : 1 ≤ count)
    (minutes : Nat) :
    (s.StaysInside zone instant count minutes ∧
        zoneRuns s.sieve zone minutes count instant none [] =
          .ok (((s.dueWithin zone instant minutes).take count).map
            fun w => ⟨w, some zone, false⟩)) ∨
      ¬ s.StaysInside zone instant count minutes ∧
        zoneRuns s.sieve zone minutes count instant none [] = .error .beyondRange := by
  have hs := hk.isSteady
  have hrecord := (hs.isRecord_of_reading (Zone.seconds_of_toUtc hread)).1
  by_cases hin : s.StaysInside zone instant count minutes
  · exact .inl ⟨hin, zoneRuns_of_staysInside hs hrecord hc hin⟩
  · right
    cases h : zoneRuns s.sieve zone minutes count instant none [] with
    | ok runs =>
      have hstart : instant.addMinutes? 0 = some instant :=
        WallTime.addMinutes?_eq_some.2 (by omega)
      exact absurd (staysInside_of_zoneRuns hs hrecord hstart (isLatest_zero zone instant) h) hin
    | error fault =>
      rw [zoneRuns_eq_error h]
      exact ⟨hin, rfl⟩

section Start
variable {start : Moment} {count minutes : Int} {first : WallTime}

theorem nextRuns_of_first (s : Schedule) (hk : ∀ zone ∈ start.zone, zone.IsKnown) (hc : 1 ≤ count)
    (hm : 1 ≤ minutes) (hfirst : start.wall.floorMinute.nextMinute? = some first)
    (hread : (start.zone.getD .utc).toUtc first false = .ok instant) :
    (s.StaysInside (start.zone.getD .utc) instant count.toNat minutes.toNat ∧
        s.nextRuns start count minutes = .ok
          (((s.dueWithin (start.zone.getD .utc) instant minutes.toNat).take count.toNat).map
            fun w => ⟨w, start.zone, false⟩)) ∨
      ¬ s.StaysInside (start.zone.getD .utc) instant count.toNat minutes.toNat ∧
        s.nextRuns start count minutes = .error .beyondRange := by
  have hcount : 1 ≤ count.toNat := by omega
  cases hz : start.zone with
  | none =>
    have hutc : Zone.utc.IsKnown := trivial
    rw [hz, Option.getD_none, Zone.toUtc_utc] at hread
    cases hread
    have hwalk : s.nextRuns start count minutes =
        (zoneRuns s.sieve .utc minutes.toNat count.toNat instant none []).map
          (List.map fun run => .ofWall run.wall) := by
      have hlatest : ∀ l : WallTime, none = some l → l.micros < instant.micros := by simp
      rw [nextRuns, if_neg (by omega), hfirst, hz]
      exact wallRuns_eq_utc hlatest []
    rw [hwalk, Option.getD_none]
    rcases s.zoneRuns_cases hutc (Zone.toUtc_utc instant) hcount minutes.toNat with
      ⟨hin, hruns⟩ | ⟨hout, hruns⟩
    · refine .inl ⟨hin, ?_⟩
      rw [hruns, Except.map, List.map_map]
      rfl
    · refine .inr ⟨hout, ?_⟩
      rw [hruns]
      rfl
  | some zone =>
    have hwalk : s.nextRuns start count minutes =
        zoneRuns s.sieve zone minutes.toNat count.toNat instant none [] := by
      rw [hz, Option.getD_some] at hread
      rw [nextRuns, if_neg (by omega), hfirst, hz]
      dsimp only
      rw [hread, ok_bind]
    rw [hz] at hread
    rw [hwalk]
    exact s.zoneRuns_cases (hk zone hz) hread hcount minutes.toNat

theorem length_dueWithin_le (s : Schedule) (zone : Zone) (instant : WallTime) (n : Nat) :
    (s.dueWithin zone instant n).length ≤ n :=
  calc (s.dueWithin zone instant n).length
      ≤ ((instant.minutesFrom n).filterMap zone.freshWall?).length := List.length_filter_le _ _
    _ ≤ (instant.minutesFrom n).length := List.length_filterMap_le _ _
    _ ≤ (List.range n).length := List.length_filterMap_le _ _
    _ = n := List.length_range

/-- Either the walk after a start stays within the calendar, and gives no more runs than are asked
for and than there are minutes in the horizon, or it does not, and that is what is at fault. -/
theorem nextRuns_cases (s : Schedule) (hk : ∀ zone ∈ start.zone, zone.IsKnown)
    (count minutes : Int) :
    (s.KeepsCalendar start count minutes ∧ ∃ runs, s.nextRuns start count minutes = .ok runs ∧
        runs.length ≤ count.toNat ∧ runs.length ≤ minutes.toNat ∧ ∀ r ∈ runs, r.zone = start.zone) ∨
      ¬ s.KeepsCalendar start count minutes ∧
        s.nextRuns start count minutes = .error .beyondRange := by
  by_cases hnone : count ≤ 0 ∨ minutes ≤ 0
  · refine .inl ⟨fun hc hm => by omega, [], if_pos hnone, ?_⟩
    simp
  have hc : 1 ≤ count := by omega
  have hm : 1 ≤ minutes := by omega
  cases hfirst : start.wall.floorMinute.nextMinute? with
  | none =>
    right
    refine ⟨fun hkeeps => ?_, ?_⟩
    · obtain ⟨first, instant, h, -⟩ := hkeeps hc hm
      rw [hfirst] at h
      cases h
    · rw [nextRuns, if_neg hnone, hfirst]
  | some first =>
    cases hread : (start.zone.getD .utc).toUtc first false with
    | error fault =>
      right
      refine ⟨fun hkeeps => ?_, ?_⟩
      · obtain ⟨first', instant, hfirst', hread', -⟩ := hkeeps hc hm
        rw [hfirst] at hfirst'
        cases hfirst'
        rw [hread] at hread'
        cases hread'
      · cases hz : start.zone with
        | none =>
          rw [hz, Option.getD_none, Zone.toUtc_utc] at hread
          cases hread
        | some zone =>
          rw [hz, Option.getD_some] at hread
          rw [nextRuns, if_neg hnone, hfirst, hz]
          dsimp only
          rw [hread, error_bind, Zone.toUtc_eq_error hread]
    | ok instant =>
      have hiff : s.KeepsCalendar start count minutes ↔
          s.StaysInside (start.zone.getD .utc) instant count.toNat minutes.toNat := by
        constructor
        · intro hkeeps
          obtain ⟨first', instant', hfirst', hread', hin⟩ := hkeeps hc hm
          rw [hfirst] at hfirst'
          cases hfirst'
          rw [hread] at hread'
          cases hread'
          exact hin
        · exact fun hin _ _ => ⟨first, instant, hfirst, hread, hin⟩
      rw [hiff]
      apply (s.nextRuns_of_first hk hc hm hfirst hread).imp_left
      rintro ⟨hin, hruns⟩
      refine ⟨hin, _, hruns, ?_, ?_, ?_⟩
      · rw [List.length_map]
        exact List.length_take_le _ _
      · rw [List.length_map]
        exact (List.length_take_le' _ _).trans (s.length_dueWithin_le _ _ _)
      · intro r hr
        obtain ⟨w, -, rfl⟩ := List.mem_map.1 hr
        rfl

theorem isKnown_getD (hk : ∀ zone ∈ start.zone, zone.IsKnown) :
    (start.zone.getD .utc).IsKnown := by
  cases hz : start.zone with
  | none => trivial
  | some zone => exact hk zone hz

-- A walk that gives runs kept within the calendar.
theorem keepsCalendar_of_nextRuns {runs : List Moment} (hk : ∀ zone ∈ start.zone, zone.IsKnown)
    (h : s.nextRuns start count minutes = .ok runs) : s.KeepsCalendar start count minutes := by
  rcases s.nextRuns_cases hk count minutes with ⟨hkeeps, -⟩ | ⟨-, herror⟩
  · exact hkeeps
  · rw [herror] at h
    cases h

theorem exists_firstShows_of_mem_nextRuns {runs : List Moment} {r : Moment}
    (hk : ∀ zone ∈ start.zone, zone.IsKnown) (h : s.nextRuns start count minutes = .ok runs)
    (hr : r ∈ runs) : r.zone = start.zone ∧ r.second = false ∧
      ∃ t, (start.zone.getD .utc).FirstShows t r.wall := by
  have hsome : 1 ≤ count ∧ 1 ≤ minutes := by
    by_contra hnone
    rw [nextRuns, if_pos (by omega)] at h
    cases h
    cases hr
  obtain ⟨first, instant, hfirst, hread, hin⟩ :=
    keepsCalendar_of_nextRuns hk h hsome.1 hsome.2
  rcases s.nextRuns_of_first hk hsome.1 hsome.2 hfirst hread with ⟨-, hruns⟩ | ⟨hout, -⟩
  rotate_left
  · exact absurd hin hout
  rw [h] at hruns
  cases hruns
  obtain ⟨w, hw, rfl⟩ := List.mem_map.1 hr
  obtain ⟨-, t, -, ht⟩ :=
    (mem_dueWithin (isKnown_getD hk).isSteady).1 (List.mem_of_mem_take hw)
  exact ⟨rfl, rfl, t, ht⟩

end Start

end Schedule

end Cron
