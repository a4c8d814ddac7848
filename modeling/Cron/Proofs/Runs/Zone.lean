import Cron.Proofs.Zone.Passes
import Cron.Schedule.Runs
import Mathlib.Order.Nat

/-!
Runs after a moment of a zone: the matching wall times whose first pass lies within the horizon.
The walk keeps the latest wall time it was shown. That a wall time lies above it says the same as
that it is shown for the first time.
-/
namespace Cron

/-- Within the calendar the minute `k` after an instant exists, is shown as some wall time, and is
not the last. -/
def Zone.Inside (zone : Zone) (instant : WallTime) (k : Nat) : Prop :=
  ∃ t wall next, instant.addMinutes? k = some t ∧ zone.Shows t wall ∧ t.nextMinute? = some next

theorem Zone.Inside.next {zone : Zone} {instant next : WallTime} {k : Nat}
    (h : zone.Inside instant (k + 1)) (hnext : instant.nextMinute? = some next) :
    zone.Inside next k := by
  rcases h with ⟨t, w, after, ht, hw, hafter⟩
  refine ⟨t, w, after, ?_, hw, hafter⟩
  have hm := WallTime.micros_of_nextMinute? hnext
  rw [WallTime.addMinutes?_eq_some] at ht ⊢
  omega

namespace Schedule

/-- The wall times due in the first `n` minutes from an instant on: those shown for the first time
that match. -/
def dueWithin (s : Schedule) (zone : Zone) (instant : WallTime) (n : Nat) : List WallTime :=
  ((instant.minutesFrom n).filterMap zone.freshWall?).filter s.matchesTime

/-- A walk from an instant on stays within the calendar: it comes to a minute of the horizon only
while fewer than `count` wall times were due before. -/
def StaysInside (s : Schedule) (zone : Zone) (instant : WallTime) (count minutes : Nat) : Prop :=
  ∀ k < minutes, (s.dueWithin zone instant k).length < count → zone.Inside instant k

/-- The wall time up to which a walk has looked when it comes to minute `k`: the latest of those
shown at the minutes before. -/
structure IsLatest (zone : Zone) (instant : WallTime) (k : Nat) (latest : Option WallTime) :
    Prop where
  le : ∀ j < k, ∃ l, latest = some l ∧ zone.rule.shown (instant.seconds + 60 * j) ≤ l.seconds
  attained : ∀ l, latest = some l → l.micros % 1000000 = instant.micros % 1000000 ∧
    ∃ j < k, zone.rule.shown (instant.seconds + 60 * j) = l.seconds

variable {zone : Zone} {instant candidate wall : WallTime} {latest : Option WallTime} {k : Nat}

theorem isLatest_zero (zone : Zone) (instant : WallTime) : IsLatest zone instant 0 none :=
  ⟨fun _ hj => absurd hj (Nat.not_lt_zero _), fun _ hl => by cases hl⟩

theorem seconds_of_addMinutes? (h : instant.addMinutes? k = some candidate) :
    candidate.seconds = instant.seconds + 60 * k := by
  have hm := WallTime.micros_of_addMinutes? h
  simp only [WallTime.seconds]
  omega

-- The walk passes over a wall time exactly if it is not shown for the first time.
theorem IsLatest.any_iff (h : IsLatest zone instant k latest) (hs : zone.rule.IsSteady)
    (hrecord : zone.rule.IsRecord instant.seconds)
    (hk : instant.addMinutes? k = some candidate) (hw : zone.Shows candidate wall) :
    (latest.any fun latest => wall.micros ≤ latest.micros) = true ↔
      zone.rule.offsetOfWall wall.seconds false ≠ zone.rule.offsetAt candidate.seconds := by
  have hseconds := seconds_of_addMinutes? hk
  have hshown := hw.shown_seconds
  have hmicros := Zone.shows_iff.1 hw
  have hm := WallTime.micros_of_addMinutes? hk
  rw [hseconds] at hshown ⊢
  rw [Ne, ← hs.forall_shown_lt_iff hrecord hshown, not_forall]
  constructor
  · intro hany
    rcases (Option.any_eq_true _ _).1 hany with ⟨l, rfl, hle⟩
    rcases h.attained l rfl with ⟨-, j, hj, hl⟩
    refine ⟨j, fun hlt => ?_⟩
    have hjk := hlt hj
    simp only [decide_eq_true_eq, WallTime.seconds] at *
    omega
  · intro hex
    rcases hex with ⟨j, hj⟩
    rw [Classical.not_imp] at hj
    rcases h.le j hj.1 with ⟨l, rfl, hle⟩
    rcases h.attained l rfl with ⟨hmod, -⟩
    have hge := hj.2
    simp only [Option.any_some, decide_eq_true_eq, WallTime.seconds] at *
    omega

theorem IsLatest.freshWall?_eq (h : IsLatest zone instant k latest) (hs : zone.rule.IsSteady)
    (hrecord : zone.rule.IsRecord instant.seconds)
    (hk : instant.addMinutes? k = some candidate) (hw : zone.Shows candidate wall) :
    zone.freshWall? candidate =
      if latest.any fun latest => wall.micros ≤ latest.micros then none else some wall := by
  have hfresh := h.any_iff hs hrecord hk hw
  rw [Zone.freshWall?, Zone.shows_iff_addSeconds?.1 hw]
  split
  · next hany =>
    rw [Option.filter_some_neg]
    simpa using hfresh.1 hany
  · next hany =>
    rw [Option.filter_some_pos]
    simpa using not_not.1 (mt hfresh.2 hany)

-- After a wall time was passed over, the latest one is still the latest.
theorem IsLatest.skip (h : IsLatest zone instant k latest)
    (hk : instant.addMinutes? k = some candidate) (hw : zone.Shows candidate wall)
    (hany : (latest.any fun latest => wall.micros ≤ latest.micros) = true) :
    IsLatest zone instant (k + 1) latest := by
  rcases (Option.any_eq_true _ _).1 hany with ⟨l, rfl, hle⟩
  have hshown := hw.shown_seconds
  rw [seconds_of_addMinutes? hk] at hshown
  rw [decide_eq_true_eq] at hle
  refine ⟨fun j hj => ⟨l, rfl, ?_⟩, fun l' hl' => ?_⟩
  · rcases Nat.lt_succ_iff_lt_or_eq.1 hj with hj | rfl
    · rcases h.le j hj with ⟨l', hl', hle'⟩
      cases hl'
      exact hle'
    · simp only [WallTime.seconds] at *
      omega
  · rcases h.attained l' hl' with ⟨hmod, j, hj, hl⟩
    exact ⟨hmod, j, by omega, hl⟩

-- A wall time that was not passed over is the latest one from then on.
theorem IsLatest.raise (h : IsLatest zone instant k latest)
    (hk : instant.addMinutes? k = some candidate) (hw : zone.Shows candidate wall)
    (hany : (latest.any fun latest => wall.micros ≤ latest.micros) = false) :
    IsLatest zone instant (k + 1) (some wall) := by
  have hshown := hw.shown_seconds
  have hmicros := Zone.shows_iff.1 hw
  have hm := WallTime.micros_of_addMinutes? hk
  rw [seconds_of_addMinutes? hk] at hshown
  refine ⟨fun j hj => ⟨wall, rfl, ?_⟩, fun l hl => ?_⟩
  · rcases Nat.lt_succ_iff_lt_or_eq.1 hj with hj | rfl
    · rcases h.le j hj with ⟨l, rfl, hle⟩
      rw [Option.any_some, decide_eq_false_iff_not] at hany
      simp only [WallTime.seconds] at *
      omega
    · omega
  · cases hl
    exact ⟨by omega, k, by omega, hshown⟩

-- One minute of the walk: a wall time not above the latest one is passed over, any other is
-- tested.
theorem zoneRuns_succ {sieve : Sieve} {next : WallTime} (hw : zone.Shows candidate wall)
    (hnext : candidate.nextMinute? = some next) (minutes count : Nat) (found : List Moment) :
    zoneRuns sieve zone (minutes + 1) count candidate latest found =
      if latest.any fun latest => wall.micros ≤ latest.micros then
        zoneRuns sieve zone minutes count next latest found
      else if sieve.passes wall then
        let run : Moment := ⟨wall, some zone,
          zone.rule.offsetOfWall wall.seconds false != zone.rule.offsetAt candidate.seconds⟩
        if count ≤ 1 then .ok (run :: found).reverse
        else zoneRuns sieve zone minutes (count - 1) next (some wall) (run :: found)
      else zoneRuns sieve zone minutes count next (some wall) found := by
  rw [zoneRuns]
  simp only [Zone.shows_iff_addSeconds?.1 hw, hnext]

variable {s : Schedule}

theorem dueWithin_succ_of_stale {next : WallTime} (hnext : candidate.nextMinute? = some next)
    (hstale : zone.freshWall? candidate = none) (n : Nat) :
    s.dueWithin zone candidate (n + 1) = s.dueWithin zone next n := by
  rw [dueWithin, WallTime.minutesFrom_succ hnext, List.filterMap_cons_none hstale, dueWithin]

theorem dueWithin_succ_of_fresh {next : WallTime} (hnext : candidate.nextMinute? = some next)
    (hfresh : zone.freshWall? candidate = some wall) (n : Nat) :
    s.dueWithin zone candidate (n + 1) =
      if s.matchesTime wall then wall :: s.dueWithin zone next n
      else s.dueWithin zone next n := by
  rw [dueWithin, WallTime.minutesFrom_succ hnext, List.filterMap_cons_some hfresh,
    List.filter_cons, dueWithin]

-- What is due within fewer minutes begins what is due within more.
theorem dueWithin_prefix (s : Schedule) (zone : Zone) (instant : WallTime) {m n : Nat}
    (h : m ≤ n) : s.dueWithin zone instant m <+: s.dueWithin zone instant n :=
  ((instant.minutesFrom_prefix h).filterMap _).filter _

-- A walk that is inside the calendar for `n` minutes, and ends with them or finds all that it
-- wants in them, finds the first of the wall times that are due.
theorem zoneRuns_eq (hs : zone.rule.IsSteady) (hrecord : zone.rule.IsRecord instant.seconds)
    {minutes n count : Nat} (found : List Moment) (hk : instant.addMinutes? k = some candidate)
    (hl : IsLatest zone instant k latest) (hc : 1 ≤ count) (hn : n ≤ minutes)
    (hin : ∀ j < n, zone.Inside candidate j)
    (hstop : n = minutes ∨ count ≤ (s.dueWithin zone candidate n).length) :
    zoneRuns s.sieve zone minutes count candidate latest found =
      .ok (found.reverse ++ ((s.dueWithin zone candidate n).take count).map
        fun w => ⟨w, some zone, false⟩) := by
  induction n generalizing minutes count k candidate latest found with
  | zero =>
    have hnone : s.dueWithin zone candidate 0 = [] := rfl
    rw [hnone] at hstop ⊢
    obtain rfl : minutes = 0 := by
      rcases hstop with h | h
      · exact h.symm
      · simp only [List.length_nil] at h
        omega
    simp [zoneRuns]
  | succ n ih =>
    obtain ⟨minutes, rfl⟩ : ∃ m, minutes = m + 1 := ⟨minutes - 1, by omega⟩
    rcases hin 0 (by omega) with ⟨t, wall, next, ht, hw, hnext⟩
    obtain rfl : t = candidate := by
      rw [WallTime.addMinutes?_eq_some] at ht
      exact WallTime.ext (by omega)
    have hin' : ∀ j < n, zone.Inside next j := fun j hj => (hin (j + 1) (by omega)).next hnext
    have hk' := WallTime.addMinutes?_succ hk hnext
    have hfresh := hl.freshWall?_eq hs hrecord hk hw
    rw [zoneRuns_succ hw hnext]
    by_cases hany : (latest.any fun latest => wall.micros ≤ latest.micros) = true
    · -- the wall time was shown before, so it is not due
      rw [dueWithin_succ_of_stale hnext (hfresh.trans (if_pos hany))] at hstop ⊢
      rw [if_pos hany]
      exact ih found hk' (hl.skip hk hw hany) hc (by omega) hin' (by omega)
    · have hoffset := not_not.1 (mt (hl.any_iff hs hrecord hk hw).2 hany)
      have hraise := hl.raise hk hw (Bool.not_eq_true _ ▸ hany)
      rw [dueWithin_succ_of_fresh hnext (hfresh.trans (if_neg hany))] at hstop ⊢
      rw [if_neg hany, passes_sieve, hoffset, bne_self_eq_false]
      by_cases hmatch : s.matchesTime wall = true
      · rw [if_pos hmatch] at hstop ⊢
        rw [if_pos hmatch]
        by_cases hlast : count ≤ 1
        · obtain rfl : count = 1 := by omega
          simp
        · obtain ⟨rest, rfl⟩ : ∃ rest, count = rest + 1 := ⟨count - 1, by omega⟩
          rw [List.length_cons] at hstop
          simp only [if_neg hlast, Nat.add_sub_cancel]
          rw [ih _ hk' hraise (by omega) (by omega) hin' (by omega)]
          simp
      · rw [if_neg hmatch] at hstop ⊢
        rw [if_neg hmatch]
        exact ih found hk' hraise hc (by omega) hin' (by omega)

theorem mem_dueWithin (hs : zone.rule.IsSteady) {w : WallTime} {n : Nat} :
    w ∈ s.dueWithin zone instant n ↔
      s.matchesTime w = true ∧ ∃ t ∈ instant.minutesFrom n, zone.FirstShows t w := by
  simp only [dueWithin, List.mem_filter, List.mem_filterMap, Zone.freshWall?_eq_some hs, and_comm]

theorem ascending_dueWithin (s : Schedule) (hs : zone.rule.IsSteady) (instant : WallTime)
    (n : Nat) :
    (s.dueWithin zone instant n).Pairwise (·.micros < ·.micros) := by
  refine (List.Pairwise.filterMap _ ?_ (instant.pairwise_minutesFrom n)).filter _
  intro t u htu v hv w hw
  exact ((Zone.freshWall?_eq_some hs).1 hv).lt hs ((Zone.freshWall?_eq_some hs).1 hw) htu

/-- From the instant that a minute is first read as, the wall times due within the horizon are the
minutes from that one on that match and are first shown within the horizon, in order. -/
theorem enumerates_dueWithin (hs : zone.rule.IsSteady) {first : WallTime}
    (hfirst : first.micros % 60000000 = 0) (hread : zone.toUtc first false = .ok instant)
    (n : Nat) :
    Enumerates (s.dueWithin zone instant n) fun w =>
      w.micros % 60000000 = 0 ∧ first.micros ≤ w.micros ∧ s.matchesTime w = true ∧
        ∃ t, zone.FirstShows t w ∧ instant.micros ≤ t.micros ∧
          t.micros < instant.micros + 60000000 * n := by
  have hinstant := Zone.toUtc_eq_ok.1 hread
  refine ⟨s.ascending_dueWithin hs instant n, fun w => ?_⟩
  rw [mem_dueWithin hs]
  constructor
  · intro hex
    rcases hex with ⟨hmatch, t, ht, hshows⟩
    rcases WallTime.mem_minutesFrom.1 ht with ⟨k, hk, htk⟩
    have hmicros := Zone.shows_iff.1 hshows.1
    have hwhole := hs.offsetOfWall_sub_mod first.seconds false t.seconds
    exact ⟨by omega, hshows.le_of_toUtc hs hread (by omega), hmatch, t, hshows, by omega,
      by omega⟩
  · intro hex
    rcases hex with ⟨hminute, -, hmatch, t, hshows, hlo, hhi⟩
    have hmicros := Zone.shows_iff.1 hshows.1
    have hwhole := hs.offsetOfWall_sub_mod first.seconds false t.seconds
    refine ⟨hmatch, t, WallTime.mem_minutesFrom.2
      ⟨(t.micros - instant.micros) / 60000000, by omega, by omega⟩, hshows⟩

/-- A walk that stays within the calendar finds the first of the wall times due within its
horizon: it may end early, but only once it has found enough. -/
theorem zoneRuns_of_staysInside (hs : zone.rule.IsSteady) {count minutes : Nat}
    (hrecord : zone.rule.IsRecord instant.seconds) (hc : 1 ≤ count)
    (hin : s.StaysInside zone instant count minutes) :
    zoneRuns s.sieve zone minutes count instant none [] =
      .ok (((s.dueWithin zone instant minutes).take count).map fun w => ⟨w, some zone, false⟩) := by
  have hstart : instant.addMinutes? 0 = some instant := WallTime.addMinutes?_eq_some.2 (by omega)
  by_cases hearly : ∃ n, n ≤ minutes ∧ count ≤ (s.dueWithin zone instant n).length
  · have hn := Nat.find_spec hearly
    have hmin := fun {j} (hj : j < Nat.find hearly) => Nat.find_min hearly hj
    generalize Nat.find hearly = n at *
    have hinside : ∀ j < n, zone.Inside instant j := fun j hj => by
      have hfew := hmin hj
      exact hin j (by omega) (by omega)
    rw [zoneRuns_eq hs hrecord [] hstart (isLatest_zero zone instant) hc hn.1 hinside
      (Or.inr hn.2)]
    rcases s.dueWithin_prefix zone instant hn.1 with ⟨rest, hrest⟩
    rw [← hrest, List.take_append_of_le_length hn.2]
    rfl
  · have hinside : ∀ j < minutes, zone.Inside instant j := fun j hj =>
      hin j hj (Nat.lt_of_not_le fun hle => hearly ⟨j, by omega, hle⟩)
    exact zoneRuns_eq hs hrecord [] hstart (isLatest_zero zone instant) hc (Nat.le_refl _) hinside
      (Or.inl rfl)

-- A horizon that ends a day before the calendar does keeps every walk within it.
theorem staysInside_of_le (hs : zone.rule.IsSteady) {count minutes : Nat}
    (hlo : 86400000000 ≤ instant.micros)
    (hhi : instant.micros + 60000000 * minutes + 86400000000 ≤ calendarMicros) :
    s.StaysInside zone instant count minutes := by
  intro k hk _
  have hmicros : instant.micros + 60000000 * k < calendarMicros := by omega
  let t : WallTime := ⟨_, hmicros⟩
  have htm : t.micros = instant.micros + 60000000 * k := rfl
  have hbound := hs.bounded t.seconds
  have hwall : (t.micros + 1000000 * zone.rule.offsetAt t.seconds).toNat < calendarMicros := by
    omega
  rcases WallTime.exists_nextMinute? (w := t) (by omega) with ⟨next, hnext⟩
  refine ⟨t, ⟨_, hwall⟩, next, WallTime.addMinutes?_eq_some.2 htm, Zone.shows_iff.2 ?_, hnext⟩
  show ((t.micros + 1000000 * zone.rule.offsetAt t.seconds).toNat : Int) = _
  omega

/-- The runs after a moment of a known zone. Let `first` be the minute after the moment's own and
`instant` the instant that it is first read as. The runs are the first `count` of the minutes from
`first` on that match and are shown for the first time within the horizon from `instant` on. Each
run is such a first pass. Runs ascend on the clocks and as instants. -/
theorem nextRuns_of_zone {s : Schedule} {start : Moment} {zone : Zone} {first instant : WallTime}
    {count minutes : Int} (hz : start.zone = some zone) (hk : zone.IsKnown) (hc : 1 ≤ count)
    (hm : 1 ≤ minutes) (hfirst : start.wall.floorMinute.nextMinute? = some first)
    (hread : zone.toUtc first false = .ok instant)
    (hin : s.StaysInside zone instant count.toNat minutes.toNat) :
    ∃ due : List WallTime,
      Enumerates due (fun w =>
        w.micros % 60000000 = 0 ∧ first.micros ≤ w.micros ∧ s.matchesTime w = true ∧
          ∃ t, zone.FirstShows t w ∧ instant.micros ≤ t.micros ∧
            t.micros < instant.micros + 60000000 * minutes) ∧
      s.nextRuns start count minutes =
        .ok ((due.take count.toNat).map fun w => ⟨w, start.zone, false⟩) ∧
      (∀ w ∈ due, ∃ t, zone.FirstShows t w ∧ zone.toUtc w false = .ok t) ∧
      due.Pairwise fun v w => ∃ t u, zone.toUtc v false = .ok t ∧ zone.toUtc w false = .ok u ∧
        t.micros < u.micros := by
  have hs := hk.isSteady
  have hrecord := (hs.isRecord_of_reading (Zone.seconds_of_toUtc hread)).1
  have hminute : first.micros % 60000000 = 0 := by
    have hmicros := WallTime.micros_of_nextMinute? hfirst
    simp only [WallTime.floorMinute] at hmicros
    omega
  have hdue := enumerates_dueWithin (s := s) hs hminute hread minutes.toNat
  have hpass : ∀ w ∈ s.dueWithin zone instant minutes.toNat,
      ∃ t, zone.FirstShows t w ∧ zone.toUtc w false = .ok t := by
    intro w hw
    rcases (hdue.mem_iff w).1 hw with ⟨-, -, -, t, ht, -⟩
    exact ⟨t, ht, ht.toUtc hs⟩
  refine ⟨s.dueWithin zone instant minutes.toNat, ⟨hdue.ascending, fun w => ?_⟩, ?_, hpass, ?_⟩
  · have hhorizon : ∀ t : WallTime, t.micros < instant.micros + 60000000 * minutes.toNat ↔
        (t.micros : Int) < instant.micros + 60000000 * minutes := fun t => by omega
    simp only [hdue.mem_iff w, hhorizon]
  · rw [nextRuns, if_neg (by omega), hfirst, hz]
    show (zone.toUtc first false >>= fun instant =>
      zoneRuns s.sieve zone minutes.toNat count.toNat instant none []) = _
    rw [hread]
    exact zoneRuns_of_staysInside hs hrecord (by omega) hin
  · apply hdue.ascending.imp_of_mem
    intro v w hv hw hlt
    rcases hpass _ hv with ⟨t, ht, htv⟩
    rcases hpass _ hw with ⟨u, hu, huw⟩
    exact ⟨t, u, htv, huw, (ht.lt_iff hs hu).2 hlt⟩

/-- On the night that New York's clocks are set back, from a quarter past one in the second pass
on, every half hour. -/
theorem nextRuns_of_zone_new_york :
    let s : Schedule := ⟨"*/30 * * * *", .ofValues .minute [0, 30] false, .wildcard .hour,
      .wildcard .dayOfMonth, .wildcard .month, .wildcard .dayOfWeek⟩
    let zone : Zone := .region ⟨"America/New_York", Region.northAmerica (Region.hm (-5) 0)⟩
    let night := 86400 * Date.toDay ⟨2026, 11, 1⟩
    let start : Moment := ⟨⟨(night + 4540) * 1000000, by decide⟩, some zone, true⟩
    let first : WallTime := ⟨(night + 4560) * 1000000, by decide⟩
    let instant : WallTime := ⟨(night + 4560 + 14400) * 1000000, by decide⟩
    start.zone = some zone ∧ zone.IsKnown ∧ (1 : Int) ≤ 4 ∧ (1 : Int) ≤ 180 ∧
      start.wall.floorMinute.nextMinute? = some first ∧ zone.toUtc first false = .ok instant ∧
      s.StaysInside zone instant 4 180 ∧
      ∃ due : List WallTime,
        Enumerates due (fun w =>
          w.micros % 60000000 = 0 ∧ first.micros ≤ w.micros ∧ s.matchesTime w = true ∧
            ∃ t, zone.FirstShows t w ∧ instant.micros ≤ t.micros ∧
              t.micros < instant.micros + 60000000 * (180 : Int)) ∧
        s.nextRuns start 4 180 = .ok ((due.take 4).map fun w => ⟨w, start.zone, false⟩) ∧
        (∀ w ∈ due, ∃ t, zone.FirstShows t w ∧ zone.toUtc w false = .ok t) ∧
        due.Pairwise fun v w => ∃ t u, zone.toUtc v false = .ok t ∧ zone.toUtc w false = .ok u ∧
          t.micros < u.micros := by
  intro s zone night start first instant
  have hk : zone.IsKnown := by decide
  have hfirst : start.wall.floorMinute.nextMinute? = some first := by decide +kernel
  have hread : zone.toUtc first false = .ok instant := Zone.toUtc_eq_ok.2 (by decide +kernel)
  have hin : s.StaysInside zone instant 4 180 :=
    staysInside_of_le hk.isSteady (by decide +kernel) (by decide +kernel)
  exact ⟨rfl, hk, by decide, by decide, hfirst, hread, hin,
    nextRuns_of_zone rfl hk (by decide) (by decide) hfirst hread hin⟩

end Schedule

end Cron
