import Cron.Proofs.Runs.Bounds
import Cron.Proofs.Runs.Calendar
import Cron.Proofs.Zone.Names

/-!
Walks at the edge of the calendar, on clocks that never change. Such a walk looks at minutes of the
clocks, but it counts minutes of UTC and steps past each one before it is tested. So it can leave
the calendar although every minute that it has to look at lies within.
-/
namespace Cron

namespace Schedule

/-- The wall times that match among the first `n` minutes after a start's own. -/
def matchesAfter (s : Schedule) (start : Moment) (n : Nat) : List WallTime :=
  ((List.range n).filterMap fun k => start.wall.floorMinute.addMinutes? (k + 1)).filter
    s.matchesTime

/-- A walk has to look at minute `k` after a start's own: the horizon reaches it, and fewer than
`count` of the minutes before it match. -/
def Examines (s : Schedule) (start : Moment) (count minutes : Int) (k : Nat) : Prop :=
  1 ≤ k ∧ k ≤ minutes ∧ (s.matchesAfter start (k - 1)).length < count

/-- Minute `k` after a start's own as microseconds of UTC, where the clocks are `offset` seconds
ahead of it. -/
def utcMicros (start : Moment) (offset : Int) (k : Nat) : Int :=
  start.wall.floorMinute.micros + 60000000 * k - 1000000 * offset

variable {s : Schedule} {start : Moment} {zone : Zone} {offset count minutes : Int}
  {instant : WallTime} {k n : Nat}

theorem matchesAfter_prefix (s : Schedule) (start : Moment) {m n : Nat} (h : m ≤ n) :
    s.matchesAfter start m <+: s.matchesAfter start n := by
  apply List.IsPrefix.filter
  apply List.IsPrefix.filterMap
  rw [List.prefix_iff_eq_take, List.take_range, List.length_range, Nat.min_eq_left h]

theorem matchesAfter_zero (s : Schedule) (start : Moment) : s.matchesAfter start 0 = [] := rfl

theorem examines_one (hc : 1 ≤ count) (hm : 1 ≤ minutes) : s.Examines start count minutes 1 := by
  refine ⟨Nat.le_refl 1, hm, ?_⟩
  rw [Nat.sub_self, matchesAfter_zero, List.length_nil]
  omega

section Constant
variable (hrule : zone.rule = .constant offset)
  (hinstant : (instant.micros : Int) = utcMicros start offset 1)
include hrule hinstant

-- A minute of the walk is inside the calendar if its clocks and UTC are, and UTC a minute later.
theorem inside_iff (hwall : start.wall.floorMinute.micros + 60000000 * (k + 1) < calendarMicros) :
    zone.Inside instant k ↔
      0 ≤ utcMicros start offset (k + 1) ∧ utcMicros start offset (k + 2) < calendarMicros := by
  rw [Nat.mul_succ, ← Nat.add_assoc] at hwall
  unfold utcMicros at hinstant ⊢
  constructor
  · rintro ⟨t, wall, next, ht, -, hnext⟩
    have hm := WallTime.micros_of_addMinutes? ht
    have hm' := WallTime.micros_of_nextMinute? hnext
    have hlt := next.lt
    omega
  · rintro ⟨hlo, hhi⟩
    obtain ⟨t, ht⟩ := WallTime.exists_micros_eq (n := instant.micros + 60000000 * k)
      (by omega) (by omega)
    obtain ⟨next, hnext⟩ := WallTime.exists_nextMinute? (w := t) (by omega)
    refine ⟨t, ⟨_, hwall⟩, next, WallTime.addMinutes?_eq_some.2 (by omega), ?_, hnext⟩
    rw [Zone.shows_iff, hrule, ClockRule.offsetAt]
    show (start.wall.floorMinute.micros + 60000000 * k + 60000000 : Nat) = (t.micros : Int) + _
    omega

theorem freshWall?_of_inside (h : zone.Inside instant k) :
    (instant.addMinutes? k).bind zone.freshWall? = start.wall.floorMinute.addMinutes? (k + 1) := by
  obtain ⟨t, wall, next, ht, hw, -⟩ := h
  have hm := WallTime.micros_of_addMinutes? ht
  have hmicros := Zone.shows_iff.1 hw
  have hfresh : zone.freshWall? t = some wall := by
    rw [Zone.freshWall?, Zone.shows_iff_addSeconds?.1 hw, Option.filter_some_pos]
    rw [hrule, ClockRule.offsetOfWall_constant, ClockRule.offsetAt, decide_eq_true rfl]
  rw [ht, Option.bind_some, hfresh, eq_comm, WallTime.addMinutes?_eq_some, Nat.mul_succ]
  rw [hrule, ClockRule.offsetAt] at hmicros
  unfold utcMicros at hinstant
  omega

-- As long as a walk stays inside the calendar, what is due are the minutes that match.
theorem dueWithin_eq_matchesAfter (h : ∀ j < n, zone.Inside instant j) :
    s.dueWithin zone instant n = s.matchesAfter start n := by
  have hwalls : ∀ j ∈ List.range n, (instant.addMinutes? j).bind zone.freshWall? =
      start.wall.floorMinute.addMinutes? (j + 1) := fun j hj =>
    freshWall?_of_inside hrule hinstant (h j (List.mem_range.1 hj))
  rw [dueWithin, WallTime.minutesFrom, List.filterMap_filterMap, List.filterMap_congr hwalls,
    matchesAfter]

theorem staysInside_iff {count minutes : Nat} :
    s.StaysInside zone instant count minutes ↔
      ∀ j < minutes, (s.matchesAfter start j).length < count → zone.Inside instant j := by
  have hle : ∀ {i j : Nat}, i < j →
      (s.dueWithin zone instant i).length ≤ (s.dueWithin zone instant j).length ∧
        (s.matchesAfter start i).length ≤ (s.matchesAfter start j).length := fun hij =>
    ⟨(s.dueWithin_prefix zone instant hij.le).length_le,
      (s.matchesAfter_prefix start hij.le).length_le⟩
  -- the minutes before an examined one are examined too, so what is due there are the matches
  constructor
  · intro h j
    induction j using Nat.strong_induction_on with
    | h j ih =>
      intro hj hfew
      have hbefore : ∀ i < j, zone.Inside instant i := fun i hij =>
        ih i hij (hij.trans hj) ((hle hij).2.trans_lt hfew)
      refine h j hj ?_
      rwa [dueWithin_eq_matchesAfter hrule hinstant hbefore]
  · intro h j
    induction j using Nat.strong_induction_on with
    | h j ih =>
      intro hj hfew
      have hbefore : ∀ i < j, zone.Inside instant i := fun i hij =>
        ih i hij (hij.trans hj) ((hle hij).1.trans_lt hfew)
      refine h j hj ?_
      rwa [← dueWithin_eq_matchesAfter hrule hinstant hbefore]

theorem take_dueWithin {count minutes : Nat} (h : s.StaysInside zone instant count minutes) :
    (s.dueWithin zone instant minutes).take count = (s.matchesAfter start minutes).take count := by
  rw [staysInside_iff hrule hinstant] at h
  by_cases hearly : ∃ n, n ≤ minutes ∧ count ≤ (s.matchesAfter start n).length
  · -- the walk ends with the first minute that makes the matches enough
    have hn := Nat.find_spec hearly
    have hmin := fun {j} (hj : j < Nat.find hearly) => Nat.find_min hearly hj
    generalize Nat.find hearly = n at *
    have hinside : ∀ j < n, zone.Inside instant j := fun j hj => by
      have hfew := hmin hj
      exact h j (by omega) (by omega)
    have hdue := dueWithin_eq_matchesAfter (s := s) hrule hinstant hinside
    obtain ⟨rest, hrest⟩ := s.dueWithin_prefix zone instant hn.1
    obtain ⟨rest', hrest'⟩ := s.matchesAfter_prefix start hn.1
    rw [← hrest, ← hrest', hdue, List.take_append_of_le_length hn.2,
      List.take_append_of_le_length hn.2]
  · have hinside : ∀ j < minutes, zone.Inside instant j := fun j hj =>
      h j hj (Nat.lt_of_not_le fun hle => hearly ⟨j, by omega, hle⟩)
    rw [dueWithin_eq_matchesAfter hrule hinstant hinside]

end Constant

-- The first minute after the start, and what it is read as.
theorem toUtc_first_iff (hrule : zone.rule = .constant offset) {first : WallTime}
    (hfirst : start.wall.floorMinute.nextMinute? = some first) :
    zone.toUtc first false = .ok instant ↔ (instant.micros : Int) = utcMicros start offset 1 := by
  have hmicros := WallTime.micros_of_nextMinute? hfirst
  rw [Zone.toUtc_eq_ok, hrule, ClockRule.offsetOfWall_constant, utcMicros, hmicros]
  push_cast
  rfl

/-- Whether the minutes that a walk has to look at lie on the calendar of UTC, each with the minute
after it. -/
def KeepsUtc (s : Schedule) (start : Moment) (offset count minutes : Int) : Prop :=
  ∀ k, s.Examines start count minutes k →
    0 ≤ utcMicros start offset k ∧ utcMicros start offset (k + 1) < calendarMicros

theorem keepsUtc_iff (hrule : zone.rule = .constant offset)
    (hinstant : (instant.micros : Int) = utcMicros start offset 1)
    (hfit : ∀ k, s.Examines start count minutes k →
      start.wall.floorMinute.micros + 60000000 * k < calendarMicros) :
    s.KeepsUtc start offset count minutes ↔
      s.StaysInside zone instant count.toNat minutes.toNat := by
  have hexamines : ∀ j, s.Examines start count minutes (j + 1) ↔
      j < minutes.toNat ∧ (s.matchesAfter start j).length < count.toNat := by
    intro j
    rw [Examines, Nat.add_sub_cancel]
    omega
  rw [staysInside_iff hrule hinstant]
  constructor
  · intro h j hj hfew
    have hk := (hexamines j).2 ⟨hj, hfew⟩
    exact (inside_iff hrule hinstant (hfit _ hk)).2 (h _ hk)
  · intro h k hk
    obtain ⟨j, rfl⟩ : ∃ j, k = j + 1 := Nat.exists_eq_add_of_le' hk.1
    obtain ⟨hj, hfew⟩ := (hexamines j).1 hk
    exact (inside_iff hrule hinstant (hfit _ hk)).1 (h j hj hfew)

-- The walk gives the first of the minutes that match, or it leaves the calendar of UTC.
theorem nextRuns_cases_of_constant (hk : ∀ zone ∈ start.zone, zone.IsKnown)
    (hrule : (start.zone.getD .utc).rule = .constant offset) (hc : 1 ≤ count) (hm : 1 ≤ minutes)
    (hfit : ∀ k, s.Examines start count minutes k →
      start.wall.floorMinute.micros + 60000000 * k < calendarMicros) :
    (s.KeepsUtc start offset count minutes ∧ s.nextRuns start count minutes =
        .ok (((s.matchesAfter start minutes.toNat).take count.toNat).map
          fun w => ⟨w, start.zone, false⟩)) ∨
      ¬ s.KeepsUtc start offset count minutes ∧
        s.nextRuns start count minutes = .error .beyondRange := by
  have hone : s.Examines start count minutes 1 := examines_one hc hm
  have hlt := hfit 1 hone
  obtain ⟨first, hfirst⟩ := WallTime.exists_nextMinute? (w := start.wall.floorMinute) (by omega)
  by_cases hutc : 0 ≤ utcMicros start offset 1 ∧ utcMicros start offset 1 < calendarMicros
  · obtain ⟨instant, hinstant⟩ := WallTime.exists_micros_eq hutc.1 hutc.2
    have hread := (toUtc_first_iff hrule hfirst).2 hinstant
    rw [keepsUtc_iff hrule hinstant hfit]
    rcases s.nextRuns_of_first hk hc hm hfirst hread with ⟨hin, hruns⟩ | hout
    · rw [take_dueWithin hrule hinstant hin] at hruns
      exact .inl ⟨hin, hruns⟩
    · exact .inr hout
  · -- the first minute is not on the calendar of UTC itself
    right
    constructor
    · intro hkeeps
      obtain ⟨hlo, hhi⟩ := hkeeps 1 hone
      unfold utcMicros at hlo hhi hutc
      omega
    · rcases s.nextRuns_cases hk count minutes with ⟨hkeeps, -⟩ | ⟨-, herror⟩
      · obtain ⟨first', instant, hfirst', hread, -⟩ := hkeeps hc hm
        rw [hfirst] at hfirst'
        cases hfirst'
        have hinstant := (toUtc_first_iff hrule hfirst).1 hread
        have hlast := instant.lt
        omega
      · exact herror

/-- After a start without a zone, or with a zone whose clocks never change, let every minute that
the walk has to look at lie on the calendar of its clocks. Then the walk gives its runs exactly if
each of these minutes lies on the calendar of UTC too, and so does the minute after it. There is no
other way for it to fail. -/
theorem nextRuns_isOk_iff (hk : ∀ zone ∈ start.zone, zone.IsKnown)
    (hrule : (start.zone.getD .utc).rule = .constant offset) (hc : 1 ≤ count) (hm : 1 ≤ minutes)
    (hfit : ∀ k, s.Examines start count minutes k →
      start.wall.floorMinute.micros + 60000000 * k < calendarMicros) :
    ((∃ runs, s.nextRuns start count minutes = .ok runs) ↔
      s.KeepsUtc start offset count minutes) ∧
    (∀ runs, s.nextRuns start count minutes = .ok runs →
      runs = ((s.matchesAfter start minutes.toNat).take count.toNat).map
        fun w => ⟨w, start.zone, false⟩) ∧
    ∀ fault, s.nextRuns start count minutes = .error fault → fault = .beyondRange := by
  rcases nextRuns_cases_of_constant hk hrule hc hm hfit with ⟨hkeeps, hruns⟩ | ⟨hleaves, herror⟩
  · simp [hruns, hkeeps, eq_comm]
  · simp [herror, hleaves, eq_comm]

/-- Five hours behind UTC, on the last evening of the calendar: the minute that the walk has to look
at is the last but one of UTC, so the walk gives its run. -/
theorem nextRuns_isOk_iff_last_evening :
    let start : Moment :=
      ⟨⟨calendarMicros - 303 * 60000000, by decide⟩, some (.fixed (-18000)), false⟩
    (∀ zone ∈ start.zone, zone.IsKnown) ∧ (start.zone.getD .utc).rule = .constant (-18000) ∧
      (1 : Int) ≤ 2 ∧ (1 : Int) ≤ 1 ∧
      (∀ k, everyMinute.Examines start 2 1 k →
        start.wall.floorMinute.micros + 60000000 * k < calendarMicros) ∧
      everyMinute.KeepsUtc start (-18000) 2 1 ∧
      ∃ runs, everyMinute.nextRuns start 2 1 = .ok runs := by
  intro start
  have hone : ∀ k, everyMinute.Examines start 2 1 k → k = 1 := fun k hk =>
    Nat.le_antisymm (by exact_mod_cast hk.2.1) hk.1
  have hk : ∀ zone ∈ start.zone, zone.IsKnown := by decide
  have hfit : ∀ k, everyMinute.Examines start 2 1 k →
      start.wall.floorMinute.micros + 60000000 * k < calendarMicros := by
    intro k h
    rw [hone k h]
    decide
  have hkeeps : everyMinute.KeepsUtc start (-18000) 2 1 := by
    intro k h
    rw [hone k h]
    decide
  have hiff : (∃ runs, everyMinute.nextRuns start 2 1 = .ok runs) ↔
      everyMinute.KeepsUtc start (-18000) 2 1 :=
    (nextRuns_isOk_iff hk rfl (by decide) (by decide) hfit).1
  exact ⟨hk, rfl, by decide, by decide, hfit, hkeeps, hiff.2 hkeeps⟩

/-- The last minute of the calendar is due, and is the only one that the walk has to look at; yet
the walk fails, since there is no minute after it. -/
theorem nextRuns_last_minute_eq_error :
    let start : Moment := .ofWall ⟨calendarMicros - 120000000, by decide⟩
    ofExpression "* * * * *" = .ok everyMinute ∧
      (∀ k, everyMinute.Examines start 1 1 k → ∃ w : WallTime,
        w.micros = start.wall.floorMinute.micros + 60000000 * k ∧
          everyMinute.matchesTime w = true) ∧
      everyMinute.nextRuns start 1 1 = .error .beyondRange := by
  intro start
  refine ⟨ofExpression_everyMinute, ?_, by decide +kernel⟩
  intro k hk
  obtain rfl : k = 1 := Nat.le_antisymm (by exact_mod_cast hk.2.1) hk.1
  exact ⟨⟨calendarMicros - 60000000, by decide⟩, by decide, matchesTime_everyMinute _⟩

end Schedule

end Cron
