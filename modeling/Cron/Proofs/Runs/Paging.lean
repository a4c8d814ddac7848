import Cron.Proofs.Moment.Localize
import Cron.Proofs.Runs.Calendar
import Mathlib.Data.List.Infix

/-!
Runs found page by page. A walk that goes on from the last run of a page begins with the first pass
of the next wall minute. Where the clocks were set back in between it passes over the minutes that
the first walk would have looked at in vain, so it finds the same runs and may look further ahead.
-/
namespace Cron

-- The next wall minute is first read as the minute after, or as a later one if the clocks are set
-- back right then. What they show in between is nothing new.
theorem ClockRule.IsSteady.exists_next_reading {rule : ClockRule} (h : rule.IsSteady)
    {wall t : Nat} (ht : rule.shown t = wall)
    (hoffset : rule.offsetOfWall wall false = rule.offsetAt t) :
    ∃ j : Nat, (wall + 60 : Int) - rule.offsetOfWall (wall + 60) false = t + 60 * (j + 1) ∧
      ∀ i < j, ¬ rule.IsRecord (t + 60 * (i + 1)) := by
  rcases h.exists_changesOnce wall with ⟨before, after, change, hchange⟩
  have hot := hchange.offsetAt_of_shown h (Nat.le_refl wall) (Nat.le_add_right wall _) ht
  have hfirst := (hchange.readings (Nat.le_refl wall) (Nat.le_add_right wall _)).1
  have hnext := (hchange.readings (show wall ≤ wall + 60 by omega) (by omega)).1
  have hwhole := h.offsetOfWall_sub_mod (wall + 60) false t
  have hbounded := h.bounded t
  have hbounded' := h.offsetOfWall_bounded (wall + 60) false
  rw [hoffset] at hfirst
  rw [shown] at ht
  rw [Nat.cast_add, Nat.cast_ofNat] at hnext
  by_cases hsame : rule.offsetOfWall (wall + 60) false = rule.offsetAt t
  · refine ⟨0, by omega, fun i hi => absurd hi (Nat.not_lt_zero i)⟩
  · -- the clocks change within the minute, and the next wall minute comes after the change
    have hback : (t : Int) < change ∧ (change : Int) ≤ t + 60 ∧ rule.offsetAt t = before ∧
        rule.offsetOfWall (wall + 60) false = after ∧ (change : Int) ≤ wall + 60 - after := by
      split at hot <;> split at hfirst <;> split at hnext <;> omega
    obtain ⟨j, hj⟩ : ∃ j : Nat, (wall + 60 : Int) - after = t + 60 * (j + 1) :=
      ⟨((wall + 60 - after - t) / 60 - 1).toNat, by omega⟩
    refine ⟨j, by omega, ?_⟩
    intro i hi hrecord
    have hlater := hchange.offsetAt_eq (t + 60 * (i + 1)) (by omega) (by omega)
    have hless := hrecord t (by omega)
    rw [if_neg (by omega)] at hlater
    rw [shown, shown, hlater] at hless
    omega

-- Two beginnings of a list without duplicates are the same if they end alike.
theorem eq_of_prefix_of_getLast? {α : Type} {xs ys zs : List α} {v : α} (hnodup : zs.Nodup)
    (hxs : xs <+: zs) (hys : ys <+: zs) (hx : xs.getLast? = some v) (hy : ys.getLast? = some v) :
    xs = ys := by
  have hle : ∀ {xs ys : List α}, xs <+: zs → ys <+: zs → xs.getLast? = some v →
      ys.getLast? = some v → ys.length ≤ xs.length := by
    intro xs ys hxs hys hx hy
    by_contra hlt
    obtain ⟨more, rfl⟩ := List.prefix_of_prefix_length_le hxs hys (by omega)
    have hmore : more ≠ [] := by
      rintro rfl
      simp at hlt
    have hlast : v ∈ more := by
      rw [List.getLast?_append, List.getLast?_eq_some_getLast hmore, Option.some_or,
        Option.some_inj] at hy
      exact hy ▸ List.getLast_mem hmore
    exact (List.nodup_append.1 (hnodup.sublist hys.sublist)).2.2 v (List.mem_of_getLast? hx) v
      hlast rfl
  have hlength := Nat.le_antisymm (hle hys hxs hy hx) (hle hxs hys hx hy)
  exact (List.prefix_of_prefix_length_le hxs hys hlength.le).eq_of_length hlength

namespace Schedule

variable {s : Schedule} {zone : Zone} {instant t v next first reading : WallTime} {k n : Nat}

theorem dueWithin_add (s : Schedule) (zone : Zone) (h : instant.addMinutes? k = some t) (n : Nat) :
    s.dueWithin zone instant (k + n) = s.dueWithin zone instant k ++ s.dueWithin zone t n := by
  rw [dueWithin, WallTime.minutesFrom_add h, List.filterMap_append, List.filter_append, dueWithin,
    dueWithin]

-- Due wall times ascend on the clocks and by their first passes.
theorem pairwise_dueWithin (s : Schedule) (hs : zone.rule.IsSteady) (instant : WallTime) (n : Nat) :
    (s.dueWithin zone instant n).Pairwise fun v w => v.micros < w.micros ∧
      ∃ t u, zone.FirstShows t v ∧ zone.FirstShows u w ∧ t.micros < u.micros := by
  apply (s.ascending_dueWithin hs instant n).imp_of_mem
  intro v w hv hw hlt
  obtain ⟨-, t, -, ht⟩ := (mem_dueWithin hs).1 hv
  obtain ⟨-, u, -, hu⟩ := (mem_dueWithin hs).1 hw
  exact ⟨hlt, t, u, ht, hu, (ht.lt_iff hs hu).2 hlt⟩

theorem nodup_dueWithin (s : Schedule) (hs : zone.rule.IsSteady) (instant : WallTime) (n : Nat) :
    (s.dueWithin zone instant n).Nodup := by
  apply (s.pairwise_dueWithin hs instant n).imp
  rintro v w ⟨hlt, -⟩ rfl
  exact Nat.lt_irrefl _ hlt

theorem StaysInside.mono {count count' minutes : Nat}
    (h : s.StaysInside zone instant count minutes) (hle : count' ≤ count) :
    s.StaysInside zone instant count' minutes :=
  fun j hj hfew => h j hj (hfew.trans_le hle)

/-- Where a walk goes on from a wall time that is due: from the minute after the instant that shows
it first, `ahead` minutes are passed over before the next wall minute comes. -/
structure GoesOn (zone : Zone) (t v next : WallTime) (ahead : Nat) : Prop where
  shows : zone.FirstShows t v
  follows : t.nextMinute? = some next
  reading : (v.micros + 60000000 : Int) - 1000000 * zone.rule.offsetOfWall (v.seconds + 60) false =
    next.micros + 60000000 * ahead
  stale : ∀ u w, zone.FirstShows u w → u.micros % 60000000 = next.micros % 60000000 →
    next.micros ≤ u.micros → next.micros + 60000000 * ahead ≤ u.micros

theorem exists_goesOn (hs : zone.rule.IsSteady) (hv : zone.FirstShows t v)
    (hnext : t.nextMinute? = some next) : ∃ ahead, GoesOn zone t v next ahead := by
  have hshown := hv.1.shown_seconds
  have hmicros := Zone.shows_iff.1 hv.1
  have hm := WallTime.micros_of_nextMinute? hnext
  obtain ⟨ahead, hreading, hstale⟩ :=
    hs.exists_next_reading hshown ((Zone.firstShows_iff hs).1 hv).2
  refine ⟨ahead, hv, hnext, ?_, ?_⟩
  · simp only [WallTime.seconds] at *
    omega
  · intro u w hu hmod hle
    by_contra hlt
    have hu' := ((hs.isRecord_iff hu.1.shown_seconds).2 ((Zone.firstShows_iff hs).1 hu).2)
    have hmany : u.seconds = t.seconds + 60 * ((u.micros - next.micros) / 60000000 + 1) := by
      simp only [WallTime.seconds]
      omega
    exact hstale ((u.micros - next.micros) / 60000000) (by omega) (hmany ▸ hu')

variable {ahead : Nat}

-- What is due from the minute after on is due from the next wall minute on.
theorem GoesOn.dueWithin_eq (h : GoesOn zone t v next ahead) (hs : zone.rule.IsSteady)
    (hreading : (reading.micros : Int) = next.micros + 60000000 * ahead) (n : Nat) :
    s.dueWithin zone next n = s.dueWithin zone reading (n - ahead) := by
  have hnone : ∀ n ≤ ahead, s.dueWithin zone next n = [] := by
    intro n hn
    apply List.eq_nil_iff_forall_not_mem.2
    intro w hw
    obtain ⟨-, u, hu, hshows⟩ := (mem_dueWithin hs).1 hw
    obtain ⟨j, hj, huj⟩ := WallTime.mem_minutesFrom.1 hu
    have hle := h.stale u w hshows (by omega) (by omega)
    omega
  have hadd : next.addMinutes? ahead = some reading := WallTime.addMinutes?_eq_some.2 (by omega)
  by_cases hn : n ≤ ahead
  · rw [hnone n hn, Nat.sub_eq_zero_of_le hn]
    rfl
  · have hsplit := s.dueWithin_add zone hadd (n - ahead)
    rwa [hnone ahead (Nat.le_refl _), List.nil_append, Nat.add_sub_cancel' (by omega)] at hsplit

theorem GoesOn.toUtc_iff (h : GoesOn zone t v next ahead) (hfirst : v.nextMinute? = some first) :
    zone.toUtc first false = .ok reading ↔
      (reading.micros : Int) = next.micros + 60000000 * ahead := by
  have hm := WallTime.micros_of_nextMinute? hfirst
  have hseconds : first.seconds = v.seconds + 60 := by
    simp only [WallTime.seconds]
    omega
  have hread := h.reading
  rw [Zone.toUtc_eq_ok, hseconds]
  omega

-- What is due beyond a page is due where the walk goes on.
theorem GoesOn.dueWithin_add_eq (h : GoesOn zone t v next ahead) (hs : zone.rule.IsSteady)
    (hreading : (reading.micros : Int) = next.micros + 60000000 * ahead)
    (hk : instant.addMinutes? k = some next) (n : Nat) :
    s.dueWithin zone instant (k + n) =
      s.dueWithin zone instant k ++ s.dueWithin zone reading (n - ahead) := by
  rw [s.dueWithin_add zone hk, h.dueWithin_eq hs hreading]

-- The walk that goes on stays within the calendar where the first walk does, as far as that has to
-- look.
theorem GoesOn.staysInside (h : GoesOn zone t v next ahead) (hs : zone.rule.IsSteady)
    (hreading : (reading.micros : Int) = next.micros + 60000000 * ahead)
    (hk : instant.addMinutes? k = some next) {m minutes : Nat}
    (hpage : (s.dueWithin zone instant k).length = m)
    (hin : s.StaysInside zone instant (m + n) minutes)
    (hahead : ∀ i < minutes - k, (s.dueWithin zone reading i).length < n →
      k + (ahead + i) < minutes) :
    s.StaysInside zone reading n (minutes - k) := by
  intro i hi hfew
  have hdue := h.dueWithin_add_eq (s := s) hs hreading hk (ahead + i)
  have hlength : (s.dueWithin zone instant (k + (ahead + i))).length < m + n := by
    rw [hdue, List.length_append, hpage, Nat.add_sub_cancel_left]
    omega
  obtain ⟨u, w, after, hu, hw, hafter⟩ := hin _ (hahead i hi hfew) hlength
  have hm := WallTime.micros_of_addMinutes? hk
  have hu' := WallTime.micros_of_addMinutes? hu
  exact ⟨u, w, after, WallTime.addMinutes?_eq_some.2 (by omega), hw, hafter⟩

-- The next wall minute exists and can be read if something more is due.
theorem GoesOn.exists_reading_of_due (h : GoesOn zone t v next ahead) (hs : zone.rule.IsSteady)
    (hv : v.micros % 60000000 = 0) {w : WallTime} (hw : w ∈ s.dueWithin zone next n) :
    ∃ first reading : WallTime, v.nextMinute? = some first ∧
      (reading.micros : Int) = next.micros + 60000000 * ahead := by
  obtain ⟨-, u, hu, hshows⟩ := (mem_dueWithin hs).1 hw
  obtain ⟨j, -, huj⟩ := WallTime.mem_minutesFrom.1 hu
  have hm := WallTime.micros_of_nextMinute? h.follows
  have hlt := h.shows.lt hs hshows (by omega)
  have hmicros := Zone.shows_iff.1 h.shows.1
  have hmicros' := Zone.shows_iff.1 hshows.1
  have hwhole := hs.offsetOfWall_sub_mod v.seconds false u.seconds
  rw [((Zone.firstShows_iff hs).1 h.shows).2] at hwhole
  have hle := h.stale u w hshows (by omega) (by omega)
  have hlast := w.lt
  have hlast' := u.lt
  obtain ⟨first, hfirst⟩ := WallTime.exists_nextMinute? (w := v) (by omega)
  obtain ⟨reading, hreading⟩ := WallTime.exists_micros_eq
    (n := next.micros + 60000000 * ahead) (by omega) (by omega)
  exact ⟨first, reading, hfirst, hreading⟩

-- Clocks that never change show the next wall minute a minute later.
theorem GoesOn.ahead_of_constant {offset : Int} (h : GoesOn zone t v next ahead)
    (hconstant : zone.rule = .constant offset) : ahead = 0 := by
  have hread := h.reading
  have hm := WallTime.micros_of_nextMinute? h.follows
  have hmicros := Zone.shows_iff.1 h.shows.1
  rw [hconstant] at hread hmicros
  rw [ClockRule.offsetOfWall_constant] at hread
  change (v.micros : Int) = t.micros + 1000000 * offset at hmicros
  omega

-- A page ends with what is due at the minute of its last run.
theorem dueWithin_eq_take (hs : zone.rule.IsSteady) {m minutes : Nat}
    (hlast : ((s.dueWithin zone instant minutes).take m).getLast? = some v)
    (hv : zone.FirstShows t v) (ht : t.micros + 60000000 = instant.micros + 60000000 * k) :
    k ≤ minutes ∧ s.dueWithin zone instant k = (s.dueWithin zone instant minutes).take m := by
  have hmem := List.mem_of_mem_take (List.mem_of_getLast? hlast)
  obtain ⟨hmatch, u, hu, hshows⟩ := (mem_dueWithin hs).1 hmem
  obtain ⟨j, hj, huj⟩ := WallTime.mem_minutesFrom.1 hu
  obtain rfl := (Zone.firstShows_iff_names.1 hv).unique (Zone.firstShows_iff_names.1 hshows)
  obtain rfl : k = j + 1 := by omega
  have hone : s.dueWithin zone t 1 = [v] := by
    rw [dueWithin, WallTime.minutesFrom_one,
      List.filterMap_cons_some ((Zone.freshWall?_eq_some hs).2 hv), List.filterMap_nil,
      List.filter_cons_of_pos hmatch, List.filter_nil]
  have hend : (s.dueWithin zone instant (j + 1)).getLast? = some v := by
    rw [s.dueWithin_add zone (WallTime.addMinutes?_eq_some.2 huj), hone, List.getLast?_append,
      List.getLast?_singleton, Option.some_or]
  exact ⟨hj, eq_of_prefix_of_getLast? (s.nodup_dueWithin hs instant minutes)
    (s.dueWithin_prefix zone instant hj) (List.take_prefix _ _) hend hlast⟩

section Pages
variable {start r : Moment} {m : Nat} {minutes : Int}

/-- A run names the `k`-th minute that the walk after a start looks at. Minutes are counted from
one, and those of a start without a zone are minutes of UTC. -/
def FoundAt (start r : Moment) (k : Nat) : Prop :=
  ∃ first instant t, start.wall.floorMinute.nextMinute? = some first ∧
    (start.zone.getD .utc).toUtc first false = .ok instant ∧ r.Names .utc t ∧
    t.micros + 60000000 = instant.micros + 60000000 * k

/-- A run comes before another, on the clocks and as an instant. -/
def ComesBefore (a b : Moment) : Prop :=
  a.wall.micros < b.wall.micros ∧
    ∃ t u, a.Names .utc t ∧ b.Names .utc u ∧ t.micros < u.micros

/-- The moments of some wall times on the clocks of a start, in their first pass. -/
def runsAt (start : Moment) (ws : List WallTime) : List Moment :=
  ws.map fun w => ⟨w, start.zone, false⟩

theorem runsAt_append (start : Moment) (vs ws : List WallTime) :
    runsAt start (vs ++ ws) = runsAt start vs ++ runsAt start ws := List.map_append

theorem comesBefore_runsAt (hs : (start.zone.getD .utc).rule.IsSteady) {ws : List WallTime}
    (h : ws.Sublist (s.dueWithin (start.zone.getD .utc) instant n)) :
    (runsAt start ws).Pairwise ComesBefore := by
  refine List.Pairwise.map _ ?_ ((s.pairwise_dueWithin hs instant n).sublist h)
  rintro v w ⟨hlt, t, u, ht, hu, htu⟩
  exact ⟨hlt, t, u, Zone.firstShows_iff_names.1 ht, Zone.firstShows_iff_names.1 hu, htu⟩

theorem nextRuns_of_staysInside (hz : ∀ zone ∈ start.zone, zone.IsKnown) (hn : 1 ≤ n)
    (hm : 1 ≤ minutes) (hfirst : start.wall.floorMinute.nextMinute? = some first)
    (hread : (start.zone.getD .utc).toUtc first false = .ok instant)
    (hin : s.StaysInside (start.zone.getD .utc) instant n minutes.toNat) :
    s.nextRuns start n minutes =
      .ok (runsAt start ((s.dueWithin (start.zone.getD .utc) instant minutes.toNat).take n)) := by
  have hcount : (1 : Int) ≤ n := by omega
  rcases s.nextRuns_of_first hz hcount hm hfirst hread with ⟨-, hruns⟩ | ⟨hout, -⟩
  · exact hruns
  · exact absurd hin hout

/-- A page of the walk after a start, with more minutes to look at. Its last wall time is `v`, which
is due at the `k`-th minute, and from there the walk goes on. -/
structure IsPage (s : Schedule) (start : Moment) (instant : WallTime) (m : Nat) (minutes : Int)
    (k : Nat) (v : WallTime) (t next : WallTime) (ahead : Nat) : Prop where
  known : ∀ zone ∈ start.zone, zone.IsKnown
  due : s.dueWithin (start.zone.getD .utc) instant k =
    (s.dueWithin (start.zone.getD .utc) instant minutes.toNat).take m
  length : (s.dueWithin (start.zone.getD .utc) instant k).length = m
  minute : v.micros % 60000000 = 0
  left : k < minutes.toNat
  goesOn : GoesOn (start.zone.getD .utc) t v next ahead
  next_eq : instant.addMinutes? k = some next

variable (h : s.IsPage start instant m minutes k v t next ahead)
include h

theorem IsPage.isSteady : (start.zone.getD .utc).rule.IsSteady := (isKnown_getD h.known).isSteady

theorem IsPage.dueWithin_eq (hreading : (reading.micros : Int) = next.micros + 60000000 * ahead)
    {j : Nat} (hj : k ≤ j) : s.dueWithin (start.zone.getD .utc) instant j =
      (s.dueWithin (start.zone.getD .utc) instant minutes.toNat).take m ++
        s.dueWithin (start.zone.getD .utc) reading (j - k - ahead) := by
  have hdue := h.goesOn.dueWithin_add_eq (s := s) h.isSteady hreading h.next_eq (j - k)
  rwa [Nat.add_sub_cancel' hj, h.due] at hdue

theorem IsPage.floorMinute_eq : v.floorMinute = v := by
  have hminute := h.minute
  apply WallTime.ext
  simp only [WallTime.floorMinute, WallTime.minutes]
  omega

-- The walk after the last run begins with the reading of the next wall minute.
theorem IsPage.exists_nextRuns_eq (hn : 1 ≤ n)
    (hkeeps : s.KeepsCalendar ⟨v, start.zone, false⟩ n (minutes - k)) :
    ∃ reading : WallTime, (reading.micros : Int) = next.micros + 60000000 * ahead ∧
      s.nextRuns ⟨v, start.zone, false⟩ n (minutes - k) = .ok (runsAt start
        ((s.dueWithin (start.zone.getD .utc) reading (minutes.toNat - k)).take n)) := by
  have hleft := h.left
  have htoNat : (minutes - k).toNat = minutes.toNat - k := by omega
  obtain ⟨first, reading, hfirst, hread, hin⟩ := hkeeps (by omega) (by omega)
  rw [Int.toNat_natCast] at hin
  have hruns : s.nextRuns ⟨v, start.zone, false⟩ n (minutes - k) = .ok (runsAt start
      ((s.dueWithin (start.zone.getD .utc) reading (minutes - k).toNat).take n)) :=
    nextRuns_of_staysInside h.known hn (by omega) hfirst hread hin
  rw [htoNat] at hruns
  dsimp only at hfirst
  rw [h.floorMinute_eq] at hfirst
  exact ⟨reading, (h.goesOn.toUtc_iff hfirst).1 hread, hruns⟩

theorem IsPage.keepsCalendar (hreading : (reading.micros : Int) = next.micros + 60000000 * ahead)
    (hfirst : v.nextMinute? = some first)
    (hin : s.StaysInside (start.zone.getD .utc) instant (m + n) minutes.toNat)
    (hahead : ∀ i < minutes.toNat - k,
      (s.dueWithin (start.zone.getD .utc) reading i).length < n → k + (ahead + i) < minutes.toNat) :
    s.KeepsCalendar ⟨v, start.zone, false⟩ n (minutes - k) := by
  intro _ _
  refine ⟨first, reading, ?_, (h.goesOn.toUtc_iff hfirst).2 hreading, ?_⟩
  · rw [h.floorMinute_eq]
    exact hfirst
  · rw [Int.toNat_natCast, show (minutes - k).toNat = minutes.toNat - k by omega]
    exact h.goesOn.staysInside h.isSteady hreading h.next_eq h.length hin hahead

-- The runs of both pages are the first page and what is due where the walk goes on.
theorem IsPage.take_add_eq (hreading : (reading.micros : Int) = next.micros + 60000000 * ahead)
    (n : Nat) : (s.dueWithin (start.zone.getD .utc) instant minutes.toNat).take (m + n) =
      (s.dueWithin (start.zone.getD .utc) instant minutes.toNat).take m ++
        (s.dueWithin (start.zone.getD .utc) reading (minutes.toNat - k - ahead)).take n := by
  have hdue := h.dueWithin_eq hreading h.left.le
  have hlength := h.length
  rw [h.due] at hlength
  generalize (s.dueWithin (start.zone.getD .utc) instant minutes.toNat).take m = page at *
  rw [hdue, ← hlength, List.take_length_add_append]

-- With clocks that never change the walk goes on where the first one would.
theorem IsPage.keepsCalendar_of_constant {offset : Int}
    (hconstant : (start.zone.getD .utc).rule = .constant offset)
    (hin : s.StaysInside (start.zone.getD .utc) instant (m + n) minutes.toNat) (hn : 1 ≤ n) :
    s.KeepsCalendar ⟨v, start.zone, false⟩ n (minutes - k) := by
  have hfew : (s.dueWithin (start.zone.getD .utc) instant k).length < m + n := by
    rw [h.length]
    omega
  obtain ⟨u, w, after, hu, hw, -⟩ := hin k h.left hfew
  rw [h.next_eq] at hu
  cases hu
  have hzero := h.goesOn.ahead_of_constant hconstant
  have hfirst : v.nextMinute? = some w := by
    have hm := WallTime.micros_of_nextMinute? h.goesOn.follows
    have hmicros := Zone.shows_iff.1 h.goesOn.shows.1
    have hmicros' := Zone.shows_iff.1 hw
    rw [hconstant, ClockRule.offsetAt] at hmicros hmicros'
    rw [WallTime.nextMinute?_eq_some]
    omega
  have hreading : (next.micros : Int) = next.micros + 60000000 * ahead := by omega
  apply h.keepsCalendar hreading hfirst hin
  intro i hi _
  omega

-- Where enough is due, the walk that goes on finds it before it gets further than the first one.
theorem IsPage.keepsCalendar_of_due
    (hin : s.StaysInside (start.zone.getD .utc) instant (m + n) minutes.toNat) (hn : 1 ≤ n)
    (hdue : m + n ≤ (s.dueWithin (start.zone.getD .utc) instant minutes.toNat).length) :
    s.KeepsCalendar ⟨v, start.zone, false⟩ n (minutes - k) := by
  have hlength := h.length
  have hadd := s.dueWithin_add (start.zone.getD .utc) h.next_eq (minutes.toNat - k)
  rw [Nat.add_sub_cancel' h.left.le] at hadd
  rw [hadd, List.length_append] at hdue
  obtain ⟨w, hw⟩ := List.exists_mem_of_length_pos (l := s.dueWithin (start.zone.getD .utc) next
    (minutes.toNat - k)) (by omega)
  obtain ⟨first, reading, hfirst, hreading⟩ :=
    h.goesOn.exists_reading_of_due h.isSteady h.minute hw
  rw [h.goesOn.dueWithin_eq h.isSteady hreading] at hdue
  apply h.keepsCalendar hreading hfirst hin
  intro i _ hfew
  by_contra hpast
  have hbegins := s.dueWithin_prefix (start.zone.getD .utc) reading
    (show minutes.toNat - k - ahead ≤ i by omega)
  have hle := hbegins.length_le
  omega

-- The runs of both pages come before whatever the second walk finds further ahead.
theorem IsPage.runsAt_prefix (hreading : (reading.micros : Int) = next.micros + 60000000 * ahead)
    (n : Nat) :
    runsAt start ((s.dueWithin (start.zone.getD .utc) instant minutes.toNat).take (m + n)) <+:
      runsAt start ((s.dueWithin (start.zone.getD .utc) instant minutes.toNat).take m) ++
        runsAt start
          ((s.dueWithin (start.zone.getD .utc) reading (minutes.toNat - k)).take n) := by
  rw [h.take_add_eq hreading, runsAt_append, List.prefix_append_right_inj]
  have hbegins :=
    s.dueWithin_prefix (start.zone.getD .utc) reading (Nat.sub_le (minutes.toNat - k) ahead)
  exact (hbegins.take n).map _

-- The second walk finds no more than the runs of both pages if they are many enough, or if it does
-- not look further ahead.
theorem IsPage.runsAt_eq (hreading : (reading.micros : Int) = next.micros + 60000000 * ahead)
    (hmany : ahead = 0 ∨
      m + n ≤ (s.dueWithin (start.zone.getD .utc) instant minutes.toNat).length) :
    runsAt start ((s.dueWithin (start.zone.getD .utc) instant minutes.toNat).take (m + n)) =
      runsAt start ((s.dueWithin (start.zone.getD .utc) instant minutes.toNat).take m) ++
        runsAt start
          ((s.dueWithin (start.zone.getD .utc) reading (minutes.toNat - k)).take n) := by
  rw [h.take_add_eq hreading, runsAt_append]
  congr 2
  rcases hmany with rfl | hmany
  · rw [Nat.sub_zero]
  · have hdue := h.dueWithin_eq hreading h.left.le
    have hlength := h.length
    rw [h.due] at hlength
    rw [hdue, List.length_append, hlength, Nat.add_le_add_iff_left] at hmany
    obtain ⟨more, hmore⟩ :=
      s.dueWithin_prefix (start.zone.getD .utc) reading (Nat.sub_le (minutes.toNat - k) ahead)
    rw [← hmore, List.take_append_of_le_length hmany]

theorem IsPage.exists_rest_of_enough
    (hin : s.StaysInside (start.zone.getD .utc) instant (m + n) minutes.toNat) (hn : 1 ≤ n)
    (hmany : m + n ≤ (s.dueWithin (start.zone.getD .utc) instant minutes.toNat).length ∨
      ∃ offset, (start.zone.getD .utc).rule = .constant offset) :
    ∃ rest, s.nextRuns ⟨v, start.zone, false⟩ n (minutes - k) = .ok rest ∧
      runsAt start ((s.dueWithin (start.zone.getD .utc) instant minutes.toNat).take (m + n)) =
        runsAt start ((s.dueWithin (start.zone.getD .utc) instant minutes.toNat).take m) ++
          rest := by
  rcases hmany with hmany | ⟨offset, hconstant⟩
  · obtain ⟨reading, hreading, hrest⟩ :=
      h.exists_nextRuns_eq hn (h.keepsCalendar_of_due hin hn hmany)
    exact ⟨_, hrest, h.runsAt_eq hreading (.inr hmany)⟩
  · obtain ⟨reading, hreading, hrest⟩ :=
      h.exists_nextRuns_eq hn (h.keepsCalendar_of_constant hconstant hin hn)
    exact ⟨_, hrest, h.runsAt_eq hreading (.inl (h.goesOn.ahead_of_constant hconstant))⟩

theorem IsPage.pairwise_runsAt (hreading : (reading.micros : Int) = next.micros + 60000000 * ahead)
    (n : Nat) :
    (runsAt start ((s.dueWithin (start.zone.getD .utc) instant minutes.toNat).take m) ++
      runsAt start ((s.dueWithin (start.zone.getD .utc) reading (minutes.toNat - k)).take
        n)).Pairwise ComesBefore := by
  have hleft := h.left
  have hdue := h.dueWithin_eq hreading (show k ≤ minutes.toNat + ahead by omega)
  rw [show minutes.toNat + ahead - k - ahead = minutes.toNat - k by omega] at hdue
  have hsublist :
      ((s.dueWithin (start.zone.getD .utc) instant minutes.toNat).take m ++
        (s.dueWithin (start.zone.getD .utc) reading (minutes.toNat - k)).take n).Sublist
        (s.dueWithin (start.zone.getD .utc) instant (minutes.toNat + ahead)) := by
    rw [hdue]
    exact (List.take_sublist n _).append_left _
  rw [← runsAt_append]
  exact comesBefore_runsAt h.isSteady hsublist

omit h

theorem exists_isPage (hz : ∀ zone ∈ start.zone, zone.IsKnown) (hn : 1 ≤ n)
    (hfirst : start.wall.floorMinute.nextMinute? = some first)
    (hread : (start.zone.getD .utc).toUtc first false = .ok instant)
    (hin : s.StaysInside (start.zone.getD .utc) instant (m + n) minutes.toNat)
    (hlength : ((s.dueWithin (start.zone.getD .utc) instant minutes.toNat).take m).length = m)
    (hlast : ((s.dueWithin (start.zone.getD .utc) instant minutes.toNat).take m).getLast? = some v)
    (hv : (start.zone.getD .utc).FirstShows t v)
    (ht : t.micros + 60000000 = instant.micros + 60000000 * k) (hleft : k < minutes.toNat) :
    ∃ next ahead, s.IsPage start instant m minutes k v t next ahead := by
  have hs := (isKnown_getD hz).isSteady
  have hdue := (dueWithin_eq_take hs hlast hv ht).2
  have hminute : v.micros % 60000000 = 0 := by
    have hfirst' : first.micros % 60000000 = 0 := by
      have hm := WallTime.micros_of_nextMinute? hfirst
      simp only [WallTime.floorMinute] at hm
      omega
    have hmem := List.mem_of_mem_take (List.mem_of_getLast? hlast)
    exact (((enumerates_dueWithin hs hfirst' hread _).mem_iff v).1 hmem).1
  have hfew : (s.dueWithin (start.zone.getD .utc) instant k).length < m + n := by
    rw [hdue, hlength]
    omega
  obtain ⟨next, -, -, hnext, -, -⟩ := hin k hleft hfew
  have hm := WallTime.micros_of_addMinutes? hnext
  have hnext' : t.nextMinute? = some next := WallTime.nextMinute?_eq_some.2 (by omega)
  obtain ⟨ahead, hgoes⟩ := exists_goesOn hs hv hnext'
  exact ⟨next, ahead, hz, hdue, hdue ▸ hlength, hminute, hleft, hgoes, hnext⟩

/-- Runs are found page by page. Let a page of `m` runs end with one found at the `k`-th minute that
the walk looks at. The first `m + n` runs, of the same horizon, are the page with the next `n` runs
after its last one, of the horizon that is left, if they are that many or the clocks never change.
In any case they begin this list, as far as the second walk stays within the calendar, and its runs
ascend on the clocks and as instants. -/
theorem nextRuns_add {n k : Nat} {page : List Moment} (hz : ∀ zone ∈ start.zone, zone.IsKnown)
    (hm : 1 ≤ m) (hn : 1 ≤ n) (hkeeps : s.KeepsCalendar start (m + n : Nat) minutes)
    (hpage : s.nextRuns start m minutes = .ok page) (hlength : page.length = m)
    (hlast : page.getLast? = some r) (hfound : FoundAt start r k) :
    ∃ all, s.nextRuns start (m + n : Nat) minutes = .ok all ∧
      (all.length = m + n ∨ (∃ offset, (start.zone.getD .utc).rule = .constant offset) →
        ∃ rest, s.nextRuns r n (minutes - k) = .ok rest ∧ all = page ++ rest) ∧
      (s.KeepsCalendar r n (minutes - k) →
        ∃ rest, s.nextRuns r n (minutes - k) = .ok rest ∧ all <+: page ++ rest) ∧
      ∀ rest, s.nextRuns r n (minutes - k) = .ok rest → (page ++ rest).Pairwise ComesBefore := by
  have hs := (isKnown_getD hz).isSteady
  have hminutes : 1 ≤ minutes := by
    by_contra hnone
    rw [nextRuns, if_pos (by omega)] at hpage
    cases hpage
    cases hlast
  obtain ⟨first, instant, hfirst, hread, hin⟩ := hkeeps (by omega) hminutes
  rw [Int.toNat_natCast] at hin
  have hall := nextRuns_of_staysInside hz (by omega) hminutes hfirst hread hin
  have hpage' := nextRuns_of_staysInside hz hm hminutes hfirst hread (hin.mono (by omega))
  rw [hpage] at hpage'
  cases hpage'
  rw [runsAt, List.length_map] at hlength
  -- the last run of the page, and the minute that it is found at
  rw [runsAt, List.getLast?_map, Option.map_eq_some_iff] at hlast
  obtain ⟨v, hlast, rfl⟩ := hlast
  obtain ⟨first', instant', t, hfirst', hread', hnames, ht⟩ := hfound
  rw [hfirst] at hfirst'
  cases hfirst'
  rw [hread] at hread'
  cases hread'
  have hv : (start.zone.getD .utc).FirstShows t v := Zone.firstShows_iff_names.2 hnames
  obtain ⟨hle, hdue⟩ := dueWithin_eq_take hs hlast hv ht
  by_cases hleft : k < minutes.toNat
  · obtain ⟨next, ahead, hpage⟩ :=
      exists_isPage hz hn hfirst hread hin hlength hlast hv ht hleft
    refine ⟨_, hall, ?_, ?_, ?_⟩
    · intro hmany
      apply hpage.exists_rest_of_enough hin hn
      rw [runsAt, List.length_map, List.length_take] at hmany
      exact hmany.imp_left fun hfull => by omega
    · intro hkeeps
      obtain ⟨reading, hreading, hrest⟩ := hpage.exists_nextRuns_eq hn hkeeps
      exact ⟨_, hrest, hpage.runsAt_prefix hreading n⟩
    · intro rest hrest
      obtain ⟨reading, hreading, hrest'⟩ :=
        hpage.exists_nextRuns_eq hn (keepsCalendar_of_nextRuns hz hrest)
      rw [hrest] at hrest'
      cases hrest'
      exact hpage.pairwise_runsAt hreading n
  · -- the page took up the whole horizon
    have hnone : s.nextRuns ⟨v, start.zone, false⟩ n (minutes - k) = .ok [] := by
      rw [nextRuns, if_pos (by omega)]
    obtain rfl : k = minutes.toNat := by omega
    have hwhole : (s.dueWithin (start.zone.getD .utc) instant minutes.toNat).take (m + n) =
        (s.dueWithin (start.zone.getD .utc) instant minutes.toNat).take m := by
      have hlength' := congrArg List.length hdue
      rw [← hdue, List.take_of_length_le (by omega)]
    rw [hwhole] at hall
    refine ⟨_, hall, fun _ => ⟨[], hnone, (List.append_nil _).symm⟩,
      fun _ => ⟨[], hnone, List.prefix_append _ _⟩, ?_⟩
    intro rest hrest
    rw [hnone] at hrest
    cases hrest
    rw [List.append_nil]
    exact comesBefore_runsAt hs (List.take_sublist _ _)

/-- From half past one in the first pass on, on the night that New York's clocks are set back, at
the first and the last minute of each hour: a page of one run, which lies before the clocks change,
and a page of two runs after them. -/
theorem nextRuns_add_new_york :
    let s : Schedule := ⟨"0,59 * * * *", .ofValues .minute [0, 59] false, .wildcard .hour,
      .wildcard .dayOfMonth, .wildcard .month, .wildcard .dayOfWeek⟩
    let zone : Zone := .region ⟨"America/New_York", Region.northAmerica (Region.hm (-5) 0)⟩
    let night := 86400 * Date.toDay ⟨2026, 11, 1⟩
    let start : Moment := ⟨⟨(night + 5400) * 1000000, by decide⟩, some zone, false⟩
    let r : Moment := ⟨⟨(night + 7140) * 1000000, by decide⟩, some zone, false⟩
    (∀ zone ∈ start.zone, zone.IsKnown) ∧ 1 ≤ 1 ∧ 1 ≤ 2 ∧
      s.KeepsCalendar start (1 + 2 : Nat) 180 ∧ s.nextRuns start (1 : Nat) 180 = .ok [r] ∧
      [r].length = 1 ∧ [r].getLast? = some r ∧ FoundAt start r 29 ∧
      ∃ all, s.nextRuns start (1 + 2 : Nat) 180 = .ok all ∧
        (all.length = 1 + 2 ∨ (∃ offset, (start.zone.getD .utc).rule = .constant offset) →
          ∃ rest, s.nextRuns r (2 : Nat) (180 - (29 : Nat)) = .ok rest ∧ all = [r] ++ rest) ∧
        (s.KeepsCalendar r (2 : Nat) (180 - (29 : Nat)) →
          ∃ rest, s.nextRuns r (2 : Nat) (180 - (29 : Nat)) = .ok rest ∧ all <+: [r] ++ rest) ∧
        ∀ rest, s.nextRuns r (2 : Nat) (180 - (29 : Nat)) = .ok rest →
          ([r] ++ rest).Pairwise ComesBefore := by
  intro s zone night start r
  have hk : zone.IsKnown := by decide
  have hz : ∀ zone ∈ start.zone, zone.IsKnown := by
    rintro _ ⟨⟩
    exact hk
  let first : WallTime := ⟨(night + 5460) * 1000000, by decide⟩
  let instant : WallTime := ⟨(night + 5460 + 14400) * 1000000, by decide⟩
  let t : WallTime := ⟨(night + 7140 + 14400) * 1000000, by decide⟩
  have hfirst : start.wall.floorMinute.nextMinute? = some first := by decide +kernel
  have hread : zone.toUtc first false = .ok instant := Zone.toUtc_eq_ok.2 (by decide +kernel)
  have hnames : r.Names .utc t :=
    Moment.names_of_offset hk (by decide +kernel) (by decide +kernel)
  have hkeeps : s.KeepsCalendar start (1 + 2 : Nat) 180 := fun _ _ =>
    ⟨first, instant, hfirst, hread,
      staysInside_of_le hk.isSteady (by decide +kernel) (by decide +kernel)⟩
  have hpage : s.nextRuns start (1 : Nat) 180 = .ok [r] := by decide +kernel
  have hfound : FoundAt start r 29 :=
    ⟨first, instant, t, hfirst, hread, hnames, by decide +kernel⟩
  exact ⟨hz, by decide, by decide, hkeeps, hpage, rfl, rfl, hfound,
    nextRuns_add hz (by decide) (by decide) hkeeps hpage rfl rfl hfound⟩

end Pages

end Schedule

end Cron
