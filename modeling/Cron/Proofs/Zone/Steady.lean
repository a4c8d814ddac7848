import Cron.Moment.Basic
import Mathlib.Tactic.ByContra

/-!
Clocks whose changes lie further apart than their size. Such clocks skip a wall time or show it
twice, but never more, and the first reading of a wall time is the first instant that shows it. The
instants at which the clocks show more than ever before are exactly those first readings.
-/
namespace Cron.ClockRule

/-- What the clocks show at an instant, in seconds. -/
def shown (rule : ClockRule) (t : Nat) : Int := t + rule.offsetAt t

/-- An instant at which the clocks show more than ever before. -/
def IsRecord (rule : ClockRule) (t : Nat) : Prop := ∀ u < t, rule.shown u < rule.shown t

/-- The clocks show some seconds at two instants. -/
def ShowsTwice (rule : ClockRule) (wall : Nat) : Prop :=
  ∃ t u, t < u ∧ rule.shown t = wall ∧ rule.shown u = wall

/-- Clocks that change at most once within three days, by less than two, at a whole minute and by
whole minutes, and not at all near the ends of the calendar. -/
structure IsSteady (rule : ClockRule) : Prop where
  bounded : ∀ t, -86400 < rule.offsetAt t ∧ rule.offsetAt t < 86400
  whole : ∀ t u, rule.offsetAt t ≠ rule.offsetAt u → rule.offsetAt t % 60 = 0
  aligned : ∀ t, rule.offsetAt (60 * (t / 60)) = rule.offsetAt t
  once : ∀ t, ∃ change, ∀ u, t ≤ u → u ≤ t + 259200 →
    rule.offsetAt u = if u < change then rule.offsetAt t else rule.offsetAt (t + 259200)
  calmStart : ∀ t ≤ 691200, rule.offsetAt t = rule.offsetAt 0
  calmEnd : ∀ t, Moment.calendarSeconds ≤ t + 691200 → t ≤ Moment.calendarSeconds + 691200 →
    rule.offsetAt t = rule.offsetAt Moment.calendarSeconds

/-- Clocks as they are in the day from `base` on, and as far around it as the reading of a wall time
of that day looks: they have one distance from UTC before a change and one after it. -/
structure ChangesOnce (rule : ClockRule) (base : Nat) (before after : Int) (change : Nat) :
    Prop where
  before_bounds : -86400 < before ∧ before < 86400
  after_bounds : -86400 < after ∧ after < 86400
  early : base < 86400 → before = after
  whole : before ≠ after → before % 60 = 0 ∧ after % 60 = 0
  offsetAt_eq : ∀ u, base ≤ u + 86400 → u ≤ base + 172800 →
    rule.offsetAt u = if u < change then before else after

variable {rule : ClockRule}

theorem IsSteady.exists_changesOnce (h : rule.IsSteady) (base : Nat) :
    ∃ before after change, rule.ChangesOnce base before after change := by
  by_cases hearly : base < 86400
  · refine ⟨rule.offsetAt 0, rule.offsetAt 0, 0, h.bounded 0, h.bounded 0, fun _ => rfl,
      fun hne => absurd rfl hne, ?_⟩
    intro u _ hu
    rw [ite_self, h.calmStart u (by omega)]
  · rcases h.once (base - 86400) with ⟨change, hchange⟩
    refine ⟨rule.offsetAt (base - 86400), rule.offsetAt (base - 86400 + 259200), change,
      h.bounded _, h.bounded _, fun hlt => absurd hlt hearly,
      fun hne => ⟨h.whole _ _ hne, h.whole _ _ (Ne.symm hne)⟩, ?_⟩
    intro u hlo hhi
    exact hchange u (by omega) (by omega)

theorem offsetOfWall_of_eq {wall : Nat}
    (h : rule.offsetAt (wall - 86400) = rule.offsetAt (wall + 86400)) (second : Bool) :
    rule.offsetOfWall wall second = rule.offsetAt (wall - 86400) := by
  rw [offsetOfWall, if_pos h]

theorem offsetOfWall_of_ne {wall : Nat}
    (h : rule.offsetAt (wall - 86400) ≠ rule.offsetAt (wall + 86400)) (second : Bool) :
    rule.offsetOfWall wall second =
      match decide (rule.offsetAt (moved wall (-rule.offsetAt (wall - 86400))) =
          rule.offsetAt (wall - 86400)),
        decide (rule.offsetAt (moved wall (-rule.offsetAt (wall + 86400))) =
          rule.offsetAt (wall + 86400)) with
      | true, false => rule.offsetAt (wall - 86400)
      | false, true => rule.offsetAt (wall + 86400)
      | _, _ => if second then rule.offsetAt (wall + 86400) else rule.offsetAt (wall - 86400) := by
  unfold offsetOfWall
  exact if_neg h

-- A wall time is read with the distance of a day before or a day after.
theorem offsetOfWall_cases (rule : ClockRule) (wall : Nat) (second : Bool) :
    rule.offsetOfWall wall second = rule.offsetAt (wall - 86400) ∨
      rule.offsetOfWall wall second = rule.offsetAt (wall + 86400) := by
  by_cases h : rule.offsetAt (wall - 86400) = rule.offsetAt (wall + 86400)
  · exact Or.inl (offsetOfWall_of_eq h second)
  · rw [offsetOfWall_of_ne h]
    split
    · exact Or.inl rfl
    · exact Or.inr rfl
    · cases second
      · exact Or.inl rfl
      · exact Or.inr rfl

theorem IsSteady.offsetOfWall_bounded (h : rule.IsSteady) (wall : Nat) (second : Bool) :
    -86400 < rule.offsetOfWall wall second ∧ rule.offsetOfWall wall second < 86400 := by
  rcases rule.offsetOfWall_cases wall second with hu | hu
  · rw [hu]
    exact h.bounded _
  · rw [hu]
    exact h.bounded _

theorem IsSteady.offsetOfWall_sub_mod (h : rule.IsSteady) (wall : Nat) (second : Bool) (t : Nat) :
    (rule.offsetOfWall wall second - rule.offsetAt t) % 60 = 0 := by
  have hut := fun u => h.whole u t
  have htu := fun u => h.whole t u
  rcases rule.offsetOfWall_cases wall second with hu | hu
  · have hleft := hut (wall - 86400)
    have hright := htu (wall - 86400)
    rw [hu]
    omega
  · have hleft := hut (wall + 86400)
    have hright := htu (wall + 86400)
    rw [hu]
    omega

theorem IsSteady.offsetOfWall_of_early (h : rule.IsSteady) {wall : Nat} (hw : wall ≤ 604800)
    (second : Bool) : rule.offsetOfWall wall second = rule.offsetAt 0 := by
  rcases rule.offsetOfWall_cases wall second with hu | hu
  · rw [hu, h.calmStart _ (by omega)]
  · rw [hu, h.calmStart _ (by omega)]

theorem IsSteady.offsetOfWall_of_late (h : rule.IsSteady) {wall : Nat}
    (hw : Moment.calendarSeconds ≤ wall + 604800) (hw' : wall ≤ Moment.calendarSeconds)
    (second : Bool) : rule.offsetOfWall wall second = rule.offsetAt Moment.calendarSeconds := by
  rcases rule.offsetOfWall_cases wall second with hu | hu
  · rw [hu, h.calmEnd _ (by omega) (by omega)]
  · rw [hu, h.calmEnd _ (by omega) (by omega)]

-- Readings that differ lie away from the ends of the calendar.
theorem IsSteady.wall_bounds_of_offsetOfWall_ne (h : rule.IsSteady) {wall wall' : Nat}
    {second second' : Bool} (hlt : wall < wall') (hlast : wall' ≤ Moment.calendarSeconds)
    (hne : rule.offsetOfWall wall' second' ≠ rule.offsetOfWall wall second) :
    604800 < wall' ∧ wall + 604800 < Moment.calendarSeconds := by
  constructor
  · by_contra hearly
    apply hne
    rw [h.offsetOfWall_of_early (by omega), h.offsetOfWall_of_early (by omega)]
  · by_contra hlate
    apply hne
    rw [h.offsetOfWall_of_late (by omega) (by omega),
      h.offsetOfWall_of_late (by omega) (by omega)]

theorem moved_neg (wall : Nat) (d : Int) (h : d ≤ wall) : (moved wall (-d) : Int) = wall - d := by
  rw [moved_eq]
  omega

section Change
variable {base change wall : Nat} {before after : Int}

-- Both readings of a wall time, from the distances `before` and `after` a change. The first
-- reading takes the later distance only if the clocks have changed by then under either
-- distance, the second takes the earlier one only if they have not.
theorem ChangesOnce.readings (h : rule.ChangesOnce base before after change) (hlo : base ≤ wall)
    (hhi : wall ≤ base + 86400) :
    rule.offsetOfWall wall false =
        (if (change : Int) ≤ wall - before ∧ (change : Int) ≤ wall - after then after
          else before) ∧
      rule.offsetOfWall wall true =
        (if wall - before < (change : Int) ∧ wall - after < (change : Int) then before
          else after) := by
  have hbefore := h.before_bounds
  have hafter := h.after_bounds
  have hearly := h.early
  have hleft := h.offsetAt_eq (wall - 86400) (by omega) (by omega)
  have hright := h.offsetAt_eq (wall + 86400) (by omega) (by omega)
  by_cases hsame : rule.offsetAt (wall - 86400) = rule.offsetAt (wall + 86400)
  · rw [offsetOfWall_of_eq hsame, offsetOfWall_of_eq hsame]
    split at hleft <;> split at hright <;> constructor <;> split <;> omega
  · -- the change lies between, so each distance is in force on its own side of it
    rw [offsetOfWall_of_ne hsame, offsetOfWall_of_ne hsame]
    split at hleft
    · split at hright
      · omega
      · have hl := moved_neg wall before (by omega)
        have hr := moved_neg wall after (by omega)
        have hml := h.offsetAt_eq (moved wall (-before)) (by omega) (by omega)
        have hmr := h.offsetAt_eq (moved wall (-after)) (by omega) (by omega)
        have hshowsBefore : rule.offsetAt (moved wall (-before)) = before ↔
            (wall : Int) - before < change := by
          split at hml <;> omega
        have hshowsAfter : rule.offsetAt (moved wall (-after)) = after ↔
            (change : Int) ≤ wall - after := by
          split at hmr <;> omega
        rw [hleft, hright]
        simp only [hshowsBefore, hshowsAfter]
        by_cases hl : (wall : Int) - before < change
        · by_cases hr : (change : Int) ≤ wall - after
          · simp [hl, hr, Int.not_le.2 hl, Int.not_lt.2 hr]
          · simp [hl, hr, Int.not_le.2 hl, Int.not_le.1 hr]
        · by_cases hr : (change : Int) ≤ wall - after
          · simp [hl, hr, Int.not_lt.1 hl]
          · simp [hl, hr, Int.not_lt.1 hl, Int.not_le.1 hr]
    · split at hright <;> omega

-- The instants that show a wall time lie as far around it as the change is known.
theorem ChangesOnce.offsetAt_of_shown (h : rule.ChangesOnce base before after change)
    (hs : rule.IsSteady) (hlo : base ≤ wall) (hhi : wall ≤ base + 86400) {t : Nat}
    (ht : rule.shown t = wall) : rule.offsetAt t = if t < change then before else after := by
  have hbound := hs.bounded t
  rw [shown] at ht
  exact h.offsetAt_eq t (by omega) (by omega)

-- The clocks show a wall time twice exactly if they do so before the change and after it.
theorem ChangesOnce.showsTwice_iff (h : rule.ChangesOnce base before after change)
    (hs : rule.IsSteady) (hlo : base ≤ wall) (hhi : wall ≤ base + 86400) :
    rule.ShowsTwice wall ↔
      (wall : Int) - before < change ∧ (change : Int) ≤ wall - after := by
  have hbefore := h.before_bounds
  have hafter := h.after_bounds
  constructor
  · intro hex
    rcases hex with ⟨t, u, htu, ht, hu⟩
    have hot := h.offsetAt_of_shown hs hlo hhi ht
    have hou := h.offsetAt_of_shown hs hlo hhi hu
    rw [shown] at ht hu
    split at hot <;> split at hou <;> omega
  · intro hex
    rcases hex with ⟨hlt, hle⟩
    have hearly := h.early
    have hot := h.offsetAt_eq (wall - before).toNat (by omega) (by omega)
    have hou := h.offsetAt_eq (wall - after).toNat (by omega) (by omega)
    rw [if_pos (by omega)] at hot
    rw [if_neg (by omega)] at hou
    refine ⟨(wall - before).toNat, (wall - after).toNat, by omega, ?_, ?_⟩
    · rw [shown, hot]
      omega
    · rw [shown, hou]
      omega

-- All of a minute lies before a change that matters, or after it.
theorem ChangesOnce.lt_change_iff (h : rule.ChangesOnce base before after change)
    (hs : rule.IsSteady) (hne : before ≠ after) {t u : Nat} (hminute : t / 60 = u / 60)
    (ht : base ≤ t + 86400 ∧ t ≤ base + 172800) (hu : base ≤ u + 86400 ∧ u ≤ base + 172800) :
    t < change ↔ u < change := by
  have hot := h.offsetAt_eq t ht.1 ht.2
  have hou := h.offsetAt_eq u hu.1 hu.2
  rw [← hs.aligned t, hminute, hs.aligned u, hou] at hot
  split at hot <;> split at hot <;> omega

-- A wall minute lies on one side of the change as a whole, under either distance.
theorem ChangesOnce.minute_iff (h : rule.ChangesOnce base before after change)
    (hs : rule.IsSteady) (hne : before ≠ after) (hbase : 60 * (wall / 60) = base) :
    ((wall : Int) - before < change ↔ (base : Int) - before < change) ∧
      ((wall : Int) - after < change ↔ (base : Int) - after < change) := by
  have hbefore := h.before_bounds
  have hafter := h.after_bounds
  have hearly := h.early
  have hwhole := h.whole hne
  constructor
  · have hminute := h.lt_change_iff hs hne (t := (wall - before).toNat)
      (u := (base - before).toNat) (by omega) (by omega) (by omega)
    omega
  · have hminute := h.lt_change_iff hs hne (t := (wall - after).toNat)
      (u := (base - after).toNat) (by omega) (by omega) (by omega)
    omega

end Change

-- The first reading of a wall time is a record, also for a wall time that the clocks leave out:
-- it then names an instant at which they show more.
theorem IsSteady.isRecord_of_reading (h : rule.IsSteady) {wall c : Nat}
    (hc : (c : Int) + rule.offsetOfWall wall false = wall) :
    rule.IsRecord c ∧ (wall : Int) ≤ rule.shown c := by
  rcases h.exists_changesOnce wall with ⟨before, after, change, hchange⟩
  have hbefore := hchange.before_bounds
  have hafter := hchange.after_bounds
  rw [(hchange.readings (Nat.le_refl wall) (Nat.le_add_right wall _)).1] at hc
  have hwindow : wall ≤ c + 86400 ∧ c ≤ wall + 86400 := by
    split at hc <;> omega
  have hoffset := hchange.offsetAt_eq c hwindow.1 (by omega)
  have hshown : (wall : Int) ≤ rule.shown c := by
    rw [shown, hoffset]
    split at hc <;> split <;> omega
  refine ⟨?_, hshown⟩
  intro u hu
  by_cases hnear : wall ≤ u + 86400
  · have hu' := hchange.offsetAt_eq u hnear (by omega)
    rw [shown, shown, hoffset, hu']
    split at hc <;> split <;> split <;> omega
  · -- too early to show even the wall time itself
    have hbound := h.bounded u
    have heq : rule.shown u = u + rule.offsetAt u := rfl
    omega

-- If the clocks show a wall time at all, its first reading does, and no later than they do.
theorem IsSteady.exists_first (h : rule.IsSteady) {wall t : Nat} (ht : rule.shown t = wall) :
    ∃ c ≤ t, (c : Int) + rule.offsetOfWall wall false = wall ∧ rule.shown c = wall := by
  rcases h.exists_changesOnce wall with ⟨before, after, change, hchange⟩
  have hbefore := hchange.before_bounds
  have hafter := hchange.after_bounds
  have hearly := hchange.early
  have hfirst := (hchange.readings (Nat.le_refl wall) (Nat.le_add_right wall _)).1
  have hoffset := hchange.offsetAt_of_shown h (Nat.le_refl wall) (Nat.le_add_right wall _) ht
  rw [shown] at ht
  by_cases hpassed : (change : Int) ≤ wall - before ∧ (change : Int) ≤ wall - after
  · rw [if_pos hpassed] at hfirst
    refine ⟨t, Nat.le_refl t, ?_, ?_⟩
    · split at hoffset <;> omega
    · rw [shown, ht]
  · rw [if_neg hpassed] at hfirst
    have hpos : before ≤ wall := by
      split at hoffset <;> omega
    have hc := hchange.offsetAt_eq (wall - before).toNat (by omega) (by omega)
    refine ⟨(wall - before).toNat, ?_, ?_, ?_⟩
    · split at hoffset <;> omega
    · omega
    · rw [shown, hc]
      split at hoffset <;> split <;> omega

-- An instant is what the wall time shown then is read as, in the first pass or the second.
theorem IsSteady.offsetOfWall_of_shown (h : rule.IsSteady) {wall t : Nat}
    (ht : rule.shown t = wall) :
    rule.offsetOfWall wall (rule.offsetOfWall wall false != rule.offsetAt t) =
      rule.offsetAt t := by
  rcases h.exists_changesOnce wall with ⟨before, after, change, hchange⟩
  have hoffset := hchange.offsetAt_of_shown h (Nat.le_refl wall) (Nat.le_add_right wall _) ht
  rcases hchange.readings (Nat.le_refl wall) (Nat.le_add_right wall _) with ⟨hfirst, hlast⟩
  by_cases hfresh : rule.offsetOfWall wall false = rule.offsetAt t
  · rw [hfresh, bne_self_eq_false, hfresh]
  · rw [bne_iff_ne.2 hfresh, hlast]
    rw [hfirst] at hfresh
    rw [shown] at ht
    split at hoffset <;> split at hfresh <;> split <;> omega

-- All of a wall minute is read with one distance.
theorem IsSteady.offsetOfWall_floor (h : rule.IsSteady) (wall : Nat) (second : Bool) :
    rule.offsetOfWall (60 * (wall / 60)) second = rule.offsetOfWall wall second := by
  generalize hbase : 60 * (wall / 60) = base
  rcases h.exists_changesOnce base with ⟨before, after, change, hchange⟩
  rcases hchange.readings (show base ≤ wall by omega) (by omega) with ⟨hfirst, hlast⟩
  rcases hchange.readings (Nat.le_refl base) (by omega) with ⟨hfirst', hlast'⟩
  by_cases hsame : before = after
  · cases second
    · rw [hfirst, hfirst', hsame, ite_self, ite_self]
    · rw [hlast, hlast', hsame, ite_self, ite_self]
  · rcases hchange.minute_iff h hsame hbase with ⟨hminute, hminute'⟩
    cases second
    · rw [hfirst, hfirst']
      split <;> split <;> omega
    · rw [hlast, hlast']
      split <;> split <;> omega

-- The minute after a wall time that the clocks show is first read with the distance of the wall
-- time itself, unless they show that twice. Then its first pass has this distance if the minute
-- after it comes twice too, and its second pass has it if not.
theorem IsSteady.offsetOfWall_next_iff (h : rule.IsSteady) {wall t : Nat}
    (ht : rule.shown t = wall) (second : Bool) :
    rule.offsetOfWall (60 * (wall / 60) + 60) false = rule.offsetOfWall wall second ↔
      (rule.ShowsTwice wall → (second = true ↔ ¬ rule.ShowsTwice (60 * (wall / 60) + 60))) := by
  generalize hbase : 60 * (wall / 60) = base
  rcases h.exists_changesOnce base with ⟨before, after, change, hchange⟩
  have hoffset := hchange.offsetAt_of_shown h (show base ≤ wall by omega) (by omega) ht
  rcases hchange.readings (show base ≤ wall by omega) (by omega) with ⟨hfirst, hlast⟩
  rw [hchange.showsTwice_iff h (show base ≤ wall by omega) (by omega),
    hchange.showsTwice_iff h (show base ≤ base + 60 by omega) (by omega),
    (hchange.readings (show base ≤ base + 60 by omega) (by omega)).1]
  rw [shown] at ht
  by_cases hsame : before = after
  · cases second
    · rw [hfirst, hsame, ite_self, ite_self]
      omega
    · rw [hlast, hsame, ite_self, ite_self]
      omega
  · have hwhole := hchange.whole hsame
    rcases hchange.minute_iff h hsame hbase with ⟨hminute, hminute'⟩
    cases second
    · rw [hfirst, Bool.false_eq_true, false_iff, not_not]
      split at hoffset <;> split <;> split <;> omega
    · rw [hlast, eq_self, true_iff]
      split at hoffset <;> split <;> split <;> omega

-- An instant that shows something for the first time is a record: had the clocks shown more
-- before, they would have been set back since, and would have shown this before that too.
theorem IsSteady.isRecord_of_first (h : rule.IsSteady) {t : Nat}
    (hfirst : ∀ u < t, rule.shown u ≠ rule.shown t) : rule.IsRecord t := by
  intro u hu
  by_contra hle
  simp only [shown] at hle hfirst
  have hbu := h.bounded u
  have hbt := h.bounded t
  have hfar : 691200 < t := by
    by_contra hnear
    have hsame := h.calmStart u (by omega)
    rw [← h.calmStart t (by omega)] at hsame
    omega
  rcases h.once (t - 172800) with ⟨change, hchange⟩
  have hou := hchange u (by omega) (by omega)
  have hot := hchange t (by omega) (by omega)
  -- `v` is the instant that would show the same under the distance of `u`
  have hov := hchange (t + rule.offsetAt t - rule.offsetAt u).toNat (by omega) (by omega)
  have hv := hfirst (t + rule.offsetAt t - rule.offsetAt u).toNat
  split at hou <;> split at hot <;> split at hov <;> omega

-- The records are the first readings of what the clocks show.
theorem IsSteady.isRecord_iff (h : rule.IsSteady) {wall t : Nat} (ht : rule.shown t = wall) :
    rule.IsRecord t ↔ rule.offsetOfWall wall false = rule.offsetAt t := by
  constructor
  · intro hrecord
    rcases h.exists_first ht with ⟨c, hle, hc, hshown⟩
    obtain rfl : c = t := by
      by_contra hne
      have hlt := hrecord c (by omega)
      omega
    rw [shown] at hshown
    omega
  · intro hoffset
    rw [shown, ← hoffset] at ht
    exact (h.isRecord_of_reading ht).1

-- Among the minutes after a record, what the clocks show is larger than at all earlier ones
-- exactly if it is shown for the first time.
theorem IsSteady.forall_shown_lt_iff (h : rule.IsSteady) {wall c k : Nat} (hc : rule.IsRecord c)
    (hwall : rule.shown (c + 60 * k) = wall) :
    (∀ j < k, rule.shown (c + 60 * j) < rule.shown (c + 60 * k)) ↔
      rule.offsetOfWall wall false = rule.offsetAt (c + 60 * k) := by
  rw [← h.isRecord_iff hwall]
  constructor
  · intro hless
    apply h.isRecord_of_first
    intro u hu heq
    by_cases hbefore : u < c
    · have huc := hc u hbefore
      rcases Nat.eq_zero_or_pos k with rfl | hk
      · rw [Nat.mul_zero, Nat.add_zero] at heq
        omega
      · have hck := hless 0 hk
        rw [Nat.mul_zero, Nat.add_zero] at hck
        omega
    · -- offsets that differ are whole minutes, so `u` is one of the minutes after `c`
      have hwhole := h.whole u (c + 60 * k)
      have hwhole' := h.whole (c + 60 * k) u
      simp only [shown] at heq
      obtain ⟨j, rfl⟩ : ∃ j, u = c + 60 * j := ⟨(u - c) / 60, by omega⟩
      have hlt := hless j (by omega)
      simp only [shown] at hlt
      omega
  · intro hrecord j hj
    exact hrecord _ (by omega)

end Cron.ClockRule
