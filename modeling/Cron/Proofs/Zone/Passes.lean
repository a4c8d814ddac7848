import Cron.Proofs.Calendar.Minutes
import Cron.Proofs.Zone.Regions

/-!
Wall times in a zone: at which instants its clocks show them, and which of these is the first.
Reading a wall time back gives that first instant.
-/
namespace Cron

-- Adding seconds is addition wherever the calendar reaches.
theorem WallTime.addSeconds?_eq_some {w v : WallTime} {s : Int} :
    w.addSeconds? s = some v ↔ (v.micros : Int) = w.micros + 1000000 * s := by
  constructor
  · exact micros_of_addSeconds?
  · intro h
    have hlt := v.lt
    cases s with
    | ofNat n =>
      simp only [Int.ofNat_eq_natCast] at h
      have hv : w.micros + 1000000 * n = v.micros := by omega
      rw [addSeconds?, hv, ofMicros?_of_lt hlt]
    | negSucc n =>
      have hv : w.micros - 1000000 * (n + 1) = v.micros := by omega
      rw [addSeconds?, if_pos (by omega), hv, ofMicros?_of_lt hlt]

namespace Zone

/-- At an instant the clocks of a zone show a wall time. -/
def Shows (zone : Zone) (t w : WallTime) : Prop := ∃ second, zone.ofUtc t = .ok (w, second)

/-- At an instant the clocks of a zone show a wall time, and did not show it before. -/
def FirstShows (zone : Zone) (t w : WallTime) : Prop :=
  zone.Shows t w ∧ ∀ u, zone.Shows u w → t.micros ≤ u.micros

/-- The clocks of a zone show a wall time at two instants. -/
def ShowsTwice (zone : Zone) (w : WallTime) : Prop :=
  ∃ t u : WallTime, t.micros < u.micros ∧ zone.Shows t w ∧ zone.Shows u w

variable {zone : Zone} {t w : WallTime}

theorem shows_iff_addSeconds? :
    zone.Shows t w ↔ t.addSeconds? (zone.rule.offsetAt t.seconds) = some w := by
  rw [Shows]
  cases h : t.addSeconds? (zone.rule.offsetAt t.seconds) with
  | none => simp [ofUtc, h]
  | some v => simp [ofUtc, h]

theorem shows_iff :
    zone.Shows t w ↔ (w.micros : Int) = t.micros + 1000000 * zone.rule.offsetAt t.seconds := by
  rw [shows_iff_addSeconds?, WallTime.addSeconds?_eq_some]

theorem Shows.unique {v : WallTime} (h : zone.Shows t w) (h' : zone.Shows t v) : w = v := by
  rw [shows_iff] at h h'
  exact WallTime.ext (by omega)

theorem toUtc_eq_ok {second : Bool} :
    zone.toUtc w second = .ok t ↔
      (t.micros : Int) = w.micros - 1000000 * zone.rule.offsetOfWall w.seconds second := by
  have hadd := WallTime.addSeconds?_eq_some (w := w) (v := t)
    (s := -zone.rule.offsetOfWall w.seconds second)
  unfold toUtc
  split
  · next h =>
    rw [h] at hadd
    simp only [reduceCtorEq, false_iff] at hadd ⊢
    omega
  · next v h =>
    rw [h, Option.some_inj] at hadd
    rw [Except.ok.injEq, hadd]
    constructor <;> intro _ <;> omega

theorem seconds_of_toUtc {second : Bool} (h : zone.toUtc w second = .ok t) :
    (t.seconds : Int) + zone.rule.offsetOfWall w.seconds second = w.seconds := by
  rw [toUtc_eq_ok] at h
  simp only [WallTime.seconds] at *
  omega

theorem Shows.shown_seconds (h : zone.Shows t w) : zone.rule.shown t.seconds = w.seconds := by
  rw [shows_iff] at h
  simp only [ClockRule.shown, WallTime.seconds] at *
  omega

theorem showsTwice_iff (hs : zone.rule.IsSteady) :
    zone.ShowsTwice w ↔ zone.rule.ShowsTwice w.seconds := by
  constructor
  · intro hex
    rcases hex with ⟨t, u, htu, ht, hu⟩
    have hmt := shows_iff.1 ht
    have hmu := shows_iff.1 hu
    refine ⟨t.seconds, u.seconds, ?_, ht.shown_seconds, hu.shown_seconds⟩
    by_contra hle
    have hsame : t.seconds = u.seconds :=
      Nat.le_antisymm (Nat.div_le_div_right (Nat.le_of_lt htu)) (Nat.not_lt.1 hle)
    rw [hsame] at hmt
    omega
  · intro hex
    rcases hex with ⟨t, u, htu, ht, hu⟩
    -- the clocks change between the two instants, so both lie well within the calendar
    have hcalendar : 1000000 * Moment.calendarSeconds = calendarMicros := by decide
    have hlt := w.lt
    have hbt := hs.bounded t
    have hbu := hs.bounded u
    have hot := hs.calmEnd t
    have hou := hs.calmEnd u
    have hfar : u < Moment.calendarSeconds := by
      simp only [ClockRule.shown, WallTime.seconds] at ht hu
      omega
    have hmicros : ∀ v, v ≤ u → 1000000 * v + w.micros % 1000000 < calendarMicros := by
      intro v hv
      omega
    have hshows : ∀ (v : Nat) (hv : v ≤ u), zone.rule.shown v = w.seconds →
        zone.Shows ⟨_, hmicros v hv⟩ w := by
      intro v hv hshown
      have hsec : (⟨_, hmicros v hv⟩ : WallTime).seconds = v := by
        simp only [WallTime.seconds]
        omega
      rw [shows_iff, hsec]
      show (w.micros : Int) = (1000000 * v + w.micros % 1000000 : Nat) +
        1000000 * zone.rule.offsetAt v
      simp only [ClockRule.shown, WallTime.seconds] at hshown
      omega
    refine ⟨_, _, ?_, hshows t (Nat.le_of_lt htu) ht, hshows u (Nat.le_refl u) hu⟩
    show 1000000 * t + w.micros % 1000000 < 1000000 * u + w.micros % 1000000
    omega

-- The first instant that shows a wall time is the one that the wall time is first read as.
theorem firstShows_iff (hs : zone.rule.IsSteady) :
    zone.FirstShows t w ↔
      zone.Shows t w ∧ zone.rule.offsetOfWall w.seconds false = zone.rule.offsetAt t.seconds := by
  apply and_congr_right
  intro hshows
  have hseconds := hshows.shown_seconds
  have hmicros := shows_iff.1 hshows
  rw [← hs.isRecord_iff hseconds]
  constructor
  · intro hfirst
    rcases hs.exists_first hseconds with ⟨c, hle, hc, hshown⟩
    -- the instant with the seconds `c` and the microseconds of `w`
    have hlt := t.lt
    simp only [WallTime.seconds] at hle hc hseconds
    have hbound : 1000000 * c + w.micros % 1000000 < calendarMicros := by omega
    have hsec : (⟨_, hbound⟩ : WallTime).seconds = c := by
      simp only [WallTime.seconds]
      omega
    have hu : t.micros ≤ 1000000 * c + w.micros % 1000000 :=
      hfirst ⟨_, hbound⟩ (shows_iff.2 (by
        rw [hsec]
        show (w.micros : Int) = (1000000 * c + w.micros % 1000000 : Nat) +
          1000000 * zone.rule.offsetAt c
        simp only [ClockRule.shown, WallTime.seconds] at hshown
        omega))
    have hct : c = t.seconds := by
      simp only [WallTime.seconds] at *
      omega
    rw [← hct]
    exact (hs.isRecord_of_reading hc).1
  · intro hrecord u hu
    have hu' := hu.shown_seconds
    have humicros := shows_iff.1 hu
    by_contra hlt
    have hless := hrecord u.seconds (by
      simp only [WallTime.seconds] at *
      by_contra hge
      have hsame : u.micros / 1000000 = t.micros / 1000000 := by omega
      rw [hsame] at humicros
      omega)
    omega

theorem FirstShows.toUtc (hs : zone.rule.IsSteady) (h : zone.FirstShows t w) :
    zone.toUtc w false = .ok t := by
  rcases (firstShows_iff hs).1 h with ⟨hshows, hoffset⟩
  rw [toUtc_eq_ok, hoffset]
  have hmicros := shows_iff.1 hshows
  omega

-- What is shown for the first time later is later on the clocks too.
theorem FirstShows.lt (hs : zone.rule.IsSteady) {u v : WallTime} (h : zone.FirstShows t v)
    (h' : zone.FirstShows u w) (hlt : t.micros < u.micros) : v.micros < w.micros := by
  have hv := h.1.shown_seconds
  have hw := h'.1.shown_seconds
  have hv' := shows_iff.1 h.1
  have hw' := shows_iff.1 h'.1
  have hrecord := (hs.isRecord_iff hw).2 ((firstShows_iff hs).1 h').2
  by_cases hsec : t.seconds < u.seconds
  · have hless := hrecord _ hsec
    simp only [WallTime.seconds] at *
    omega
  · have hsame : t.seconds = u.seconds := by
      simp only [WallTime.seconds] at *
      omega
    rw [hsame] at hv'
    omega

-- From the instant that a wall time is first read as, only later ones are shown first.
theorem FirstShows.le_of_toUtc (hs : zone.rule.IsSteady) {u v : WallTime}
    (hread : zone.toUtc v false = .ok t) (h : zone.FirstShows u w) (hle : t.micros ≤ u.micros) :
    v.micros ≤ w.micros := by
  have hv := (hs.isRecord_of_reading (seconds_of_toUtc hread)).2
  have hw := h.1.shown_seconds
  have hw' := shows_iff.1 h.1
  rw [toUtc_eq_ok] at hread
  by_cases hsec : t.seconds < u.seconds
  · have hless := (hs.isRecord_iff hw).2 ((firstShows_iff hs).1 h).2 _ hsec
    simp only [WallTime.seconds] at *
    omega
  · have hsame : t.seconds = u.seconds := by
      simp only [WallTime.seconds] at *
      omega
    rw [hsame, hw] at hv
    simp only [WallTime.seconds] at *
    omega

theorem FirstShows.lt_iff (hs : zone.rule.IsSteady) {u v : WallTime} (h : zone.FirstShows t v)
    (h' : zone.FirstShows u w) : t.micros < u.micros ↔ v.micros < w.micros := by
  refine ⟨h.lt hs h', fun hlt => ?_⟩
  rcases Nat.lt_trichotomy t.micros u.micros with htu | htu | htu
  · exact htu
  · obtain rfl := WallTime.ext htu
    obtain rfl := h.1.unique h'.1
    omega
  · have hwv := h'.lt hs h htu
    omega

/-- The wall time that the clocks of a zone show at an instant, if it is read as that instant. -/
def freshWall? (zone : Zone) (t : WallTime) : Option WallTime :=
  (t.addSeconds? (zone.rule.offsetAt t.seconds)).filter fun w =>
    zone.rule.offsetOfWall w.seconds false = zone.rule.offsetAt t.seconds

-- Fresh wall times are those shown for the first time.
theorem freshWall?_eq_some (hs : zone.rule.IsSteady) :
    zone.freshWall? t = some w ↔ zone.FirstShows t w := by
  rw [freshWall?, Option.filter_eq_some_iff, ← shows_iff_addSeconds?, firstShows_iff hs,
    decide_eq_true_eq]

end Zone

end Cron
