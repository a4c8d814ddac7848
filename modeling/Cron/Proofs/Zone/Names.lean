import Cron.Proofs.Zone.Passes
import Mathlib.Data.List.Nodup

/-!
Wall times as names of instants. A wall time that a zone's clocks show once names the instant at
which they do; one that they show twice names the earlier instant or the later one, as its pass
says. Reading a wall time back gives the instant that it names.
-/
namespace Cron

namespace ClockRule

variable {rule : ClockRule} {wall t u : Nat}

-- Of two instants that show a wall time, the first reading gives the earlier one and the second
-- the later one.
theorem IsSteady.offsetOfWall_of_twice (h : rule.IsSteady) (ht : rule.shown t = wall)
    (hu : rule.shown u = wall) (htu : t < u) :
    rule.offsetOfWall wall false = rule.offsetAt t ∧
      rule.offsetOfWall wall true = rule.offsetAt u := by
  rcases h.exists_changesOnce wall with ⟨before, after, change, hchange⟩
  have hot := hchange.offsetAt_of_shown h (Nat.le_refl wall) (Nat.le_add_right wall _) ht
  have hou := hchange.offsetAt_of_shown h (Nat.le_refl wall) (Nat.le_add_right wall _) hu
  rcases hchange.readings (Nat.le_refl wall) (Nat.le_add_right wall _) with ⟨hfirst, hlast⟩
  rw [shown] at ht hu
  rw [hfirst, hlast]
  constructor
  · split at hot <;> split at hou <;> split <;> omega
  · split at hot <;> split at hou <;> split <;> omega

theorem IsSteady.offsetOfWall_of_once (h : rule.IsSteady) (ht : rule.shown t = wall)
    (honce : ¬ rule.ShowsTwice wall) (second : Bool) :
    rule.offsetOfWall wall second = rule.offsetAt t := by
  rcases h.exists_changesOnce wall with ⟨before, after, change, hchange⟩
  have hot := hchange.offsetAt_of_shown h (Nat.le_refl wall) (Nat.le_add_right wall _) ht
  rcases hchange.readings (Nat.le_refl wall) (Nat.le_add_right wall _) with ⟨hfirst, hlast⟩
  rw [hchange.showsTwice_iff h (Nat.le_refl wall) (Nat.le_add_right wall _)] at honce
  rw [shown] at ht
  cases second
  · rw [hfirst]
    split at hot <;> split <;> omega
  · rw [hlast]
    split at hot <;> split <;> omega

theorem offsetOfWall_constant (offset : Int) (wall : Nat) (second : Bool) :
    (constant offset).offsetOfWall wall second = offset := by
  have hsame : (constant offset).offsetAt (wall - 86400) =
      (constant offset).offsetAt (wall + 86400) := by
    rw [offsetAt, offsetAt]
  rw [offsetOfWall_of_eq hsame, offsetAt]

end ClockRule

namespace Zone

/-- A wall time names an instant: the clocks of the zone show it then, and at no instant that comes
before, or after if the second pass is meant. -/
structure Names (zone : Zone) (w : WallTime) (second : Bool) (t : WallTime) : Prop where
  shows : zone.Shows t w
  pass : ∀ u, zone.Shows u w → if second then u.micros ≤ t.micros else t.micros ≤ u.micros

variable {zone : Zone} {w t u : WallTime} {second : Bool}

theorem firstShows_iff_names : zone.FirstShows t w ↔ zone.Names w false t :=
  ⟨fun h => ⟨h.1, h.2⟩, fun h => ⟨h.shows, h.pass⟩⟩

theorem Names.unique (h : zone.Names w second t) (h' : zone.Names w second u) : t = u := by
  have hle := h.pass u h'.shows
  have hle' := h'.pass t h.shows
  apply WallTime.ext
  cases second
  · exact Nat.le_antisymm hle hle'
  · exact Nat.le_antisymm hle' hle

-- The instant that a wall time names is the one that it is read as.
theorem names_iff (hs : zone.rule.IsSteady) :
    zone.Names w second t ↔
      zone.Shows t w ∧ zone.rule.offsetOfWall w.seconds second = zone.rule.offsetAt t.seconds := by
  cases second with
  | false => rw [← firstShows_iff_names, firstShows_iff hs]
  | true =>
    constructor
    · intro h
      refine ⟨h.shows, ?_⟩
      have hshown := h.shows.shown_seconds
      by_cases hfirst : zone.rule.offsetOfWall w.seconds false = zone.rule.offsetAt t.seconds
      · -- the first instant and the last, and so the only one
        apply hs.offsetOfWall_of_once hshown
        rw [← showsTwice_iff hs]
        rintro ⟨u, v, huv, hu, hv⟩
        have hle := ((firstShows_iff hs).2 ⟨h.shows, hfirst⟩).2 u hu
        have hle' := h.pass v hv
        rw [if_pos rfl] at hle'
        omega
      · have hread := hs.offsetOfWall_of_shown hshown
        rwa [bne_iff_ne.2 hfirst] at hread
    · rintro ⟨hshows, hoffset⟩
      refine ⟨hshows, fun u hu => ?_⟩
      rw [if_pos rfl]
      by_contra hlt
      have hmicros := shows_iff.1 hshows
      have hmicros' := shows_iff.1 hu
      -- instants of one wall time differ by whole seconds
      have hseconds : t.seconds < u.seconds := by
        by_contra hle
        have hsame : t.seconds = u.seconds := by
          simp only [WallTime.seconds] at *
          omega
        rw [hsame] at hmicros
        omega
      have hlater := (hs.offsetOfWall_of_twice hshows.shown_seconds hu.shown_seconds hseconds).2
      rw [hoffset] at hlater
      rw [hlater] at hmicros
      omega

theorem Names.toUtc (hs : zone.rule.IsSteady) (h : zone.Names w second t) :
    zone.toUtc w second = .ok t := by
  have hmicros := shows_iff.1 h.shows
  rw [toUtc_eq_ok, ((names_iff hs).1 h).2]
  omega

-- What the clocks show at an instant, with the pass shown then, names the instant.
theorem names_of_ofUtc (hs : zone.rule.IsSteady) (h : zone.ofUtc t = .ok (w, second)) :
    zone.Names w second t := by
  have hshows : zone.Shows t w := ⟨second, h⟩
  rw [ofUtc, shows_iff_addSeconds?.1 hshows] at h
  cases h
  exact (names_iff hs).2 ⟨hshows, hs.offsetOfWall_of_shown hshows.shown_seconds⟩

-- Zones that are one and the same clock are the same zone.
theorem IsKnown.eq_of_isSame {a b : Zone} (ha : a.IsKnown) (hb : b.IsKnown)
    (h : a.isSame b = true) : a = b := by
  have hnames : (Region.all.map Region.name).Nodup := by decide
  cases a with
  | utc =>
    cases b with
    | utc => rfl
    | fixed offset => cases h
    | region place => cases h
  | fixed offset => cases b <;> cases h
  | region place =>
    cases b with
    | utc => cases h
    | fixed offset => cases h
    | region other =>
      have hplace := List.inj_on_of_nodup_map hnames ha hb (eq_of_beq h)
      rw [hplace]

theorem isSame_self {zone : Zone} (h : ∀ offset, zone ≠ .fixed offset) :
    zone.isSame zone = true := by
  cases zone with
  | utc => rfl
  | fixed offset => exact absurd rfl (h offset)
  | region place => exact beq_self_eq_true place.name

end Zone

end Cron
