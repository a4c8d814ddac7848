import Cron.Proofs.Readings
import Cron.Proofs.Zone.Names
import Mathlib.Order.Nat

/-!
Moments as names of instants, and what becomes of them when another clock is asked for them. A zone
keeps the instant that a moment names. The local clocks keep only what they show then: a wall time
of theirs has no pass, and so names the first instant at which they show it.
-/
namespace Cron

-- What the clocks of a zone show at some instant they show for a first time.
theorem Zone.Shows.exists_firstShows {zone : Zone} {t w : WallTime} (h : zone.Shows t w) :
    ∃ u, zone.FirstShows u w := by
  classical
  have hshown : ∃ n u, zone.Shows u w ∧ u.micros = n := ⟨t.micros, t, h, rfl⟩
  obtain ⟨u, hu, hmicros⟩ := Nat.find_spec hshown
  refine ⟨u, hu, fun v hv => ?_⟩
  rw [hmicros]
  exact Nat.find_min' hshown ⟨v, hv, rfl⟩

namespace Moment

/-- A moment names an instant: its wall time does on the clocks of its zone, or else on those at
home. -/
def Names (home : Zone) (m : Moment) (t : WallTime) : Prop :=
  (m.zone.getD home).Names m.wall m.second t

variable {home target zone : Zone} {m : Moment} {t w : WallTime} {second : Bool}

theorem names_of_zone (hz : m.zone = some zone) :
    m.Names home t ↔ zone.Names m.wall m.second t := by
  rw [Names, hz, Option.getD_some]

theorem names_of_no_zone (hz : m.zone = none) :
    m.Names home t ↔ home.Names m.wall m.second t := by
  rw [Names, hz, Option.getD_none]

-- Whether a moment names an instant is seen from the distances from UTC.
theorem names_of_offset (hk : (m.zone.getD home).IsKnown)
    (hwall : (m.wall.micros : Int) =
      t.micros + 1000000 * (m.zone.getD home).rule.offsetAt t.seconds)
    (hpass : (m.zone.getD home).rule.offsetOfWall m.wall.seconds m.second =
      (m.zone.getD home).rule.offsetAt t.seconds) : m.Names home t :=
  (Zone.names_iff hk.isSteady).2 ⟨Zone.shows_iff.2 hwall, hpass⟩

theorem localOfUtc_of_shows (h : zone.Shows t w) : localOfUtc zone.rule t = .ok (ofWall w) := by
  rw [localOfUtc, Zone.shows_iff_addSeconds?.1 h]

theorem localOfUtc_cases (zone : Zone) (t : WallTime) :
    (∃ w, zone.Shows t w ∧ localOfUtc zone.rule t = .ok (ofWall w)) ∨
      (∀ w, ¬ zone.Shows t w) ∧ localOfUtc zone.rule t = .error .beyondRange := by
  cases h : t.addSeconds? (zone.rule.offsetAt t.seconds) with
  | none =>
    refine .inr ⟨fun w hw => ?_, by rw [localOfUtc, h]⟩
    rw [Zone.shows_iff_addSeconds?, h] at hw
    cases hw
  | some w =>
    have hw := Zone.shows_iff_addSeconds?.2 h
    exact .inl ⟨w, hw, localOfUtc_of_shows hw⟩

theorem ofUtc_cases (hs : zone.rule.IsSteady) (t : WallTime) :
    (∃ m, ofUtc zone t = .ok m ∧ m.zone = some zone ∧ zone.Names m.wall m.second t) ∨
      (∀ w, ¬ zone.Shows t w) ∧ ofUtc zone t = .error .beyondRange := by
  cases h : zone.ofUtc t with
  | ok shown =>
    obtain ⟨w, second⟩ := shown
    exact .inl ⟨⟨w, some zone, second⟩, by rw [ofUtc, h], rfl, Zone.names_of_ofUtc hs h⟩
  | error fault =>
    refine .inr ⟨fun w hw => ?_, ?_⟩
    · obtain ⟨second, hok⟩ := hw
      rw [h] at hok
      cases hok
    · rw [ofUtc, h]
      unfold Zone.ofUtc at h
      dsimp only at h
      split at h
      · cases h
        rfl
      · cases h

theorem yearOutside?_of_bounds (hs : home.rule.IsSteady) (hlo : 86400 ≤ w.seconds)
    (hhi : w.seconds + 86400 < calendarSeconds) (second : Bool) :
    yearOutside? home.rule w second = none := by
  have hbound := hs.bounded w.seconds
  unfold yearOutside?
  dsimp only
  rw [if_neg (by omega), if_neg (by omega),
    if_neg (show ¬ calendarSeconds ≤ w.seconds + 86400 by omega),
    if_neg (show ¬ w.seconds < 86400 by omega), ite_self]

-- A local wall time is read as the instant that it names, unless a year outside the calendar is met
-- on the way.
theorem utcOfLocal_of_names (hs : home.rule.IsSteady) (h : home.Names w second t) :
    utcOfLocal home.rule w second =
      match yearOutside? home.rule w second with
      | some year => .error (.input (.yearOutside year))
      | none => .ok t := by
  have hmicros := Zone.shows_iff.1 h.shows
  have hoffset := ((Zone.names_iff hs).1 h).2
  have hreading : home.rule.offsetOfReading w.seconds second = home.rule.offsetAt t.seconds := by
    have hmoved : moved w.seconds (-home.rule.offsetAt t.seconds) = t.seconds := by
      rw [moved_eq]
      simp only [WallTime.seconds] at *
      omega
    rw [ClockRule.offsetOfReading, hoffset, hmoved]
  have hback : w.addSeconds? (-home.rule.offsetOfReading w.seconds second) = some t := by
    rw [hreading, WallTime.addSeconds?_eq_some]
    omega
  rw [utcOfLocal, hback]
  dsimp only
  rw [localOfUtc_of_shows h.shows]
  rfl

theorem toUtc_of_names {clocks : ClockRule} (hz : m.zone = some zone) (hk : zone.IsKnown)
    (h : m.Names home t) : m.toUtc clocks = .ok t := by
  rw [toUtc, hz]
  exact ((names_of_zone hz).1 h).toUtc hk.isSteady

theorem localize_none_of_zone {clocks : ClockRule} (hz : m.zone = some zone) (hk : zone.IsKnown)
    (h : m.Names home t) : m.localize clocks none = localOfUtc clocks t := by
  rw [localize, hz]
  dsimp only
  rw [((names_of_zone hz).1 h).toUtc hk.isSteady, ok_bind]

-- A moment that is read as the instant it names is told to any clocks as what they show then. A
-- zone keeps the instant.
theorem localize_of_names {target : Option Zone} (hz : ∀ zone ∈ m.zone, zone.IsKnown)
    (htarget : ∀ zone ∈ target, zone.IsKnown) (hread : m.toUtc home.rule = .ok t)
    (h : m.Names home t) :
    (∃ m', m.localize home.rule target = .ok m' ∧ m'.zone = target ∧
        (target.getD home).Shows t m'.wall ∧ (target ≠ none → m'.Names home t)) ∨
      m.localize home.rule target = .error .beyondRange ∧ ∀ w, ¬ (target.getD home).Shows t w := by
  cases target with
  | none =>
    cases hzone : m.zone with
    | none =>
      have hself : m.localize home.rule none = .ok m := by rw [localize, hzone]
      exact .inl ⟨m, hself, hzone, ((names_of_no_zone hzone).1 h).shows, fun hne => absurd rfl hne⟩
    | some zone =>
      rw [localize_none_of_zone hzone (hz zone hzone) h]
      rcases localOfUtc_cases home t with ⟨w, hw, hok⟩ | ⟨hnone, herror⟩
      · exact .inl ⟨_, hok, rfl, hw, fun hne => absurd rfl hne⟩
      · exact .inr ⟨herror, hnone⟩
  | some target =>
    have hk := htarget target rfl
    by_cases hsame : m.zone.any (·.isSame target) = true
    · -- the moment has the clocks already
      obtain ⟨zone, hzone, hsame'⟩ := (Option.any_eq_true _ _).1 hsame
      obtain rfl := (hz zone hzone).eq_of_isSame hk hsame'
      have hself : m.localize home.rule (some zone) = .ok m := by rw [localize, if_pos hsame]
      exact .inl ⟨m, hself, hzone, ((names_of_zone hzone).1 h).shows, fun _ => h⟩
    · have htold : m.localize home.rule (some target) = ofUtc target t := by
        rw [localize, if_neg hsame, hread, ok_bind]
      rw [htold]
      rcases ofUtc_cases hk.isSteady t with ⟨m', hok, hzone, hnames⟩ | ⟨hnone, herror⟩
      · exact .inl ⟨m', hok, hzone, hnames.shows, fun _ => (names_of_zone hzone).2 hnames⟩
      · exact .inr ⟨herror, hnone⟩

-- By way of the local clocks a moment comes to the first instant at which they show what they show
-- at its own.
theorem localize_none_bind (hz : m.zone = some zone) (hk : zone.IsKnown) (h : m.Names home t)
    (target : Zone) :
    (m.localize home.rule none >>= fun l => l.localize home.rule (some target)) =
      localOfUtc home.rule t >>= fun l => utcOfLocal home.rule l.wall false >>= ofUtc target := by
  rw [localize_none_of_zone hz hk h]
  rcases localOfUtc_cases home t with ⟨w, -, hok⟩ | ⟨-, herror⟩
  · rw [hok, ok_bind, ok_bind]
    rfl
  · rw [herror, error_bind, error_bind]

/-- A moment of a known zone that is told to the local clocks, and from there to another zone,
still names its instant, and is the moment that the zone is told directly, exactly if three things
hold: the local clocks show what they show at that instant for the first time, the local wall time
can be read, and the zone's clocks show the instant within the calendar. -/
theorem localize_local_iff (hhome : home.IsKnown) (htarget : target.IsKnown)
    (hz : m.zone = some zone) (hk : zone.IsKnown) (h : m.Names home t) :
    (∃ told direct,
        (m.localize home.rule none >>= fun l => l.localize home.rule (some target)) = .ok told ∧
        m.localize home.rule (some target) = .ok direct ∧ told.Names home t ∧
        told.zone = direct.zone ∧ told.wall = direct.wall) ↔
      (∃ w, home.FirstShows t w ∧ yearOutside? home.rule w false = none) ∧
        ∃ v, target.Shows t v := by
  have hknown : ∀ other ∈ m.zone, other.IsKnown := by
    rw [hz]
    rintro _ ⟨⟩
    exact hk
  have htold : ∀ other ∈ some target, other.IsKnown := by
    rintro _ ⟨⟩
    exact htarget
  have hdirect := localize_of_names hknown htold (toUtc_of_names hz hk h) h
  rw [localize_none_bind hz hk h]
  constructor
  · rintro ⟨told, direct, hround, -, hnames, -⟩
    rcases localOfUtc_cases home t with ⟨w, hw, hok⟩ | ⟨-, herror⟩
    rotate_left
    · rw [herror, error_bind] at hround
      cases hround
    obtain ⟨u, hu⟩ := hw.exists_firstShows
    rw [hok, ok_bind] at hround
    change utcOfLocal home.rule w false >>= ofUtc target = _ at hround
    rw [utcOfLocal_of_names hhome.isSteady (Zone.firstShows_iff_names.1 hu)] at hround
    cases hyear : yearOutside? home.rule w false with
    | some year =>
      rw [hyear] at hround
      cases hround
    | none =>
      rw [hyear, ok_bind] at hround
      rcases ofUtc_cases htarget.isSteady u with ⟨m', hok', hzone, hnames'⟩ | ⟨-, herror⟩
      rotate_left
      · rw [herror] at hround
        cases hround
      rw [hok'] at hround
      cases hround
      rw [names_of_zone hzone] at hnames
      obtain rfl := hnames.unique hnames'
      exact ⟨⟨w, hu, hyear⟩, _, hnames.shows⟩
  · rintro ⟨⟨w, hw, hyear⟩, v, hv⟩
    rcases ofUtc_cases htarget.isSteady t with ⟨told, hok, hzone, hnames⟩ | ⟨hnone, -⟩
    rotate_left
    · exact absurd hv (hnone v)
    rcases hdirect with ⟨direct, hdirect, hzone', hshows, -⟩ | ⟨-, hnone⟩
    rotate_left
    · exact absurd hv (hnone v)
    refine ⟨told, direct, ?_, hdirect, (names_of_zone hzone).2 hnames, ?_, ?_⟩
    · rw [localOfUtc_of_shows hw.1, ok_bind]
      change utcOfLocal home.rule w false >>= ofUtc target = _
      rw [utcOfLocal_of_names hhome.isSteady (Zone.firstShows_iff_names.1 hw), hyear, ok_bind, hok]
    · rw [hzone, hzone']
    · exact hnames.shows.unique hshows

/-- At half past one in the first pass, on the night that New York's clocks are set back, for a
machine there and a moment of Berlin. -/
theorem localize_local_iff_new_york :
    let home : Zone := .region ⟨"America/New_York", Region.northAmerica (Region.hm (-5) 0)⟩
    let berlin : Zone := .region ⟨"Europe/Berlin", Region.europe (Region.hm 1 0)⟩
    let night := 86400 * Date.toDay ⟨2026, 11, 1⟩
    let t : WallTime := ⟨(night + 5400 + 14400) * 1000000, by decide⟩
    let m : Moment := ⟨⟨(night + 5400 + 14400 + 3600) * 1000000, by decide⟩, some berlin, false⟩
    home.IsKnown ∧ Zone.utc.IsKnown ∧ m.zone = some berlin ∧ berlin.IsKnown ∧ m.Names home t ∧
      ((∃ told direct,
          (m.localize home.rule none >>= fun l => l.localize home.rule (some .utc)) = .ok told ∧
          m.localize home.rule (some .utc) = .ok direct ∧ told.Names home t ∧
          told.zone = direct.zone ∧ told.wall = direct.wall) ↔
        (∃ w, home.FirstShows t w ∧ yearOutside? home.rule w false = none) ∧
          ∃ v, Zone.utc.Shows t v) := by
  intro home berlin night t m
  have hhome : home.IsKnown := by decide
  have hberlin : berlin.IsKnown := by decide
  have hnames : m.Names home t :=
    names_of_offset hberlin (by decide +kernel) (by decide +kernel)
  exact ⟨hhome, trivial, rfl, hberlin, hnames,
    localize_local_iff hhome trivial rfl hberlin hnames⟩

/-- At half past one in the second pass a moment of UTC comes back an hour early. -/
theorem not_names_localize_local_new_york :
    let home : Zone := .region ⟨"America/New_York", Region.northAmerica (Region.hm (-5) 0)⟩
    let night := 86400 * Date.toDay ⟨2026, 11, 1⟩
    let t : WallTime := ⟨(night + 5400 + 18000) * 1000000, by decide⟩
    let early : WallTime := ⟨(night + 5400 + 14400) * 1000000, by decide⟩
    let m : Moment := ⟨t, some .utc, false⟩
    home.IsKnown ∧ m.Names home t ∧
      (m.localize home.rule none >>= fun l => l.localize home.rule (some .utc)) =
        .ok ⟨early, some .utc, false⟩ ∧
      ¬ ∃ told direct,
        (m.localize home.rule none >>= fun l => l.localize home.rule (some .utc)) = .ok told ∧
        m.localize home.rule (some .utc) = .ok direct ∧ told.Names home t ∧
        told.zone = direct.zone ∧ told.wall = direct.wall := by
  intro home night t early m
  have hutc : Zone.utc.IsKnown := trivial
  have hround : (m.localize home.rule none >>= fun l => l.localize home.rule (some .utc)) =
      .ok ⟨early, some .utc, false⟩ := by
    decide +kernel
  have hnames : m.Names home t :=
    names_of_offset hutc (by decide +kernel) (by decide +kernel)
  refine ⟨by decide, hnames, hround, ?_⟩
  rintro ⟨told, direct, htold, -, hnames', -⟩
  rw [hround] at htold
  cases htold
  have hshows := Zone.shows_iff.1 ((names_of_zone rfl).1 hnames').shows
  revert hshows
  decide +kernel

end Moment

end Cron
