import Cron.Proofs.Calendar.Years
import Cron.Proofs.Zone.Steady
import Cron.Zone.Label

/-!
Which clocks are steady: those that never change, those that change twice a year well inside it and
months apart, and those with a list of changes that lie days apart. All known regions are among
them.
-/
namespace Cron

namespace YearlyChange

/-- The instant of a change in a year, for clocks at a distance from UTC. -/
def instant (change : YearlyChange) (offset : Int) (year : Nat) : Nat :=
  moved (86400 * change.day year) (change.seconds - offset)

/-- A change at a whole minute, from February to November, within two days of its weekday. -/
structure IsMidYear (change : YearlyChange) (offset : Int) : Prop where
  month_ge : 2 ≤ change.month
  month_le : change.month ≤ 11
  week_ge : 1 ≤ change.week
  week_le : change.week ≤ 5
  seconds_ge : -172800 ≤ change.seconds - offset
  seconds_le : change.seconds - offset ≤ 172800
  whole : (change.seconds - offset) % 60 = 0

instance (change : YearlyChange) (offset : Int) : Decidable (change.IsMidYear offset) :=
  decidable_of_iff
    (2 ≤ change.month ∧ change.month ≤ 11 ∧ 1 ≤ change.week ∧ change.week ≤ 5 ∧
      -172800 ≤ change.seconds - offset ∧ change.seconds - offset ≤ 172800 ∧
      (change.seconds - offset) % 60 = 0)
    ⟨fun ⟨a, b, c, d, e, f, g⟩ => ⟨a, b, c, d, e, f, g⟩,
      fun ⟨a, b, c, d, e, f, g⟩ => ⟨a, b, c, d, e, f, g⟩⟩

variable {change : YearlyChange} {offset : Int}

theorem IsMidYear.day_bounds (h : change.IsMidYear offset) (year : Nat) :
    Date.daysBeforeYear year + Date.daysBeforeMonth year change.month ≤ change.day year ∧
      change.day year < Date.daysBeforeYear year + Date.daysBeforeMonth year change.month +
        Date.monthLength year change.month := by
  have hmonth := h.month_ge
  have hmonth' := h.month_le
  have hweek := h.week_ge
  have hweek' := h.week_le
  have hlength := Date.monthLength_bounds year (show 1 ≤ change.month by omega) (by omega)
  have hfirst : Date.toDay ⟨year, change.month, 1⟩ =
      Date.daysBeforeYear year + Date.daysBeforeMonth year change.month := rfl
  unfold day
  generalize Date.toDay ⟨year, change.month, 1⟩ = first at *
  dsimp only
  split <;> omega

-- A change lies weeks away from both ends of its year.
theorem IsMidYear.instant_bounds (h : change.IsMidYear offset) {year : Nat} (hy : 1 ≤ year) :
    86400 * Date.daysBeforeYear year + 1382400 ≤ change.instant offset year ∧
      change.instant offset year + 1382400 ≤ 86400 * Date.daysBeforeYear (year + 1) := by
  have hmonth := h.month_ge
  have hmonth' := h.month_le
  have hlo := h.seconds_ge
  have hhi := h.seconds_le
  have hday := h.day_bounds year
  have hfirst :=
    Date.daysBeforeMonth_add_le year (change.month - 1) (show 1 ≤ 1 by omega) (by omega)
  rw [Date.daysBeforeMonth_one, show 1 + (change.month - 1) = change.month by omega] at hfirst
  have hlast := Date.daysBeforeMonth_add_le year (11 - change.month)
    (show 1 ≤ change.month + 1 by omega) (by omega)
  rw [Date.daysBeforeMonth_succ year (by omega) hmonth',
    show change.month + 1 + (11 - change.month) = 12 by omega] at hlast
  have htwelve := Date.daysBeforeMonth_twelve_le year
  have hyear := Date.daysBeforeYear_succ_le year hy
  rw [instant, moved_eq]
  omega

-- A change two months later lies weeks after.
theorem IsMidYear.instant_lt {other : YearlyChange} {later : Int} (h : change.IsMidYear offset)
    (h' : other.IsMidYear later) (hmonths : change.month + 2 ≤ other.month) (year : Nat) :
    change.instant offset year + 1382400 ≤ other.instant later year := by
  have hmonth := h.month_ge
  have hmonth' := h'.month_le
  have hbounds := h.seconds_le
  have hbounds' := h'.seconds_ge
  have hday := h.day_bounds year
  have hday' := h'.day_bounds year
  have hnext := Date.daysBeforeMonth_add_le year (other.month - (change.month + 1))
    (show 1 ≤ change.month + 1 by omega) (by omega)
  rw [Date.daysBeforeMonth_succ year (by omega) (by omega),
    show change.month + 1 + (other.month - (change.month + 1)) = other.month by omega] at hnext
  rw [instant, instant, moved_eq, moved_eq]
  omega

theorem IsMidYear.instant_mod (h : change.IsMidYear offset) {year : Nat} (hy : 1 ≤ year) :
    change.instant offset year % 60 = 0 := by
  have hbounds := (h.instant_bounds hy).1
  have hwhole := h.whole
  rw [instant, moved_eq] at *
  omega

end YearlyChange

namespace ClockRule

variable {rule : ClockRule}

theorem isSteady_constant {offset : Int} (h : -86400 < offset ∧ offset < 86400) :
    (constant offset).IsSteady where
  bounded _ := h
  whole _ _ hne := absurd rfl hne
  aligned _ := rfl
  once _ := ⟨0, fun _ _ _ => (ite_self _).symm⟩
  calmStart _ _ := rfl
  calmEnd _ _ _ := rfl

/-- Clocks with one distance from UTC through the middle of each year and another around the new
year. -/
structure IsSeasonal (rule : ClockRule) (outer inner : Int) (opens closes : Nat → Nat) : Prop where
  offsetAt_eq : ∀ t, rule.offsetAt t =
    if opens (Date.yearOfDay (t / 86400)) ≤ t ∧ t < closes (Date.yearOfDay (t / 86400)) then inner
    else outer
  opens_ge : ∀ year, 1 ≤ year → 86400 * Date.daysBeforeYear year + 1382400 ≤ opens year
  opens_lt : ∀ year, 1 ≤ year → opens year + 1382400 ≤ closes year
  closes_le : ∀ year, 1 ≤ year → closes year + 1382400 ≤ 86400 * Date.daysBeforeYear (year + 1)
  opens_mod : ∀ year, 1 ≤ year → opens year % 60 = 0
  closes_mod : ∀ year, 1 ≤ year → closes year % 60 = 0
  outer_bounds : -86400 < outer ∧ outer < 86400
  inner_bounds : -86400 < inner ∧ inner < 86400
  outer_mod : outer % 60 = 0
  inner_mod : inner % 60 = 0

section Seasonal
variable {outer inner : Int} {opens closes : Nat → Nat}

-- Around one year, the first weeks of the next included, the season of that year alone counts.
theorem IsSeasonal.offsetAt_near (h : rule.IsSeasonal outer inner opens closes) {year t : Nat}
    (hy : 1 ≤ year) (hlo : 86400 * Date.daysBeforeYear year ≤ t)
    (hhi : t < 86400 * Date.daysBeforeYear (year + 1) + 1382400) :
    rule.offsetAt t = if opens year ≤ t ∧ t < closes year then inner else outer := by
  by_cases hin : t < 86400 * Date.daysBeforeYear (year + 1)
  · rw [h.offsetAt_eq, Date.yearOfDay_eq hy (by omega) (by omega)]
  · have hlength := Date.daysBeforeYear_succ_le (year + 1) (by omega)
    have hnext : Date.yearOfDay (t / 86400) = year + 1 :=
      Date.yearOfDay_eq (by omega) (by omega) (by omega)
    have hcloses := h.closes_le year hy
    have hopens := h.opens_ge (year + 1) (by omega)
    rw [h.offsetAt_eq, hnext, if_neg (by omega), if_neg (by omega)]

theorem IsSeasonal.offsetAt_of_early (h : rule.IsSeasonal outer inner opens closes) {year t : Nat}
    (hy : 1 ≤ year) (hlo : 86400 * Date.daysBeforeYear year ≤ t)
    (hhi : t ≤ 86400 * Date.daysBeforeYear year + 691200) : rule.offsetAt t = outer := by
  have hlength := Date.daysBeforeYear_succ_le year hy
  have hopens := h.opens_ge year hy
  rw [h.offsetAt_near hy hlo (by omega), if_neg (by omega)]

theorem IsSeasonal.offsetAt_of_turn (h : rule.IsSeasonal outer inner opens closes) {year t : Nat}
    (hy : 1 ≤ year) (hlo : 86400 * Date.daysBeforeYear (year + 1) ≤ t + 691200)
    (hhi : t ≤ 86400 * Date.daysBeforeYear (year + 1) + 691200) : rule.offsetAt t = outer := by
  have hlength := Date.daysBeforeYear_succ_le year hy
  have hcloses := h.closes_le year hy
  rw [h.offsetAt_near hy (by omega) (by omega), if_neg (by omega)]

theorem IsSeasonal.offsetAt_cases (h : rule.IsSeasonal outer inner opens closes) (t : Nat) :
    rule.offsetAt t = inner ∨ rule.offsetAt t = outer := by
  rw [h.offsetAt_eq]
  split
  · exact Or.inl rfl
  · exact Or.inr rfl

theorem IsSeasonal.isSteady (h : rule.IsSeasonal outer inner opens closes) : rule.IsSteady where
  bounded t := by
    rcases h.offsetAt_cases t with ht | ht
    · rw [ht]
      exact h.inner_bounds
    · rw [ht]
      exact h.outer_bounds
  whole t _ _ := by
    rcases h.offsetAt_cases t with ht | ht
    · rw [ht]
      exact h.inner_mod
    · rw [ht]
      exact h.outer_mod
  aligned t := by
    have hyear := Date.one_le_yearOfDay (t / 86400)
    have hopens := h.opens_mod _ hyear
    have hcloses := h.closes_mod _ hyear
    rw [h.offsetAt_eq, h.offsetAt_eq, show 60 * (t / 60) / 86400 = t / 86400 by omega]
    split <;> split <;> first | rfl | omega
  once t := by
    have hyear := Date.one_le_yearOfDay (t / 86400)
    have hbounds := Date.yearOfDay_bounds (t / 86400)
    generalize Date.yearOfDay (t / 86400) = year at *
    have hnear : ∀ u, t ≤ u → u ≤ t + 259200 →
        rule.offsetAt u = if opens year ≤ u ∧ u < closes year then inner else outer :=
      fun u hlo hhi => h.offsetAt_near hyear (by omega) (by omega)
    have hopens := h.opens_lt year hyear
    -- the change is the next one of the year, whether it comes within three days or not
    by_cases hbefore : t < opens year
    · refine ⟨opens year, fun u hlo hhi => ?_⟩
      rw [hnear u hlo hhi, hnear t (by omega) (by omega), hnear (t + 259200) (by omega) (by omega)]
      split <;> split <;> split <;> first | rfl | omega
    · refine ⟨closes year, fun u hlo hhi => ?_⟩
      rw [hnear u hlo hhi, hnear t (by omega) (by omega), hnear (t + 259200) (by omega) (by omega)]
      split <;> split <;> split <;> first | rfl | omega
  calmStart t ht := by
    have hfirst : 86400 * Date.daysBeforeYear 1 = 0 := rfl
    rw [h.offsetAt_of_early (show 1 ≤ 1 from Nat.le_refl 1) (Nat.zero_le t)
        (by rwa [hfirst, Nat.zero_add]),
      h.offsetAt_of_early (show 1 ≤ 1 from Nat.le_refl 1) (Nat.zero_le 0) (Nat.zero_le _)]
  calmEnd t hlo hhi := by
    have hend : Moment.calendarSeconds = 86400 * Date.daysBeforeYear (9999 + 1) := rfl
    rw [hend] at hlo hhi ⊢
    rw [h.offsetAt_of_turn (show 1 ≤ 9999 by decide) hlo hhi,
      h.offsetAt_of_turn (show 1 ≤ 9999 by decide) (Nat.le_add_right _ _) (Nat.le_add_right _ _)]

end Seasonal

-- Clocks that change twice a year, with the changes months apart.
theorem isSteady_yearly {standard saving : Int} {start stop : YearlyChange}
    (hstart : start.IsMidYear standard) (hstop : stop.IsMidYear saving)
    (hmonths : start.month + 2 ≤ stop.month ∨ stop.month + 2 ≤ start.month)
    (hstandard : (-86400 < standard ∧ standard < 86400) ∧ standard % 60 = 0)
    (hsaving : (-86400 < saving ∧ saving < 86400) ∧ saving % 60 = 0) :
    (yearly standard saving start stop).IsSteady := by
  rcases hmonths with hmonths | hmonths
  · apply IsSeasonal.isSteady
    · exact {
        offsetAt_eq := fun t => by
          have hlt := hstart.instant_lt hstop hmonths (Date.yearOfDay (t / 86400))
          simp only [YearlyChange.instant] at hlt
          simp only [offsetAt, YearlyChange.instant, Bool.and_eq_true, decide_eq_true_eq]
          rw [if_pos (by omega)]
          exact if_congr Iff.rfl rfl rfl
        opens_ge := fun year hy => (hstart.instant_bounds hy).1
        opens_lt := fun year _ => hstart.instant_lt hstop hmonths year
        closes_le := fun year hy => (hstop.instant_bounds hy).2
        opens_mod := fun year hy => hstart.instant_mod hy
        closes_mod := fun year hy => hstop.instant_mod hy
        outer_bounds := hstandard.1
        inner_bounds := hsaving.1
        outer_mod := hstandard.2
        inner_mod := hsaving.2 }
  · apply IsSeasonal.isSteady
    · exact {
        offsetAt_eq := fun t => by
          have hlt := hstop.instant_lt hstart hmonths (Date.yearOfDay (t / 86400))
          simp only [YearlyChange.instant] at hlt
          simp only [offsetAt, YearlyChange.instant, Bool.and_eq_true, decide_eq_true_eq]
          rw [if_neg (by omega)]
          exact if_congr Iff.rfl rfl rfl
        opens_ge := fun year hy => (hstop.instant_bounds hy).1
        opens_lt := fun year _ => hstop.instant_lt hstart hmonths year
        closes_le := fun year hy => (hstart.instant_bounds hy).2
        opens_mod := fun year hy => hstop.instant_mod hy
        closes_mod := fun year hy => hstart.instant_mod hy
        outer_bounds := hsaving.1
        inner_bounds := hstandard.1
        outer_mod := hsaving.2
        inner_mod := hstandard.2 }

-- Two instants with the same changes behind them have the same distance from UTC.
theorem offsetAt_dated_congr {first : Int} {changes : List (Nat × Int)} {t u : Nat}
    (h : ∀ change ∈ changes, change.1 ≤ t ↔ change.1 ≤ u) :
    (dated first changes).offsetAt t = (dated first changes).offsetAt u := by
  simp only [offsetAt]
  induction changes generalizing first with
  | nil => rfl
  | cons change rest ih =>
    have hhead := h change List.mem_cons_self
    simp only [List.foldl_cons, hhead]
    exact ih fun c hc => h c (List.mem_cons_of_mem _ hc)

-- What holds of every distance of the clocks holds at every instant.
theorem offsetAt_dated_induct {P : Int → Prop} {first : Int} {changes : List (Nat × Int)} (t : Nat)
    (hfirst : P first) (h : ∀ change ∈ changes, P change.2) :
    P ((dated first changes).offsetAt t) := by
  simp only [offsetAt]
  induction changes generalizing first with
  | nil => exact hfirst
  | cons change rest ih =>
    rw [List.foldl_cons]
    refine ih ?_ fun c hc => h c (List.mem_cons_of_mem _ hc)
    split
    · exact h change List.mem_cons_self
    · exact hfirst

-- Clocks with a list of changes that lie days apart and away from the ends of the calendar.
theorem isSteady_dated {first : Int} {changes : List (Nat × Int)}
    (hfirst : (-86400 < first ∧ first < 86400) ∧ first % 60 = 0)
    (hoffsets : ∀ change ∈ changes,
      (-86400 < change.2 ∧ change.2 < 86400) ∧ change.2 % 60 = 0)
    (hwhole : ∀ change ∈ changes, change.1 % 60 = 0)
    (hcalm : ∀ change ∈ changes, 691200 < change.1 ∧
      change.1 + 691200 < Moment.calendarSeconds)
    (hapart : ∀ change ∈ changes, ∀ other ∈ changes,
      change.1 < other.1 → change.1 + 259200 < other.1) :
    (dated first changes).IsSteady where
  bounded t := offsetAt_dated_induct (P := fun d => -86400 < d ∧ d < 86400) t hfirst.1
    fun change hc => (hoffsets change hc).1
  whole t _ _ := offsetAt_dated_induct (P := fun d => d % 60 = 0) t hfirst.2
    fun change hc => (hoffsets change hc).2
  aligned t := offsetAt_dated_congr fun change hc => by
    have hmod := hwhole change hc
    omega
  once t := by
    by_cases hany : ∃ change ∈ changes, t < change.1 ∧ change.1 ≤ t + 259200
    · rcases hany with ⟨change, hc, hlo, hhi⟩
      refine ⟨change.1, fun u hu hu' => ?_⟩
      split
      · exact offsetAt_dated_congr fun other ho => by
          have hco := hapart change hc other ho
          have hoc := hapart other ho change hc
          omega
      · exact offsetAt_dated_congr fun other ho => by
          have hco := hapart change hc other ho
          have hoc := hapart other ho change hc
          omega
    · refine ⟨0, fun u hu hu' => ?_⟩
      rw [if_neg (by omega)]
      exact offsetAt_dated_congr fun other ho => by
        have hnone : ¬ (t < other.1 ∧ other.1 ≤ t + 259200) := fun hin => hany ⟨other, ho, hin⟩
        omega
  calmStart t ht := offsetAt_dated_congr fun change hc => by
    have hlo := (hcalm change hc).1
    omega
  calmEnd t ht _ := offsetAt_dated_congr fun change hc => by
    have hhi := (hcalm change hc).2
    omega

end ClockRule

theorem Region.isSteady_of_mem {place : Region} (h : place ∈ Region.all) :
    place.rule.IsSteady := by
  simp only [Region.all, List.mem_cons, List.not_mem_nil, or_false] at h
  rcases h with rfl | rfl | rfl | rfl | rfl | rfl | rfl | rfl | rfl | rfl | rfl | rfl | rfl | rfl |
    rfl | rfl | rfl | rfl | rfl | rfl | rfl | rfl
  all_goals
    first
    | exact ClockRule.isSteady_constant (by decide)
    | exact ClockRule.isSteady_yearly (by decide) (by decide) (by decide) (by decide) (by decide)
    | exact ClockRule.isSteady_dated (by decide) (by decide) (by decide) (by decide) (by decide)

/-- UTC, a distance from it of less than a day, or a known region. -/
def Zone.IsKnown : Zone → Prop
  | utc => True
  | fixed offset => -86400 < offset ∧ offset < 86400
  | region place => place ∈ Region.all

instance : DecidablePred Zone.IsKnown
  | .utc => isTrue trivial
  | .fixed offset => inferInstanceAs (Decidable (-86400 < offset ∧ offset < 86400))
  | .region place => inferInstanceAs (Decidable (place ∈ Region.all))

theorem Zone.isKnown_ofOffset {offset : Int} (h : -86400 < offset ∧ offset < 86400) :
    (ofOffset offset).IsKnown := by
  unfold ofOffset
  split
  · trivial
  · exact h

-- Labels give no other zones.
theorem Zone.isKnown_of_ofLabel (label : String) {zone : Zone}
    (h : ofLabel label = .ok (some zone)) : zone.IsKnown := by
  unfold ofLabel at h
  dsimp only at h
  split at h
  · cases h
  split at h
  · cases h
    trivial
  split at h
  · next negative hours minutes _ =>
    split at h
    · cases h
    · next hdistance =>
      cases h
      apply isKnown_ofOffset
      split <;> omega
  · split at h
    · next place hplace =>
      cases h
      exact List.mem_of_find?_eq_some hplace
    · cases h

theorem Zone.IsKnown.isSteady {zone : Zone} (h : zone.IsKnown) : zone.rule.IsSteady := by
  cases zone with
  | utc => exact ClockRule.isSteady_constant (by decide)
  | fixed offset => exact ClockRule.isSteady_constant h
  | region place => exact Region.isSteady_of_mem h

end Cron
