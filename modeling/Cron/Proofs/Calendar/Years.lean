import Cron.Calendar.Date
import Mathlib.Tactic.IntervalCases

/-!
Years and months as stretches of days. The year of a day is the one whose stretch holds it, and the
months of a year follow each other within it.
-/
namespace Cron.Date

-- The days before a year, by four centuries, centuries, leap cycles and single years.
theorem daysBeforeYear_of_parts {q c f k : Nat} (hc : c ≤ 3) (hf : f ≤ 24) (hk : k ≤ 3) :
    daysBeforeYear (400 * q + 100 * c + 4 * f + k + 1) =
      146097 * q + 36524 * c + 1461 * f + 365 * k := by
  rw [daysBeforeYear, Nat.add_sub_cancel]
  omega

theorem daysBeforeYear_succ_le (year : Nat) (h : 1 ≤ year) :
    daysBeforeYear year + 365 ≤ daysBeforeYear (year + 1) := by
  simp only [daysBeforeYear]
  omega

theorem daysBeforeYear_mono {a b : Nat} (ha : 1 ≤ a) (h : a ≤ b) :
    daysBeforeYear a ≤ daysBeforeYear b := by
  induction b, h using Nat.le_induction with
  | base => exact Nat.le_refl _
  | succ b hab ih =>
    have hstep := daysBeforeYear_succ_le b (by omega)
    omega

theorem one_le_yearOfDay (day : Nat) : 1 ≤ yearOfDay day := Nat.le_add_left 1 _

theorem yearOfDay_bounds (day : Nat) :
    daysBeforeYear (yearOfDay day) ≤ day ∧ day < daysBeforeYear (yearOfDay day + 1) := by
  rw [yearOfDay]
  generalize hq : day / 146097 = q
  generalize hr : day % 146097 = r
  generalize hc : min (r / 36524) 3 = c
  generalize hf : (r - 36524 * c) / 1461 = f
  generalize hk : min ((r - 36524 * c) % 1461 / 365) 3 = k
  have hday : day = 146097 * q + r := by omega
  have hcle : c ≤ 3 := by omega
  have hfle : f ≤ 24 := by omega
  have hkle : k ≤ 3 := by omega
  rw [daysBeforeYear_of_parts hcle hfle hkle]
  refine ⟨by omega, ?_⟩
  -- the next year is the next of its cycle, or begins the next cycle, century or four centuries
  by_cases hk3 : k < 3
  · have hnext := daysBeforeYear_of_parts (q := q) hcle hfle (show k + 1 ≤ 3 by omega)
    rw [show 400 * q + 100 * c + 4 * f + (k + 1) + 1 = 400 * q + 100 * c + 4 * f + k + 1 + 1
      by omega] at hnext
    omega
  · by_cases hf24 : f < 24
    · have hnext := daysBeforeYear_of_parts (q := q) hcle (show f + 1 ≤ 24 by omega)
        (show 0 ≤ 3 by omega)
      rw [show 400 * q + 100 * c + 4 * (f + 1) + 0 + 1 = 400 * q + 100 * c + 4 * f + k + 1 + 1
        by omega] at hnext
      omega
    · by_cases hc3 : c < 3
      · have hnext := daysBeforeYear_of_parts (q := q) (show c + 1 ≤ 3 by omega)
          (show 0 ≤ 24 by omega) (show 0 ≤ 3 by omega)
        rw [show 400 * q + 100 * (c + 1) + 4 * 0 + 0 + 1 = 400 * q + 100 * c + 4 * f + k + 1 + 1
          by omega] at hnext
        omega
      · have hnext := daysBeforeYear_of_parts (q := q + 1) (show 0 ≤ 3 by omega)
          (show 0 ≤ 24 by omega) (show 0 ≤ 3 by omega)
        rw [show 400 * (q + 1) + 100 * 0 + 4 * 0 + 0 + 1 = 400 * q + 100 * c + 4 * f + k + 1 + 1
          by omega] at hnext
        omega

theorem yearOfDay_eq {day year : Nat} (hy : 1 ≤ year) (hlo : daysBeforeYear year ≤ day)
    (hhi : day < daysBeforeYear (year + 1)) : yearOfDay day = year := by
  have hbounds := yearOfDay_bounds day
  have hone := one_le_yearOfDay day
  rcases Nat.lt_trichotomy (yearOfDay day) year with hlt | heq | hgt
  · have hmono := daysBeforeYear_mono (show 1 ≤ yearOfDay day + 1 by omega)
      (show yearOfDay day + 1 ≤ year by omega)
    omega
  · exact heq
  · have hmono := daysBeforeYear_mono (show 1 ≤ year + 1 by omega)
      (show year + 1 ≤ yearOfDay day by omega)
    omega

theorem yearOfDay_mono {a b : Nat} (h : a ≤ b) : yearOfDay a ≤ yearOfDay b := by
  have ha := yearOfDay_bounds a
  have hb := yearOfDay_bounds b
  have hone := one_le_yearOfDay b
  by_contra hlt
  have hmono := daysBeforeYear_mono (show 1 ≤ yearOfDay b + 1 by omega)
    (show yearOfDay b + 1 ≤ yearOfDay a by omega)
  omega

theorem monthLength_bounds {month : Nat} (year : Nat) (hlo : 1 ≤ month) (hhi : month ≤ 12) :
    28 ≤ monthLength year month ∧ monthLength year month ≤ 31 := by
  cases hleap : isLeapYear year <;> interval_cases month <;>
    simp [monthLength, monthLengths, hleap]

theorem daysBeforeMonth_succ {month : Nat} (year : Nat) (hlo : 1 ≤ month) (hhi : month ≤ 11) :
    daysBeforeMonth year (month + 1) = daysBeforeMonth year month + monthLength year month := by
  cases hleap : isLeapYear year <;> interval_cases month <;>
    simp [daysBeforeMonth, monthLength, monthLengths, totalLength, hleap]

-- Later months begin later, by four weeks a month at least.
theorem daysBeforeMonth_add_le {month : Nat} (year n : Nat) (hlo : 1 ≤ month)
    (hhi : month + n ≤ 12) :
    daysBeforeMonth year month + 28 * n ≤ daysBeforeMonth year (month + n) := by
  induction n with
  | zero => exact Nat.le_refl _
  | succ n ih =>
    have hstep := daysBeforeMonth_succ year (show 1 ≤ month + n by omega) (by omega)
    have hlength := monthLength_bounds year (show 1 ≤ month + n by omega) (by omega)
    have hprev := ih (by omega)
    rw [← Nat.add_assoc]
    omega

theorem daysBeforeMonth_one (year : Nat) : daysBeforeMonth year 1 = 0 := rfl

theorem daysBeforeMonth_twelve_le (year : Nat) : daysBeforeMonth year 12 ≤ 335 := by
  cases hleap : isLeapYear year <;>
    simp [daysBeforeMonth, monthLengths, totalLength, hleap]

theorem totalLength_monthLengths (year : Nat) :
    totalLength (monthLengths year) = if isLeapYear year then 366 else 365 := by
  cases hleap : isLeapYear year <;> simp [monthLengths, totalLength, hleap]

-- A year is as long as its months together.
theorem daysBeforeYear_succ {year : Nat} (h : 1 ≤ year) :
    daysBeforeYear (year + 1) = daysBeforeYear year + totalLength (monthLengths year) := by
  obtain ⟨n, rfl⟩ : ∃ n, year = n + 1 := ⟨year - 1, by omega⟩
  have hle : n / 100 ≤ n / 4 := by omega
  rw [totalLength_monthLengths, daysBeforeYear, daysBeforeYear, Nat.add_sub_cancel,
    Nat.add_sub_cancel, Nat.succ_div, Nat.succ_div, Nat.succ_div]
  generalize n / 4 = cycles at *
  generalize n / 100 = centuries at *
  simp only [isLeapYear, Bool.and_eq_true, Bool.or_eq_true, beq_iff_eq, bne_iff_ne]
  by_cases h4 : 4 ∣ n + 1
  · by_cases h100 : 100 ∣ n + 1
    · by_cases h400 : 400 ∣ n + 1
      · rw [if_pos h4, if_pos h100, if_pos h400, if_pos (by omega)]
        omega
      · rw [if_pos h4, if_pos h100, if_neg h400, if_neg (by omega)]
        omega
    · rw [if_pos h4, if_neg h100, if_neg (by omega), if_pos (by omega)]
      omega
  · rw [if_neg h4, if_neg (by omega), if_neg (by omega), if_neg (by omega)]
    omega

-- Fewer days than some months have together fill some of the months only.
theorem countOff_lt {lengths : List Nat} {days : Nat} (h : days < totalLength lengths) :
    (countOff lengths days).1 < lengths.length := by
  induction lengths generalizing days with
  | nil => exact absurd h (Nat.not_lt_zero days)
  | cons length rest ih =>
    unfold countOff
    split
    · exact Nat.succ_pos _
    · rw [totalLength] at h
      exact Nat.succ_lt_succ (ih (by omega))

theorem ofDay_month_bounds (day : Nat) : 1 ≤ (ofDay day).month ∧ (ofDay day).month ≤ 12 := by
  have hbounds := yearOfDay_bounds day
  rw [daysBeforeYear_succ (one_le_yearOfDay day)] at hbounds
  have hmonths : (countOff (monthLengths (yearOfDay day))
      (day - daysBeforeYear (yearOfDay day))).1 < 12 := countOff_lt (by omega)
  exact ⟨Nat.succ_pos _, hmonths⟩

end Cron.Date
