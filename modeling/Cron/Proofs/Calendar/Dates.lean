import Cron.Proofs.Calendar.Years

/-!
Dates and the days that they count. Every day is a date of the calendar, and no other date counts
it. A date comes again after 365 days, or after 366 with a leap day in between.
-/
namespace Cron.Date

variable {lengths : List Nat} {days k length rest : Nat} {date : Date} {year month day : Nat}

-- Counting off finds the month that holds a day, and what it finds puts the day together again.
theorem countOff_totalLength (hlength : lengths[k]? = some length) (hrest : rest < length) :
    countOff lengths (totalLength (lengths.take k) + rest) = (k, rest) := by
  induction lengths generalizing k with
  | nil => cases hlength
  | cons first others ih =>
    cases k with
    | zero =>
      cases hlength
      rw [List.take_zero, totalLength, Nat.zero_add, countOff, if_pos hrest]
    | succ k =>
      rw [List.getElem?_cons_succ] at hlength
      rw [List.take_succ_cons, totalLength, Nat.add_assoc, countOff, if_neg (by omega),
        Nat.add_sub_cancel_left, ih hlength]

theorem totalLength_countOff (h : days < totalLength lengths) :
    ∃ length, lengths[(countOff lengths days).1]? = some length ∧
      (countOff lengths days).2 < length ∧
      totalLength (lengths.take (countOff lengths days).1) + (countOff lengths days).2 = days := by
  induction lengths generalizing days with
  | nil => exact absurd h (Nat.not_lt_zero days)
  | cons first others ih =>
    unfold countOff
    split
    · next hfirst => exact ⟨first, rfl, hfirst, Nat.zero_add days⟩
    · rw [totalLength] at h
      have hothers : days - first < totalLength others := by omega
      obtain ⟨length, hlength, hrest, hdays⟩ := ih hothers
      refine ⟨length, hlength, hrest, ?_⟩
      rw [List.take_succ_cons, totalLength]
      omega

theorem totalLength_take_le (hlength : lengths[k]? = some length) :
    totalLength (lengths.take k) + length ≤ totalLength lengths := by
  induction lengths generalizing k with
  | nil => cases hlength
  | cons first others ih =>
    cases k with
    | zero =>
      cases hlength
      simp [totalLength]
    | succ k =>
      rw [List.getElem?_cons_succ] at hlength
      have hothers := ih hlength
      rw [List.take_succ_cons, totalLength, totalLength]
      omega

theorem isValid_iff :
    date.isValid = true ↔ (1 ≤ date.month ∧ date.month ≤ 12) ∧ 1 ≤ date.day ∧
      date.day ≤ monthLength date.year date.month := by
  simp [isValid, and_assoc]

theorem monthLengths_getElem? (hv : date.isValid = true) :
    (monthLengths date.year)[date.month - 1]? = some (monthLength date.year date.month) := by
  have hmonth := (isValid_iff.1 hv).1
  have hlt : date.month - 1 < (monthLengths date.year).length := by
    show date.month - 1 < 12
    omega
  rw [monthLength, List.getD_eq_getElem?_getD, List.getElem?_eq_getElem hlt, Option.getD_some]

-- A date lies within its year.
theorem toDay_bounds (hy : 1 ≤ date.year) (hv : date.isValid = true) :
    daysBeforeYear date.year ≤ date.toDay ∧ date.toDay < daysBeforeYear (date.year + 1) := by
  obtain ⟨-, hlo, hhi⟩ := isValid_iff.1 hv
  have hmonth := totalLength_take_le (monthLengths_getElem? hv)
  rw [daysBeforeYear_succ hy, toDay, daysBeforeMonth]
  omega

theorem yearOfDay_toDay (hy : 1 ≤ date.year) (hv : date.isValid = true) :
    yearOfDay date.toDay = date.year := by
  obtain ⟨hlo, hhi⟩ := toDay_bounds hy hv
  exact yearOfDay_eq hy hlo hhi

theorem ofDay_toDay (hy : 1 ≤ date.year) (hv : date.isValid = true) : ofDay date.toDay = date := by
  obtain ⟨hlo, hhi⟩ := toDay_bounds hy hv
  obtain ⟨hmonth, hday, hlength⟩ := isValid_iff.1 hv
  have hrest : date.toDay - daysBeforeYear date.year =
      totalLength ((monthLengths date.year).take (date.month - 1)) + (date.day - 1) := by
    rw [toDay, daysBeforeMonth]
    omega
  unfold ofDay
  dsimp only
  rw [yearOfDay_toDay hy hv, hrest, countOff_totalLength (monthLengths_getElem? hv) (by omega),
    Nat.sub_add_cancel hmonth.1, Nat.sub_add_cancel hday]

theorem ofDay_spec (n : Nat) :
    1 ≤ (ofDay n).year ∧ (ofDay n).isValid = true ∧ (ofDay n).toDay = n := by
  have hbounds := yearOfDay_bounds n
  have hone := one_le_yearOfDay n
  rw [daysBeforeYear_succ hone] at hbounds
  have hwithin : n - daysBeforeYear (yearOfDay n) < totalLength (monthLengths (yearOfDay n)) := by
    omega
  obtain ⟨length, hlength, hrest, hdays⟩ := totalLength_countOff hwithin
  have hmonth := ofDay_month_bounds n
  have hmonthLength : monthLength (ofDay n).year (ofDay n).month = length := by
    rw [monthLength, List.getD_eq_getElem?_getD]
    unfold ofDay
    dsimp only
    rw [Nat.add_sub_cancel, hlength, Option.getD_some]
  refine ⟨hone, isValid_iff.2 ⟨hmonth, ?_, ?_⟩, ?_⟩
  · exact Nat.succ_pos _
  · rw [hmonthLength]
    exact hrest
  · unfold ofDay toDay daysBeforeMonth
    dsimp only
    rw [Nat.add_sub_cancel, Nat.add_sub_cancel]
    omega

-- The first four weeks of a month.
theorem ofDay_toDay_add (hy : 1 ≤ year) (hlo : 1 ≤ month) (hhi : month ≤ 12) {k : Nat}
    (hk : k < 28) : ofDay ((Date.mk year month 1).toDay + k) = ⟨year, month, k + 1⟩ := by
  have hlength := monthLength_bounds year hlo hhi
  have hv : (Date.mk year month (k + 1)).isValid = true :=
    isValid_iff.2 ⟨⟨hlo, hhi⟩, Nat.le_add_left 1 k, by dsimp only; omega⟩
  have hday : (Date.mk year month 1).toDay + k = (Date.mk year month (k + 1)).toDay := rfl
  rw [hday, ofDay_toDay hy hv]

/-! Dates that come every year, and the leap day. -/

/-- Whether every year has a day of the month. -/
def IsYearly (month day : Nat) : Prop := (Date.mk 1 month day).isValid = true

theorem monthLength_eq (year : Nat) (hlo : 1 ≤ month) (hhi : month ≤ 12) :
    monthLength year month =
      monthLength 1 month + if isLeapYear year = true ∧ month = 2 then 1 else 0 := by
  cases hleap : isLeapYear year <;> interval_cases month <;>
    simp [monthLength, monthLengths, hleap, show isLeapYear 1 = false from rfl]

theorem IsYearly.isValid (h : IsYearly month day) (year : Nat) :
    (Date.mk year month day).isValid = true := by
  obtain ⟨hmonth, hlo, hhi⟩ := isValid_iff.1 h
  refine isValid_iff.2 ⟨hmonth, hlo, hhi.trans ?_⟩
  rw [monthLength_eq year hmonth.1 hmonth.2]
  exact Nat.le_add_right _ _

theorem isYearly_or_leap (hv : date.isValid = true) :
    IsYearly date.month date.day ∨
      date.month = 2 ∧ date.day = 29 ∧ isLeapYear date.year = true := by
  obtain ⟨hmonth, hday, hlength⟩ := isValid_iff.1 hv
  by_cases hshort : date.day ≤ monthLength 1 date.month
  · exact .inl (isValid_iff.2 ⟨hmonth, hday, hshort⟩)
  · rw [monthLength_eq date.year hmonth.1 hmonth.2] at hlength
    have hleap : isLeapYear date.year = true ∧ date.month = 2 := by
      by_contra hnot
      rw [if_neg hnot] at hlength
      exact hshort hlength
    rw [if_pos hleap, hleap.2] at hlength
    rw [hleap.2] at hshort
    have hfebruary : monthLength 1 2 = 28 := rfl
    exact .inr ⟨hleap.2, by omega, hleap.1⟩

theorem daysBeforeMonth_eq (year : Nat) (hlo : 1 ≤ month) (hhi : month ≤ 12) :
    daysBeforeMonth year month =
      daysBeforeMonth 1 month + if isLeapYear year = true ∧ 3 ≤ month then 1 else 0 := by
  cases hleap : isLeapYear year <;> interval_cases month <;>
    simp [daysBeforeMonth, monthLengths, totalLength, hleap, show isLeapYear 1 = false from rfl]

theorem not_isLeapYear_succ (h : isLeapYear year = true) : isLeapYear (year + 1) = false := by
  simp only [isLeapYear, Bool.and_eq_true, beq_iff_eq] at h
  simp only [isLeapYear, Bool.and_eq_false_iff, beq_eq_false_iff_ne]
  left
  omega

theorem isValid_leapDay (h : isLeapYear year = true) : (Date.mk year 2 29).isValid = true := by
  simp [isValid, monthLength, monthLengths, h]

theorem toDay_leapDay (year : Nat) : (Date.mk year 2 29).toDay = daysBeforeYear year + 59 := rfl

theorem IsYearly.lt_leapDay_iff (h : IsYearly month day) :
    daysBeforeMonth 1 month + (day - 1) < 59 ↔ month < 3 := by
  obtain ⟨⟨hlo, hhi⟩, hday, hlength⟩ := isValid_iff.1 h
  dsimp only at *
  constructor
  · intro hearly
    by_contra hlate
    have hmarch := daysBeforeMonth_add_le 1 (month - 3) (show 1 ≤ 3 by decide) (by omega)
    rw [show 3 + (month - 3) = month by omega, show daysBeforeMonth 1 3 = 59 from rfl] at hmarch
    omega
  · intro hearly
    have hjanuary : monthLength 1 1 = 31 ∧ daysBeforeMonth 1 1 = 0 := ⟨rfl, rfl⟩
    have hfebruary : monthLength 1 2 = 28 ∧ daysBeforeMonth 1 2 = 31 := ⟨rfl, rfl⟩
    obtain rfl | rfl : month = 1 ∨ month = 2 := by omega
    · omega
    · omega

/-- A date comes again after 365 days, or after 366 days with a leap day in between. -/
theorem IsYearly.toDay_succ_cases (h : IsYearly month day) (hy : 1 ≤ year) :
    (Date.mk (year + 1) month day).toDay = (Date.mk year month day).toDay + 365 ∨
      (Date.mk (year + 1) month day).toDay = (Date.mk year month day).toDay + 366 ∧
        ∃ leap, 1 ≤ leap ∧ isLeapYear leap = true ∧
          (Date.mk year month day).toDay < (Date.mk leap 2 29).toDay ∧
          (Date.mk leap 2 29).toDay < (Date.mk (year + 1) month day).toDay := by
  have hmonth := (isValid_iff.1 h).1
  have hearly := h.lt_leapDay_iff
  have hyear := daysBeforeYear_succ hy
  have hwithin := toDay_bounds hy (h.isValid year)
  have hleapDay := toDay_leapDay year
  have hleapDay' := toDay_leapDay (year + 1)
  have hdate : ∀ year, (Date.mk year month day).toDay = daysBeforeYear year +
      (daysBeforeMonth 1 month + if isLeapYear year = true ∧ 3 ≤ month then 1 else 0) +
        (day - 1) := by
    intro year
    rw [← daysBeforeMonth_eq year hmonth.1 hmonth.2]
    rfl
  rw [totalLength_monthLengths] at hyear
  dsimp only at hwithin
  rw [hdate] at hwithin
  rw [hdate, hdate]
  by_cases hleap : isLeapYear year = true
  · have hnext := not_isLeapYear_succ hleap
    simp only [hleap, hnext, true_and, Bool.false_eq_true, false_and, if_true, if_false]
      at hyear hwithin ⊢
    by_cases hmarch : 3 ≤ month
    · rw [if_pos hmarch]
      left
      omega
    · rw [if_neg hmarch] at hwithin ⊢
      right
      exact ⟨by omega, year, hy, hleap, by omega, by omega⟩
  · simp only [hleap, Bool.false_eq_true, false_and, if_false] at hyear hwithin ⊢
    by_cases hlate : isLeapYear (year + 1) = true ∧ 3 ≤ month
    · rw [if_pos hlate]
      right
      exact ⟨by omega, year + 1, by omega, hlate.1, by omega, by omega⟩
    · rw [if_neg hlate]
      left
      omega

/-- Of 365 days in a row one is a given date of every year, unless they lie between two of them, and
then a leap day is among them. -/
theorem IsYearly.exists_year (h : IsYearly month day) (first : Nat) :
    ∃ year, 1 ≤ year ∧
      (first ≤ (Date.mk year month day).toDay ∧ (Date.mk year month day).toDay < first + 365 ∨
        (Date.mk year month day).toDay + 1 = first ∧
          (Date.mk (year + 1) month day).toDay = first + 365 ∧
          ∃ leap, 1 ≤ leap ∧ isLeapYear leap = true ∧ first ≤ (Date.mk leap 2 29).toDay ∧
            (Date.mk leap 2 29).toDay < first + 365) := by
  have hexists : ∃ n, first ≤ (Date.mk (n + 1) month day).toDay := by
    refine ⟨first, ?_⟩
    have hlo := (toDay_bounds (Nat.le_add_left 1 first) (h.isValid (first + 1))).1
    have hdays : first ≤ daysBeforeYear (first + 1) := by
      rw [daysBeforeYear, Nat.add_sub_cancel]
      omega
    exact hdays.trans hlo
  -- the date of the first year that does not come too early
  have hfind := Nat.find_spec hexists
  have hmin := fun {n} (hn : n < Nat.find hexists) => Nat.find_min hexists hn
  generalize Nat.find hexists = n at hfind hmin
  cases n with
  | zero =>
    have hhi := (toDay_bounds (Nat.le_refl 1) (h.isValid 1)).2
    have hsecond : daysBeforeYear (1 + 1) = 365 := rfl
    dsimp only at hhi
    exact ⟨1, Nat.le_refl 1, .inl ⟨hfind, by omega⟩⟩
  | succ n =>
    have hbefore := hmin (Nat.lt_succ_self n)
    obtain hcommon | ⟨hleap, leap, hy, hisLeap, hlo, hhi⟩ :=
      h.toDay_succ_cases (Nat.le_add_left 1 n)
    · exact ⟨n + 1 + 1, Nat.succ_pos _, .inl ⟨hfind, by omega⟩⟩
    · by_cases hnear : (Date.mk (n + 1 + 1) month day).toDay < first + 365
      · exact ⟨n + 1 + 1, Nat.succ_pos _, .inl ⟨hfind, hnear⟩⟩
      · exact ⟨n + 1, Nat.succ_pos _, .inr ⟨by omega, by omega, leap, hy, hisLeap, by omega,
          by omega⟩⟩

/-- Any 365 days in a row have seven days of each month in a row. -/
theorem exists_week (hlo : 1 ≤ month) (hhi : month ≤ 12) (first : Nat) :
    ∃ n, first ≤ n ∧ n + 7 ≤ first + 365 ∧ ∀ k, n ≤ k → k < n + 7 → (ofDay k).month = month := by
  have hlength := monthLength_bounds 1 hlo hhi
  have hmiddle : IsYearly month 15 :=
    isValid_iff.2 ⟨⟨hlo, hhi⟩, by dsimp only; omega, by dsimp only; omega⟩
  obtain ⟨year, hy, hyear⟩ := hmiddle.exists_year first
  have hmonth : ∀ k, (Date.mk year month 1).toDay ≤ k → k < (Date.mk year month 1).toDay + 28 →
      (ofDay k).month = month := by
    intro k hk hk'
    have hdate := ofDay_toDay_add hy hlo hhi (k := k - (Date.mk year month 1).toDay) (by omega)
    rw [Nat.add_sub_cancel' hk] at hdate
    rw [hdate]
  have hfifteenth : (Date.mk year month 15).toDay = (Date.mk year month 1).toDay + 14 := rfl
  rw [hfifteenth] at hyear
  rcases hyear with ⟨hlo', hhi'⟩ | ⟨hbefore, -, -⟩
  · by_cases hearly : first ≤ (Date.mk year month 1).toDay
    · exact ⟨(Date.mk year month 1).toDay, hearly, by omega,
        fun k hk hk' => hmonth k hk (by omega)⟩
    · exact ⟨(Date.mk year month 1).toDay + 14, hlo', by omega,
        fun k hk hk' => hmonth k (by omega) (by omega)⟩
  · exact ⟨(Date.mk year month 1).toDay + 15, by omega, by omega,
      fun k hk hk' => hmonth k (by omega) (by omega)⟩

theorem exists_weekdayOfDay_eq {weekday : Nat} (h : weekday < 7) (n : Nat) :
    ∃ k, n ≤ k ∧ k < n + 7 ∧ weekdayOfDay k = weekday := by
  refine ⟨n + (weekday + 13 - n % 7) % 7, by omega, by omega, ?_⟩
  rw [weekdayOfDay]
  omega

end Cron.Date
