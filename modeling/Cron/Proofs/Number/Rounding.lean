import Cron.Number.Dyadic
import Mathlib.Algebra.Order.Field.Power
import Mathlib.Data.Rat.Floor
import Mathlib.Tactic.FieldSimp
import Mathlib.Tactic.Linarith
import Mathlib.Tactic.Positivity

/-!
Rounding to 53 bits. A rounded quotient is never below a natural number that the quotient reaches,
and above the quotient by no more than the part `1 / 2 ^ 53` of it. So a whole part is kept, unless
the quotient is within that part of the next natural number.
-/
namespace Cron.Number

/-- The rational number that a binary fraction is. -/
def Dyadic.value (x : Dyadic) : ℚ := x.significand * 2 ^ x.exponent

variable {num den m k n : Nat} {e : Int}

/-! The nearest natural number to a quotient. -/

theorem le_roundQuotient (hden : 0 < den) (h : m * den ≤ num) : m ≤ roundQuotient num den := by
  have hfloor : m ≤ num / den := (Nat.le_div_iff_mul_le hden).2 h
  unfold roundQuotient
  dsimp only
  split
  · exact hfloor
  · split <;> omega

theorem roundQuotient_le (hden : 0 < den) (h : num ≤ m * den) : roundQuotient num den ≤ m := by
  have hfloor : num / den ≤ m := Nat.div_le_of_le_mul (Nat.mul_comm m den ▸ h)
  have hdiv := Nat.div_add_mod num den
  unfold roundQuotient
  dsimp only
  rcases Nat.lt_or_ge (num / den) m with hlt | hge
  · split
    · omega
    · split <;> omega
  · -- the quotient is the natural number itself
    have hzero : num % den = 0 := by
      have hm : num / den = m := Nat.le_antisymm hfloor hge
      rw [hm, Nat.mul_comm] at hdiv
      omega
    rw [hzero, Nat.mul_zero, if_pos hden]
    exact hfloor

-- Rounding adds a half at most.
theorem roundQuotient_mul_le (num den : Nat) :
    2 * (roundQuotient num den * den) ≤ 2 * num + den := by
  have hdiv := Nat.div_add_mod num den
  have hexpand : ∀ q, 2 * (q * den) = 2 * (den * q) := fun q => by rw [Nat.mul_comm q den]
  unfold roundQuotient
  dsimp only
  split
  · rw [hexpand]
    omega
  · have hup : 2 * ((num / den + 1) * den) = 2 * (den * (num / den)) + 2 * den := by
      rw [hexpand, Nat.mul_succ, Nat.mul_add]
    split
    · omega
    · rcases Nat.mod_two_eq_zero_or_one (num / den) with heven | hodd
      · rw [heven, Nat.add_zero, hexpand]
        omega
      · rw [hodd]
        omega

theorem roundQuotient_mono {num' den' : Nat} (hden : 0 < den) (hden' : 0 < den')
    (h : num * den' ≤ num' * den) : roundQuotient num den ≤ roundQuotient num' den' := by
  have hexpand := Nat.div_add_mod num den
  have hexpand' := Nat.div_add_mod num' den'
  have hmod := Nat.mod_lt num hden
  have hmod' := Nat.mod_lt num' hden'
  have hfloor : num / den ≤ num' / den' := by
    rw [Nat.le_div_iff_mul_le hden']
    refine Nat.le_of_mul_le_mul_right ?_ hden
    calc num / den * den' * den = num / den * den * den' := Nat.mul_right_comm ..
      _ ≤ num * den' := Nat.mul_le_mul_right den' (Nat.div_mul_le_self num den)
      _ ≤ num' * den := h
  rcases hfloor.lt_or_eq with hlt | heq
  · calc roundQuotient num den ≤ num / den + 1 :=
          roundQuotient_le hden (by rw [Nat.succ_mul, Nat.mul_comm]; omega)
      _ ≤ num' / den' := hlt
      _ ≤ roundQuotient num' den' := le_roundQuotient hden' (Nat.div_mul_le_self num' den')
  · -- with one whole part the remainders compare as the quotients do
    have hrest : num % den * den' ≤ num' % den' * den := by
      rw [← hexpand, ← hexpand', ← heq, Nat.add_mul, Nat.add_mul, Nat.mul_right_comm,
        Nat.mul_right_comm den', Nat.mul_comm den] at h
      omega
    have hbelow : den < 2 * (num % den) → den' < 2 * (num' % den') := fun hup => by
      nlinarith
    have habove : 2 * (num' % den') < den' → 2 * (num % den) < den := fun hdown => by
      nlinarith
    unfold roundQuotient
    dsimp only
    rw [← heq]
    split_ifs <;> omega

/-! Quotients with 53 bits before the point. -/

theorem natCast_two_pow_mul (n : Nat) (e : Int) : ((2 ^ n : ℕ) : ℚ) * 2 ^ e = 2 ^ (e + n) := by
  rw [Nat.cast_pow, Nat.cast_ofNat, ← zpow_natCast, ← zpow_add₀ two_ne_zero, add_comm]

theorem unscale_spec (num : Nat) (hden : 0 < den) (e : Int) :
    0 < (unscale num den e).2 ∧
      ((unscale num den e).1 : ℚ) = num / den / 2 ^ e * (unscale num den e).2 := by
  have hne : (den : ℚ) ≠ 0 := by positivity
  unfold unscale
  split
  · next hpos =>
    obtain ⟨n, rfl⟩ := Int.eq_ofNat_of_zero_le hpos
    refine ⟨Nat.mul_pos hden (Nat.pow_pos (by decide)), ?_⟩
    simp only [Int.toNat_natCast, Nat.pow_eq, Nat.cast_mul, Nat.cast_pow, Nat.cast_ofNat,
      zpow_natCast]
    field_simp
  · next hneg =>
    obtain ⟨n, hn⟩ := Int.eq_ofNat_of_zero_le (show 0 ≤ -e by omega)
    refine ⟨hden, ?_⟩
    rw [show e = -(n : Int) by omega]
    simp only [neg_neg, Int.toNat_natCast, Nat.pow_eq, Nat.cast_mul, Nat.cast_pow, Nat.cast_ofNat,
      zpow_neg, zpow_natCast]
    field_simp

-- A quotient is held against a power of two by its whole part.
theorem unscale_div_lt_iff (num : Nat) (hden : 0 < den) (e : Int) (n : Nat) :
    (unscale num den e).1 / (unscale num den e).2 < 2 ^ n ↔ (num / den : ℚ) < 2 ^ (e + n) := by
  obtain ⟨hpos, hvalue⟩ := unscale_spec num hden e
  have hpos' : (0 : ℚ) < (unscale num den e).2 := by exact_mod_cast hpos
  have htwo : (0 : ℚ) < 2 ^ e := by positivity
  rw [Nat.div_lt_iff_lt_mul hpos, ← Nat.cast_lt (α := ℚ), hvalue, Nat.cast_mul,
    mul_lt_mul_iff_left₀ hpos', div_lt_iff₀ htwo, natCast_two_pow_mul]

theorem quotient_bounds (hnum : 0 < num) (hden : 0 < den) :
    (2 : ℚ) ^ ((num.log2 : Int) - den.log2 - 1) ≤ num / den ∧
      (num / den : ℚ) < 2 ^ ((num.log2 : Int) - den.log2 + 1) := by
  have hpow : ∀ {n : Nat}, 0 < n →
      (2 : ℚ) ^ (n.log2 : Int) ≤ n ∧ (n : ℚ) < 2 ^ ((n.log2 : Int) + 1) := by
    intro n hn
    rw [← Nat.cast_succ, zpow_natCast, zpow_natCast]
    exact ⟨by exact_mod_cast Nat.log2_self_le hn.ne', by exact_mod_cast Nat.lt_log2_self⟩
  obtain ⟨hlo, hhi⟩ := hpow hnum
  obtain ⟨hlo', hhi'⟩ := hpow hden
  have hden' : (0 : ℚ) < den := by exact_mod_cast hden
  have htwo : (0 : ℚ) < 2 ^ ((den.log2 : Int) + 1) := by positivity
  constructor
  · rw [le_div_iff₀ hden']
    calc (2 : ℚ) ^ ((num.log2 : Int) - den.log2 - 1) * den
        ≤ 2 ^ ((num.log2 : Int) - den.log2 - 1) * 2 ^ ((den.log2 : Int) + 1) := by gcongr
      _ = 2 ^ (num.log2 : Int) := by rw [← zpow_add₀ two_ne_zero]; congr 1; omega
      _ ≤ num := hlo
  · rw [div_lt_iff₀ hden']
    calc (num : ℚ) < 2 ^ ((num.log2 : Int) + 1) := hhi
      _ = 2 ^ ((num.log2 : Int) - den.log2 + 1) * 2 ^ (den.log2 : Int) := by
          rw [← zpow_add₀ two_ne_zero]; congr 1; omega
      _ ≤ 2 ^ ((num.log2 : Int) - den.log2 + 1) * den := by gcongr

/-- With the exponent that is chosen, a quotient has at most 53 bits before the point, and no fewer
unless the exponent is the least one. -/
theorem exponentOf_spec (hnum : 0 < num) (hden : 0 < den) :
    (num / den : ℚ) < 2 ^ (exponentOf num den + 53) ∧
      (minExponent < exponentOf num den → (2 : ℚ) ^ (exponentOf num den + 52) ≤ num / den) := by
  obtain ⟨hlo, hhi⟩ := quotient_bounds hnum hden
  obtain ⟨guess, hguess⟩ : ∃ guess : Int, (num.log2 : Int) - den.log2 - 52 = guess := ⟨_, rfl⟩
  have hsmall := unscale_div_lt_iff num hden guess 52
  -- the exponent before it is held at the least one
  obtain ⟨raw, hraw, hlow, hhigh⟩ : ∃ raw : Int, exponentOf num den = max raw minExponent ∧
      (2 : ℚ) ^ (raw + 52) ≤ num / den ∧ (num / den : ℚ) < 2 ^ (raw + 53) := by
    unfold exponentOf
    rw [hguess]
    refine ⟨_, rfl, ?_⟩
    split
    · next hlt =>
      exact ⟨(zpow_le_zpow_right₀ one_le_two (by omega)).trans hlo,
        (hsmall.1 hlt).trans_le (zpow_le_zpow_right₀ one_le_two (by omega))⟩
    · next hge =>
      exact ⟨not_lt.1 fun hlt => hge (hsmall.2 hlt),
        hhi.trans_le (zpow_le_zpow_right₀ one_le_two (by omega))⟩
  rw [hraw]
  constructor
  · exact hhigh.trans_le (zpow_le_zpow_right₀ one_le_two (by omega))
  · intro hmin
    rwa [max_eq_left (by omega)]

/-- A quotient scaled to 53 bits before the point, as it is rounded. -/
structure IsScaled (num den a b : Nat) (e : Int) : Prop where
  pos : 0 < b
  eq : (a : ℚ) = num / den / 2 ^ e * b
  least_le : minExponent ≤ e
  lt : (num / den : ℚ) < 2 ^ (e + 53)
  full : minExponent < e → (2 : ℚ) ^ (e + 52) ≤ num / den
  value_eq : (nearestNat num den).value = roundQuotient a b * 2 ^ e

theorem exists_isScaled (hnum : 0 < num) (hden : 0 < den) : ∃ a b e, IsScaled num den a b e := by
  obtain ⟨hb, ha⟩ := unscale_spec num hden (exponentOf num den)
  obtain ⟨hlt, hfull⟩ := exponentOf_spec hnum hden
  refine ⟨_, _, exponentOf num den, hb, ha, le_max_right _ _, hlt, hfull, ?_⟩
  unfold nearestNat
  rw [if_neg hnum.ne']
  dsimp only
  split
  · next hcarry =>
    rw [hcarry, Dyadic.value]
    simp only [Nat.pow_eq, Nat.cast_pow, Nat.cast_ofNat, Int.cast_pow, Int.cast_ofNat]
    rw [zpow_add₀ two_ne_zero]
    ring
  · rfl

section Scaled
variable {a b : Nat} (h : IsScaled num den a b e)
include h

theorem IsScaled.le_roundQuotient (hm : (m : ℚ) * 2 ^ e ≤ num / den) : m ≤ roundQuotient a b := by
  apply Number.le_roundQuotient h.pos
  rw [← Nat.cast_le (α := ℚ), h.eq, Nat.cast_mul]
  gcongr
  rwa [le_div_iff₀ (by positivity)]

theorem IsScaled.roundQuotient_le (hm : (num / den : ℚ) ≤ m * 2 ^ e) : roundQuotient a b ≤ m := by
  apply Number.roundQuotient_le h.pos
  rw [← Nat.cast_le (α := ℚ), h.eq, Nat.cast_mul]
  gcongr
  rwa [div_le_iff₀ (by positivity)]

-- Above the least exponent all 53 bits are used.
theorem IsScaled.full_le_value (he : minExponent < e) :
    (2 : ℚ) ^ (e + 52) ≤ (nearestNat num den).value := by
  have hpow : ((2 ^ 52 : ℕ) : ℚ) * 2 ^ e = 2 ^ (e + 52) := natCast_two_pow_mul 52 e
  have hround := h.le_roundQuotient (hpow.trans_le (h.full he))
  rw [h.value_eq, ← hpow]
  gcongr

theorem IsScaled.value_le : (nearestNat num den).value ≤ 2 ^ (e + 53) := by
  have hpow : ((2 ^ 53 : ℕ) : ℚ) * 2 ^ e = 2 ^ (e + 53) := natCast_two_pow_mul 53 e
  have hround := h.roundQuotient_le (h.lt.le.trans_eq hpow.symm)
  rw [h.value_eq, ← hpow]
  gcongr

end Scaled

/-! What rounding keeps. -/

theorem value_nearestNat_zero (den : Nat) : (nearestNat 0 den).value = 0 := by
  simp [nearestNat, Dyadic.value]

theorem value_nearestNat_nonneg (num : Nat) (hden : 0 < den) :
    0 ≤ (nearestNat num den).value := by
  rcases Nat.eq_zero_or_pos num with rfl | hnum
  · exact (value_nearestNat_zero den).ge
  · obtain ⟨a, b, e, h⟩ := exists_isScaled hnum hden
    rw [h.value_eq]
    positivity

/-- Of two quotients the larger one has the larger nearest binary fraction, or the same. -/
theorem value_nearestNat_mono {num' den' : Nat} (hden : 0 < den) (hden' : 0 < den')
    (hle : (num / den : ℚ) ≤ num' / den') :
    (nearestNat num den).value ≤ (nearestNat num' den').value := by
  rcases Nat.eq_zero_or_pos num with rfl | hnum
  · rw [value_nearestNat_zero]
    exact value_nearestNat_nonneg num' hden'
  have hpos : (0 : ℚ) < num / den := by positivity
  have hnum' : 0 < num' := by
    rcases Nat.eq_zero_or_pos num' with rfl | hnum'
    · rw [Nat.cast_zero, zero_div] at hle
      exact absurd hle hpos.not_ge
    · exact hnum'
  obtain ⟨a, b, e, h⟩ := exists_isScaled hnum hden
  obtain ⟨a', b', e', h'⟩ := exists_isScaled hnum' hden'
  have hmin := h.least_le
  have hmin' := h'.least_le
  rcases lt_trichotomy e e' with hlt | rfl | hgt
  · calc (nearestNat num den).value ≤ 2 ^ (e + 53) := h.value_le
      _ ≤ 2 ^ (e' + 52) := zpow_le_zpow_right₀ one_le_two (by omega)
      _ ≤ (nearestNat num' den').value := h'.full_le_value (by omega)
  · have hround : roundQuotient a b ≤ roundQuotient a' b' := by
      apply roundQuotient_mono h.pos h'.pos
      rw [← Nat.cast_le (α := ℚ), Nat.cast_mul, Nat.cast_mul, h.eq, h'.eq,
        mul_right_comm (_ / _) (b' : ℚ)]
      gcongr
    rw [h.value_eq, h'.value_eq]
    gcongr
  · -- the larger quotient cannot have the smaller exponent
    have hpow : (2 : ℚ) ^ (e + 52) < 2 ^ (e' + 53) :=
      (h.full (by omega)).trans_lt (hle.trans_lt h'.lt)
    have hexponent := (zpow_lt_zpow_iff_right₀ one_lt_two).1 hpow
    omega

/-- A natural number of at most 53 bits that a quotient reaches is reached by the nearest binary
fraction. -/
theorem natCast_le_value_nearestNat (hden : 0 < den) (hk : k ≤ 2 ^ 53)
    (hreach : (k : ℚ) ≤ num / den) : (k : ℚ) ≤ (nearestNat num den).value := by
  rcases Nat.eq_zero_or_pos num with rfl | hnum
  · rwa [Nat.cast_zero, zero_div, ← value_nearestNat_zero den] at hreach
  obtain ⟨a, b, e, h⟩ := exists_isScaled hnum hden
  rcases lt_or_ge 0 e with hpos | hneg
  · -- all numbers with this exponent are at least `2 ^ 53`
    calc (k : ℚ) ≤ 2 ^ 53 := by exact_mod_cast hk
      _ = 2 ^ ((53 : Int)) := rfl
      _ ≤ 2 ^ (e + 52) := zpow_le_zpow_right₀ one_le_two (by omega)
      _ ≤ (nearestNat num den).value := h.full_le_value (lt_of_lt_of_le (by decide) hpos.le)
  · -- scaled up, the natural number is still one
    obtain ⟨n, hn⟩ := Int.eq_ofNat_of_zero_le (show 0 ≤ -e by omega)
    have hscaled : ((k * 2 ^ n : ℕ) : ℚ) * 2 ^ e = k := by
      rw [show e = -(n : Int) by omega, zpow_neg, zpow_natCast]
      push_cast
      rw [mul_assoc, mul_inv_cancel₀ (by positivity), mul_one]
    have hround := h.le_roundQuotient (hscaled.trans_le hreach)
    rw [h.value_eq, ← hscaled]
    gcongr

/-- The nearest binary fraction to a quotient exceeds it by the part `1 / 2 ^ 53` at most, apart
from what is less than any binary fraction. -/
theorem value_nearestNat_le (num : Nat) (hden : 0 < den) :
    (nearestNat num den).value ≤ num / den * (1 + 1 / 2 ^ 53) + 2 ^ minExponent := by
  have hleast : (0 : ℚ) ≤ 2 ^ minExponent := by positivity
  rcases Nat.eq_zero_or_pos num with rfl | hnum
  · rw [value_nearestNat_zero, Nat.cast_zero, zero_div, zero_mul, zero_add]
    exact hleast
  obtain ⟨a, b, e, h⟩ := exists_isScaled hnum hden
  have hb : (0 : ℚ) < b := by exact_mod_cast h.pos
  -- what lies between neighbours with this exponent
  have hstep : (2 : ℚ) ^ e ≤ num / den / 2 ^ 52 + 2 ^ minExponent := by
    rcases h.least_le.eq_or_lt with rfl | hlt
    · exact le_add_of_nonneg_left (by positivity)
    · have hfull := h.full hlt
      rw [zpow_add₀ two_ne_zero, ← le_div_iff₀ (by positivity)] at hfull
      exact hfull.trans (le_add_of_nonneg_right hleast)
  have hround : (roundQuotient a b : ℚ) ≤ num / den / 2 ^ e + 1 / 2 := by
    have hhalf : (2 : ℚ) * (roundQuotient a b * b) ≤ 2 * a + b := by
      exact_mod_cast roundQuotient_mul_le a b
    rw [h.eq] at hhalf
    have hscaled : (roundQuotient a b : ℚ) * b ≤ (num / den / 2 ^ e + 1 / 2) * b := by linarith
    exact le_of_mul_le_mul_right hscaled hb
  calc (nearestNat num den).value = roundQuotient a b * 2 ^ e := h.value_eq
    _ ≤ (num / den / 2 ^ e + 1 / 2) * 2 ^ e := by gcongr
    _ = num / den + 2 ^ e / 2 := by
        rw [add_mul, div_mul_cancel₀ _ (by positivity)]
        ring
    _ ≤ num / den + (num / den / 2 ^ 52 + 2 ^ minExponent) / 2 := by gcongr
    _ ≤ num / den * (1 + 1 / 2 ^ 53) + 2 ^ minExponent := by linarith

/-! Binary fractions as quotients. -/

/-- The whole number next to a number, towards zero. -/
def towardZero (q : ℚ) : Int := if 0 ≤ q then ⌊q⌋ else ⌈q⌉

theorem towardZero_neg (q : ℚ) : towardZero (-q) = -towardZero q := by
  rcases lt_trichotomy q 0 with hneg | rfl | hpos
  · rw [towardZero, towardZero, if_pos (by linarith), if_neg hneg.not_ge, Int.floor_neg]
  · rfl
  · rw [towardZero, towardZero, if_neg (by linarith), if_pos hpos.le, Int.ceil_neg]

theorem towardZero_intCast (i : Int) : towardZero i = i := by
  unfold towardZero
  split
  · exact Int.floor_intCast i
  · exact Int.ceil_intCast i

-- What is above `-1` is cut off to a natural number.
theorem towardZero_of_neg_one_lt {q : ℚ} (h : -1 < q) : towardZero q = ⌊q⌋.toNat := by
  unfold towardZero
  split
  · next hnonneg => exact (Int.toNat_of_nonneg (Int.floor_nonneg.2 hnonneg)).symm
  · next hneg =>
    have hceil : ⌈q⌉ = 0 := by
      rw [Int.ceil_eq_iff]
      constructor
      · push_cast
        linarith
      · push_cast
        exact (not_le.1 hneg).le
    have hfloor : ⌊q⌋ ≤ 0 := Int.floor_nonpos (not_le.1 hneg).le
    rw [hceil, Int.toNat_of_nonpos hfloor]
    rfl

theorem towardZero_neg_of_le {q : ℚ} (h : q ≤ -1) : towardZero q < 0 := by
  rw [towardZero, if_neg (by linarith)]
  have hceil : ⌈q⌉ ≤ -1 := Int.ceil_le.2 (by exact_mod_cast h)
  omega

namespace Dyadic

theorem toQuotient_spec (x : Dyadic) :
    0 < x.toQuotient.2 ∧ (x.toQuotient.1 : ℚ) / x.toQuotient.2 = x.value := by
  unfold toQuotient value
  split
  · next hpos =>
    obtain ⟨n, hn⟩ := Int.eq_ofNat_of_zero_le hpos
    simp [hn]
  · next hneg =>
    obtain ⟨n, hn⟩ := Int.eq_ofNat_of_zero_le (show 0 ≤ -x.exponent by omega)
    refine ⟨Nat.pow_pos (by decide), ?_⟩
    rw [hn, show x.exponent = -(n : Int) by omega]
    simp [div_eq_mul_inv]

theorem floor_eq (x : Dyadic) : x.floor = ⌊x.value⌋ := by
  obtain ⟨hden, hvalue⟩ := x.toQuotient_spec
  rw [floor, ← hvalue, Rat.floor_intCast_div_natCast,
    Int.fdiv_eq_ediv_of_nonneg _ (Int.natCast_nonneg _)]

theorem truncate_eq (x : Dyadic) : x.truncate = towardZero x.value := by
  obtain ⟨hden, hvalue⟩ := x.toQuotient_spec
  have hden' : (0 : ℚ) < x.toQuotient.2 := by exact_mod_cast hden
  have hiff : 0 ≤ x.value ↔ 0 ≤ x.toQuotient.1 := by
    rw [← hvalue, le_div_iff₀ hden', zero_mul, Int.cast_nonneg_iff]
  rw [truncate, towardZero]
  split
  · next hnonneg =>
    rw [← hvalue, Rat.floor_intCast_div_natCast, Int.tdiv_eq_ediv_of_nonneg (hiff.1 hnonneg)]
  · next hneg =>
    have hle : 0 ≤ -x.toQuotient.1 := by
      rw [hiff] at hneg
      omega
    rw [← hvalue, ← neg_neg (_ / _ : ℚ), Int.ceil_neg, ← neg_div, ← Int.cast_neg,
      Rat.floor_intCast_div_natCast, ← Int.tdiv_eq_ediv_of_nonneg hle, Int.neg_tdiv, neg_neg]

end Dyadic

/-! Dividing twice. -/

theorem nearest_natCast (n den : Nat) : nearest n den = nearestNat n den := by
  rw [nearest, if_neg (by omega), Int.natAbs_natCast]

theorem Dyadic.exists_divNat_eq {x : Dyadic} (hx : 0 ≤ x.value) {b : Nat} (hb : 0 < b) :
    ∃ num den : Nat, 0 < den ∧ (num / den : ℚ) = x.value / b ∧
      x.divNat b = nearestNat num den := by
  obtain ⟨hden, hvalue⟩ := x.toQuotient_spec
  have hden' : (0 : ℚ) < x.toQuotient.2 := by exact_mod_cast hden
  have hnonneg : 0 ≤ x.toQuotient.1 := by
    rw [← hvalue, le_div_iff₀ hden', zero_mul] at hx
    exact_mod_cast hx
  obtain ⟨num, hnum⟩ := Int.eq_ofNat_of_zero_le hnonneg
  rw [hnum, Int.cast_natCast] at hvalue
  refine ⟨num, x.toQuotient.2 * b, Nat.mul_pos hden hb, ?_, ?_⟩
  · rw [Nat.cast_mul, ← div_div, hvalue]
  · rw [divNat, hnum, nearest_natCast]

-- Two roundings, of a quotient and of its own quotient, add less than is left to the next natural
-- number.
theorem rounded_twice_lt {n a b k x : ℚ} (hn : 0 ≤ n) (ha : 1 ≤ a) (hb : 1 ≤ b)
    (hroom : n + 1 ≤ (k + 1) * (a * b)) (hbound : n + a * b ≤ 4 * 10 ^ 15)
    (hx : x ≤ n / a * (1 + 1 / 2 ^ 53) + 2 ^ minExponent) :
    x / b * (1 + 1 / 2 ^ 53) + 2 ^ minExponent < k + 1 := by
  have hleast : (0 : ℚ) ≤ 2 ^ minExponent := by positivity
  have htiny : (2 : ℚ) ^ minExponent ≤ 1 / 10 ^ 40 :=
    (zpow_le_zpow_right₀ one_le_two (show minExponent ≤ -200 by decide)).trans (by norm_num)
  generalize (2 : ℚ) ^ minExponent = least at *
  have hproduct : (1 : ℚ) ≤ a * b := one_le_mul_of_one_le_of_one_le ha hb
  have hrelative : n * (1 + 1 / 2 ^ 53) ^ 2 + 3 * least * (a * b) < (k + 1) * (a * b) := by
    have hfirst : n * (1 + 1 / 2 ^ 53) ^ 2 ≤ n + 4 * 10 ^ 15 * ((1 + 1 / 2 ^ 53) ^ 2 - 1) := by
      linarith
    have hlast : 3 * least * (a * b) ≤ 3 * (1 / 10 ^ 40) * (4 * 10 ^ 15) :=
      mul_le_mul (by linarith) (by linarith) (by positivity) (by norm_num)
    norm_num at hfirst hlast ⊢
    linarith
  calc x / b * (1 + 1 / 2 ^ 53) + least
      ≤ (n / a * (1 + 1 / 2 ^ 53) + least) / b * (1 + 1 / 2 ^ 53) + least := by gcongr
    _ = n / (a * b) * (1 + 1 / 2 ^ 53) ^ 2 + (1 / b * (1 + 1 / 2 ^ 53) + 1) * least := by
        field_simp
        ring
    _ ≤ n / (a * b) * (1 + 1 / 2 ^ 53) ^ 2 + 3 * least := by
        have hinverse : 1 / b ≤ 1 := (div_le_one (by positivity)).2 hb
        gcongr
        linarith
    _ < k + 1 := by
        rw [div_mul_eq_mul_div, ← lt_sub_iff_add_lt, div_lt_iff₀ (by positivity), sub_mul,
          lt_sub_iff_add_lt]
        exact hrelative

/-- A natural number divided by two others in turn, and rounded each time, has the whole part of
the exact quotient, if it is not too large. -/
theorem floor_divNat_nearest {a b : Nat} (ha : 0 < a) (hb : 0 < b) (hn : n + a * b ≤ 4 * 10 ^ 15) :
    ((nearest n a).divNat b).floor = (n / (a * b) : Nat) := by
  have ha' : (1 : ℚ) ≤ a := by exact_mod_cast ha
  have hb' : (1 : ℚ) ≤ b := by exact_mod_cast hb
  have hfirst := value_nearestNat_nonneg n ha
  obtain ⟨num, den, hden, hquotient, hdiv⟩ := Dyadic.exists_divNat_eq hfirst hb
  rw [nearest_natCast, hdiv, Dyadic.floor_eq, Int.floor_eq_iff]
  have hreached := Nat.div_mul_le_self n (a * b)
  have hnext := Nat.lt_div_mul_add (a := n) (Nat.mul_pos ha hb)
  obtain ⟨k, hk⟩ : ∃ k, n / (a * b) = k := ⟨_, rfl⟩
  rw [hk] at hreached hnext ⊢
  constructor
  · -- `k * b` is reached by the first quotient, so `k` by the second
    have hsmall : k * b ≤ n := calc
      k * b ≤ k * (a * b) := Nat.mul_le_mul_left k (Nat.le_mul_of_pos_left b ha)
      _ ≤ n := hreached
    have hle : ((k * b : Nat) : ℚ) ≤ n / a := by
      rw [le_div_iff₀ (by positivity), ← Nat.cast_mul, Nat.mul_assoc, Nat.mul_comm b a]
      exact_mod_cast hreached
    have hle' := natCast_le_value_nearestNat ha (by omega) hle
    refine natCast_le_value_nearestNat hden ?_ ?_
    · have := Nat.le_mul_of_pos_right k hb
      omega
    · rwa [hquotient, le_div_iff₀ (by positivity), ← Nat.cast_mul]
  · have hsecond := value_nearestNat_le num hden
    rw [hquotient] at hsecond
    have hroom : (n : ℚ) + 1 ≤ (k + 1) * (a * b) := by
      rw [← Nat.succ_mul] at hnext
      exact_mod_cast hnext
    have hbound : (n : ℚ) + a * b ≤ 4 * 10 ^ 15 := by exact_mod_cast hn
    rw [Int.cast_natCast]
    exact hsecond.trans_lt (rounded_twice_lt n.cast_nonneg ha' hb' hroom hbound
      (value_nearestNat_le n ha))

/-- A larger natural number, divided and rounded twice, has no smaller whole part. -/
theorem floor_divNat_nearest_mono {a b : Nat} (ha : 0 < a) (hb : 0 < b) (hle : m ≤ n) :
    ((nearest m a).divNat b).floor ≤ ((nearest n a).divNat b).floor := by
  have hfirst : (nearestNat m a).value ≤ (nearestNat n a).value :=
    value_nearestNat_mono ha ha (by gcongr)
  have hnonneg := value_nearestNat_nonneg m ha
  obtain ⟨num, den, hden, hquotient, hdiv⟩ := Dyadic.exists_divNat_eq hnonneg hb
  obtain ⟨num', den', hden', hquotient', hdiv'⟩ := Dyadic.exists_divNat_eq (hnonneg.trans hfirst) hb
  rw [nearest_natCast, nearest_natCast, hdiv, hdiv', Dyadic.floor_eq, Dyadic.floor_eq]
  apply Int.floor_le_floor
  apply value_nearestNat_mono hden hden'
  rw [hquotient, hquotient']
  gcongr

/-! Whole numbers. -/

theorem towardZero_value_nearestNat_mul (hden : 0 < den) (hn : n < 2 ^ 52) :
    towardZero (nearestNat (n * den) den).value = n := by
  have hquotient : ((n * den : Nat) : ℚ) / den = n := by
    rw [Nat.cast_mul, mul_div_cancel_right₀ _ (by positivity)]
  have hlow : (n : ℚ) ≤ (nearestNat (n * den) den).value :=
    natCast_le_value_nearestNat hden (by omega) hquotient.ge
  have hhigh : (nearestNat (n * den) den).value < n + 1 := by
    have hbound : (n : ℚ) ≤ 4503599627370496 := by exact_mod_cast hn.le
    have htiny : (2 : ℚ) ^ minExponent ≤ 2 ^ (-2 : Int) :=
      zpow_le_zpow_right₀ one_le_two (by decide)
    have hle := value_nearestNat_le (n * den) hden
    rw [hquotient] at hle
    norm_num at hle htiny
    linarith
  rw [towardZero, if_pos (n.cast_nonneg.trans hlow), Int.floor_eq_iff]
  exact ⟨by exact_mod_cast hlow, by exact_mod_cast hhigh⟩

/-- A whole number of at most 52 bits is kept, if a multiple of it is divided and rounded. -/
theorem truncate_nearest_mul (i : Int) (hden : 0 < den) (hi : i.natAbs < 2 ^ 52) :
    (nearest (i * den) den).truncate = i := by
  have hsize : (i * den).natAbs = i.natAbs * den := by rw [Int.natAbs_mul, Int.natAbs_natCast]
  rw [Dyadic.truncate_eq, nearest, hsize]
  have hround := towardZero_value_nearestNat_mul hden hi
  split
  · next hneg =>
    have hneg' : i < 0 := by
      by_contra hnonneg
      exact absurd hneg (not_lt.2 (Int.mul_nonneg (not_lt.1 hnonneg) (Int.natCast_nonneg den)))
    have hvalue : ∀ x : Dyadic, Dyadic.value ⟨-x.significand, x.exponent⟩ = -x.value := by
      intro x
      simp [Dyadic.value]
    rw [hvalue, towardZero_neg, hround]
    omega
  · next hnonneg =>
    have hnonneg' : 0 ≤ i := by
      by_contra hneg
      refine hnonneg (Int.mul_neg_of_neg_of_pos (not_le.1 hneg) ?_)
      exact_mod_cast hden
    rw [hround, Int.natAbs_of_nonneg hnonneg']

end Cron.Number
