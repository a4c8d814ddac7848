import Cron.Calendar.WallTime
import Mathlib.Data.List.Basic

/-!
Runs of consecutive minutes on the calendar. A list of wall times that ascends is determined by
its members, so a walk over minutes can be described by what it meets.
-/
namespace Cron

namespace WallTime

def addMinutes? (w : WallTime) (k : Nat) : Option WallTime := ofMicros? (w.micros + 60000000 * k)

/-- A wall time and the minutes after it, `n` of them as far as the calendar reaches. -/
def minutesFrom (w : WallTime) (n : Nat) : List WallTime := (List.range n).filterMap w.addMinutes?

theorem ofMicros?_of_lt {micros : Nat} (h : micros < calendarMicros) :
    ofMicros? micros = some ⟨micros, h⟩ := by
  rw [ofMicros?, dif_pos h]

theorem exists_micros_eq {n : Int} (hlo : 0 ≤ n) (hhi : n < calendarMicros) :
    ∃ w : WallTime, (w.micros : Int) = n :=
  ⟨⟨n.toNat, by omega⟩, Int.toNat_of_nonneg hlo⟩

theorem micros_of_nextMinute? {w next : WallTime} (h : w.nextMinute? = some next) :
    next.micros = w.micros + 60000000 := by
  rw [micros_of_ofMicros? h, Nat.add_comm]

theorem micros_of_addMinutes? {w v : WallTime} {k : Nat} (h : w.addMinutes? k = some v) :
    v.micros = w.micros + 60000000 * k :=
  micros_of_ofMicros? h

theorem exists_nextMinute? {w : WallTime} (h : w.micros + 60000000 < calendarMicros) :
    ∃ next, w.nextMinute? = some next :=
  ⟨_, ofMicros?_of_lt (Nat.add_comm _ _ ▸ h)⟩

theorem addMinutes?_eq_some {w v : WallTime} {k : Nat} :
    w.addMinutes? k = some v ↔ v.micros = w.micros + 60000000 * k := by
  constructor
  · exact micros_of_addMinutes?
  · intro h
    have hlt := v.lt
    rw [h] at hlt
    rw [addMinutes?, ofMicros?_of_lt hlt, Option.some_inj]
    exact ext h.symm

theorem nextMinute?_eq_some {w v : WallTime} :
    w.nextMinute? = some v ↔ v.micros = w.micros + 60000000 := by
  have hone : w.nextMinute? = w.addMinutes? 1 := by
    rw [nextMinute?, addMinutes?, Nat.mul_one, Nat.add_comm]
  rw [hone, addMinutes?_eq_some]

theorem addMinutes?_succ {w v next : WallTime} {k : Nat} (h : w.addMinutes? k = some v)
    (hnext : v.nextMinute? = some next) : w.addMinutes? (k + 1) = some next := by
  have hm := micros_of_nextMinute? hnext
  rw [addMinutes?_eq_some] at h ⊢
  rw [hm, h, Nat.mul_succ, Nat.add_assoc]

-- The first `n` minutes are those less than `n` minutes away.
theorem mem_minutesFrom {w v : WallTime} {n : Nat} :
    v ∈ w.minutesFrom n ↔ ∃ k < n, v.micros = w.micros + 60000000 * k := by
  simp only [minutesFrom, List.mem_filterMap, List.mem_range, addMinutes?_eq_some]

theorem pairwise_minutesFrom (w : WallTime) (n : Nat) :
    (w.minutesFrom n).Pairwise (·.micros < ·.micros) := by
  refine List.Pairwise.filterMap _ ?_ List.pairwise_lt_range
  intro i j hij u hu v hv
  rw [micros_of_addMinutes? hu, micros_of_addMinutes? hv]
  omega

theorem minutesFrom_prefix (w : WallTime) {m n : Nat} (h : m ≤ n) :
    w.minutesFrom m <+: w.minutesFrom n := by
  apply List.IsPrefix.filterMap
  rw [List.prefix_iff_eq_take, List.take_range, List.length_range, Nat.min_eq_left h]

theorem minutesFrom_zero (w : WallTime) : w.minutesFrom 0 = [] := rfl

theorem minutesFrom_one (w : WallTime) : w.minutesFrom 1 = [w] := by
  have hw : w.addMinutes? 0 = some w := addMinutes?_eq_some.2 (by omega)
  simp [minutesFrom, hw]

-- A run of minutes is that of the first of them, and the run from where these end on.
theorem minutesFrom_add {w v : WallTime} {a : Nat} (h : w.addMinutes? a = some v) (b : Nat) :
    w.minutesFrom (a + b) = w.minutesFrom a ++ v.minutesFrom b := by
  have hm := micros_of_addMinutes? h
  have hadd : (w.addMinutes? ∘ fun k => a + k) = v.addMinutes? := by
    funext k
    rw [Function.comp, addMinutes?, addMinutes?, hm,
      show w.micros + 60000000 * (a + k) = w.micros + 60000000 * a + 60000000 * k by omega]
  rw [minutesFrom, List.range_add, List.filterMap_append, List.filterMap_map, hadd, minutesFrom,
    minutesFrom]

theorem minutesFrom_succ {w next : WallTime} (h : w.nextMinute? = some next) (n : Nat) :
    w.minutesFrom (n + 1) = w :: next.minutesFrom n := by
  have hm := micros_of_nextMinute? h
  have hnext : w.addMinutes? 1 = some next := addMinutes?_eq_some.2 (by omega)
  rw [Nat.add_comm, minutesFrom_add hnext, minutesFrom_one, List.singleton_append]

end WallTime

/-- The wall times with a property, ascending, each once. -/
structure Enumerates (ws : List WallTime) (P : WallTime → Prop) : Prop where
  ascending : ws.Pairwise (·.micros < ·.micros)
  mem_iff : ∀ w, w ∈ ws ↔ P w

theorem Enumerates.unique {vs ws : List WallTime} {P : WallTime → Prop} (hv : Enumerates vs P)
    (hw : Enumerates ws P) : vs = ws := by
  have hnodup : ∀ us : List WallTime, us.Pairwise (·.micros < ·.micros) → us.Nodup := by
    intro us h
    apply h.imp
    intro v w hlt heq
    rw [heq] at hlt
    exact Nat.lt_irrefl _ hlt
  have hperm : vs.Perm ws :=
    (List.perm_ext_iff_of_nodup (hnodup vs hv.ascending) (hnodup ws hw.ascending)).2 fun w =>
      (hv.mem_iff w).trans (hw.mem_iff w).symm
  exact hperm.eq_of_pairwise (fun a b _ _ hab hba => absurd hab (by omega)) hv.ascending
    hw.ascending

end Cron
