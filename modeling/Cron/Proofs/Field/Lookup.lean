import Cron.Field.Phrase
import Cron.Proofs.Field.Values

/-!
Look-ups in fields that were read. Such a field has a first and a last value and the tables hold a
name for each of its values, so checked look-ups find what plain ones find, and its phrase is there.
-/
namespace Cron

variable {α β : Type} {f : α → Option β} {g : α → β}

theorem mapM_eq_some_map {xs : List α} (h : ∀ x ∈ xs, f x = some (g x)) :
    xs.mapM f = some (xs.map g) := by
  induction xs with
  | nil => rfl
  | cons x rest ih =>
    rw [List.mapM_cons, h x List.mem_cons_self, ih fun y hy => h y (List.mem_cons_of_mem _ hy)]
    rfl

theorem FieldName.valueText?_eq_some {field : FieldName} {v : Nat} (hlo : field.low ≤ v)
    (hhi : v ≤ field.high) : field.valueText? v = some (field.valueText v) := by
  cases field with
  | minute => rfl
  | hour => rfl
  | dayOfMonth => rfl
  | month =>
    have htable : ∀ v ≤ 12, 1 ≤ v → month.valueText? v = some (month.valueText v) := by decide
    exact htable v hhi hlo
  | dayOfWeek =>
    have htable : ∀ v ≤ 6, dayOfWeek.valueText? v = some (dayOfWeek.valueText v) := by decide
    exact htable v hhi

-- Plain look-ups one after the other are a map.
@[simp]
theorem LookUps.mapM_plain (name : FieldName) (vs : List Nat) :
    vs.mapM (plain.text name) = vs.map name.valueText :=
  List.idRun_mapM

namespace Field

variable {field : Field}

theorem IsSound.head?_eq (h : field.IsSound) : field.values.head? = some field.firstValue := by
  rw [firstValue, List.head?_eq_some_head h.nonempty, Option.getD_some]

theorem IsSound.getLast?_eq (h : field.IsSound) :
    field.values.getLast? = some field.lastValue := by
  rw [lastValue, List.getLast?_eq_some_getLast h.nonempty, Option.getD_some]

theorem IsSound.firstValue_mem (h : field.IsSound) : field.firstValue ∈ field.values :=
  List.mem_of_head? h.head?_eq

theorem IsSound.lastValue_mem (h : field.IsSound) : field.lastValue ∈ field.values :=
  List.mem_of_getLast? h.getLast?_eq

theorem IsSound.valueText?_eq (h : field.IsSound) {v : Nat} (hv : v ∈ field.values) :
    field.name.valueText? v = some (field.name.valueText v) :=
  FieldName.valueText?_eq_some (h.within v hv).1 (h.within v hv).2

theorem IsSound.phrase?_eq (h : field.IsSound) : field.phrase? = some field.phrase := by
  have hfirst := h.valueText?_eq h.firstValue_mem
  have hlast := h.valueText?_eq h.lastValue_mem
  have hall := mapM_eq_some_map fun v hv => h.valueText?_eq hv
  unfold phrase? phrase phraseBy LookUps.checked
  dsimp only
  rw [h.head?_eq, h.getLast?_eq, hall, LookUps.mapM_plain]
  simp only [Option.bind_eq_bind, Option.bind_some, hfirst, hlast]
  split_ifs <;> rfl

end Field

end Cron
