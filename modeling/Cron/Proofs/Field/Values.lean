import Cron.Field.Basic
import Cron.Proofs.Readings

/-!
What every field that was read keeps: its bounds are those of its name, and its values ascend within
them, one at least. An open field has all of them.
-/
namespace Cron

namespace Field

structure IsSound (f : Field) : Prop where
  low_eq : f.low = f.name.low
  high_eq : f.high = f.name.high
  nonempty : f.values ≠ []
  ascending : f.values.Pairwise (· < ·)
  within : ∀ v ∈ f.values, f.name.low ≤ v ∧ v ≤ f.name.high
  values_of_isWildcard : f.isWildcard = true → f.values = f.name.domain

theorem isSound_wildcard (name : FieldName) : (wildcard name).IsSound where
  low_eq := rfl
  high_eq := rfl
  nonempty := by cases name <;> decide
  ascending := List.pairwise_lt_range'
  within v hv := FieldName.mem_domain.1 hv
  values_of_isWildcard _ := rfl

variable {name : FieldName} {cs : List Char} {raw : String} {f : Field}

theorem ofTerms_eq_ok_iff :
    ofTerms name cs = .ok f ↔
      ∃ terms, (Text.pieces ',' cs).mapM (Term.read name) = .ok terms ∧
        valuesOf name terms ≠ [] ∧ f = .ofValues name (valuesOf name terms) false := by
  rw [ofTerms, bind_eq_ok_iff]
  apply exists_congr
  intro terms
  apply and_congr_right
  intro _
  by_cases hnone : valuesOf name terms = []
  · simp [hnone]
  · simp only [List.isEmpty_iff, hnone, ↓reduceIte, Except.ok.injEq, ne_eq, not_false_eq_true,
      true_and]
    exact eq_comm

theorem isSound_of_ofTerms (h : ofTerms name cs = .ok f) :
    f.IsSound ∧ f.name = name ∧ f.isWildcard = false := by
  obtain ⟨terms, -, hne, rfl⟩ := ofTerms_eq_ok_iff.1 h
  refine ⟨⟨rfl, rfl, hne, pairwise_valuesOf name terms, ?_, nofun⟩, rfl, rfl⟩
  intro v hv
  exact FieldName.mem_domain.1 (mem_valuesOf.1 hv).1

theorem isSound_of_parse (h : parse name raw = .ok f) :
    f.IsSound ∧ f.name = name ∧ (f.isWildcard = true ↔ Text.trim raw.toList = ['*']) := by
  unfold parse at h
  by_cases hstar : Text.trim raw.toList = ['*']
  · rw [if_pos hstar] at h
    cases h
    exact ⟨isSound_wildcard name, rfl, iff_of_true rfl hstar⟩
  · rw [if_neg hstar] at h
    obtain ⟨hsound, hname, hopen⟩ := isSound_of_ofTerms h
    exact ⟨hsound, hname, iff_of_false (by simp [hopen]) hstar⟩

theorem parseNamed_eq_ok_iff {text : String} :
    parseNamed text raw = .ok f ↔
      ∃ name, FieldName.ofText? text = some name ∧ parse name raw = .ok f := by
  unfold parseNamed
  cases FieldName.ofText? text <;> simp

end Field

end Cron
