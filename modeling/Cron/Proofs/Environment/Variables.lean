import Cron.Environment
import Mathlib.Data.List.Basic

/-!
Variables with their values. An environment is what its variables give; filling it from a list adds
those that it lacks, and filling it once more adds nothing.
-/
namespace Cron.Environment

variable {env : Environment} {name other value : String} {entries : List (String × String)}

theorem get?_cons :
    (⟨(name, value) :: entries⟩ : Environment).get? other =
      if other = name then some value else (⟨entries⟩ : Environment).get? other := by
  by_cases h : other = name
  · simp [get?, h]
  · simp [get?, h, Ne.symm h]

theorem get?_erase_of_ne (h : other ≠ name) : (env.erase name).get? other = env.get? other := by
  rw [get?, get?, erase, List.find?_filter]
  congr 2
  funext entry
  by_cases hentry : entry.1 = other
  · simp [hentry, h]
  · simp [hentry]

theorem get?_insert :
    (env.insert name value).get? other = if other = name then some value else env.get? other := by
  rw [insert, get?_cons]
  by_cases h : other = name
  · rw [if_pos h, if_pos h]
  · rw [if_neg h, if_neg h]
    exact get?_erase_of_ne h

theorem get?_insertNew :
    (env.insertNew name value).get? other =
      (env.get? other).or (if other = name then some value else none) := by
  rw [insertNew]
  by_cases h : other = name
  · subst h
    cases hknown : env.get? other with
    | some known => simp [hknown]
    | none => simp [get?_insert]
  · rw [if_neg h, Option.or_none]
    split
    · rfl
    · rw [get?_insert, if_neg h]

/-- A variable keeps its value, or else gets the one that the list gives it first. -/
theorem get?_fill (env : Environment) (entries : List (String × String)) (name : String) :
    (env.fill entries).get? name =
      (env.get? name).or ((⟨entries⟩ : Environment).get? name) := by
  induction entries generalizing env with
  | nil =>
    show env.get? name = (env.get? name).or none
    rw [Option.or_none]
  | cons entry rest ih =>
    show ((env.insertNew entry.1 entry.2).fill rest).get? name = _
    rw [ih, get?_insertNew, get?_cons, Option.or_assoc]
    by_cases h : name = entry.1
    · rw [if_pos h, if_pos h, Option.some_or]
    · rw [if_neg h, if_neg h, Option.none_or]

theorem fill_eq_self (h : ∀ entry ∈ entries, (env.get? entry.1).isSome = true) :
    env.fill entries = env := by
  induction entries with
  | nil => rfl
  | cons entry rest ih =>
    have hknown : env.insertNew entry.1 entry.2 = env := by
      rw [insertNew, if_pos (h entry List.mem_cons_self)]
    show (env.insertNew entry.1 entry.2).fill rest = env
    rw [hknown]
    exact ih fun e he => h e (List.mem_cons_of_mem entry he)

theorem isSome_get?_of_mem {entry : String × String} (h : entry ∈ entries) :
    ((⟨entries⟩ : Environment).get? entry.1).isSome = true := by
  rw [get?, Option.isSome_map, List.find?_isSome]
  exact ⟨entry, h, by simp⟩

theorem fill_fill (env : Environment) (entries : List (String × String)) :
    (env.fill entries).fill entries = env.fill entries := by
  apply fill_eq_self
  intro entry hentry
  rw [get?_fill, Option.isSome_or, isSome_get?_of_mem hentry, Bool.or_true]

/-- The variables that a list adds to an environment. -/
def IsAdded (env : Environment) (entries : List (String × String)) (name : String) : Prop :=
  env.get? name = none ∧ ((⟨entries⟩ : Environment).get? name).isSome = true

theorem get?_fill_of_not_isAdded (h : ¬ env.IsAdded entries name) :
    (env.fill entries).get? name = env.get? name := by
  rw [get?_fill]
  cases hknown : env.get? name with
  | some known => rfl
  | none =>
    rw [Option.none_or]
    cases hnew : (⟨entries⟩ : Environment).get? name with
    | none => rfl
    | some v => exact absurd ⟨hknown, by rw [hnew]; rfl⟩ h

end Cron.Environment
