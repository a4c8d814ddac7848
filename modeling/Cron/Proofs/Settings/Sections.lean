import Cron.Proofs.Readings
import Cron.Settings.Read

/-!
Sections of the settings. What is read of a section is right, or the settings at fault are refused;
only the horizon can end the reading with a fault of another kind, and that is the fault of its
text.
-/
namespace Cron

variable {α β : Type} {s name : String} {fault : Fault} {members : List (String × Json)}

namespace Json

theorem lookup?_put (name : String) (v : Json) (members : List (String × Json)) :
    lookup? name (put name v members) = some v := by
  induction members with
  | nil => simp [put, lookup?]
  | cons member rest ih =>
    by_cases h : member.1 = name
    · simp [put, lookup?, h]
    · simpa [put, lookup?, h] using ih

end Json

/-- Results that are right, or refuse settings. -/
def IsChecked (x : Except Fault α) : Prop :=
  (∃ a, x = .ok a) ∨ ∃ refused, x = .error (.settings refused)

theorem IsChecked.both {x : Except Fault α} {y : Except Fault β} (hx : IsChecked x)
    (hy : IsChecked y) : IsChecked (both x y) := by
  rcases hx with ⟨a, rfl⟩ | ⟨refused, rfl⟩ <;> rcases hy with ⟨b, rfl⟩ | ⟨more, rfl⟩
  · exact .inl ⟨_, rfl⟩
  · exact .inr ⟨_, rfl⟩
  · exact .inr ⟨_, rfl⟩
  · exact .inr ⟨_, rfl⟩

theorem both_eq_ok_iff {x : Except Fault α} {y : Except Fault β} {p : α × β} :
    both x y = .ok p ↔ x = .ok p.1 ∧ y = .ok p.2 := by
  constructor
  · intro h
    unfold both at h
    split at h <;> cases h
    exact ⟨rfl, rfl⟩
  · rintro ⟨rfl, rfl⟩
    rfl

-- A fault that refuses no settings comes before those that do.
theorem both_eq_error {x : Except Fault α} {y : Except Fault β} (hx : IsChecked x)
    (hy : y = .error fault) (hfault : ∀ refused, fault ≠ .settings refused) :
    both x y = .error fault := by
  subst hy
  rcases hx with ⟨a, rfl⟩ | ⟨refused, rfl⟩
  · rfl
  · cases fault with
    | settings more => exact absurd rfl (hfault more)
    | _ => rfl

namespace Settings

theorem isChecked_entry (place : List String) (name : String) (members : List (String × Json))
    (initial : α) (read : Json → Except SettingError α) :
    IsChecked (entry place name members initial read) := by
  unfold entry
  split
  · exact .inl ⟨_, rfl⟩
  · split
    · exact .inl ⟨_, rfl⟩
    · exact .inr ⟨_, rfl⟩

/-- The settings with another horizon. -/
def withHorizon (settings : Settings) (horizon : Horizon) : Settings :=
  { settings with scheduler := { settings.scheduler with horizon } }

end Settings

/-! The horizon. -/

theorem Horizon.map_minutes_ofText (horizon : Horizon) :
    (Duration.ofText horizon.text).map Duration.minutes = .ok horizon.minutes := by
  rw [eq_ok_of_toOption horizon.valid]
  rfl

theorem Horizon.ofText_of_ok {length : Duration} (h : Duration.ofText s = .ok length) :
    ∃ horizon, Horizon.ofText s = .ok horizon ∧ horizon.text = s := by
  unfold Horizon.ofText
  split
  · exact ⟨_, rfl, rfl⟩
  · next fault hfault =>
    rw [h] at hfault
    cases hfault

theorem Horizon.ofText_of_error (h : Duration.ofText s = .error fault) :
    Horizon.ofText s = .error fault := by
  unfold Horizon.ofText
  split
  · next length hlength =>
    rw [h] at hlength
    cases hlength
  · next fault' hfault =>
    rw [h] at hfault
    cases hfault
    rfl

namespace Settings

variable {place : List String} {horizon : Horizon}

theorem readHorizon_put (place : List String) (s : String) (members : List (String × Json)) :
    readHorizon place (Json.put "horizon" (.text s) members) =
      match Horizon.ofText s with
      | .ok horizon => .ok horizon
      | .error (.input _) => .error (.settings [⟨place ++ ["horizon"], .badValue⟩])
      | .error fault => .error fault := by
  rw [readHorizon, entry, Json.lookup?_put]
  rfl

theorem readHorizon_of_ok {length : Duration} (place : List String)
    (members : List (String × Json)) (h : Duration.ofText s = .ok length) :
    ∃ horizon, readHorizon place (Json.put "horizon" (.text s) members) = .ok horizon ∧
      horizon.text = s := by
  obtain ⟨horizon, hhorizon, htext⟩ := Horizon.ofText_of_ok h
  rw [readHorizon_put, hhorizon]
  exact ⟨horizon, rfl, htext⟩

theorem readHorizon_of_input {error : InputError}
    (h : Duration.ofText s = .error (.input error)) :
    readHorizon place (Json.put "horizon" (.text s) members) =
      .error (.settings [⟨place ++ ["horizon"], .badValue⟩]) := by
  rw [readHorizon_put, Horizon.ofText_of_error h]

theorem readHorizon_of_error (h : Duration.ofText s = .error fault)
    (hinput : ∀ error, fault ≠ .input error) :
    readHorizon place (Json.put "horizon" (.text s) members) = .error fault := by
  rw [readHorizon_put, Horizon.ofText_of_error h]
  cases fault with
  | input error => exact absurd rfl (hinput error)
  | _ => rfl

-- What else the section holds is checked beside the horizon.
theorem exists_readScheduler_eq (members : List (String × Json)) :
    ∃ x : Except Fault ((String × { n : Nat // 0 ≤ n }) × { n : Nat // 1 ≤ n }), IsChecked x ∧
      readScheduler members = (both x (readHorizon ["scheduler"] members)).map
        fun (((timezone, defaultCount), maxCount), horizon) =>
          ⟨timezone, defaultCount, maxCount, maxCount.property, horizon⟩ :=
  ⟨_, ((isChecked_entry _ _ _ _ _).both (isChecked_entry _ _ _ _ _)).both
    (isChecked_entry _ _ _ _ _), rfl⟩

theorem readScheduler_of_ok (h : readHorizon ["scheduler"] members = .ok horizon) :
    (∃ scheduler, readScheduler members = .ok scheduler ∧ scheduler.horizon = horizon) ∨
      ∃ refused, readScheduler members = .error (.settings refused) := by
  obtain ⟨x, hx, hscheduler⟩ := exists_readScheduler_eq members
  rw [hscheduler, h]
  rcases hx with ⟨a, rfl⟩ | ⟨refused, rfl⟩
  · exact .inl ⟨_, rfl, rfl⟩
  · exact .inr ⟨_, rfl⟩

theorem readScheduler_of_settings {refused : List SettingFault}
    (h : readHorizon ["scheduler"] members = .error (.settings refused)) :
    ∃ refused, readScheduler members = .error (.settings refused) := by
  obtain ⟨x, hx, hscheduler⟩ := exists_readScheduler_eq members
  rw [hscheduler, h]
  rcases hx with ⟨a, rfl⟩ | ⟨more, rfl⟩
  · exact ⟨_, rfl⟩
  · exact ⟨_, rfl⟩

theorem readScheduler_of_error (h : readHorizon ["scheduler"] members = .error fault)
    (hfault : ∀ refused, fault ≠ .settings refused) :
    readScheduler members = .error fault := by
  obtain ⟨x, hx, hscheduler⟩ := exists_readScheduler_eq members
  rw [hscheduler, both_eq_error hx h hfault]
  rfl

end Settings

end Cron
