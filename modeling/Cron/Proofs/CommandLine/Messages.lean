import Cron.Proofs.Duration.Faults
import Cron.Proofs.Schedule.Faults
import Cron.Proofs.Text.Lines
import Cron.Proofs.Zone.Labels

/-!
Messages on one line. A message cites a part of one word, or quotes a text, so it never reaches
beyond its line. Each reading of what a command is given is followed as far as its faults have such
messages, and for those that have none it is said when they are met.
-/
namespace Cron

open Text

/-- Faults with a message, which stands on one line. -/
def Fault.IsReported (fault : Fault) : Prop :=
  ∃ message, fault.inputMessage? = some message ∧ IsLine message.toList

/-- A step whose faults are reported, save one, which it meets exactly if `p` holds. -/
def Reports {α : Type} (p : Prop) (x : Except Fault α) : Prop :=
  (∃ fault, x = .error fault ∧ ¬ fault.IsReported) ↔ p

namespace Reports

variable {α β : Type} {p q : Prop} {x : Except Fault α}

theorem congr (h : Reports p x) (hpq : p ↔ q) : Reports q x := Iff.trans h hpq

theorem ok (a : α) : Reports False (.ok a : Except Fault α) := by
  simp [Reports]

theorem bind {f : α → Except Fault β} {q : α → Prop} (hx : Reports p x)
    (hf : ∀ a, x = .ok a → Reports (q a) (f a)) :
    Reports (p ∨ ∃ a, x = .ok a ∧ q a) (x >>= f) := by
  constructor
  · rintro ⟨fault, h, hnot⟩
    rcases bind_eq_error_iff.1 h with h | ⟨a, ha, h⟩
    · exact .inl (hx.1 ⟨fault, h, hnot⟩)
    · exact .inr ⟨a, ha, (hf a ha).1 ⟨fault, h, hnot⟩⟩
  · rintro (hp | ⟨a, ha, hq⟩)
    · obtain ⟨fault, h, hnot⟩ := hx.2 hp
      exact ⟨fault, bind_eq_error_iff.2 (.inl h), hnot⟩
    · obtain ⟨fault, h, hnot⟩ := (hf a ha).2 hq
      exact ⟨fault, bind_eq_error_iff.2 (.inr ⟨a, ha, h⟩), hnot⟩

-- What is made of the value of a step is at no fault.
theorem map (hx : Reports p x) (f : α → β) : Reports p (x.map f) := by
  cases x with
  | ok a => exact (ok (f a)).congr (Iff.trans (ok a).symm hx)
  | error fault =>
    refine Iff.trans (exists_congr fun e => ?_) hx
    simp [Except.map]

theorem of_error_iff {y : Except Fault β} (hx : Reports p x)
    (h : ∀ fault, y = .error fault ↔ x = .error fault) : Reports p y :=
  Iff.trans (exists_congr fun fault => by rw [h]) hx

theorem mapM {f : α → Except Fault β} {xs : List α} (h : ∀ x ∈ xs, Reports False (f x)) :
    Reports False (xs.mapM f) := by
  refine iff_of_false ?_ id
  rintro ⟨fault, hfault, hnot⟩
  obtain ⟨before, x, after, rfl, -, hx⟩ := mapM_eq_error_iff.1 hfault
  exact (h x (by simp)).1 ⟨fault, hx, hnot⟩

end Reports

/-! Terms and fields: their messages cite parts of the text that is read. -/

namespace Term

variable {field : FieldName} {role : NumberRole} {cs : List Char}

end Term

namespace Field

variable {name : FieldName} {cs : List Char}

end Field

/-! Expressions, lengths of time and labels of zones. -/

end Cron
