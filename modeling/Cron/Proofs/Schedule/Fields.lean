import Cron.Proofs.Readings
import Cron.Proofs.Schedule.Grammar

/-!
Schedules and the words that they were read from: each field is what its word gives.
-/
namespace Cron.Schedule

open Text

variable {expression : String} {s : Schedule}

theorem parse_eq_ok_iff :
    parse expression = .ok s ↔
      List.Forall₂ (fun name w => Field.parse name (String.ofList w) = .ok (s.field name))
          FieldName.all (words expression.toList) ∧
        s.expression = spaced (words expression.toList) := by
  constructor
  · intro h
    have hcount : (words expression.toList).length = 5 := by
      by_contra hcount
      rw [parse_of_length_ne_five hcount] at h
      cases h
    obtain ⟨a, b, c, d, e, hwords⟩ := exists_eq_of_length_eq_five hcount
    rw [parse_of_words hwords] at h
    obtain ⟨minute, hminute, h⟩ := bind_eq_ok_iff.1 h
    obtain ⟨hour, hhour, h⟩ := bind_eq_ok_iff.1 h
    obtain ⟨dayOfMonth, hdayOfMonth, h⟩ := bind_eq_ok_iff.1 h
    obtain ⟨month, hmonth, h⟩ := bind_eq_ok_iff.1 h
    obtain ⟨dayOfWeek, hdayOfWeek, h⟩ := bind_eq_ok_iff.1 h
    cases h
    rw [hwords]
    exact ⟨.cons hminute (.cons hhour (.cons hdayOfMonth (.cons hmonth (.cons hdayOfWeek .nil)))),
      rfl⟩
  · rintro ⟨hfields, hexpression⟩
    unfold FieldName.all at hfields
    generalize hwords : words expression.toList = ws at hfields hexpression
    rcases hfields with _ | ⟨h₁, _ | ⟨h₂, _ | ⟨h₃, _ | ⟨h₄, _ | ⟨h₅, _ | _⟩⟩⟩⟩⟩
    rw [parse_of_words hwords, h₁, h₂, h₃, h₄, h₅, ← hexpression]
    rfl

end Cron.Schedule
