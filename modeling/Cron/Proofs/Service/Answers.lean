import Cron.Proofs.Runs.Upcoming
import Cron.Proofs.Schedule.Faults
import Cron.Proofs.Service.Asked
import Mathlib

/-!
Which requests for runs are answered. Each step of an answer goes on, refuses the request and tells
why, or is at a fault that no answer tells; and the last happens under a condition of its own.
-/
namespace Cron.Service

/-- A step that tells why it refuses, and is at a fault exactly if `p` holds. -/
structure Tells {α : Type} (p : Prop) (x : Except Failure α) : Prop where
  told : ∀ body, x = .error (.refused body) →
    ∃ message, body.member? "error" = some (.text message)
  faults_iff : (∃ fault, x = .error (.fault fault)) ↔ p

namespace Tells

variable {α β : Type} {p q : Prop}

theorem congr {x : Except Failure α} (h : Tells p x) (hpq : p ↔ q) : Tells q x :=
  ⟨h.told, h.faults_iff.trans hpq⟩

theorem ok (a : α) : Tells False (.ok a : Except Failure α) :=
  ⟨nofun, by simp⟩

theorem fault (fault : Fault) : Tells True (.error (.fault fault) : Except Failure α) :=
  ⟨nofun, by simp⟩

theorem refused {body : Json} {message : String}
    (h : body.member? "error" = some (.text message)) :
    Tells False (.error (.refused body) : Except Failure α) := by
  refine ⟨?_, by simp⟩
  rintro _ ⟨⟩
  exact ⟨message, h⟩

theorem of_refusal (message : String) :
    Tells False (.error (refusal message) : Except Failure α) :=
  refused rfl

theorem bind {x : Except Failure α} {f : α → Except Failure β} {q : α → Prop} (hx : Tells p x)
    (hf : ∀ a, x = .ok a → Tells (q a) (f a)) : Tells (p ∨ ∃ a, x = .ok a ∧ q a) (x >>= f) := by
  refine ⟨fun body h => ?_, ?_⟩
  · obtain h | ⟨a, ha, h⟩ := bind_eq_error_iff.1 h
    · exact hx.told body h
    · exact (hf a ha).told body h
  · constructor
    · rintro ⟨fault, h⟩
      obtain h | ⟨a, ha, h⟩ := bind_eq_error_iff.1 h
      · exact .inl (hx.faults_iff.1 ⟨fault, h⟩)
      · exact .inr ⟨a, ha, (hf a ha).faults_iff.1 ⟨fault, h⟩⟩
    · rintro (hp | ⟨a, ha, hq⟩)
      · obtain ⟨fault, h⟩ := hx.faults_iff.2 hp
        exact ⟨fault, bind_eq_error_iff.2 (.inl h)⟩
      · obtain ⟨fault, h⟩ := (hf a ha).faults_iff.2 hq
        exact ⟨fault, bind_eq_error_iff.2 (.inr ⟨a, ha, h⟩)⟩

-- What is made of the value of a step is at no fault.
theorem bind_ok {x : Except Failure α} (hx : Tells p x) (f : α → β) :
    Tells p (x >>= fun a => .ok (f a)) :=
  (hx.bind fun a _ => ok (f a)).congr (by simp)

end Tells

section Search
variable (settings : Settings) (clocks : ClockRule) (instant : WallTime)

/-- Why a body is not read, and that is not told: it holds an integer of too many digits, or values
that lie in too many others. -/
inductive Unreadable (levels : Nat) (request : Request) : Prop
  | tooLong {digits : Nat} (hroute : Route.ofRequest request = .ok .explain)
    (h : Json.read levels request.body = .error (.tooLong digits))
  | tooDeep (hroute : Route.ofRequest request = .ok .explain)
    (h : Json.read levels request.body = .error .tooDeep)

variable {levels : Nat} {request : Request}

theorem tells_bodyOf (levels : Nat) (request : Request) :
    Tells ((∃ digits, Json.read levels request.body = .error (.tooLong digits)) ∨
      Json.read levels request.body = .error .tooDeep) (bodyOf levels request) := by
  unfold bodyOf
  split
  · next v hread => exact (Tells.ok v).congr (by simp [hread])
  · next hread => exact (Tells.of_refusal _).congr (by simp [hread])
  · next digits hread => exact (Tells.fault _).congr (by simp [hread])
  · next hread => exact (Tells.fault _).congr (by simp [hread])

theorem tells_ofBody (body : Json) : Tells False (Asked.ofBody body) := by
  have hexpression : Tells False (expressionOf body) := by
    unfold expressionOf
    dsimp only
    split
    · exact .of_refusal _
    · exact .ok _
  exact hexpression.bind_ok _

theorem Asks.tells {asked : Except Failure Asked} (h : Asks levels request asked) :
    Tells (Unreadable levels request) asked := by
  cases h with
  | explain hroute =>
    refine ((tells_bodyOf levels request).bind fun body _ => tells_ofBody body).congr ?_
    constructor
    · rintro ((⟨digits, h⟩ | h) | ⟨_, _, ⟨⟩⟩)
      · exact .tooLong hroute h
      · exact .tooDeep hroute h
    · rintro (⟨-, h⟩ | ⟨-, h⟩)
      · exact .inl (.inl ⟨_, h⟩)
      · exact .inl (.inr h)
  | next hroute =>
    have hread : ¬ Unreadable levels request := by
      rintro (⟨hroute', -⟩ | ⟨hroute', -⟩)
      · rw [hroute] at hroute'
        cases hroute'
      · rw [hroute] at hroute'
        cases hroute'
    unfold Asked.queried
    dsimp only
    split
    · exact (Tells.of_refusal _).congr (iff_of_false id hread)
    · exact (Tells.ok _).congr (iff_of_false id hread)

theorem Asks.unique {asked asked' : Except Failure Asked} (h : Asks levels request asked)
    (h' : Asks levels request asked') : asked = asked' := by
  cases h with
  | explain hroute =>
    cases h' with
    | explain => rfl
    | next hroute' =>
      rw [hroute] at hroute'
      cases hroute'
  | next hroute =>
    cases h' with
    | explain hroute' =>
      rw [hroute] at hroute'
      cases hroute'
    | next => rfl

end Search

end Cron.Service
