import Cron.Fault
import Cron.Text.Numeral
import Cron.Text.Pieces

/-!
The terms of a field: every value, one value, or numbers in steps. A term is read for its form
first, and then says which numbers it covers.
-/
namespace Cron

inductive Term
  | every
  | value (n : Nat)
  /-- The numbers from `first` to `last` in steps. -/
  | range (first last step : Nat)
deriving Repr, DecidableEq

namespace Term

/-- A number of a term; `role` says in a message what it should have been. -/
def readNumber (field : FieldName) (role : NumberRole) (cs : List Char) : Except Fault Nat :=
  match Text.readNumeral cs with
  | .ok n => .ok n
  | .error .malformed => .error (.expression (.badNumber field role (String.ofList cs)))
  | .error (.tooLong digits) => .error (.input (.tooManyDigits digits))

/-- The bounds of a range. Both have to be numerals before either is too long. -/
def readBounds (field : FieldName) (cs : List Char) : Except Fault (Nat × Nat) :=
  match Text.pieces '-' cs with
  | [a, b] =>
    match Text.numeralDigits? a, Text.numeralDigits? b with
    | some _, some _ => do
      let first ← readNumber field .value a
      let last ← readNumber field .value b
      .ok (first, last)
    | _, _ => .error (.expression (.badRange field (String.ofList cs)))
  | _ => .error (.expression (.badRange field (String.ofList cs)))

def readStep (field : FieldName) (cs : List Char) : Except Fault Nat := do
  let step ← readNumber field .step cs
  if step = 0 then .error (.expression (.badNumber field .step (String.ofList cs))) else .ok step

/-- The numbers that steps go through: all, from one number on, or within a range. -/
def readBase (field : FieldName) (cs : List Char) : Except Fault (Nat × Nat) :=
  if cs = ['*'] then .ok (field.low, field.inputHigh)
  else if cs.contains '-' then readBounds field cs
  else do
    let first ← readNumber field .value cs
    .ok (first, field.inputHigh)

def readValue (field : FieldName) (cs : List Char) : Except Fault Term := do
  let n ← readNumber field .value cs
  if field.low ≤ field.fold n && field.fold n ≤ field.high then .ok (.value n)
  else .error (.expression (.outOfRange field (field.fold n)))

def read (field : FieldName) (cs : List Char) : Except Fault Term :=
  if cs.isEmpty then .error (.expression (.emptyTerm field))
  else
    match Text.cut? '/' cs with
    | some (base, stepText) =>
      if stepText.contains '/' then
        .error (.expression (.doubleStep field (String.ofList cs)))
      else do
        let step ← readStep field stepText
        let (first, last) ← readBase field base
        .ok (.range first last step)
    | none =>
      if cs.contains '-' then do
        let (first, last) ← readBounds field cs
        .ok (.range first last 1)
      else if cs = ['*'] then .ok .every
      else readValue field cs

def covers (field : FieldName) : Term → Nat → Bool
  | every, n => field.low ≤ n && n ≤ field.high
  | value m, n => m == n
  | range first last step, n => first ≤ n && n ≤ last && (n - first) % step == 0

/-- Whether a term covers a number that stands for a value. -/
def holds (field : FieldName) (term : Term) (v : Nat) : Bool :=
  term.covers field v || (field == .dayOfWeek && v == 0 && term.covers field 7)

/-- A value is held exactly if some number within the input bounds that stands for it is covered. -/
theorem holds_iff {field : FieldName} {term : Term} {v : Nat} (hv : v ∈ field.domain) :
    term.holds field v = true ↔
      ∃ n, field.low ≤ n ∧ n ≤ field.inputHigh ∧ field.fold n = v ∧ term.covers field n = true := by
  rw [FieldName.mem_domain] at hv
  simp only [holds, Bool.or_eq_true, Bool.and_eq_true, beq_iff_eq, FieldName.fold]
  constructor
  · rintro (h | ⟨⟨rfl, rfl⟩, h⟩)
    · refine ⟨v, hv.1, ?_, ?_, h⟩
      · cases field <;> simp only [FieldName.high, FieldName.inputHigh] at * <;> omega
      · split
        · next hf => obtain ⟨rfl, rfl⟩ := hf; simp [FieldName.high] at hv
        · rfl
    · exact ⟨7, by decide, by decide, by decide, h⟩
  · rintro ⟨n, _, _, hn, h⟩
    split at hn
    · next hf => obtain ⟨rfl, rfl⟩ := hf; exact Or.inr ⟨⟨rfl, hn.symm⟩, h⟩
    · exact Or.inl (hn ▸ h)

end Term

end Cron
