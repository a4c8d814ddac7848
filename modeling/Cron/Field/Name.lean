/-!
The five fields of a cron expression, and the numbers each of them may hold.
-/
namespace Cron

/-- A field of an expression. -/
inductive FieldName
  | minute
  | hour
  | dayOfMonth
  | month
  | dayOfWeek
deriving Repr, DecidableEq

namespace FieldName

/-- The fields in the order in which an expression holds them. -/
def all : List FieldName := [minute, hour, dayOfMonth, month, dayOfWeek]

def text : FieldName → String
  | minute => "minute"
  | hour => "hour"
  | dayOfMonth => "day_of_month"
  | month => "month"
  | dayOfWeek => "day_of_week"

def ofText? (s : String) : Option FieldName := all.find? fun field => field.text = s

def low : FieldName → Nat
  | minute | hour | dayOfWeek => 0
  | dayOfMonth | month => 1

def high : FieldName → Nat
  | minute => 59
  | hour => 23
  | dayOfMonth => 31
  | month => 12
  | dayOfWeek => 6

/-- The greatest number that an expression may give for a value: Sunday is also day seven. -/
def inputHigh : FieldName → Nat
  | dayOfWeek => 7
  | field => field.high

/-- The value that a number stands for: day seven is Sunday, day zero. -/
def fold (field : FieldName) (n : Nat) : Nat := if field = dayOfWeek ∧ n = 7 then 0 else n

def domain (field : FieldName) : List Nat := List.range' field.low (field.high + 1 - field.low)

theorem mem_all (field : FieldName) : field ∈ all := by cases field <;> decide

theorem mem_domain {field : FieldName} {v : Nat} :
    v ∈ field.domain ↔ field.low ≤ v ∧ v ≤ field.high := by
  rw [domain, List.mem_range'_1]
  cases field <;> simp only [low, high] <;> omega

/-- A number within the input bounds stands for a value of the field. -/
theorem fold_mem_domain {field : FieldName} {n : Nat} (hl : field.low ≤ n)
    (hh : n ≤ field.inputHigh) : field.fold n ∈ field.domain := by
  rw [mem_domain, fold]
  cases field <;> simp only [low, high, inputHigh, reduceCtorEq, false_and, ↓reduceIte,
    true_and] at * <;> first | omega | (split <;> omega)

end FieldName

end Cron
