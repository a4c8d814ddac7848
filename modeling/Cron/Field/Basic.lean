import Cron.Field.Term
import Cron.Text.Blank

/-!
Fields of a schedule: the values they admit, and their reading from a comma list of terms.
-/
namespace Cron

/-- A field: its bounds, the values it admits, ascending, and whether it was left open with a bare
star. -/
structure Field where
  name : FieldName
  low : Nat
  high : Nat
  values : List Nat
  isWildcard : Bool
deriving Repr, DecidableEq

namespace Field

/-- The field with some values, within the bounds of its name. -/
def ofValues (name : FieldName) (values : List Nat) (isWildcard : Bool) : Field :=
  ⟨name, name.low, name.high, values, isWildcard⟩

section OfValues

variable (name : FieldName) (values : List Nat) (isWildcard : Bool)

@[simp]
theorem name_ofValues : (ofValues name values isWildcard).name = name := rfl

@[simp]
theorem values_ofValues : (ofValues name values isWildcard).values = values := rfl

@[simp]
theorem isWildcard_ofValues : (ofValues name values isWildcard).isWildcard = isWildcard := rfl

end OfValues

def wildcard (name : FieldName) : Field := ofValues name name.domain true

/-- Whether the field restricts the schedule. A star among other terms does. -/
def isRestricted (field : Field) : Bool := !field.isWildcard

def admits (field : Field) (v : Nat) : Bool := field.values.contains v

/-- The values that the field admits as a set, one bit for each. -/
def bits (field : Field) : Nat := field.values.foldl (fun bits v => bits ||| 1 <<< v) 0

def valuesOf (name : FieldName) (terms : List Term) : List Nat :=
  name.domain.filter fun v => terms.any fun term => term.holds name v

def ofTerms (name : FieldName) (cs : List Char) : Except Fault Field := do
  let terms ← (Text.pieces ',' cs).mapM (Term.read name)
  let values := valuesOf name terms
  if values.isEmpty then .error (.expression (.noValues name (String.ofList cs)))
  else .ok (ofValues name values false)

/-- The field that a text gives, with blanks around it or not. -/
def parse (name : FieldName) (raw : String) : Except Fault Field :=
  let cs := Text.trim raw.toList
  if cs = ['*'] then .ok (wildcard name) else ofTerms name cs

def parseNamed (name raw : String) : Except Fault Field :=
  match FieldName.ofText? name with
  | some name => parse name raw
  | none => .error (.unknownName ("Unknown cron field: " ++ Text.quoted name))

/-- A field with the bounds of its name is told by its values. -/
theorem eq_ofValues {field : Field} (hlow : field.low = field.name.low)
    (hhigh : field.high = field.name.high) :
    field = ofValues field.name field.values field.isWildcard := by
  rw [ofValues, ← hlow, ← hhigh]

theorem testBit_foldl_bits (values : List Nat) (bits v : Nat) :
    (values.foldl (fun bits v => bits ||| 1 <<< v) bits).testBit v =
      (bits.testBit v || values.contains v) := by
  induction values generalizing bits with
  | nil => simp
  | cons w rest ih =>
    have hw : decide (w = v) = (v == w) := by
      by_cases hv : w = v
      · simp [hv]
      · simp [hv, Ne.symm hv]
    rw [List.foldl_cons, ih, Nat.testBit_or, Nat.one_shiftLeft, Nat.testBit_two_pow,
      List.contains_cons, Bool.or_assoc, hw]

/-- The set has the bits of the values and no others. -/
@[simp]
theorem testBit_bits (field : Field) (v : Nat) : field.bits.testBit v = field.admits v := by
  rw [bits, testBit_foldl_bits, Nat.zero_testBit, Bool.false_or, admits]

theorem mem_valuesOf {name : FieldName} {terms : List Term} {v : Nat} :
    v ∈ valuesOf name terms ↔ v ∈ name.domain ∧ ∃ term ∈ terms, term.holds name v = true := by
  simp [valuesOf]

theorem pairwise_valuesOf (name : FieldName) (terms : List Term) :
    (valuesOf name terms).Pairwise (· < ·) :=
  List.Pairwise.filter _ List.pairwise_lt_range'

end Field

end Cron
