import Cron.Field.Basic
import Cron.Proofs.Text.Numeral
import Cron.Proofs.Text.Pieces
import Mathlib.Data.Nat.ModEq
import Mathlib.Data.Set.Insert

/-!
The grammar of fields. A token of a field is a comma list of terms, each of which stands for some
values of the field, and the token stands for all of them together. A text that is no such list is
at fault for the first of its terms that is none, and a list that stands for nothing as a whole.
-/
namespace Cron.FieldName

open Text

/-- A range, two numerals with a dash between them. -/
def IsRange (cs : List Char) (a b : Nat) : Prop :=
  ∃ first last, cs = first ++ '-' :: last ∧ IsNumeral first a ∧ IsNumeral last b

/-- The values that the numbers from `a` to `b` in steps of `s` stand for, as far as the field
takes them. -/
def steps (field : FieldName) (a b s : Nat) : Set Nat :=
  {v | ∃ n, a ≤ n ∧ n ≤ b ∧ n % s = a % s ∧ field.low ≤ n ∧ n ≤ field.inputHigh ∧
    field.fold n = v}

/-- The terms of a field, and the values that each stands for. -/
inductive IsTerm (field : FieldName) : List Char → Set Nat → Prop
  | every : IsTerm field ['*'] {v | field.low ≤ v ∧ v ≤ field.high}
  | value {cs : List Char} {n : Nat} (h : IsNumeral cs n) (hlo : field.low ≤ field.fold n)
      (hhi : field.fold n ≤ field.high) : IsTerm field cs {field.fold n}
  | range {cs : List Char} {a b : Nat} (h : IsRange cs a b) : IsTerm field cs (field.steps a b 1)
  | everyStep {step : List Char} {s : Nat} (hs : IsNumeral step s) (hpos : 1 ≤ s) :
      IsTerm field ('*' :: '/' :: step) (field.steps field.low field.inputHigh s)
  | fromStep {base step : List Char} {a s : Nat} (h : IsNumeral base a) (hs : IsNumeral step s)
      (hpos : 1 ≤ s) : IsTerm field (base ++ '/' :: step) (field.steps a field.inputHigh s)
  | rangeStep {base step : List Char} {a b s : Nat} (h : IsRange base a b)
      (hs : IsNumeral step s) (hpos : 1 ≤ s) :
      IsTerm field (base ++ '/' :: step) (field.steps a b s)

/-- The comma lists of terms, and the values that each stands for. -/
inductive IsTerms (field : FieldName) : List Char → Set Nat → Prop
  | one {cs : List Char} {values : Set Nat} (h : field.IsTerm cs values) : IsTerms field cs values
  | more {cs rest : List Char} {values others : Set Nat} (h : field.IsTerm cs values)
      (hrest : IsTerms field rest others) : IsTerms field (cs ++ ',' :: rest) (values ∪ others)

/-- The texts that are no terms, and what is wrong with each. A step counts before the numbers that
it goes through, and slashes count before dashes. -/
inductive IsBadTerm (field : FieldName) : List Char → ExpressionError → Prop
  | empty : IsBadTerm field [] (.emptyTerm field)
  | doubleStep {base step : List Char} (hbase : '/' ∉ base) (hstep : '/' ∈ step) :
      IsBadTerm field (base ++ '/' :: step)
        (.doubleStep field (String.ofList (base ++ '/' :: step)))
  | badStep {base step : List Char} (hbase : '/' ∉ base) (hstep : '/' ∉ step)
      (hs : ¬ ∃ s, 1 ≤ s ∧ IsNumeral step s) :
      IsBadTerm field (base ++ '/' :: step) (.badNumber field .step (String.ofList step))
  | badStepRange {base step : List Char} {s : Nat} (hbase : '/' ∉ base) (hs : IsNumeral step s)
      (hpos : 1 ≤ s) (hdash : '-' ∈ base) (h : ¬ ∃ a b, IsRange base a b) :
      IsBadTerm field (base ++ '/' :: step) (.badRange field (String.ofList base))
  | badStepValue {base step : List Char} {s : Nat} (hbase : '/' ∉ base) (hs : IsNumeral step s)
      (hpos : 1 ≤ s) (hdash : '-' ∉ base) (hstar : base ≠ ['*']) (h : ¬ ∃ a, IsNumeral base a) :
      IsBadTerm field (base ++ '/' :: step) (.badNumber field .value (String.ofList base))
  | badRange {cs : List Char} (hslash : '/' ∉ cs) (hdash : '-' ∈ cs)
      (h : ¬ ∃ a b, IsRange cs a b) : IsBadTerm field cs (.badRange field (String.ofList cs))
  | badValue {cs : List Char} (hne : cs ≠ []) (hslash : '/' ∉ cs) (hdash : '-' ∉ cs)
      (hstar : cs ≠ ['*']) (h : ¬ ∃ n, IsNumeral cs n) :
      IsBadTerm field cs (.badNumber field .value (String.ofList cs))
  | outOfRange {cs : List Char} {n : Nat} (h : IsNumeral cs n)
      (hout : ¬ (field.low ≤ field.fold n ∧ field.fold n ≤ field.high)) :
      IsBadTerm field cs (.outOfRange field (field.fold n))

/-- The texts that are no comma lists of terms, with what is wrong with the first bad term. -/
inductive IsBadTerms (field : FieldName) : List Char → ExpressionError → Prop
  | last {cs : List Char} {error : ExpressionError} (hcomma : ',' ∉ cs)
      (h : field.IsBadTerm cs error) : IsBadTerms field cs error
  | head {cs rest : List Char} {error : ExpressionError} (hcomma : ',' ∉ cs)
      (h : field.IsBadTerm cs error) : IsBadTerms field (cs ++ ',' :: rest) error
  | tail {cs rest : List Char} {values : Set Nat} {error : ExpressionError}
      (h : field.IsTerm cs values) (hrest : IsBadTerms field rest error) :
      IsBadTerms field (cs ++ ',' :: rest) error

/-- The tokens of a field: lists that stand for one value at least. -/
def IsToken (name : FieldName) (token : List Char) : Prop :=
  ∃ values, name.IsTerms token values ∧ values.Nonempty

/-- The field that a token gives, with the bounds of its name: its values ascend, and are those of a
comma list together, of which there is one at least. It is open if the token is a star and nothing
else. -/
structure Means (name : FieldName) (token : List Char) (field : Field) : Prop where
  name_eq : field.name = name
  low_eq : field.low = name.low
  high_eq : field.high = name.high
  ascending : field.values.Pairwise (· < ·)
  terms : name.IsTerms token {v | v ∈ field.values}
  nonempty : field.values ≠ []
  isWildcard_iff : field.isWildcard = true ↔ token = ['*']

/-- The tokens that give no field, and what is wrong with each. -/
inductive IsBadToken (name : FieldName) (token : List Char) : ExpressionError → Prop
  | terms {error : ExpressionError} (h : name.IsBadTerms token error) : IsBadToken name token error
  | noValues (h : name.IsTerms token ∅) :
      IsBadToken name token (.noValues name (String.ofList token))

end Cron.FieldName
