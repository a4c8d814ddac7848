import Cron.Proofs.Field.Token
import Cron.Schedule.Normal
import Mathlib.Data.List.Forall2

/-!
The grammar of expressions: five words, which are tokens of the five fields in order. Expressions
are read by it, with the error of the first bad word for a text that is none.
-/
namespace Cron

open Text

namespace Schedule

/-- The texts of the grammar. -/
def IsExpression (expression : String) : Prop :=
  List.Forall₂ FieldName.IsToken FieldName.all (words expression.toList)

/-- The schedule that a text of the grammar gives. It keeps the words, with single blanks. -/
structure IsGiven (expression : String) (s : Schedule) : Prop where
  fields : List.Forall₂ (fun name token => name.Means token (s.field name)) FieldName.all
    (words expression.toList)
  expression_eq : s.expression = spaced (words expression.toList)

/-- The words that are no tokens of some fields one by one, with what is wrong with the first bad
one. -/
inductive IsBadWords : List FieldName → List (List Char) → ExpressionError → Prop
  | head {name : FieldName} {token : List Char} {names : List FieldName}
      {tokens : List (List Char)} {error : ExpressionError} (h : name.IsBadToken token error) :
      IsBadWords (name :: names) (token :: tokens) error
  | tail {name : FieldName} {token : List Char} {names : List FieldName}
      {tokens : List (List Char)} {error : ExpressionError} (h : name.IsToken token)
      (hrest : IsBadWords names tokens error) :
      IsBadWords (name :: names) (token :: tokens) error

/-- The texts outside the grammar, and what is wrong with each. Any other number of words than five
is no field's fault. -/
inductive IsBadExpression (expression : String) : ExpressionError → Prop
  | fieldCount (h : (words expression.toList).length ≠ 5) :
      IsBadExpression expression (.fieldCount (words expression.toList).length)
  | badWord {error : ExpressionError} (hcount : (words expression.toList).length = 5)
      (h : IsBadWords FieldName.all (words expression.toList) error) :
      IsBadExpression expression error

variable {expression : String}

theorem IsBadWords.exists_field?_eq {names : List FieldName} {tokens : List (List Char)}
    {error : ExpressionError} (h : IsBadWords names tokens error) :
    ∃ name, error.field? = some name := by
  induction h with
  | head h => exact ⟨_, h.field?_eq⟩
  | tail _ _ ih => exact ih

theorem isTokens_or_isBadWords {names : List FieldName} {tokens : List (List Char)}
    (h : names.length = tokens.length) :
    List.Forall₂ FieldName.IsToken names tokens ∨ ∃ error, IsBadWords names tokens error := by
  induction names generalizing tokens with
  | nil =>
    cases tokens with
    | nil => exact Or.inl .nil
    | cons token rest => cases h
  | cons name names ih =>
    cases tokens with
    | nil => cases h
    | cons token rest =>
      rcases name.isToken_or_isBadToken token with htoken | ⟨error, hbad⟩
      · rcases ih (Nat.succ.inj h) with htokens | ⟨error, hbad⟩
        · exact Or.inl (.cons htoken htokens)
        · exact Or.inr ⟨error, .tail htoken hbad⟩
      · exact Or.inr ⟨error, .head hbad⟩

theorem isExpression_or_isBadExpression (expression : String) :
    IsExpression expression ∨ ∃ error, IsBadExpression expression error := by
  by_cases hcount : (words expression.toList).length = 5
  · have hlength : FieldName.all.length = (words expression.toList).length := hcount.symm
    rcases isTokens_or_isBadWords hlength with h | ⟨error, h⟩
    · exact Or.inl h
    · exact Or.inr ⟨error, .badWord hcount h⟩
  · exact Or.inr ⟨_, .fieldCount hcount⟩

theorem IsGiven.isExpression {s : Schedule} (h : IsGiven expression s) : IsExpression expression :=
  h.fields.imp fun _ _ hmeans => hmeans.isToken

theorem IsExpression.exists_isGiven (h : IsExpression expression) :
    ∃ s, IsGiven expression s := by
  unfold IsExpression FieldName.all at h
  generalize hwords : words expression.toList = tokens at h
  rcases h with _ | ⟨h₁, _ | ⟨h₂, _ | ⟨h₃, _ | ⟨h₄, _ | ⟨h₅, _ | _⟩⟩⟩⟩⟩
  rcases h₁.exists_means with ⟨minute, hminute⟩
  rcases h₂.exists_means with ⟨hour, hhour⟩
  rcases h₃.exists_means with ⟨dayOfMonth, hdayOfMonth⟩
  rcases h₄.exists_means with ⟨month, hmonth⟩
  rcases h₅.exists_means with ⟨dayOfWeek, hdayOfWeek⟩
  refine ⟨⟨spaced (words expression.toList), minute, hour, dayOfMonth, month, dayOfWeek⟩, ?_, rfl⟩
  rw [hwords]
  exact .cons hminute (.cons hhour (.cons hdayOfMonth (.cons hmonth (.cons hdayOfWeek .nil))))

theorem isPlain_of_mem_words
    (hdigits : ∀ run, run <:+: expression.toList → (∀ c ∈ run, isDigit c = true) →
      run.length ≤ 4300) {w : List Char} (h : w ∈ words expression.toList) : IsPlain w :=
  ⟨not_isBlank_of_mem_words h, fun run hrun => hdigits run (hrun.trans (infix_of_mem_words h))⟩

-- Five words are read one after the other.
theorem parse_of_words {a b c d e : List Char} (h : words expression.toList = [a, b, c, d, e]) :
    parse expression = (do
      let minute ← Field.parse .minute (String.ofList a)
      let hour ← Field.parse .hour (String.ofList b)
      let dayOfMonth ← Field.parse .dayOfMonth (String.ofList c)
      let month ← Field.parse .month (String.ofList d)
      let dayOfWeek ← Field.parse .dayOfWeek (String.ofList e)
      .ok ⟨spaced [a, b, c, d, e], minute, hour, dayOfMonth, month, dayOfWeek⟩) := by
  rw [parse, h]
  rfl

theorem parse_of_length_ne_five (h : (words expression.toList).length ≠ 5) :
    parse expression = .error (.expression (.fieldCount (words expression.toList).length)) := by
  unfold Schedule.parse
  split
  · next hwords =>
    have hlength := congrArg List.length hwords
    rw [List.length_map] at hlength
    exact absurd hlength h
  · rw [List.length_map]

theorem IsGiven.parse {s : Schedule} (h : IsGiven expression s)
    (hp : ∀ w ∈ words expression.toList, IsPlain w) : parse expression = .ok s := by
  have hfields := h.fields
  have hexpression := h.expression_eq
  unfold FieldName.all at hfields
  generalize hwords : words expression.toList = tokens at hfields hexpression hp
  rcases hfields with _ | ⟨h₁, _ | ⟨h₂, _ | ⟨h₃, _ | ⟨h₄, _ | ⟨h₅, _ | _⟩⟩⟩⟩⟩
  rw [parse_of_words hwords, h₁.parse (hp _ (by simp)), h₂.parse (hp _ (by simp)),
    h₃.parse (hp _ (by simp)), h₄.parse (hp _ (by simp)), h₅.parse (hp _ (by simp)),
    ← hexpression]
  rfl

theorem exists_eq_of_length_eq_five {α : Type} {l : List α} (h : l.length = 5) :
    ∃ a b c d e, l = [a, b, c, d, e] := by
  match l, h with
  | [a, b, c, d, e], _ => exact ⟨a, b, c, d, e, rfl⟩

-- The error of a bad expression names no field exactly if the words are not five.
theorem IsBadExpression.field?_eq_none_iff {error : ExpressionError}
    (h : IsBadExpression expression error) :
    error.field? = none ↔ (words expression.toList).length ≠ 5 := by
  cases h with
  | fieldCount hcount => exact iff_of_true rfl hcount
  | badWord hcount h =>
    rcases h.exists_field?_eq with ⟨name, hname⟩
    rw [hname]
    exact iff_of_false (by simp) (not_not.2 hcount)

-- Words are read as fields up to the first bad one.
theorem IsBadWords.mapM_parse {names : List FieldName} {tokens : List (List Char)}
    {error : ExpressionError} (h : IsBadWords names tokens error) (hp : ∀ w ∈ tokens, IsPlain w) :
    (names.zip tokens).mapM (fun entry => Field.parse entry.1 (String.ofList entry.2)) =
      .error (.expression error) := by
  induction h with
  | head h =>
    rw [List.zip_cons_cons, List.mapM_cons, h.parse (hp _ List.mem_cons_self)]
    rfl
  | tail h _ ih =>
    rcases h.exists_means with ⟨f, hf⟩
    rw [List.zip_cons_cons, List.mapM_cons, hf.parse (hp _ List.mem_cons_self),
      ih fun w hw => hp w (List.mem_cons_of_mem _ hw)]
    rfl

-- The first error of the five fields is that of the expression.
theorem parse_of_mapM_eq_error {a b c d e : List Char} {fault : Fault}
    (hwords : words expression.toList = [a, b, c, d, e])
    (h : (FieldName.all.zip [a, b, c, d, e]).mapM
      (fun entry => Field.parse entry.1 (String.ofList entry.2)) = .error fault) :
    parse expression = .error fault := by
  rw [parse_of_words hwords]
  simp only [FieldName.all, List.zip_cons_cons, List.zip_nil_left, List.mapM_cons,
    List.mapM_nil] at h
  -- each of the five is at fault, or the others decide
  revert h
  rcases Field.parse .minute (String.ofList a) with _ | minute
  · intro h
    cases h
    rfl
  rcases Field.parse .hour (String.ofList b) with _ | hour
  · intro h
    cases h
    rfl
  rcases Field.parse .dayOfMonth (String.ofList c) with _ | dayOfMonth
  · intro h
    cases h
    rfl
  rcases Field.parse .month (String.ofList d) with _ | month
  · intro h
    cases h
    rfl
  rcases Field.parse .dayOfWeek (String.ofList e) with _ | dayOfWeek
  · intro h
    cases h
    rfl
  · intro h
    cases h

theorem IsBadExpression.parse {error : ExpressionError} (h : IsBadExpression expression error)
    (hp : ∀ w ∈ words expression.toList, IsPlain w) :
    parse expression = .error (.expression error) := by
  cases h with
  | fieldCount hcount => exact parse_of_length_ne_five hcount
  | badWord hcount h =>
    rcases exists_eq_of_length_eq_five hcount with ⟨a, b, c, d, e, hwords⟩
    rw [hwords] at h hp
    exact parse_of_mapM_eq_error hwords (h.mapM_parse hp)

/-- Reading accepts exactly the grammar, with the right schedule and the right error, as long as no
run of digits is too long for a numeral. -/
theorem parse_iff
    (hdigits : ∀ run, run <:+: expression.toList → (∀ c ∈ run, isDigit c = true) →
      run.length ≤ 4300) :
    ((∃ s, parse expression = .ok s) ↔ IsExpression expression) ∧
      (∀ s, parse expression = .ok s ↔ IsGiven expression s) ∧
      (∀ fault, parse expression = .error fault ↔
        ∃ error, fault = .expression error ∧ IsBadExpression expression error) ∧
      ∀ error, IsBadExpression expression error →
        (error.field? = none ↔ (words expression.toList).length ≠ 5) := by
  have hp : ∀ w ∈ words expression.toList, IsPlain w := fun w hw =>
    isPlain_of_mem_words hdigits hw
  have hok : ∀ s, parse expression = .ok s ↔ IsGiven expression s := by
    intro s
    constructor
    · intro hparse
      rcases isExpression_or_isBadExpression expression with h | ⟨error, h⟩
      · rcases h.exists_isGiven with ⟨s', hs'⟩
        rw [hs'.parse hp] at hparse
        cases hparse
        exact hs'
      · rw [h.parse hp] at hparse
        cases hparse
    · intro h
      exact h.parse hp
  refine ⟨?_, hok, ?_, fun error h => h.field?_eq_none_iff⟩
  · constructor
    · intro hex
      rcases hex with ⟨s, hs⟩
      exact ((hok s).1 hs).isExpression
    · intro h
      rcases h.exists_isGiven with ⟨s, hs⟩
      exact ⟨s, hs.parse hp⟩
  · intro fault
    constructor
    · intro hparse
      rcases isExpression_or_isBadExpression expression with h | ⟨error, h⟩
      · rcases h.exists_isGiven with ⟨s, hs⟩
        rw [hs.parse hp] at hparse
        cases hparse
      · rw [h.parse hp] at hparse
        cases hparse
        exact ⟨error, rfl, h⟩
    · intro hex
      rcases hex with ⟨error, rfl, h⟩
      exact h.parse hp

/-- Every quarter of an hour from nine to five, on the first, the fifteenth and every Sunday. -/
theorem parse_iff_quarters :
    let expression := "*/15 9-17 1,15 * 7"
    (∀ run, run <:+: expression.toList → (∀ c ∈ run, isDigit c = true) → run.length ≤ 4300) ∧
      ((∃ s, parse expression = .ok s) ↔ IsExpression expression) ∧
      (∀ s, parse expression = .ok s ↔ IsGiven expression s) ∧
      (∀ fault, parse expression = .error fault ↔
        ∃ error, fault = .expression error ∧ IsBadExpression expression error) ∧
      ∀ error, IsBadExpression expression error →
        (error.field? = none ↔ (words expression.toList).length ≠ 5) := by
  intro expression
  have hdigits : ∀ run, run <:+: expression.toList → (∀ c ∈ run, isDigit c = true) →
      run.length ≤ 4300 := fun run hrun _ =>
    hrun.length_le.trans (show expression.toList.length ≤ 4300 by decide)
  exact ⟨hdigits, parse_iff hdigits⟩

end Schedule

end Cron
