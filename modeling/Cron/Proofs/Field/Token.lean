import Cron.Proofs.Field.Term
import Mathlib.Data.List.Sort

/-!
Fields are read by their grammar: the pieces between commas are the terms of a list, and what they
stand for together, in ascending order, are the values of the field.
-/
namespace Cron

open Text

namespace FieldName

variable {field name : FieldName} {cs token : List Char} {values : Set Nat}
  {error : ExpressionError}

theorem IsTerms.subset_domain (h : field.IsTerms cs values) {v : Nat} (hv : v ∈ values) :
    v ∈ field.domain := by
  induction h with
  | one h => exact h.subset_domain hv
  | more h _ ih =>
    rcases hv with hv | hv
    · exact h.subset_domain hv
    · exact ih hv

-- Every error names the field.
theorem IsBadTerm.field?_eq (h : field.IsBadTerm cs error) : error.field? = some field := by
  cases h <;> rfl

theorem IsBadTerms.field?_eq (h : field.IsBadTerms cs error) : error.field? = some field := by
  induction h with
  | last _ h => exact h.field?_eq
  | head _ h => exact h.field?_eq
  | tail _ _ ih => exact ih

theorem IsBadToken.field?_eq (h : name.IsBadToken token error) : error.field? = some name := by
  cases h with
  | terms h => exact h.field?_eq
  | noValues _ => rfl

theorem isTerms_or_isBadTerms (field : FieldName) (cs : List Char) :
    (∃ values, field.IsTerms cs values) ∨ ∃ error, field.IsBadTerms cs error := by
  induction hlength : cs.length using Nat.strong_induction_on generalizing cs with
  | h length ih =>
    by_cases hcomma : ',' ∈ cs
    · rcases List.eq_append_cons_of_mem hcomma with ⟨before, rest, rfl, hbefore⟩
      rcases field.isTerm_or_isBadTerm before with ⟨values, h⟩ | ⟨error, h⟩
      · have hshorter : rest.length < length := by
          rw [← hlength, List.length_append, List.length_cons]
          omega
        rcases ih _ hshorter rest rfl with ⟨others, hrest⟩ | ⟨error, hrest⟩
        · exact Or.inl ⟨_, .more h hrest⟩
        · exact Or.inr ⟨_, .tail h hrest⟩
      · exact Or.inr ⟨_, .head hbefore h⟩
    · rcases field.isTerm_or_isBadTerm cs with ⟨values, h⟩ | ⟨error, h⟩
      · exact Or.inl ⟨_, .one h⟩
      · exact Or.inr ⟨_, .last hcomma h⟩

theorem IsTerms.read (h : field.IsTerms cs values) (hp : IsPlain cs) :
    ∃ terms, (pieces ',' cs).mapM (Term.read field) = .ok terms ∧
      ∀ v ∈ field.domain, (∃ term ∈ terms, term.holds field v = true) ↔ v ∈ values := by
  induction h with
  | one h =>
    rcases h.read hp with ⟨term, hread, hholds⟩
    refine ⟨[term], ?_, fun v hv => ?_⟩
    · rw [pieces_of_not_mem h.not_mem_comma, List.mapM_cons, hread, List.mapM_nil]
      rfl
    · rw [← hholds v hv]
      simp
  | @more before rest _ _ h _ ih =>
    rcases h.read hp.before with ⟨term, hread, hholds⟩
    rcases ih hp.after with ⟨terms, hreads, hothers⟩
    refine ⟨term :: terms, ?_, fun v hv => ?_⟩
    · rw [pieces_append h.not_mem_comma, List.mapM_cons, hread, hreads]
      rfl
    · rw [Set.mem_union, ← hholds v hv, ← hothers v hv]
      simp

-- A bad list is refused for its first bad term.
theorem IsBadTerms.read (h : field.IsBadTerms cs error) (hp : IsPlain cs) :
    (pieces ',' cs).mapM (Term.read field) = .error (.expression error) := by
  induction h with
  | last hcomma h =>
    rw [pieces_of_not_mem hcomma, List.mapM_cons, h.read hp]
    rfl
  | head hcomma h =>
    rw [pieces_append hcomma, List.mapM_cons, h.read hp.before]
    rfl
  | @tail before rest _ _ h _ ih =>
    rcases h.read hp.before with ⟨term, hread, -⟩
    rw [pieces_append h.not_mem_comma, List.mapM_cons, hread, ih hp.after]
    rfl

-- Without blanks a token is read as it stands.
theorem parse_ofList (hb : ∀ c ∈ token, isBlank c = false) :
    Field.parse name (String.ofList token) =
      if token = ['*'] then .ok (.wildcard name) else Field.ofTerms name token := by
  rw [Field.parse, String.toList_ofList, trim_of_not_isBlank hb]

-- The values of the terms of a list are its values in order.
theorem IsTerms.valuesOf_eq {xs : List Nat} {terms : List Term}
    (h : name.IsTerms token {v | v ∈ xs}) (hxs : xs.Pairwise (· < ·))
    (hholds : ∀ v ∈ name.domain,
      (∃ term ∈ terms, term.holds name v = true) ↔ v ∈ {v | v ∈ xs}) :
    Field.valuesOf name terms = xs := by
  apply (Field.pairwise_valuesOf name terms).eq_of_mem_iff hxs
  intro v
  rw [Field.mem_valuesOf]
  constructor
  · intro hex
    rcases hex with ⟨hv, hterm⟩
    exact (hholds v hv).1 hterm
  · intro hv
    have hdomain : v ∈ name.domain := h.subset_domain hv
    exact ⟨hdomain, (hholds v hdomain).2 hv⟩

theorem mapM_read_star (name : FieldName) :
    (pieces ',' ['*']).mapM (Term.read name) = .ok [.every] := rfl

theorem Means.parse {f : Field} (h : name.Means token f) (hp : IsPlain token) :
    Field.parse name (String.ofList token) = .ok f := by
  rcases h.terms.read hp with ⟨terms, hread, hholds⟩
  have hvalues := h.terms.valuesOf_eq h.ascending hholds
  have hf : f = .ofValues name f.values f.isWildcard := by
    rw [← h.name_eq]
    exact Field.eq_ofValues (by rw [h.low_eq, h.name_eq]) (by rw [h.high_eq, h.name_eq])
  rw [hf, parse_ofList hp.not_blank]
  by_cases hstar : token = ['*']
  · subst hstar
    rw [mapM_read_star] at hread
    cases hread
    have hdomain : Field.valuesOf name [.every] = name.domain := by
      rw [Field.valuesOf, List.filter_eq_self]
      intro v hv
      rw [List.any_cons, Term.holds_every hv, Bool.true_or]
    rw [if_pos rfl, h.isWildcard_iff.2 rfl, ← hvalues, hdomain]
    rfl
  · have hrestricted : f.isWildcard = false := Bool.eq_false_iff.2 (mt h.isWildcard_iff.1 hstar)
    rw [if_neg hstar, Field.ofTerms, hread]
    show (if (Field.valuesOf name terms).isEmpty = true then _ else _) = _
    rw [hvalues, if_neg (by simpa using h.nonempty), hrestricted]

theorem IsBadToken.parse (h : name.IsBadToken token error) (hp : IsPlain token) :
    Field.parse name (String.ofList token) = .error (.expression error) := by
  rw [parse_ofList hp.not_blank]
  cases h with
  | terms h =>
    have hread := h.read hp
    have hstar : token ≠ ['*'] := by
      intro heq
      subst heq
      rw [mapM_read_star] at hread
      cases hread
    rw [if_neg hstar, Field.ofTerms, hread]
    rfl
  | noValues h =>
    have hnone : (∅ : Set Nat) = {v | v ∈ ([] : List Nat)} := by
      ext v
      simp
    rw [hnone] at h
    rcases h.read hp with ⟨terms, hread, hholds⟩
    have hvalues := h.valuesOf_eq List.Pairwise.nil hholds
    have hstar : token ≠ ['*'] := by
      intro heq
      subst heq
      rw [mapM_read_star] at hread
      cases hread
      have hlow : name.low ∈ name.domain := mem_domain.2 ⟨Nat.le_refl _, by cases name <;> decide⟩
      cases (hholds name.low hlow).1 ⟨.every, List.mem_cons_self, Term.holds_every hlow⟩
    rw [if_neg hstar, Field.ofTerms, hread]
    show (if (Field.valuesOf name terms).isEmpty = true then _ else _) = _
    rw [hvalues]
    rfl

theorem IsToken.exists_means (h : name.IsToken token) : ∃ f, name.Means token f := by
  classical
  rcases h with ⟨values, h, hsome⟩
  have hlist : ∃ xs : List Nat, xs.Pairwise (· < ·) ∧ {v | v ∈ xs} = values := by
    refine ⟨name.domain.filter (· ∈ values), List.Pairwise.filter _ List.pairwise_lt_range', ?_⟩
    ext v
    simp only [List.mem_filter, decide_eq_true_eq, Set.mem_ofPred_eq, and_iff_right_iff_imp]
    exact h.subset_domain
  rcases hlist with ⟨xs, hascending, rfl⟩
  rcases hsome with ⟨v, hv⟩
  exact ⟨.ofValues name xs (decide (token = ['*'])), rfl, rfl, rfl, hascending, h,
    List.ne_nil_of_mem hv, decide_eq_true_iff⟩

theorem Means.isToken {f : Field} (h : name.Means token f) : name.IsToken token := by
  rcases List.exists_mem_of_ne_nil f.values h.nonempty with ⟨v, hv⟩
  exact ⟨_, h.terms, v, hv⟩

theorem isToken_or_isBadToken (name : FieldName) (token : List Char) :
    name.IsToken token ∨ ∃ error, name.IsBadToken token error := by
  rcases name.isTerms_or_isBadTerms token with ⟨values, h⟩ | ⟨error, h⟩
  · rcases values.eq_empty_or_nonempty with rfl | hsome
    · exact Or.inr ⟨_, .noValues h⟩
    · exact Or.inl ⟨values, h, hsome⟩
  · exact Or.inr ⟨_, .terms h⟩

end FieldName

end Cron
