import Cron.Proofs.Field.Grammar

/-!
Terms are read by their grammar: every term is read as what it stands for, and every other text is
refused with the error that is its fault.
-/
namespace Cron

open Text

namespace FieldName

variable {field : FieldName} {cs : List Char} {values : Set Nat}

theorem IsRange.mem_dash {a b : Nat} (h : IsRange cs a b) : '-' ∈ cs := by
  rcases h with ⟨first, last, rfl, -, -⟩
  exact List.mem_append_right _ List.mem_cons_self

-- No character but digits and the dash occurs in a range.
theorem IsRange.not_mem {a b : Nat} (h : IsRange cs a b) {c : Char} (hc : isDigit c = false)
    (hdash : c ≠ '-') : c ∉ cs := by
  rcases h with ⟨first, last, rfl, ha, hb⟩
  rw [List.mem_append, List.mem_cons, not_or, not_or]
  exact ⟨ha.not_mem hc, hdash, hb.not_mem hc⟩

theorem IsTerm.not_mem_comma (h : field.IsTerm cs values) : ',' ∉ cs := by
  have hcomma : isDigit ',' = false := by decide
  cases h with
  | every => decide
  | value h => exact h.not_mem hcomma
  | range h => exact h.not_mem hcomma (by decide)
  | everyStep hs =>
    rw [List.mem_cons, List.mem_cons, not_or, not_or]
    exact ⟨by decide, by decide, hs.not_mem hcomma⟩
  | fromStep h hs =>
    rw [List.mem_append, List.mem_cons, not_or, not_or]
    exact ⟨h.not_mem hcomma, by decide, hs.not_mem hcomma⟩
  | rangeStep h hs =>
    rw [List.mem_append, List.mem_cons, not_or, not_or]
    exact ⟨h.not_mem hcomma (by decide), by decide, hs.not_mem hcomma⟩

theorem IsTerm.subset_domain (h : field.IsTerm cs values) {v : Nat} (hv : v ∈ values) :
    v ∈ field.domain := by
  have hsteps : ∀ {a b s : Nat}, v ∈ field.steps a b s → v ∈ field.domain := by
    intro a b s hex
    rcases hex with ⟨n, -, -, -, hlo, hhi, rfl⟩
    exact fold_mem_domain hlo hhi
  cases h with
  | every => exact mem_domain.2 hv
  | value h hlo hhi =>
    rw [Set.mem_singleton_iff.1 hv]
    exact mem_domain.2 ⟨hlo, hhi⟩
  | range h => exact hsteps hv
  | everyStep hs => exact hsteps hv
  | fromStep h hs => exact hsteps hv
  | rangeStep h hs => exact hsteps hv

theorem isTerm_or_isBadTerm (field : FieldName) (cs : List Char) :
    (∃ values, field.IsTerm cs values) ∨ ∃ error, field.IsBadTerm cs error := by
  by_cases hslash : '/' ∈ cs
  · rcases List.eq_append_cons_of_mem hslash with ⟨base, step, rfl, hbase⟩
    by_cases hstep : '/' ∈ step
    · exact Or.inr ⟨_, .doubleStep hbase hstep⟩
    · by_cases hs : ∃ s, 1 ≤ s ∧ IsNumeral step s
      · rcases hs with ⟨s, hpos, hs⟩
        by_cases hstar : base = ['*']
        · subst hstar
          exact Or.inl ⟨_, .everyStep hs hpos⟩
        · by_cases hdash : '-' ∈ base
          · by_cases hrange : ∃ a b, IsRange base a b
            · rcases hrange with ⟨a, b, hrange⟩
              exact Or.inl ⟨_, .rangeStep hrange hs hpos⟩
            · exact Or.inr ⟨_, .badStepRange hbase hs hpos hdash hrange⟩
          · by_cases hvalue : ∃ a, IsNumeral base a
            · rcases hvalue with ⟨a, hvalue⟩
              exact Or.inl ⟨_, .fromStep hvalue hs hpos⟩
            · exact Or.inr ⟨_, .badStepValue hbase hs hpos hdash hstar hvalue⟩
      · exact Or.inr ⟨_, .badStep hbase hstep hs⟩
  · by_cases hdash : '-' ∈ cs
    · by_cases hrange : ∃ a b, IsRange cs a b
      · rcases hrange with ⟨a, b, hrange⟩
        exact Or.inl ⟨_, .range hrange⟩
      · exact Or.inr ⟨_, .badRange hslash hdash hrange⟩
    · by_cases hstar : cs = ['*']
      · subst hstar
        exact Or.inl ⟨_, .every⟩
      · by_cases hvalue : ∃ n, IsNumeral cs n
        · rcases hvalue with ⟨n, hvalue⟩
          by_cases hin : field.low ≤ field.fold n ∧ field.fold n ≤ field.high
          · exact Or.inl ⟨_, .value hvalue hin.1 hin.2⟩
          · exact Or.inr ⟨_, .outOfRange hvalue hin⟩
        · by_cases hempty : cs = []
          · subst hempty
            exact Or.inr ⟨_, .empty⟩
          · exact Or.inr ⟨_, .badValue hempty hslash hdash hstar hvalue⟩

end FieldName

namespace Term

variable {field : FieldName} {role : NumberRole} {cs base step : List Char} {n : Nat}

theorem readNumber_of_isNumeral (hp : IsPlain cs) (h : IsNumeral cs n) :
    readNumber field role cs = .ok n := by
  rcases hp.readNumeral_cases with ⟨m, hm, hread⟩ | ⟨hnone, -⟩
  · rw [readNumber, hread, h.unique hm]
  · exact absurd ⟨n, h⟩ hnone

theorem readNumber_of_not (hp : IsPlain cs) (h : ¬ ∃ n, IsNumeral cs n) :
    readNumber field role cs =
      .error (.expression (.badNumber field role (String.ofList cs))) := by
  rcases hp.readNumeral_cases with ⟨m, hm, -⟩ | ⟨-, hread⟩
  · exact absurd ⟨m, hm⟩ h
  · rw [readNumber, hread]

theorem readBounds_of_isRange {a b : Nat} (hp : IsPlain cs) (h : FieldName.IsRange cs a b) :
    readBounds field cs = .ok (a, b) := by
  rcases h with ⟨first, last, rfl, ha, hb⟩
  rcases ha.exists_digits hp.before.not_blank with ⟨_, hda⟩
  rcases hb.exists_digits hp.after.not_blank with ⟨_, hdb⟩
  rw [readBounds, pieces_append (ha.not_mem (by decide)),
    pieces_of_not_mem (hb.not_mem (by decide))]
  simp only [hda, hdb, readNumber_of_isNumeral hp.before ha, readNumber_of_isNumeral hp.after hb]
  rfl

theorem readBounds_of_not (hb : ∀ c ∈ cs, isBlank c = false) (hdash : '-' ∈ cs)
    (h : ¬ ∃ a b, FieldName.IsRange cs a b) :
    readBounds field cs = .error (.expression (.badRange field (String.ofList cs))) := by
  rcases List.eq_append_cons_of_mem hdash with ⟨first, rest, rfl, hfirst⟩
  rw [readBounds, pieces_append hfirst]
  by_cases hmore : '-' ∈ rest
  · rcases List.eq_append_cons_of_mem hmore with ⟨second, others, rfl, hsecond⟩
    rw [pieces_append hsecond]
    -- three pieces or more are no range
    cases hothers : pieces '-' others with
    | nil => exact absurd hothers (pieces_ne_nil others)
    | cons third more => rfl
  · rw [pieces_of_not_mem hmore]
    dsimp only
    split
    · next da db hda hdb =>
      simp only [List.forall_mem_append, List.forall_mem_cons] at hb
      have ha := (numeralDigits?_eq_some hb.1).1 hda
      have hb := (numeralDigits?_eq_some hb.2.2).1 hdb
      exact absurd ⟨_, _, first, rest, rfl, ⟨da, ha.1, ha.2, rfl⟩, ⟨db, hb.1, hb.2, rfl⟩⟩ h
    · rfl

theorem readStep_of_isNumeral {s : Nat} (hp : IsPlain cs) (h : IsNumeral cs s) (hpos : 1 ≤ s) :
    readStep field cs = .ok s := by
  rw [readStep, readNumber_of_isNumeral hp h]
  show (if s = 0 then _ else _) = _
  rw [if_neg (by omega)]

theorem readStep_of_not (hp : IsPlain cs) (h : ¬ ∃ s, 1 ≤ s ∧ IsNumeral cs s) :
    readStep field cs = .error (.expression (.badNumber field .step (String.ofList cs))) := by
  by_cases hs : ∃ s, IsNumeral cs s
  · rcases hs with ⟨s, hs⟩
    have hzero : s = 0 := by
      by_contra hne
      exact h ⟨s, by omega, hs⟩
    rw [readStep, readNumber_of_isNumeral hp hs]
    show (if s = 0 then _ else _) = _
    rw [if_pos hzero]
  · rw [readStep, readNumber_of_not hp hs]
    rfl

theorem readBase_of_mem (hdash : '-' ∈ cs) : readBase field cs = readBounds field cs := by
  have hstar : cs ≠ ['*'] := by
    intro heq
    rw [heq] at hdash
    revert hdash
    decide
  rw [readBase, if_neg hstar, if_pos (List.contains_iff_mem.2 hdash)]

theorem readBase_of_not_mem (hstar : cs ≠ ['*']) (hdash : '-' ∉ cs) :
    readBase field cs = (do
      let first ← readNumber field .value cs
      .ok (first, field.inputHigh)) := by
  rw [readBase, if_neg hstar, if_neg (mt List.contains_iff_mem.1 hdash)]

theorem readValue_of_isNumeral (hp : IsPlain cs) (h : IsNumeral cs n) :
    readValue field cs =
      if field.low ≤ field.fold n && field.fold n ≤ field.high then .ok (.value n)
      else .error (.expression (.outOfRange field (field.fold n))) := by
  rw [readValue, readNumber_of_isNumeral hp h]
  rfl

-- What a term is read as depends on the marks in it: a slash, else a dash, else a star alone.
theorem read_append (hbase : '/' ∉ base) :
    read field (base ++ '/' :: step) =
      (if step.contains '/' then
        .error (.expression (.doubleStep field (String.ofList (base ++ '/' :: step))))
      else do
        let step ← readStep field step
        let (first, last) ← readBase field base
        .ok (.range first last step)) := by
  have hne : ¬ (base ++ '/' :: step).isEmpty = true := by simp
  rw [read, if_neg hne, cut?_append hbase]

theorem read_of_isNumeral_step {s : Nat} (hbase : '/' ∉ base) (hp : IsPlain step)
    (hs : IsNumeral step s) (hpos : 1 ≤ s) :
    read field (base ++ '/' :: step) = (do
      let (first, last) ← readBase field base
      .ok (.range first last s)) := by
  rw [read_append hbase, if_neg (mt List.contains_iff_mem.1 (hs.not_mem (by decide))),
    readStep_of_isNumeral hp hs hpos]
  rfl

theorem read_of_dash (hslash : '/' ∉ cs) (hdash : '-' ∈ cs) :
    read field cs = (do
      let (first, last) ← readBounds field cs
      .ok (.range first last 1)) := by
  have hne : ¬ cs.isEmpty = true := by simpa using List.ne_nil_of_mem hdash
  rw [read, if_neg hne, cut?_of_not_mem hslash]
  exact if_pos (List.contains_iff_mem.2 hdash)

theorem read_of_unmarked (hne : cs ≠ []) (hslash : '/' ∉ cs) (hdash : '-' ∉ cs)
    (hstar : cs ≠ ['*']) : read field cs = readValue field cs := by
  have hne' : ¬ cs.isEmpty = true := by simpa using hne
  rw [read, if_neg hne', cut?_of_not_mem hslash]
  dsimp only
  rw [if_neg (mt List.contains_iff_mem.1 hdash), if_neg hstar]

theorem read_of_isNumeral (hp : IsPlain cs) (h : IsNumeral cs n) :
    read field cs =
      if field.low ≤ field.fold n && field.fold n ≤ field.high then .ok (.value n)
      else .error (.expression (.outOfRange field (field.fold n))) := by
  rw [read_of_unmarked h.ne_nil (h.not_mem (by decide)) (h.not_mem (by decide)) h.ne_star,
    readValue_of_isNumeral hp h]

theorem holds_range_iff {a b s v : Nat} (hv : v ∈ field.domain) :
    (range a b s).holds field v = true ↔ v ∈ field.steps a b s := by
  have hmod : ∀ {n}, a ≤ n → ((n - a) % s = 0 ↔ n % s = a % s) := by
    intro n hn
    rw [← Nat.dvd_iff_mod_eq_zero, ← Nat.modEq_iff_dvd' hn]
    exact eq_comm
  rw [holds_iff hv]
  simp only [covers, Bool.and_eq_true, decide_eq_true_eq, beq_iff_eq]
  constructor
  · intro hex
    rcases hex with ⟨n, hlo, hhi, hfold, ⟨ha, hb⟩, hs⟩
    exact ⟨n, ha, hb, (hmod ha).1 hs, hlo, hhi, hfold⟩
  · intro hex
    rcases hex with ⟨n, ha, hb, hs, hlo, hhi, hfold⟩
    exact ⟨n, hlo, hhi, hfold, ⟨ha, hb⟩, (hmod ha).2 hs⟩

theorem holds_value_iff {v : Nat} (hlo : field.low ≤ field.fold n)
    (hhi : field.fold n ≤ field.high) (hv : v ∈ field.domain) :
    (value n).holds field v = true ↔ v = field.fold n := by
  have hinput : field.low ≤ n ∧ n ≤ field.inputHigh := by
    unfold FieldName.fold at hlo hhi
    cases field <;> simp only [FieldName.low, FieldName.high, FieldName.inputHigh, reduceCtorEq,
      false_and, ↓reduceIte, true_and] at * <;> first | omega | (split at hhi <;> omega)
  rw [holds_iff hv]
  constructor
  · intro hex
    rcases hex with ⟨m, -, -, rfl, hcovers⟩
    rw [covers, beq_iff_eq] at hcovers
    rw [hcovers]
  · intro heq
    subst heq
    exact ⟨n, hinput.1, hinput.2, rfl, beq_self_eq_true n⟩

theorem holds_every {v : Nat} (hv : v ∈ field.domain) : every.holds field v = true := by
  rw [FieldName.mem_domain] at hv
  rw [holds, covers, decide_eq_true hv.1, decide_eq_true hv.2]
  rfl

end Term

namespace FieldName

variable {field : FieldName} {cs : List Char} {values : Set Nat}

theorem IsTerm.read (h : field.IsTerm cs values) (hp : IsPlain cs) :
    ∃ term, Term.read field cs = .ok term ∧
      ∀ v ∈ field.domain, term.holds field v = true ↔ v ∈ values := by
  cases h with
  | every => exact ⟨.every, rfl, fun v hv => iff_of_true (Term.holds_every hv) (mem_domain.1 hv)⟩
  | @value _ n h hlo hhi =>
    refine ⟨.value n, ?_, fun v hv => Term.holds_value_iff hlo hhi hv⟩
    rw [Term.read_of_isNumeral hp h, if_pos (by simp [hlo, hhi])]
  | @range _ a b h =>
    refine ⟨.range a b 1, ?_, fun v hv => Term.holds_range_iff hv⟩
    rw [Term.read_of_dash (h.not_mem (by decide) (by decide)) h.mem_dash,
      Term.readBounds_of_isRange hp h]
    rfl
  | @everyStep step s hs hpos =>
    have hpStep : IsPlain step := hp.of_infix ⟨['*', '/'], [], List.append_nil _⟩
    refine ⟨.range field.low field.inputHigh s, ?_, fun v hv => Term.holds_range_iff hv⟩
    change Term.read field (['*'] ++ '/' :: step) = _
    rw [Term.read_of_isNumeral_step (by decide) hpStep hs hpos]
    rfl
  | @fromStep base step a s h hs hpos =>
    refine ⟨.range a field.inputHigh s, ?_, fun v hv => Term.holds_range_iff hv⟩
    rw [Term.read_of_isNumeral_step (h.not_mem (by decide)) hp.after hs hpos,
      Term.readBase_of_not_mem h.ne_star (h.not_mem (by decide)),
      Term.readNumber_of_isNumeral hp.before h]
    rfl
  | @rangeStep base step a b s h hs hpos =>
    refine ⟨.range a b s, ?_, fun v hv => Term.holds_range_iff hv⟩
    rw [Term.read_of_isNumeral_step (h.not_mem (by decide) (by decide)) hp.after hs hpos,
      Term.readBase_of_mem h.mem_dash, Term.readBounds_of_isRange hp.before h]
    rfl

theorem IsBadTerm.read {error : ExpressionError} (h : field.IsBadTerm cs error)
    (hp : IsPlain cs) : Term.read field cs = .error (.expression error) := by
  cases h with
  | empty => rfl
  | doubleStep hbase hstep =>
    rw [Term.read_append hbase, if_pos (List.contains_iff_mem.2 hstep)]
  | badStep hbase hstep hs =>
    rw [Term.read_append hbase, if_neg (mt List.contains_iff_mem.1 hstep),
      Term.readStep_of_not hp.after hs]
    rfl
  | badStepRange hbase hs hpos hdash h =>
    rw [Term.read_of_isNumeral_step hbase hp.after hs hpos, Term.readBase_of_mem hdash,
      Term.readBounds_of_not hp.before.not_blank hdash h]
    rfl
  | badStepValue hbase hs hpos hdash hstar h =>
    rw [Term.read_of_isNumeral_step hbase hp.after hs hpos,
      Term.readBase_of_not_mem hstar hdash, Term.readNumber_of_not hp.before h]
    rfl
  | badRange hslash hdash h =>
    rw [Term.read_of_dash hslash hdash, Term.readBounds_of_not hp.not_blank hdash h]
    rfl
  | badValue hne hslash hdash hstar h =>
    rw [Term.read_of_unmarked hne hslash hdash hstar, Term.readValue, Term.readNumber_of_not hp h]
    rfl
  | outOfRange h hout => rw [Term.read_of_isNumeral hp h, if_neg (by simpa using hout)]

end FieldName

end Cron
