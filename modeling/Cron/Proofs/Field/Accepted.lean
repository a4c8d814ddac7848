import Cron.Proofs.Field.Term
import Cron.Proofs.Readings

/-!
What the readers of terms accept, over any text: the numerals and marks that a text is made of when
its parts are read, and what is read from them.
-/
namespace Cron.Term

open Text

variable {field : FieldName} {role : NumberRole} {cs : List Char} {bounds : Nat × Nat}
  {term : Term} {n : Nat}

theorem readNumber_eq_ok :
    readNumber field role cs = .ok n ↔ readNumeral cs = .ok n := by
  unfold readNumber
  split <;> simp [*]

theorem readBounds_eq_ok : readBounds field cs = .ok bounds ↔ ∃ first last,
    cs = first ++ '-' :: last ∧ readNumeral first = .ok bounds.1 ∧
      readNumeral last = .ok bounds.2 := by
  constructor
  · intro h
    by_cases hdash : '-' ∈ cs
    · obtain ⟨first, rest, rfl, hfirst⟩ := List.eq_append_cons_of_mem hdash
      rw [readBounds, pieces_append hfirst] at h
      by_cases hmore : '-' ∈ rest
      · obtain ⟨second, others, rfl, hsecond⟩ := List.eq_append_cons_of_mem hmore
        rw [pieces_append hsecond] at h
        cases hothers : pieces '-' others with
        | nil => exact absurd hothers (pieces_ne_nil others)
        | cons third more =>
          rw [hothers] at h
          cases h
      · rw [pieces_of_not_mem hmore] at h
        dsimp only at h
        split at h
        · obtain ⟨a, ha, h⟩ := bind_eq_ok_iff.1 h
          obtain ⟨b, hb, h⟩ := bind_eq_ok_iff.1 h
          cases h
          exact ⟨first, rest, rfl, readNumber_eq_ok.1 ha, readNumber_eq_ok.1 hb⟩
        · cases h
    · rw [readBounds, pieces_of_not_mem hdash] at h
      cases h
  · rintro ⟨first, last, rfl, ha, hb⟩
    obtain ⟨da, hda⟩ := exists_numeralDigits?_of_readNumeral ha
    obtain ⟨db, hdb⟩ := exists_numeralDigits?_of_readNumeral hb
    rw [readBounds, pieces_append (not_mem_of_readNumeral ha (by decide) (by decide)),
      pieces_of_not_mem (not_mem_of_readNumeral hb (by decide) (by decide))]
    simp only [hda, hdb, readNumber_eq_ok.2 ha, readNumber_eq_ok.2 hb]
    rfl

theorem mem_dash_of_readBounds (h : readBounds field cs = .ok bounds) : '-' ∈ cs := by
  obtain ⟨first, last, rfl, -⟩ := readBounds_eq_ok.1 h
  exact List.mem_append_right _ List.mem_cons_self

theorem not_mem_slash_of_readBounds (h : readBounds field cs = .ok bounds) : '/' ∉ cs := by
  obtain ⟨first, last, rfl, ha, hb⟩ := readBounds_eq_ok.1 h
  rw [List.mem_append, List.mem_cons, not_or, not_or]
  exact ⟨not_mem_of_readNumeral ha (by decide) (by decide), by decide,
    not_mem_of_readNumeral hb (by decide) (by decide)⟩

theorem ne_star_of_readNumeral (h : readNumeral cs = .ok n) : cs ≠ ['*'] := by
  rintro rfl
  exact not_mem_of_readNumeral (c := '*') h (by decide) (by decide) List.mem_cons_self

theorem readStep_eq_ok {s : Nat} :
    readStep field cs = .ok s ↔ readNumeral cs = .ok s ∧ s ≠ 0 := by
  rw [readStep, bind_eq_ok_iff]
  simp only [readNumber_eq_ok]
  constructor
  · rintro ⟨n, hn, hs⟩
    split at hs
    · cases hs
    · next hne =>
      cases hs
      exact ⟨hn, hne⟩
  · rintro ⟨hs, hne⟩
    exact ⟨s, hs, if_neg hne⟩

theorem readBase_eq_ok : readBase field cs = .ok bounds ↔
    cs = ['*'] ∧ bounds = (field.low, field.inputHigh) ∨ readBounds field cs = .ok bounds ∨
      readNumeral cs = .ok bounds.1 ∧ bounds.2 = field.inputHigh := by
  constructor
  · intro h
    by_cases hstar : cs = ['*']
    · rw [readBase, if_pos hstar] at h
      exact .inl ⟨hstar, (Except.ok.inj h).symm⟩
    by_cases hdash : '-' ∈ cs
    · rw [readBase_of_mem hdash] at h
      exact .inr (.inl h)
    · rw [readBase_of_not_mem hstar hdash] at h
      obtain ⟨n, hn, h⟩ := bind_eq_ok_iff.1 h
      cases h
      exact .inr (.inr ⟨readNumber_eq_ok.1 hn, rfl⟩)
  · rintro (⟨rfl, rfl⟩ | h | ⟨h, hhigh⟩)
    · rfl
    · rw [readBase_of_mem (mem_dash_of_readBounds h), h]
    · have hdash := not_mem_of_readNumeral (c := '-') h (by decide) (by decide)
      rw [readBase_of_not_mem (ne_star_of_readNumeral h) hdash, readNumber_eq_ok.2 h, ← hhigh]
      rfl

theorem not_mem_slash_of_readBase (h : readBase field cs = .ok bounds) : '/' ∉ cs := by
  rcases readBase_eq_ok.1 h with ⟨rfl, -⟩ | h | ⟨h, -⟩
  · decide
  · exact not_mem_slash_of_readBounds h
  · exact not_mem_of_readNumeral h (by decide) (by decide)

theorem readValue_eq_ok : readValue field cs = .ok term ↔ ∃ n, readNumeral cs = .ok n ∧
    (field.low ≤ field.fold n ∧ field.fold n ≤ field.high) ∧ term = .value n := by
  rw [readValue, bind_eq_ok_iff]
  simp only [readNumber_eq_ok, Bool.and_eq_true, decide_eq_true_eq]
  apply exists_congr
  intro n
  apply and_congr_right
  intro _
  split
  · next hin => rw [Except.ok.injEq, and_iff_right hin, eq_comm]
  · next hout =>
    refine iff_of_false ?_ fun h => hout h.1
    intro h
    cases h

/-- The terms that are read: a star, a value, a range, or steps. -/
theorem read_eq_ok : read field cs = .ok term ↔
    cs = ['*'] ∧ term = .every ∨ readValue field cs = .ok term ∨
      (∃ bounds, readBounds field cs = .ok bounds ∧ term = .range bounds.1 bounds.2 1) ∨
      ∃ bounds s, (∃ base step, cs = base ++ '/' :: step ∧ readBase field base = .ok bounds ∧
        readStep field step = .ok s) ∧ term = .range bounds.1 bounds.2 s := by
  constructor
  · intro h
    by_cases hslash : '/' ∈ cs
    · obtain ⟨base, step, rfl, hbase⟩ := List.eq_append_cons_of_mem hslash
      rw [read_append hbase] at h
      split at h
      · cases h
      obtain ⟨s, hs, h⟩ := bind_eq_ok_iff.1 h
      obtain ⟨bounds, hbounds, h⟩ := bind_eq_ok_iff.1 h
      cases h
      exact .inr (.inr (.inr ⟨bounds, s, ⟨base, step, rfl, hbounds, hs⟩, rfl⟩))
    by_cases hdash : '-' ∈ cs
    · rw [read_of_dash hslash hdash] at h
      obtain ⟨bounds, hbounds, h⟩ := bind_eq_ok_iff.1 h
      cases h
      exact .inr (.inr (.inl ⟨bounds, hbounds, rfl⟩))
    by_cases hstar : cs = ['*']
    · subst hstar
      cases h
      exact .inl ⟨rfl, rfl⟩
    by_cases hempty : cs = []
    · subst hempty
      cases h
    · rw [read_of_unmarked hempty hslash hdash hstar] at h
      exact .inr (.inl h)
  · rintro (⟨rfl, rfl⟩ | h | ⟨bounds, hbounds, rfl⟩ |
      ⟨bounds, s, ⟨base, step, rfl, hbase, hstep⟩, rfl⟩)
    · rfl
    · obtain ⟨n, hn, -⟩ := readValue_eq_ok.1 h
      have hempty : cs ≠ [] := by
        rintro rfl
        cases hn
      rw [read_of_unmarked hempty (not_mem_of_readNumeral hn (by decide) (by decide))
        (not_mem_of_readNumeral hn (by decide) (by decide)) (ne_star_of_readNumeral hn), h]
    · rw [read_of_dash (not_mem_slash_of_readBounds hbounds) (mem_dash_of_readBounds hbounds),
        hbounds]
      rfl
    · have hslash : '/' ∉ step :=
        not_mem_of_readNumeral (readStep_eq_ok.1 hstep).1 (by decide) (by decide)
      rw [read_append (not_mem_slash_of_readBase hbase),
        if_neg (mt List.contains_iff_mem.1 hslash), hstep, hbase]
      rfl

end Cron.Term
