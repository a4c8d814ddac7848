import Cron.Proofs.Field.Token
import Cron.Proofs.Readings

/-!
Numerals with more digits than are read. A term that holds one is refused for it, as far as nothing
is wrong before it, and for no other reason is a term refused but its form and its value.
-/
namespace Cron

open Text

/-- A reading is refused for a number of digits exactly if `long` holds; any other fault is one of
an expression. -/
def IsRefused {α : Type} (long : Prop) (x : Except Fault α) : Prop :=
  (long → ∃ k, maxDigits < k ∧ x = .error (.input (.tooManyDigits k))) ∧
    ∀ fault, x = .error fault → long ∨ ∃ error, fault = .expression error

namespace IsRefused

variable {α β : Type} {p q : Prop}

theorem congr {x : Except Fault α} (h : IsRefused p x) (hpq : p ↔ q) : IsRefused q x :=
  ⟨fun hq => h.1 (hpq.2 hq), fun fault hfault => (h.2 fault hfault).imp_left hpq.1⟩

theorem ok (a : α) : IsRefused False (.ok a : Except Fault α) :=
  ⟨False.elim, nofun⟩

theorem expression (error : ExpressionError) :
    IsRefused False (.error (.expression error) : Except Fault α) := by
  refine ⟨False.elim, ?_⟩
  intro fault h
  cases h
  exact .inr ⟨error, rfl⟩

theorem bind {x : Except Fault α} {f : α → Except Fault β} {q : α → Prop} (hx : IsRefused p x)
    (hf : ∀ a, x = .ok a → IsRefused (q a) (f a)) :
    IsRefused (p ∨ ∃ a, x = .ok a ∧ q a) (x >>= f) := by
  constructor
  · rintro (h | ⟨a, ha, hq⟩)
    · obtain ⟨k, hk, hfault⟩ := hx.1 h
      exact ⟨k, hk, bind_eq_error_iff.2 (.inl hfault)⟩
    · obtain ⟨k, hk, hfault⟩ := (hf a ha).1 hq
      exact ⟨k, hk, bind_eq_error_iff.2 (.inr ⟨a, ha, hfault⟩)⟩
  · intro fault h
    rcases bind_eq_error_iff.1 h with h | ⟨a, ha, h⟩
    · exact (hx.2 fault h).imp_left .inl
    · exact ((hf a ha).2 fault h).imp_left fun hq => .inr ⟨a, ha, hq⟩

theorem of_error_iff {x : Except Fault α} {y : Except Fault β} (h : IsRefused p x)
    (hxy : ∀ fault, x = .error fault ↔ y = .error fault) : IsRefused p y := by
  refine ⟨fun hp => ?_, fun fault hfault => h.2 fault ((hxy fault).2 hfault)⟩
  obtain ⟨k, hk, hfault⟩ := h.1 hp
  exact ⟨k, hk, (hxy _).1 hfault⟩

-- What is done with the value of a reading that was not refused is at no fault.
theorem bind_ok {x : Except Fault α} (hx : IsRefused p x) (f : α → β) :
    IsRefused p (x >>= fun a => .ok (f a)) :=
  (hx.bind fun a _ => ok (f a)).congr (by simp)

theorem mapM {f : α → Except Fault β} {xs : List α} {q : α → Prop}
    (h : ∀ x ∈ xs, IsRefused (q x) (f x)) :
    IsRefused (∃ before x after, xs = before ++ x :: after ∧
      (∀ y ∈ before, ∃ b, f y = .ok b) ∧ q x) (xs.mapM f) := by
  constructor
  · rintro ⟨before, x, after, rfl, hbefore, hq⟩
    obtain ⟨k, hk, hfault⟩ := (h x (by simp)).1 hq
    exact ⟨k, hk, mapM_eq_error_iff.2 ⟨before, x, after, rfl, hbefore, hfault⟩⟩
  · intro fault hfault
    obtain ⟨before, x, after, rfl, hbefore, hx⟩ := mapM_eq_error_iff.1 hfault
    exact ((h x (by simp)).2 fault hx).imp_left fun hq => ⟨before, x, after, rfl, hbefore, hq⟩

theorem not_iff_exists {x : Except Fault α} (h : IsRefused p x) :
    ¬ p ↔ (∃ a, x = .ok a) ∨ ∃ error, x = .error (.expression error) := by
  constructor
  · intro hp
    cases hx : x with
    | ok a => exact .inl ⟨a, rfl⟩
    | error fault =>
      obtain ⟨error, rfl⟩ := (h.2 fault hx).resolve_left hp
      exact .inr ⟨error, rfl⟩
  · intro hx hp
    obtain ⟨k, -, hk⟩ := h.1 hp
    rw [hk] at hx
    rcases hx with ⟨a, ha⟩ | ⟨error, herror⟩
    · cases ha
    · cases herror

end IsRefused

namespace FieldName

/-- A range one of whose numerals is too long. -/
def IsLongRange (cs : List Char) : Prop :=
  ∃ first last, cs = first ++ '-' :: last ∧ (∃ a, IsNumeral first a) ∧ (∃ b, IsNumeral last b) ∧
    (maxDigits < first.length ∨ maxDigits < last.length)

/-- The terms in which a numeral that is too long is met, and no other fault before it. -/
inductive IsOverlong : List Char → Prop
  | value {cs : List Char} (h : IsLongNumeral cs) : IsOverlong cs
  | range {cs : List Char} (h : IsLongRange cs) : IsOverlong cs
  | step {base step : List Char} (hbase : '/' ∉ base) (h : IsLongNumeral step) :
      IsOverlong (base ++ '/' :: step)
  | base {base step : List Char} {s : Nat} (hs : IsNumeral step s) (hpos : 1 ≤ s)
      (hshort : step.length ≤ maxDigits) (h : IsLongNumeral base ∨ IsLongRange base) :
      IsOverlong (base ++ '/' :: step)

theorem IsLongRange.mem_dash {cs : List Char} (h : IsLongRange cs) : '-' ∈ cs := by
  obtain ⟨first, last, rfl, -⟩ := h
  exact List.mem_append_right _ List.mem_cons_self

theorem IsLongRange.not_mem_slash {cs : List Char} (h : IsLongRange cs) : '/' ∉ cs := by
  have hslash : isDigit '/' = false := by decide
  obtain ⟨first, last, rfl, ⟨a, ha⟩, ⟨b, hb⟩, -⟩ := h
  rw [List.mem_append, List.mem_cons, not_or, not_or]
  exact ⟨ha.not_mem hslash, by decide, hb.not_mem hslash⟩

theorem isLongRange_append_iff {first last : List Char} (ha : ∃ a, IsNumeral first a)
    (hb : ∃ b, IsNumeral last b) :
    IsLongRange (first ++ '-' :: last) ↔ maxDigits < first.length ∨ maxDigits < last.length := by
  constructor
  · rintro ⟨first', last', heq, ⟨a', ha'⟩, -, hlong⟩
    obtain ⟨a, ha⟩ := ha
    obtain ⟨rfl, rfl⟩ :=
      append_inj_of_not_mem (ha.not_mem (by decide)) (ha'.not_mem (by decide)) heq
    exact hlong
  · intro hlong
    exact ⟨first, last, rfl, ha, hb, hlong⟩

theorem isOverlong_iff_of_not_mem {cs : List Char} (h : '/' ∉ cs) :
    IsOverlong cs ↔ IsLongNumeral cs ∨ IsLongRange cs := by
  constructor
  · intro hlong
    cases hlong with
    | value hvalue => exact .inl hvalue
    | range hrange => exact .inr hrange
    | step => exact absurd (List.mem_append_right _ List.mem_cons_self) h
    | base => exact absurd (List.mem_append_right _ List.mem_cons_self) h
  · rintro (hvalue | hrange)
    · exact .value hvalue
    · exact .range hrange

theorem isOverlong_append_iff {base step : List Char} (h : '/' ∉ base) :
    IsOverlong (base ++ '/' :: step) ↔
      IsLongNumeral step ∨ (∃ s, IsNumeral step s ∧ 1 ≤ s ∧ step.length ≤ maxDigits) ∧
        (IsLongNumeral base ∨ IsLongRange base) := by
  have hslash : '/' ∈ base ++ '/' :: step := List.mem_append_right _ List.mem_cons_self
  constructor
  · intro hlong
    generalize hcs : base ++ '/' :: step = cs at hlong hslash
    cases hlong with
    | value hvalue =>
      obtain ⟨-, n, hn⟩ := hvalue
      exact absurd hslash (hn.not_mem (by decide))
    | range hrange => exact absurd hslash hrange.not_mem_slash
    | step hbase hstep =>
      obtain ⟨-, rfl⟩ := append_inj_of_not_mem h hbase hcs
      exact .inl hstep
    | base hs hpos hshort hbase =>
      have hnot := hbase.elim (fun ⟨_, n, hn⟩ => hn.not_mem (by decide)) (·.not_mem_slash)
      obtain ⟨rfl, rfl⟩ := append_inj_of_not_mem h hnot hcs
      exact .inr ⟨⟨_, hs, hpos, hshort⟩, hbase⟩
  · rintro (hstep | ⟨⟨s, hs, hpos, hshort⟩, hbase⟩)
    · exact .step h hstep
    · exact .base hs hpos hshort hbase

end FieldName

namespace Term

variable {field : FieldName} {role : NumberRole} {cs base step : List Char}

theorem isRefused_readNumber (h : ∀ c ∈ cs, isBlank c = false) :
    IsRefused (IsLongNumeral cs) (readNumber field role cs) := by
  rcases readNumeral_cases h with ⟨n, hn, hshort, hread⟩ | ⟨hlong, hread⟩ | ⟨hnone, hread⟩
  · have hnot : ¬ IsLongNumeral cs := fun hlong => absurd hlong.1 (by omega)
    rw [readNumber, hread]
    exact (IsRefused.ok n).congr (iff_of_false id hnot)
  · rw [readNumber, hread]
    refine ⟨fun _ => ⟨cs.length, hlong.1, rfl⟩, fun fault _ => .inl hlong⟩
  · have hnot : ¬ IsLongNumeral cs := fun hlong => hnone hlong.2
    rw [readNumber, hread]
    exact (IsRefused.expression _).congr (iff_of_false id hnot)

theorem readNumber_eq_ok_iff (h : ∀ c ∈ cs, isBlank c = false) {n : Nat} :
    readNumber field role cs = .ok n ↔ IsNumeral cs n ∧ cs.length ≤ maxDigits := by
  rcases readNumeral_cases h with ⟨m, hm, hshort, hread⟩ | ⟨hlong, hread⟩ | ⟨hnone, hread⟩
  · rw [readNumber, hread]
    constructor
    · intro heq
      cases heq
      exact ⟨hm, hshort⟩
    · intro hn
      rw [hm.unique hn.1]
  · rw [readNumber, hread]
    exact iff_of_false (by simp) fun hn => absurd hlong.1 (by omega)
  · rw [readNumber, hread]
    exact iff_of_false (by simp) fun hn => hnone ⟨n, hn.1⟩

theorem isRefused_readBounds (h : ∀ c ∈ cs, isBlank c = false) (hdash : '-' ∈ cs) :
    IsRefused (FieldName.IsLongRange cs) (readBounds field cs) := by
  by_cases hrange : ∃ a b, FieldName.IsRange cs a b
  · obtain ⟨a, b, first, last, rfl, ha, hb⟩ := hrange
    simp only [List.forall_mem_append, List.forall_mem_cons] at h
    have hread : readBounds field (first ++ '-' :: last) = (do
        let first ← readNumber field .value first
        let last ← readNumber field .value last
        .ok (first, last)) := by
      obtain ⟨da, hda⟩ := ha.exists_digits h.1
      obtain ⟨db, hdb⟩ := hb.exists_digits h.2.2
      rw [readBounds, pieces_append (ha.not_mem (by decide)),
        pieces_of_not_mem (hb.not_mem (by decide))]
      simp only [hda, hdb]
    rw [hread, FieldName.isLongRange_append_iff ⟨a, ha⟩ ⟨b, hb⟩]
    refine ((isRefused_readNumber h.1).bind fun m _ =>
      (isRefused_readNumber h.2.2).bind_ok fun n => (m, n)).congr ?_
    simp only [readNumber_eq_ok_iff h.1, exists_and_right, IsLongNumeral]
    by_cases hlong : maxDigits < first.length
    · exact iff_of_true (.inl ⟨hlong, a, ha⟩) (.inl hlong)
    · have hshort := Nat.not_lt.1 hlong
      simp only [hlong, false_and, false_or]
      exact ⟨fun hlast => hlast.2.1, fun hlast => ⟨⟨⟨a, ha⟩, hshort⟩, hlast, b, hb⟩⟩
  · rw [readBounds_of_not h hdash hrange]
    refine (IsRefused.expression _).congr (iff_of_false id ?_)
    rintro ⟨first, last, rfl, ⟨a, ha⟩, ⟨b, hb⟩, -⟩
    exact hrange ⟨a, b, first, last, rfl, ha, hb⟩

theorem isRefused_readStep (h : ∀ c ∈ cs, isBlank c = false) :
    IsRefused (IsLongNumeral cs) (readStep field cs) := by
  refine ((isRefused_readNumber h).bind (q := fun _ => False) fun s _ => ?_).congr (by simp)
  split
  · exact IsRefused.expression _
  · exact IsRefused.ok s

theorem readStep_eq_ok_iff (h : ∀ c ∈ cs, isBlank c = false) {s : Nat} :
    readStep field cs = .ok s ↔ IsNumeral cs s ∧ 1 ≤ s ∧ cs.length ≤ maxDigits := by
  rw [readStep, bind_eq_ok_iff]
  simp only [readNumber_eq_ok_iff h]
  constructor
  · rintro ⟨n, ⟨hn, hshort⟩, hs⟩
    split at hs
    · cases hs
    · cases hs
      exact ⟨hn, by omega, hshort⟩
  · rintro ⟨hs, hpos, hshort⟩
    exact ⟨s, ⟨hs, hshort⟩, if_neg (by omega)⟩

theorem isRefused_readBase (h : ∀ c ∈ cs, isBlank c = false) :
    IsRefused (IsLongNumeral cs ∨ FieldName.IsLongRange cs) (readBase field cs) := by
  by_cases hstar : cs = ['*']
  · subst hstar
    refine (IsRefused.ok (field.low, field.inputHigh)).congr (iff_of_false id ?_)
    rintro (⟨-, n, hn⟩ | hrange)
    · exact hn.ne_star rfl
    · exact absurd hrange.mem_dash (by decide)
  · by_cases hdash : '-' ∈ cs
    · rw [readBase_of_mem hdash]
      refine (isRefused_readBounds h hdash).congr (or_iff_right ?_).symm
      rintro ⟨-, n, hn⟩
      exact hn.not_mem (by decide) hdash
    · rw [readBase_of_not_mem hstar hdash]
      refine ((isRefused_readNumber h).bind_ok fun n => (n, field.inputHigh)).congr
        (or_iff_left ?_).symm
      exact fun hrange => hdash hrange.mem_dash

theorem isRefused_read (h : ∀ c ∈ cs, isBlank c = false) :
    IsRefused (FieldName.IsOverlong cs) (read field cs) := by
  by_cases hslash : '/' ∈ cs
  · obtain ⟨base, step, rfl, hbase⟩ := List.eq_append_cons_of_mem hslash
    simp only [List.forall_mem_append, List.forall_mem_cons] at h
    rw [read_append hbase, FieldName.isOverlong_append_iff hbase]
    by_cases hstep : '/' ∈ step
    · rw [if_pos (List.contains_iff_mem.2 hstep)]
      refine (IsRefused.expression _).congr (iff_of_false id ?_)
      rintro (⟨-, n, hn⟩ | ⟨⟨s, hs, -⟩, -⟩)
      · exact hn.not_mem (by decide) hstep
      · exact hs.not_mem (by decide) hstep
    · rw [if_neg (mt List.contains_iff_mem.1 hstep)]
      refine ((isRefused_readStep h.2.2).bind fun s _ =>
        (isRefused_readBase h.1).bind_ok fun bounds => range bounds.1 bounds.2 s).congr ?_
      simp only [readStep_eq_ok_iff h.2.2, exists_and_right]
  · rw [FieldName.isOverlong_iff_of_not_mem hslash]
    by_cases hdash : '-' ∈ cs
    · rw [read_of_dash hslash hdash]
      refine ((isRefused_readBounds h hdash).bind_ok fun bounds =>
        range bounds.1 bounds.2 1).congr (or_iff_right ?_).symm
      rintro ⟨-, n, hn⟩
      exact hn.not_mem (by decide) hdash
    · have hrange : ¬ FieldName.IsLongRange cs := fun hrange => hdash hrange.mem_dash
      rw [or_iff_left hrange]
      by_cases hempty : cs = []
      · subst hempty
        exact (IsRefused.expression _).congr (iff_of_false id fun ⟨_, n, hn⟩ => hn.ne_nil rfl)
      by_cases hstar : cs = ['*']
      · subst hstar
        exact (IsRefused.ok every).congr (iff_of_false id fun ⟨_, n, hn⟩ => hn.ne_star rfl)
      rw [read_of_unmarked hempty hslash hdash hstar]
      refine ((isRefused_readNumber h).bind (q := fun _ => False) fun n _ => ?_).congr (by simp)
      split
      · exact IsRefused.ok (value n)
      · exact IsRefused.expression _

end Term

/-- The tokens whose first term that is not read is overlong. -/
def FieldName.IsOverlongToken (name : FieldName) (token : List Char) : Prop :=
  ∃ before cs after, pieces ',' token = before ++ cs :: after ∧
    (∀ t ∈ before, ∃ term, Term.read name t = .ok term) ∧ FieldName.IsOverlong cs

namespace Field

variable {name : FieldName} {token : List Char}

theorem isRefused_ofTerms (h : ∀ c ∈ token, isBlank c = false) :
    IsRefused (name.IsOverlongToken token) (ofTerms name token) := by
  have hread : ∀ cs ∈ pieces ',' token, IsRefused (FieldName.IsOverlong cs) (Term.read name cs) :=
    fun cs hcs => Term.isRefused_read fun c hc => h c (mem_of_mem_pieces hcs hc)
  refine ((IsRefused.mapM hread).bind (q := fun _ => False) fun terms _ => ?_).congr
    (by simp [FieldName.IsOverlongToken])
  dsimp only
  split
  · exact IsRefused.expression _
  · exact IsRefused.ok _

theorem isRefused_parse (h : ∀ c ∈ token, isBlank c = false) :
    IsRefused (name.IsOverlongToken token) (parse name (String.ofList token)) := by
  rw [FieldName.parse_ofList h]
  by_cases hstar : token = ['*']
  · subst hstar
    have hok : ∃ f, ofTerms name ['*'] = .ok f := by cases name <;> exact ⟨_, rfl⟩
    obtain ⟨f, hf⟩ := hok
    refine (IsRefused.ok _).congr (iff_of_false id fun hlong => ?_)
    obtain ⟨k, -, hfault⟩ := (isRefused_ofTerms h).1 hlong
    rw [hf] at hfault
    cases hfault
  · rw [if_neg hstar]
    exact isRefused_ofTerms h

end Field

end Cron
