import Cron.Proofs.Field.Overlong
import Cron.Proofs.Field.Values
import Cron.Proofs.Text.Listed

/-!
Words for fields. A word that gives a field holds digits and the marks of terms, so capitals and
small letters make no difference to it. Every sound field has a word that gives it: a star, or the
numbers of its values.
-/
namespace Cron

open Text

/-- The characters of terms: the digits of every script, and the marks between numbers. -/
def IsTermChar (c : Char) : Prop := isDigit c = true ∨ c ∈ ['*', '-', '/', ',']

theorem IsTermChar.toUpper_eq {c : Char} (h : IsTermChar c) : c.toUpper = c := by
  rcases h with h | h
  · exact forall_isDigit (P := fun c => c.toUpper = c) (by decide +kernel) h
  · have hmarks : ∀ c ∈ ['*', '-', '/', ','], c.toUpper = c := by decide
    exact hmarks c h

namespace Term

variable {field : FieldName} {role : NumberRole} {cs : List Char} {bounds : Nat × Nat}

theorem isTermChar_of_readNumber {n : Nat} (hb : ∀ c ∈ cs, isBlank c = false)
    (h : readNumber field role cs = .ok n) : ∀ c ∈ cs, IsTermChar c := fun c hc =>
  .inl (((readNumber_eq_ok_iff hb).1 h).1.isDigit_of_mem c hc)

theorem isTermChar_of_readBounds (hb : ∀ c ∈ cs, isBlank c = false) (hdash : '-' ∈ cs)
    (h : readBounds field cs = .ok bounds) : ∀ c ∈ cs, IsTermChar c := by
  by_cases hrange : ∃ a b, FieldName.IsRange cs a b
  · obtain ⟨a, b, first, last, rfl, ha, hlast⟩ := hrange
    simp only [List.forall_mem_append, List.forall_mem_cons]
    exact ⟨fun c hc => .inl (ha.isDigit_of_mem c hc), .inr (by decide),
      fun c hc => .inl (hlast.isDigit_of_mem c hc)⟩
  · rw [readBounds_of_not hb hdash hrange] at h
    cases h

theorem isTermChar_of_readBase (hb : ∀ c ∈ cs, isBlank c = false)
    (h : readBase field cs = .ok bounds) : ∀ c ∈ cs, IsTermChar c := by
  by_cases hstar : cs = ['*']
  · subst hstar
    simp [IsTermChar]
  by_cases hdash : '-' ∈ cs
  · rw [readBase_of_mem hdash] at h
    exact isTermChar_of_readBounds hb hdash h
  · rw [readBase_of_not_mem hstar hdash] at h
    obtain ⟨n, hn, -⟩ := bind_eq_ok_iff.1 h
    exact isTermChar_of_readNumber hb hn

theorem isTermChar_of_read {term : Term} (hb : ∀ c ∈ cs, isBlank c = false)
    (h : read field cs = .ok term) : ∀ c ∈ cs, IsTermChar c := by
  by_cases hslash : '/' ∈ cs
  · obtain ⟨base, step, rfl, hbase⟩ := List.eq_append_cons_of_mem hslash
    simp only [List.forall_mem_append, List.forall_mem_cons] at hb ⊢
    rw [read_append hbase] at h
    split at h
    · cases h
    obtain ⟨s, hs, h⟩ := bind_eq_ok_iff.1 h
    obtain ⟨bounds, hbounds, -⟩ := bind_eq_ok_iff.1 h
    obtain ⟨n, hn, -⟩ := bind_eq_ok_iff.1 hs
    exact ⟨isTermChar_of_readBase hb.1 hbounds, .inr (by decide),
      isTermChar_of_readNumber hb.2.2 hn⟩
  by_cases hdash : '-' ∈ cs
  · rw [read_of_dash hslash hdash] at h
    obtain ⟨bounds, hbounds, -⟩ := bind_eq_ok_iff.1 h
    exact isTermChar_of_readBounds hb hdash hbounds
  by_cases hstar : cs = ['*']
  · subst hstar
    simp [IsTermChar]
  by_cases hempty : cs = []
  · subst hempty
    simp
  · rw [read_of_unmarked hempty hslash hdash hstar] at h
    obtain ⟨n, hn, -⟩ := bind_eq_ok_iff.1 h
    exact isTermChar_of_readNumber hb hn

-- The number of a value is read as the value.
theorem read_toString {v : Nat} (hv : v ∈ field.domain) :
    read field (toString v).toList = .ok (value v) := by
  have hall : ∀ field ∈ FieldName.all, ∀ v ∈ field.domain,
      read field (toString v).toList = .ok (value v) := by decide +kernel
  exact hall field (FieldName.mem_all field) v hv

end Term

namespace Field

variable {name : FieldName} {token : List Char} {f : Field}

/-- A word that gives a field holds characters of terms only. -/
theorem isTermChar_of_parse (hb : ∀ c ∈ token, isBlank c = false)
    (h : parse name (String.ofList token) = .ok f) : ∀ c ∈ token, IsTermChar c := by
  rw [FieldName.parse_ofList hb] at h
  split at h
  · next hstar =>
    subst hstar
    simp [IsTermChar]
  · obtain ⟨terms, hterms, -⟩ := ofTerms_eq_ok_iff.1 h
    intro c hc
    have hparts : c = ',' ∨ ∃ piece ∈ pieces ',' token, c ∈ piece := eq_or_mem_pieces hc
    rcases hparts with rfl | ⟨piece, hpiece, hmem⟩
    · exact .inr (by decide)
    · obtain ⟨term, -, hread⟩ := exists_mem_of_forall₂ (mapM_eq_ok_iff.1 hterms).flip hpiece
      exact Term.isTermChar_of_read (fun d hd => hb d (mem_of_mem_pieces hpiece hd)) hread c hmem

/-- The word for a field: a star if it is open, else its values with commas between them. -/
def written (f : Field) : List Char :=
  if f.isWildcard then ['*'] else [','].intercalate ((f.values.map toString).map String.toList)

/-- The characters that the word for a field may hold. -/
def writtenChars : List Char := "0123456789*,".toList

theorem isItem_toString {v : Nat} (hv : v ∈ name.domain) :
    IsItem (toString v).toList ∧ ∀ c ∈ (toString v).toList, c ∈ writtenChars := by
  have hall : ∀ name ∈ FieldName.all, ∀ v ∈ name.domain,
      IsItem (toString v).toList ∧ ∀ c ∈ (toString v).toList, c ∈ writtenChars := by
    decide +kernel
  exact hall name (FieldName.mem_all name) v hv

theorem IsSound.isItem_number (h : f.IsSound) {w : List Char}
    (hw : w ∈ (f.values.map toString).map String.toList) :
    IsItem w ∧ ∀ c ∈ w, c ∈ writtenChars := by
  obtain ⟨s, hs, rfl⟩ := List.mem_map.1 hw
  obtain ⟨v, hv, rfl⟩ := List.mem_map.1 hs
  exact isItem_toString (FieldName.mem_domain.2 (h.within v hv))

-- The terms of the values, one for each, stand for the values.
theorem IsSound.valuesOf_value (h : f.IsSound) :
    valuesOf f.name (f.values.map .value) = f.values := by
  apply (pairwise_valuesOf f.name _).eq_of_mem_iff h.ascending
  intro v
  have hfold : ∀ w ∈ f.values, f.name.fold w = w := by
    intro w hw
    have hhigh := (h.within w hw).2
    unfold FieldName.fold
    refine if_neg ?_
    rintro ⟨hname, rfl⟩
    rw [hname] at hhigh
    exact absurd hhigh (by decide)
  have hholds : ∀ w ∈ f.values, v ∈ f.name.domain →
      ((Term.value w).holds f.name v = true ↔ v = w) := by
    intro w hw hv
    have hbounds := h.within w hw
    rw [← hfold w hw] at hbounds
    rw [Term.holds_value_iff hbounds.1 hbounds.2 hv, hfold w hw]
  rw [mem_valuesOf]
  constructor
  · rintro ⟨hv, term, hterm, hcovers⟩
    obtain ⟨w, hw, rfl⟩ := List.mem_map.1 hterm
    rw [(hholds w hw hv).1 hcovers]
    exact hw
  · intro hv
    have hdomain := FieldName.mem_domain.2 (h.within v hv)
    exact ⟨hdomain, .value v, List.mem_map_of_mem hv, (hholds v hv hdomain).2 rfl⟩

theorem IsSound.mapM_read (h : f.IsSound) :
    ((f.values.map toString).map String.toList).mapM (Term.read f.name) =
      .ok (f.values.map .value) := by
  rw [mapM_eq_ok_iff, List.map_map, List.forall₂_map_left_iff, List.forall₂_map_right_iff,
    List.forall₂_same]
  intro v hv
  exact Term.read_toString (FieldName.mem_domain.2 (h.within v hv))

theorem IsSound.mem_written (h : f.IsSound) : ∀ c ∈ f.written, c ∈ writtenChars := by
  unfold written
  split
  · decide
  · intro c hc
    rcases eq_or_mem_of_mem_intercalate hc with rfl | ⟨w, hw, hcw⟩
    · decide
    · exact (h.isItem_number hw).2 c hcw

theorem IsSound.isWord_written (h : f.IsSound) : IsWord f.written := by
  have hblank : ∀ c ∈ writtenChars, isBlank c = false := by decide
  refine ⟨?_, fun c hc => hblank c (h.mem_written c hc)⟩
  unfold written
  split
  · simp
  · obtain ⟨v, rest, hvalues⟩ := List.exists_cons_of_ne_nil h.nonempty
    rw [hvalues]
    cases rest with
    | nil => simp [List.intercalate_singleton]
    | cons w others => simp [List.intercalate_cons_cons]

/-- The word for a sound field gives the field. -/
theorem IsSound.parse_written (h : f.IsSound) :
    parse f.name (String.ofList f.written) = .ok f := by
  rw [FieldName.parse_ofList h.isWord_written.2]
  cases hopen : f.isWildcard with
  | true =>
    have hvalues := h.values_of_isWildcard hopen
    rw [written, hopen, if_pos rfl, if_pos rfl, wildcard, ← hvalues, ← hopen,
      ← eq_ofValues h.low_eq h.high_eq]
  | false =>
    have hword : f.written = [','].intercalate ((f.values.map toString).map String.toList) := by
      rw [written, hopen, if_neg Bool.false_ne_true]
    have hne : (f.values.map toString).map String.toList ≠ [] := by simpa using h.nonempty
    have hpieces : pieces ',' f.written = (f.values.map toString).map String.toList := by
      rw [hword]
      exact pieces_intercalate hne fun w hw => (h.isItem_number hw).1.2
    have hstar : f.written ≠ ['*'] := by
      intro heq
      have hread := h.mapM_read
      rw [← hpieces, heq, FieldName.mapM_read_star] at hread
      have hterms := Except.ok.inj hread
      obtain ⟨v, hv⟩ := List.exists_mem_of_ne_nil f.values h.nonempty
      have hmem : Term.value v ∈ [Term.every] := hterms ▸ List.mem_map_of_mem hv
      simp at hmem
    rw [if_neg hstar, ofTerms_eq_ok_iff]
    refine ⟨f.values.map .value, by rw [hpieces, h.mapM_read], ?_, ?_⟩
    · rw [h.valuesOf_value]
      exact h.nonempty
    · rw [h.valuesOf_value, ← hopen]
      exact eq_ofValues h.low_eq h.high_eq

end Field

end Cron
