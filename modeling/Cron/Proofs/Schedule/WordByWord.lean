import Cron.Proofs.Schedule.Breakdown

/-!
Expressions of five words, read word by word. Lowering, the replacing of names and the reading of a
field look at one word alone, so the field that a word gives does not depend on the others.
-/
namespace Cron

open Text

namespace FieldName

/-- The normal form of a word that is given for a field. -/
def normalWord (name : FieldName) (w : List Char) : Except Fault (List Char) :=
  match name with
  | month => Schedule.replaceNames Schedule.monthNames 1 (lower w)
  | dayOfWeek => Schedule.replaceNames Schedule.dayNames 0 (lower w)
  | _ => .ok (lower w)

/-- The field that a word of an expression gives. -/
def readWord (name : FieldName) (w : List Char) : Except Fault Field := do
  let normal ← name.normalWord w
  Field.parse name (String.ofList normal)

theorem readWord_star (name : FieldName) : name.readWord ['*'] = .ok (.wildcard name) := by
  cases name <;> decide

end FieldName

namespace Schedule

section Names
variable {names : List String} {first : Nat} {word out : List Char}

-- Only the star gives the star: a number is made of word characters.
theorem IsNumbered.eq_star (h : IsNumbered names first)
    (hok : replaceNames names first word = .ok ['*']) : word = ['*'] := by
  obtain ⟨replaced, hflat, hmem⟩ := h.exists_forall₂ hok
  have hruns : runs ['*'] = replaced := by
    rw [← hflat, runs_flatten (hmem.imp fun run r hr => (h.of_replaceName hr.1 hr.2).1)]
  have hstar : replaced = [['*']] := by
    rw [← hruns]
    decide
  rw [hstar] at hmem
  have hword := (isRuns_runs word).flatten_eq
  generalize runs word = rs at hmem hword
  cases hmem with
  | @cons run _ _ _ hrun hnil =>
    cases hnil
    rw [← hword, List.flatten_singleton]
    rcases replaceName_cases names first run with ⟨i, hi, -, hnumber⟩ | ⟨-, herror⟩ | ⟨-, hself⟩
    · rw [hnumber] at hrun
      have hmem : '*' ∈ (toString (first + i)).toList := by
        rw [Except.ok.inj hrun.2]
        exact List.mem_cons_self
      exact absurd (h.isWordChar_number i hi '*' hmem).1 (by decide)
    · rw [herror] at hrun
      cases hrun.2
    · rw [hself] at hrun
      exact Except.ok.inj hrun.2

end Names

end Schedule

namespace FieldName

variable {name : FieldName} {w normal : List Char} {f : Field}

theorem isWord_normalWord (hw : IsWord w) (h : name.normalWord w = .ok normal) : IsWord normal := by
  have hsmall : Schedule.IsSmallWord (lower w) := ⟨hw.lower, fun _ hc => isSmall_of_mem_lower hc⟩
  cases name with
  | month => exact (Schedule.isNumbered_monthNames.isSmallWord h hsmall).1
  | dayOfWeek => exact (Schedule.isNumbered_dayNames.isSmallWord h hsmall).1
  | minute | hour | dayOfMonth =>
    cases h
    exact hsmall.1

theorem normalWord_eq_star (h : name.normalWord w = .ok ['*']) : w = ['*'] := by
  rw [← lower_eq_star_iff]
  cases name with
  | month => exact Schedule.isNumbered_monthNames.eq_star h
  | dayOfWeek => exact Schedule.isNumbered_dayNames.eq_star h
  | minute | hour | dayOfMonth => exact Except.ok.inj h

/-- A field is left open by the bare star alone, whatever values its word stands for. -/
theorem isWildcard_readWord (hw : IsWord w) (h : name.readWord w = .ok f) :
    f.isWildcard = true ↔ w = ['*'] := by
  obtain ⟨normal, hnormal, hparse⟩ := bind_eq_ok_iff.1 h
  have hopen := (Field.isSound_of_parse hparse).2.2
  rw [String.toList_ofList, trim_of_not_isBlank (isWord_normalWord hw hnormal).2] at hopen
  rw [hopen]
  constructor
  · rintro rfl
    exact normalWord_eq_star hnormal
  · rintro rfl
    have hstar : name.normalWord ['*'] = .ok ['*'] := by
      cases name <;> decide
    rw [hstar] at hnormal
    exact (Except.ok.inj hnormal).symm

end FieldName

namespace Schedule

variable {expression : String} {s : Schedule} {field : FieldName → Field}

theorem readWord_eq_ok_iff {name : FieldName} {w : List Char} {f : Field} :
    name.readWord w = .ok f ↔
      ∃ normal, name.normalWord w = .ok normal ∧ Field.parse name (String.ofList normal) = .ok f :=
  bind_eq_ok_iff

theorem normalize_of_words {a b c d e : List Char} (h : words expression.toList = [a, b, c, d, e]) :
    normalize expression = (do
      let d ← FieldName.month.normalWord d
      let e ← FieldName.dayOfWeek.normalWord e
      .ok (spaced [lower a, lower b, lower c, d, e])) := by
  have hlower : words (lower expression.toList) =
      [lower a, lower b, lower c, lower d, lower e] := by
    rw [words_lower, h]
    rfl
  exact normalize_of_five hlower

/-- Five words give a schedule exactly if each of them gives its field. -/
theorem exists_ofExpression_iff (hcount : (words expression.toList).length = 5) :
    (∃ s, ofExpression expression = .ok s ∧ ∀ name, s.field name = field name) ↔
      List.Forall₂ (fun name w => name.readWord w = .ok (field name)) FieldName.all
        (words expression.toList) := by
  obtain ⟨a, b, c, d, e, hwords⟩ := exists_eq_of_length_eq_five hcount
  have hisWord : ∀ w ∈ [a, b, c, d, e], IsWord w := fun w hw =>
    isWord_of_mem_words (hwords ▸ hw)
  simp only [List.forall_mem_cons, List.not_mem_nil, false_implies, implies_true] at hisWord
  obtain ⟨ha, hb, hc, hd, he, -⟩ := hisWord
  -- the words of the normal form are those of the expression, each in its own normal form
  have hread : ∀ {d' e' : List Char}, FieldName.month.normalWord d = .ok d' →
      FieldName.dayOfWeek.normalWord e = .ok e' →
      words (spaced [lower a, lower b, lower c, d', e']).toList =
        [lower a, lower b, lower c, d', e'] := by
    intro d' e' hd' he'
    apply words_spaced
    simp only [List.forall_mem_cons, List.not_mem_nil, false_implies, implies_true, and_true]
    exact ⟨ha.lower, hb.lower, hc.lower, FieldName.isWord_normalWord hd hd',
      FieldName.isWord_normalWord he he'⟩
  rw [ofExpression, normalize_of_words hwords, hwords]
  constructor
  · rintro ⟨s, hs, hfield⟩
    obtain ⟨text, htext, hparse⟩ := bind_eq_ok_iff.1 hs
    obtain ⟨d', hd', htext⟩ := bind_eq_ok_iff.1 htext
    obtain ⟨e', he', htext⟩ := bind_eq_ok_iff.1 htext
    cases htext
    have hfields := (parse_eq_ok_iff.1 hparse).1
    rw [hread hd' he'] at hfields
    simp only [FieldName.all, List.forall₂_cons, List.forall₂_nil_left_iff, hfield] at hfields ⊢
    obtain ⟨h₁, h₂, h₃, h₄, h₅, -⟩ := hfields
    exact ⟨readWord_eq_ok_iff.2 ⟨_, rfl, h₁⟩, readWord_eq_ok_iff.2 ⟨_, rfl, h₂⟩,
      readWord_eq_ok_iff.2 ⟨_, rfl, h₃⟩, readWord_eq_ok_iff.2 ⟨_, hd', h₄⟩,
      readWord_eq_ok_iff.2 ⟨_, he', h₅⟩, trivial⟩
  · intro h
    simp only [FieldName.all, List.forall₂_cons, List.forall₂_nil_left_iff] at h
    obtain ⟨h₁, h₂, h₃, h₄, h₅, -⟩ := h
    obtain ⟨_, ⟨⟩, h₁⟩ := readWord_eq_ok_iff.1 h₁
    obtain ⟨_, ⟨⟩, h₂⟩ := readWord_eq_ok_iff.1 h₂
    obtain ⟨_, ⟨⟩, h₃⟩ := readWord_eq_ok_iff.1 h₃
    obtain ⟨d', hd', h₄⟩ := readWord_eq_ok_iff.1 h₄
    obtain ⟨e', he', h₅⟩ := readWord_eq_ok_iff.1 h₅
    let s : Schedule := ⟨spaced [lower a, lower b, lower c, d', e'], field .minute, field .hour,
      field .dayOfMonth, field .month, field .dayOfWeek⟩
    have hfield : ∀ name, s.field name = field name := by
      intro name
      cases name <;> rfl
    refine ⟨s, ?_, hfield⟩
    rw [hd', he', ok_bind, ok_bind, ok_bind, parse_eq_ok_iff, hread hd' he']
    simp only [FieldName.all, List.forall₂_cons, List.forall₂_nil_left_iff, hfield, and_true]
    exact ⟨⟨h₁, h₂, h₃, h₄, h₅⟩, rfl⟩

end Schedule

end Cron
