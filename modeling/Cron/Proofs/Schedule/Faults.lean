import Cron.Proofs.Field.Overlong
import Cron.Proofs.Schedule.Normal

/-!
What an expression is refused for. Besides the faults of its form there are two: a run that passes
for a name without being one, met when names are replaced, and a numeral with more digits than are
read, met when the fields are.
-/
namespace Cron.Schedule

open Text

/-- Expressions of five words with a run that passes for a name of a month in the fourth word, or
for one of a day in the fifth. -/
def HoldsLookalike (expression : String) : Prop :=
  ∃ a b c d e, words (lower expression.toList) = [a, b, c, d, e] ∧
    ((∃ run ∈ runs d, IsLookalike monthNames run) ∨ ∃ run ∈ runs e, IsLookalike dayNames run)

/-- Texts of five words whose first word that gives no field is overlong. -/
def IsOverlongText (text : String) : Prop :=
  (words text.toList).length = 5 ∧
    ∃ before entry after, FieldName.all.zip (words text.toList) = before ++ entry :: after ∧
      (∀ e ∈ before, ∃ f, Field.parse e.1 (String.ofList e.2) = .ok f) ∧
      entry.1.IsOverlongToken entry.2

def MeetsOverlong (expression : String) : Prop :=
  ∃ text, normalize expression = .ok text ∧ IsOverlongText text

section Names
variable {names : List String} {first : Nat} {word out : List Char} {fault : Fault}

theorem ArePlain.not_isLookalike (h : ArePlain names)
    (hok : replaceNames names first word = .ok out) :
    ¬ ∃ run ∈ runs word, IsLookalike names run := by
  rintro ⟨run, hrun, hlike⟩
  obtain ⟨replaced, -, hmem⟩ := h.exists_forall₂ hok
  obtain ⟨r, -, -, hok⟩ := exists_mem_of_forall₂ hmem.flip hrun
  rw [replaceName_eq_error_iff.2 ⟨hlike, rfl⟩] at hok
  cases hok

theorem ArePlain.exists_isLookalike (h : ArePlain names)
    (herror : replaceNames names first word = .error fault) :
    (∃ run ∈ runs word, IsLookalike names run) ∧ ∃ name, fault = .unknownName name := by
  rw [h.replaceNames_eq] at herror
  rcases bind_eq_error_iff.1 herror with hmap | ⟨_, -, hflat⟩
  · obtain ⟨before, run, after, hruns, -, hrun⟩ := mapM_eq_error_iff.1 hmap
    obtain ⟨hlike, hfault⟩ := replaceName_eq_error_iff.1 hrun
    have hmem : run ∈ runs word := hruns ▸ List.mem_append_right _ List.mem_cons_self
    exact ⟨⟨run, hmem, hlike⟩, _, hfault⟩
  · cases hflat

end Names

variable {expression text : String} {fault : Fault}

-- Names are replaced in five words alone, and there in the last two.
theorem normalize_cases (expression : String) :
    (∃ text, normalize expression = .ok text ∧ ¬ HoldsLookalike expression) ∨
      ∃ name, normalize expression = .error (.unknownName name) ∧ HoldsLookalike expression := by
  by_cases hcount : (words (lower expression.toList)).length = 5
  · obtain ⟨a, b, c, d, e, hwords⟩ := exists_eq_of_length_eq_five hcount
    rw [normalize_of_five hwords]
    cases hd : replaceNames monthNames 1 d with
    | error fault =>
      obtain ⟨hlike, name, rfl⟩ := arePlain_monthNames.exists_isLookalike hd
      exact .inr ⟨name, rfl, a, b, c, d, e, hwords, .inl hlike⟩
    | ok d' =>
      cases he : replaceNames dayNames 0 e with
      | error fault =>
        obtain ⟨hlike, name, rfl⟩ := arePlain_dayNames.exists_isLookalike he
        exact .inr ⟨name, rfl, a, b, c, d, e, hwords, .inr hlike⟩
      | ok e' =>
        refine .inl ⟨_, rfl, ?_⟩
        rintro ⟨_, _, _, _, _, hwords', hlike⟩
        rw [hwords] at hwords'
        cases hwords'
        rcases hlike with hlike | hlike
        · exact arePlain_monthNames.not_isLookalike hd hlike
        · exact arePlain_dayNames.not_isLookalike he hlike
  · have hnot : ¬ HoldsLookalike expression := by
      rintro ⟨a, b, c, d, e, hwords, -⟩
      exact hcount (congrArg List.length hwords)
    left
    cases halias : aliases.find? fun entry =>
        entry.1 = spaced (words (lower expression.toList)) with
    | some entry => exact ⟨_, normalize_of_alias halias, hnot⟩
    | none => exact ⟨_, normalize_of_length_ne_five halias hcount, hnot⟩

theorem parse_eq_error_iff (hcount : (words text.toList).length = 5) :
    (FieldName.all.zip (words text.toList)).mapM
        (fun entry => Field.parse entry.1 (String.ofList entry.2)) = .error fault ↔
      parse text = .error fault := by
  obtain ⟨a, b, c, d, e, hwords⟩ := exists_eq_of_length_eq_five hcount
  constructor
  · rw [hwords]
    exact parse_of_mapM_eq_error hwords
  · intro hparse
    cases hmap : (FieldName.all.zip (words text.toList)).mapM
        (fun entry => Field.parse entry.1 (String.ofList entry.2)) with
    | error fault' =>
      rw [hwords] at hmap
      rw [parse_of_mapM_eq_error hwords hmap] at hparse
      cases hparse
      rfl
    | ok fields =>
      -- five fields make a schedule
      have hall := mapM_eq_ok_iff.1 hmap
      rw [hwords] at hall
      unfold FieldName.all at hall
      rcases hall with _ | ⟨h₁, _ | ⟨h₂, _ | ⟨h₃, _ | ⟨h₄, _ | ⟨h₅, _ | _⟩⟩⟩⟩⟩
      rw [parse_of_words hwords, h₁, h₂, h₃, h₄, h₅] at hparse
      cases hparse

theorem isRefused_parse (text : String) : IsRefused (IsOverlongText text) (parse text) := by
  by_cases hcount : (words text.toList).length = 5
  · have hread : ∀ entry ∈ FieldName.all.zip (words text.toList),
        IsRefused (entry.1.IsOverlongToken entry.2)
          (Field.parse entry.1 (String.ofList entry.2)) := by
      intro entry hentry
      exact Field.isRefused_parse (not_isBlank_of_mem_words (List.of_mem_zip hentry).2)
    refine ((IsRefused.mapM hread).of_error_iff fun fault => parse_eq_error_iff hcount).congr ?_
    exact (and_iff_right hcount).symm
  · rw [parse_of_length_ne_five hcount]
    exact (IsRefused.expression _).congr (iff_of_false id fun h => hcount h.1)

theorem meetsOverlong_iff (h : normalize expression = .ok text) :
    MeetsOverlong expression ↔ IsOverlongText text := by
  constructor
  · rintro ⟨text', htext', hlong⟩
    rw [h] at htext'
    cases htext'
    exact hlong
  · exact fun hlong => ⟨text, h, hlong⟩

-- The two faults beside those of the form, and that there are no others.
theorem ofExpression_cases (expression : String) :
    (¬ HoldsLookalike expression ∧ ¬ MeetsOverlong expression ∧
        ((∃ s, ofExpression expression = .ok s) ∨
          ∃ error, ofExpression expression = .error (.expression error))) ∨
      (HoldsLookalike expression ∧ ¬ MeetsOverlong expression ∧
        ∃ name, ofExpression expression = .error (.unknownName name)) ∨
      ¬ HoldsLookalike expression ∧ MeetsOverlong expression ∧
        ∃ k, 4300 < k ∧ ofExpression expression = .error (.input (.tooManyDigits k)) := by
  rcases normalize_cases expression with ⟨text, hnormal, hlike⟩ | ⟨name, hnormal, hlike⟩
  · have hrefused := isRefused_parse text
    rw [ofExpression_of_normalize hnormal, meetsOverlong_iff hnormal]
    by_cases hlong : IsOverlongText text
    · exact .inr (.inr ⟨hlike, hlong, hrefused.1 hlong⟩)
    · exact .inl ⟨hlike, hlong, hrefused.not_iff_exists.1 hlong⟩
  · refine .inr (.inl ⟨hlike, ?_, name, ofExpression_of_normalize_error hnormal⟩)
    rintro ⟨text, htext, -⟩
    rw [hnormal] at htext
    cases htext

/-- An expression is read, or refused for its form, unless it holds a run that passes for a name or
meets a numeral that is too long. Each of the two is refused with a fault of its own. -/
theorem ofExpression_isExpected_iff (expression : String) :
    (((∃ s, ofExpression expression = .ok s) ∨
        ∃ error, ofExpression expression = .error (.expression error)) ↔
      ¬ HoldsLookalike expression ∧ ¬ MeetsOverlong expression) ∧
    (HoldsLookalike expression ↔ ∃ name, ofExpression expression = .error (.unknownName name)) ∧
    (MeetsOverlong expression ↔
      ∃ k, 4300 < k ∧ ofExpression expression = .error (.input (.tooManyDigits k))) := by
  rcases ofExpression_cases expression with
    ⟨hlike, hlong, hexpected⟩ | ⟨hlike, hlong, name, hname⟩ | ⟨hlike, hlong, k, hk, hdigits⟩
  · refine ⟨iff_of_true hexpected ⟨hlike, hlong⟩, iff_of_false hlike ?_, iff_of_false hlong ?_⟩
    all_goals
      rcases hexpected with ⟨s, hs⟩ | ⟨error, herror⟩
      · simp [hs]
      · simp [herror]
  · rw [hname]
    exact ⟨iff_of_false (by simp) fun h => h.1 hlike, iff_of_true hlike ⟨name, rfl⟩,
      iff_of_false hlong (by simp)⟩
  · rw [hdigits]
    exact ⟨iff_of_false (by simp) fun h => h.2 hlong, iff_of_false hlike (by simp),
      iff_of_true hlong ⟨k, hk, rfl⟩⟩

/-- A Sunday spelled with the long s passes for a name, and is refused as an unknown one. -/
theorem not_isExpected_long_s :
    ofExpression "0 0 * * ſun" = .error (.unknownName "ſun") ∧
      ¬ ((∃ s, ofExpression "0 0 * * ſun" = .ok s) ∨
        ∃ error, ofExpression "0 0 * * ſun" = .error (.expression error)) := by
  have hfault : ofExpression "0 0 * * ſun" = .error (.unknownName "ſun") := by decide +kernel
  refine ⟨hfault, ?_⟩
  rw [hfault]
  rintro (⟨s, hs⟩ | ⟨error, herror⟩)
  · cases hs
  · cases herror

end Cron.Schedule
