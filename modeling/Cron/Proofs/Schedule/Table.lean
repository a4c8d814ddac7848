import Cron.Proofs.Field.Written
import Cron.Proofs.Schedule.Breakdown

/-!
The table of a schedule gives the schedule again: its column of values, as the values that an
expression is put together from, and its column of words, as an expression.
-/
namespace Cron.Schedule

open Text

section Names
variable {names : List String} {first : Nat} {word : List Char}

-- A word without letters has no names in it, and no runs that pass for one.
theorem ArePlain.replaceNames_of_not_isAlpha (h : ArePlain names)
    (hnames : ∀ name ∈ names, name.toList.any Char.isAlpha = true)
    (hword : ∀ c ∈ word, c.isAlpha = false ∧ plainLetter c = c) :
    replaceNames names first word = .ok word := by
  have hrun : ∀ run ∈ runs word, replaceName names first run = .ok run := by
    intro run hrun
    have hnot : ∀ name ∈ names, name.toList ≠ run := by
      rintro name hname rfl
      obtain ⟨c, hc, halpha⟩ := List.any_eq_true.1 (hnames name hname)
      rw [(hword c (mem_of_mem_runs hrun hc)).1] at halpha
      cases halpha
    rcases replaceName_cases names first run with ⟨i, hi, hname, -⟩ | ⟨hlike, -⟩ | ⟨-, hself⟩
    · exact absurd hname (hnot _ (List.getElem_mem hi))
    · obtain ⟨-, name, hname, hplain⟩ := hlike
      have hmap : run.map plainLetter = run :=
        (List.map_congr_left fun c hc => (hword c (mem_of_mem_runs hrun hc)).2).trans
          (List.map_id run)
      exact absurd (hplain.trans hmap) (hnot name hname)
    · exact hself
  refine h.replaceNames_eq_ok_iff.2 ⟨runs word, ?_, (isRuns_runs word).flatten_eq⟩
  rw [mapM_eq_ok_iff, List.forall₂_same]
  exact hrun

end Names

variable {s : Schedule} {expression : String}

theorem isSmallWord_written {f : Field} (h : f.IsSound) : IsSmallWord f.written := by
  have hsmall : ∀ c ∈ Field.writtenChars, IsSmall c := by decide
  exact ⟨h.isWord_written, fun c hc => hsmall c (h.mem_written c hc)⟩

theorem replaceNames_written {f : Field} (h : f.IsSound) :
    replaceNames monthNames 1 f.written = .ok f.written ∧
      replaceNames dayNames 0 f.written = .ok f.written := by
  have hplain : ∀ c ∈ Field.writtenChars, c.isAlpha = false ∧ plainLetter c = c := by decide
  have hmonths : ∀ name ∈ monthNames, name.toList.any Char.isAlpha = true := by decide
  have hdays : ∀ name ∈ dayNames, name.toList.any Char.isAlpha = true := by decide
  have hword := fun c hc => hplain c (h.mem_written c hc)
  exact ⟨arePlain_monthNames.replaceNames_of_not_isAlpha hmonths hword,
    arePlain_dayNames.replaceNames_of_not_isAlpha hdays hword⟩

/-- The words for the fields of a schedule, with single blanks between them. -/
def writtenExpression (s : Schedule) : String :=
  spaced (FieldName.all.map fun name => (s.field name).written)

/-- The words for the fields give the fields. -/
theorem IsSound.ofExpression_written (h : s.IsSound) :
    ofExpression s.writtenExpression = .ok { s with expression := s.writtenExpression } := by
  have hsmall : ∀ w ∈ FieldName.all.map fun name => (s.field name).written, IsSmallWord w := by
    intro w hw
    obtain ⟨name, -, rfl⟩ := List.mem_map.1 hw
    exact isSmallWord_written (h.field name)
  have hnormal : normalize s.writtenExpression = .ok s.writtenExpression :=
    normalize_spaced_five hsmall (replaceNames_written (h.field .month)).1
      (replaceNames_written (h.field .dayOfWeek)).2
  have hwords : words s.writtenExpression.toList =
      FieldName.all.map fun name => (s.field name).written :=
    words_spaced fun w hw => (hsmall w hw).1
  rw [ofExpression_of_normalize hnormal, parse_eq_ok_iff, hwords, List.forall₂_map_right_iff,
    List.forall₂_same]
  refine ⟨?_, rfl⟩
  intro name _
  have hparse := (h.field name).parse_written
  rw [h.name_eq name] at hparse
  rw [hparse]
  cases name <;> rfl

-- A value of the table without its blanks is the word for its field.
theorem fieldWord_values {f : Field} (h : f.IsSound) (word : String) :
    fieldWord (row f word).values = String.ofList f.written := by
  have hsqueeze : squeeze (row f word).values.toList = f.written := by
    rw [row_values, Field.written]
    split
    · decide
    · rw [Field.numbers, joined, String.toList_intercalate]
      exact squeeze_intercalate_comma fun w hw => (h.isItem_number hw).1
  have hne : ¬ f.written.isEmpty = true := by simpa using h.isWord_written.1
  unfold fieldWord
  dsimp only
  rw [hsqueeze, if_neg hne]

theorem build_values (h : s.IsSound) (words : FieldName → String) :
    build (fun name => (row (s.field name) (words name)).values) = .ok s.writtenExpression := by
  have hwords : (FieldName.all.map fun name =>
      fieldWord (row (s.field name) (words name)).values) =
        (FieldName.all.map fun name => (s.field name).written).map String.ofList := by
    rw [List.map_map]
    exact List.map_congr_left fun name _ => fieldWord_values (h.field name) (words name)
  unfold build
  rw [hwords]
  change (ofExpression s.writtenExpression >>= fun _ => .ok s.writtenExpression) = _
  rw [h.ofExpression_written]
  rfl

-- Capitals make no difference to the words that gave the fields.
theorem toUpper_of_mem_tokens (h : parse expression = .ok s) {token : String}
    (htoken : token ∈ s.tokens) : token.toUpper = token := by
  obtain ⟨name, -, hparse⟩ := exists_mem_of_forall₂ (forall₂_tokens h) htoken
  obtain ⟨w, hw, rfl⟩ := List.mem_map.1 htoken
  have hchars := Field.isTermChar_of_parse (not_isBlank_of_mem_words hw) hparse
  apply String.toList_inj.1
  rw [String.toUpper, String.toList_map, String.toList_ofList]
  exact (List.map_congr_left fun c hc => (hchars c hc).toUpper_eq).trans (List.map_id w)

theorem exists_breakdown_eq (h : parse expression = .ok s) :
    ∃ words : FieldName → String, FieldName.all.map words = s.tokens ∧
      s.breakdown = FieldName.all.map fun name => row (s.field name) (words name) := by
  have hcount : s.tokens.length = 5 := (forall₂_tokens h).length_eq.symm
  obtain ⟨a, b, c, d, e, htokens⟩ := exists_eq_of_length_eq_five hcount
  refine ⟨@FieldName.rec (fun _ => String) a b c d e, ?_, ?_⟩
  · rw [htokens]
    rfl
  · rw [breakdown, htokens]
    rfl

theorem intercalate_tokens (h : parse expression = .ok s) :
    " ".intercalate s.tokens = s.expression := by
  have hexpression := (parse_eq_ok_iff.1 h).2
  have hwords : words s.expression.toList = words expression.toList := by
    rw [hexpression, words_spaced fun w hw => isWord_of_mem_words hw]
  rw [tokens, hwords, hexpression]
  rfl

/-- The columns of a table can be fed back. Put together, the values make an expression, which gives
the fields of the schedule; the words with single blanks between them are the expression of the
schedule, which gives the schedule. -/
theorem build_breakdown (h : ofExpression expression = .ok s) :
    (∃ value : FieldName → String, FieldName.all.map value = s.breakdown.map Row.values ∧
      ∃ built t, build value = .ok built ∧ ofExpression built = .ok t ∧
        ∀ name, t.field name = s.field name) ∧
    " ".intercalate (s.breakdown.map Row.word) = s.expression ∧
    ofExpression (" ".intercalate (s.breakdown.map Row.word)) = .ok s ∧
    parse (" ".intercalate (s.breakdown.map Row.word)) = .ok s := by
  obtain ⟨text, htext, hparse⟩ := bind_eq_ok_iff.1 h
  obtain ⟨hnormal, hspaced⟩ := normalize_eq_ok htext
  have hexpression : s.expression = text := by
    rw [(parse_eq_ok_iff.1 hparse).2, ← hspaced]
  have hsound := isSound_of_parse hparse
  obtain ⟨words, hwords, hrows⟩ := exists_breakdown_eq hparse
  have hcolumn : s.breakdown.map Row.word = s.tokens := by
    rw [hrows, List.map_map, ← hwords]
    refine List.map_congr_left fun name _ => toUpper_of_mem_tokens hparse ?_
    rw [← hwords]
    exact List.mem_map_of_mem (FieldName.mem_all name)
  refine ⟨⟨fun name => (row (s.field name) (words name)).values, ?_, s.writtenExpression, _,
    build_values hsound words, hsound.ofExpression_written, fun name => by cases name <;> rfl⟩, ?_⟩
  · rw [hrows, List.map_map]
    rfl
  · rw [hcolumn, intercalate_tokens hparse, hexpression, ofExpression_of_normalize hnormal]
    exact ⟨rfl, hparse, hparse⟩

/-- All minutes without a bare star, a digit of another script, and days over the end of the
week. -/
theorem build_breakdown_weekend :
    let s : Schedule := ⟨"*/1 9-11 ٣,15 * 5-7", .ofValues .minute (List.range 60) false,
      .ofValues .hour [9, 10, 11] false, .ofValues .dayOfMonth [3, 15] false, .wildcard .month,
      .ofValues .dayOfWeek [0, 5, 6] false⟩
    ofExpression "*/1 9-11 ٣,15 * Fri-7" = .ok s ∧
      (∃ value : FieldName → String, FieldName.all.map value = s.breakdown.map Row.values ∧
        ∃ built t, build value = .ok built ∧ ofExpression built = .ok t ∧
          ∀ name, t.field name = s.field name) ∧
      " ".intercalate (s.breakdown.map Row.word) = s.expression ∧
      ofExpression (" ".intercalate (s.breakdown.map Row.word)) = .ok s ∧
      parse (" ".intercalate (s.breakdown.map Row.word)) = .ok s := by
  intro s
  have hread : ofExpression "*/1 9-11 ٣,15 * Fri-7" = .ok s := by decide +kernel
  exact ⟨hread, build_breakdown hread⟩

end Cron.Schedule
