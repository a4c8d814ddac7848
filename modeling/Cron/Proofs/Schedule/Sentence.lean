import Cron.Proofs.Schedule.Breakdown
import Cron.Proofs.Schedule.TimeWords

/-!
What a sentence tells. Its words are those for the time, for the days and for the months; no word
for one field is a word for another, so each field can be read off the words that are its own, and
schedules with one sentence are the same but for their expressions.
-/
namespace Cron.Schedule

open Text

/-- The word for the days, if they are a group. -/
def groupWord? (values : List Nat) : Option (List Char) := FieldName.dayGroups.lookup values

/-- The words for the days of the week, where `words` are those for days that are no group. A group
is told by its own word where the days of the month are open. -/
def weekWords (dayOfMonth dayOfWeek : Field) (words : List (List Char)) : List (List Char) :=
  match if dayOfMonth.isWildcard then groupWord? dayOfWeek.values else none with
  | some w => [w]
  | none => words

/-- The words of a sentence between those for the time and those for days and months. -/
def linkWords : List (List Char) :=
  ["on".toList, "and".toList, "the".toList, "every".toList, "day-of-week".toList, "from".toList,
    "in".toList]

section Groups

variable {values values' : List Nat} {w : List Char}

theorem mem_dayGroups (h : groupWord? values = some w) : (values, w) ∈ FieldName.dayGroups := by
  obtain ⟨before, after, hsplit, -⟩ := List.lookup_eq_some_iff.1 h
  rw [hsplit]
  simp

theorem groupWord?_inj (h : groupWord? values = some w) (h' : groupWord? values' = some w) :
    values = values' := by
  have hall : ∀ g ∈ FieldName.dayGroups, ∀ g' ∈ FieldName.dayGroups, g.2 = g'.2 → g.1 = g'.1 := by
    decide
  exact hall _ (mem_dayGroups h) _ (mem_dayGroups h') rfl

theorem groupWord?_mem_vocabulary (h : groupWord? values = some w) :
    bare w ∈ FieldName.dayOfWeek.vocabulary := by
  have hall : ∀ g ∈ FieldName.dayGroups, bare g.2 ∈ FieldName.dayOfWeek.vocabulary := by decide
  exact hall _ (mem_dayGroups h)

theorem groupWord?_not_mem_valueWords (h : groupWord? values = some w) :
    bare w ∉ FieldName.dayOfWeek.valueWords := by
  have hall : ∀ g ∈ FieldName.dayGroups, bare g.2 ∉ FieldName.dayOfWeek.valueWords := by decide
  exact hall _ (mem_dayGroups h)

end Groups

variable {dayOfMonth dayOfWeek dayOfWeek' month : Field} {table : List (List Char)}

theorem weekWords_of_restricted {ws : List (List Char)} (hopen : dayOfMonth.isWildcard = false) :
    weekWords dayOfMonth dayOfWeek ws = ws := by
  rw [weekWords, hopen]
  rfl

theorem weekWords_of_no_group {ws : List (List Char)} (hnone : groupWord? dayOfWeek.values = none) :
    weekWords dayOfMonth dayOfWeek ws = ws := by
  rw [weekWords, hnone, ite_self]

theorem weekWords_of_group {ws : List (List Char)} {w : List Char}
    (hopen : dayOfMonth.isWildcard = true) (hword : groupWord? dayOfWeek.values = some w) :
    weekWords dayOfMonth dayOfWeek ws = [w] := by
  rw [weekWords, if_pos hopen, hword]

-- In either case it does not matter which words are those for days that are no group.
theorem weekWords_cases (dayOfMonth dayOfWeek : Field) :
    (∀ ws, weekWords dayOfMonth dayOfWeek ws = ws) ∨
      ∃ w, groupWord? dayOfWeek.values = some w ∧
        ∀ ws, weekWords dayOfMonth dayOfWeek ws = [w] := by
  cases hword : groupWord? dayOfWeek.values with
  | none => exact .inl fun _ => weekWords_of_no_group hword
  | some w =>
    cases hopen : dayOfMonth.isWildcard with
    | false => exact .inl fun _ => weekWords_of_restricted hopen
    | true => exact .inr ⟨w, rfl, fun _ => weekWords_of_group hopen hword⟩

-- All days of the week are no group.
theorem groupWord?_of_isWildcard (hw : dayOfWeek.IsSound) (hname : dayOfWeek.name = .dayOfWeek)
    (hopen : dayOfWeek.isWildcard = true) : groupWord? dayOfWeek.values = none := by
  rw [hw.values_of_isWildcard hopen, hname]
  decide

theorem isWildcard_of_group (hw : dayOfWeek.IsSound) (hname : dayOfWeek.name = .dayOfWeek)
    {w : List Char} (hword : groupWord? dayOfWeek.values = some w) :
    dayOfWeek.isWildcard = false := by
  by_contra hopen
  rw [groupWord?_of_isWildcard hw hname (Bool.eq_true_of_not_eq_false hopen)] at hword
  cases hword

theorem told_ne_group (hw : dayOfWeek.IsSound) (hname : dayOfWeek.name = .dayOfWeek)
    {values : List Nat} {w : List Char} (hword : groupWord? values = some w) :
    dayOfWeek.told ≠ [w] := by
  intro htold
  have hmem := hw.bare_mem_valueWords (hname ▸ by decide) (htold ▸ List.mem_singleton_self w)
  rw [hname] at hmem
  exact groupWord?_not_mem_valueWords hword hmem

/-- What is told of the days of the week determines them. -/
theorem weekWords_inj (hw : dayOfWeek.IsSound) (hw' : dayOfWeek'.IsSound)
    (hname : dayOfWeek.name = .dayOfWeek) (hname' : dayOfWeek'.name = .dayOfWeek)
    (heq : weekWords dayOfMonth dayOfWeek dayOfWeek.told =
      weekWords dayOfMonth dayOfWeek' dayOfWeek'.told) : dayOfWeek = dayOfWeek' := by
  have hsame : dayOfWeek.told = dayOfWeek'.told → dayOfWeek = dayOfWeek' :=
    hw.told_inj hw' (hname.trans hname'.symm) (hname ▸ by decide)
  rcases weekWords_cases dayOfMonth dayOfWeek with hwords | ⟨w, hword, hwords⟩
  · rcases weekWords_cases dayOfMonth dayOfWeek' with hwords' | ⟨w, hword', hwords'⟩
    · rw [hwords, hwords'] at heq
      exact hsame heq
    · rw [hwords, hwords'] at heq
      exact absurd heq (told_ne_group hw hname hword')
  · rcases weekWords_cases dayOfMonth dayOfWeek' with hwords' | ⟨v, hword', hwords'⟩
    · rw [hwords, hwords'] at heq
      exact absurd heq.symm (told_ne_group hw' hname' hword)
    · rw [hwords, hwords', List.singleton_inj] at heq
      subst heq
      apply hw.eq_of_values hw' (hname.trans hname'.symm)
      · rw [isWildcard_of_group hw hname hword, isWildcard_of_group hw' hname' hword']
      · intro _
        exact groupWord?_inj hword hword'

theorem among_links (ht : ∀ w ∈ linkWords, bare w ∉ table) {ws : List (List Char)}
    (hws : ws ⊆ linkWords) : among table ws = [] :=
  among_eq_nil fun w hw => ht w (hws hw)

/-- The words for the days, as they are shown. -/
def dayWords (dayOfMonth dayOfWeek : Field) : String := dayWordsBy .plain dayOfMonth dayOfWeek

/-- The words for the months, as they are shown. -/
def monthWords (month : Field) : String := monthWordsBy .plain month

theorem monthWords_eq (hname : month.name = .month) (hopen : month.isWildcard = false) :
    monthWords month = " in " ++ month.phrase ∨ monthWords month = " from " ++ month.phrase := by
  have hcal : month.name ∈ FieldName.calendar := hname ▸ by decide
  unfold monthWords monthWordsBy
  rw [hopen, if_neg Bool.false_ne_true, LookUps.mapM_plain]
  dsimp only [LookUps.plain, bind, pure]
  cases hrun : month.isRun with
  | true =>
    right
    rw [Field.phrase_of_isRun hcal hopen hrun, hname,
      if_neg (Field.length_ne_one_of_isRun hrun), if_pos rfl]
    simp only [String.append_assoc]
  | false =>
    left
    rw [Field.phrase_of_not_isRun hcal hopen hrun, hname, if_neg Bool.false_ne_true]
    split
    · next hone =>
      rw [Field.text_firstValue FieldName.month.valueText hone]
    · rfl

theorem among_monthWords (hname : month.name = .month) (ht : ∀ w ∈ linkWords, bare w ∉ table) :
    among table (words (monthWords month).toList) = among table month.phraseWords := by
  unfold Field.phraseWords
  cases hopen : month.isWildcard with
  | true =>
    unfold monthWords monthWordsBy
    rw [hopen]
    rfl
  | false =>
    rw [if_neg Bool.false_ne_true]
    rcases monthWords_eq hname hopen with heq | heq
    · rw [heq, words_literal_append " in " rfl, among_append, among_links ht (by decide),
        List.nil_append]
    · rw [heq, words_literal_append " from " rfl, among_append, among_links ht (by decide),
        List.nil_append]

section DayWords

variable (hopen : dayOfMonth.isWildcard = true) (hopen' : dayOfWeek.isWildcard = false)
include hopen hopen'

theorem dayWords_of_group {w : List Char} (hword : groupWord? dayOfWeek.values = some w) :
    ∃ links ⊆ linkWords, words (dayWords dayOfMonth dayOfWeek).toList = links ++ [w] := by
  have hgroup := mem_dayGroups hword
  simp only [FieldName.dayGroups, List.mem_cons, Prod.mk.injEq, List.not_mem_nil,
    or_false] at hgroup
  unfold dayWords dayWordsBy Field.isRestricted
  rw [LookUps.mapM_plain]
  dsimp only [LookUps.plain, bind, pure]
  simp only [hopen, hopen', Bool.not_true, Bool.not_false, Bool.false_and, Bool.false_eq_true,
    ↓reduceIte]
  rcases hgroup with ⟨hvalues, rfl⟩ | ⟨hvalues, rfl⟩
  · rw [if_pos hvalues]
    exact ⟨["on".toList, "every".toList], by decide, rfl⟩
  · rw [if_neg (by rw [hvalues]; decide), if_pos hvalues]
    exact ⟨["on".toList], by decide, rfl⟩

theorem dayWords_of_no_group (hname : dayOfWeek.name = .dayOfWeek)
    (hnone : groupWord? dayOfWeek.values = none) :
    dayWords dayOfMonth dayOfWeek = " on " ++ dayOfWeek.phrase ∨
      dayWords dayOfMonth dayOfWeek = " on every day-of-week from " ++ dayOfWeek.phrase := by
  have hcal : dayOfWeek.name ∈ FieldName.calendar := hname ▸ by decide
  have hweekday : dayOfWeek.values ≠ [1, 2, 3, 4, 5] := by
    intro heq
    exact absurd (heq ▸ hnone) (by decide)
  have hweekend : dayOfWeek.values ≠ [0, 6] := by
    intro heq
    exact absurd (heq ▸ hnone) (by decide)
  unfold dayWords dayWordsBy Field.isRestricted
  rw [LookUps.mapM_plain]
  dsimp only [LookUps.plain, bind, pure]
  simp only [hopen, hopen', Bool.not_true, Bool.not_false, Bool.false_and, Bool.false_eq_true,
    ↓reduceIte, hweekday, hweekend]
  cases hrun : dayOfWeek.isRun with
  | true =>
    right
    rw [Field.phrase_of_isRun hcal hopen' hrun, hname, if_pos rfl]
    simp only [String.append_assoc]
  | false =>
    left
    rw [Field.phrase_of_not_isRun hcal hopen' hrun, hname, if_neg Bool.false_ne_true]

end DayWords

theorem among_dayWords (hw : dayOfWeek.IsSound) (hname : dayOfWeek.name = .dayOfWeek)
    (ht : ∀ w ∈ linkWords, bare w ∉ table) :
    among table (words (dayWords dayOfMonth dayOfWeek).toList) =
      among table dayOfMonth.phraseWords ++
        among table (weekWords dayOfMonth dayOfWeek dayOfWeek.phraseWords) := by
  have hnone : among table [] = [] := rfl
  cases hopen : dayOfMonth.isWildcard <;> cases hopen' : dayOfWeek.isWildcard
  · have hlead : among table (words " on ".toList) = [] := among_links ht (by decide)
    have hmiddle : among table (words " and on ".toList) = [] := among_links ht (by decide)
    have hwords : dayWords dayOfMonth dayOfWeek =
        " on " ++ dayOfMonth.phrase ++ " and on " ++ dayOfWeek.phrase := by
      rw [dayWords, dayWordsBy, Field.isRestricted, Field.isRestricted, hopen, hopen']
      rfl
    rw [weekWords_of_restricted hopen, Field.phraseWords, Field.phraseWords, hopen, hopen', hwords,
      words_append_literal_append " and on " rfl rfl, words_literal_append " on " rfl]
    simp only [among_append, hlead, hmiddle, List.nil_append, List.append_nil, Bool.false_eq_true,
      ↓reduceIte]
  · have hlead : among table (words " on the ".toList) = [] := among_links ht (by decide)
    have hwords : dayWords dayOfMonth dayOfWeek = " on the " ++ dayOfMonth.phrase := by
      rw [dayWords, dayWordsBy, Field.isRestricted, Field.isRestricted, hopen, hopen']
      rfl
    rw [weekWords_of_restricted hopen, Field.phraseWords, Field.phraseWords, hopen, hopen', hwords,
      words_literal_append " on the " rfl]
    simp only [among_append, hlead, hnone, List.nil_append, List.append_nil, Bool.false_eq_true,
      ↓reduceIte]
  · rw [Field.phraseWords, if_pos hopen, hnone, List.nil_append]
    cases hword : groupWord? dayOfWeek.values with
    | some w =>
      obtain ⟨links, hlinks, hwords⟩ := dayWords_of_group hopen hopen' hword
      rw [weekWords_of_group hopen hword, hwords, among_append, among_links ht hlinks,
        List.nil_append]
    | none =>
      rw [weekWords_of_no_group hword, Field.phraseWords, hopen', if_neg Bool.false_ne_true]
      rcases dayWords_of_no_group hopen hopen' hname hword with heq | heq
      · rw [heq, words_literal_append " on " rfl, among_append, among_links ht (by decide),
          List.nil_append]
      · rw [heq, words_literal_append " on every day-of-week from " rfl, among_append,
          among_links ht (by decide), List.nil_append]
  · have hwords : dayWords dayOfMonth dayOfWeek = "" := by
      rw [dayWords, dayWordsBy, Field.isRestricted, Field.isRestricted, hopen, hopen']
      rfl
    rw [weekWords_of_no_group (groupWord?_of_isWildcard hw hname hopen'), Field.phraseWords,
      Field.phraseWords, if_pos hopen, if_pos hopen', hwords]
    rfl

theorem linkWords_not_mem_vocabulary {name : FieldName} (hcal : name ∈ FieldName.calendar) :
    ∀ w ∈ linkWords, bare w ∉ name.vocabulary := by
  have hall : ∀ name ∈ FieldName.calendar, ∀ w ∈ linkWords, bare w ∉ name.vocabulary := by
    decide
  exact hall name hcal

theorem among_vocabulary_weekWords (hw : dayOfWeek.IsSound) (hname : dayOfWeek.name = .dayOfWeek) :
    among FieldName.dayOfWeek.vocabulary (weekWords dayOfMonth dayOfWeek dayOfWeek.phraseWords) =
      weekWords dayOfMonth dayOfWeek dayOfWeek.told := by
  rcases weekWords_cases dayOfMonth dayOfWeek with hwords | ⟨w, hword, hwords⟩
  · rw [hwords, hwords, hw.among_vocabulary hname (by decide)]
  · rw [hwords, hwords]
    apply among_eq_self
    intro v hv
    rw [List.mem_singleton.1 hv]
    exact groupWord?_mem_vocabulary hword

theorem among_vocabulary_weekWords_of_ne (hw : dayOfWeek.IsSound)
    (hname : dayOfWeek.name = .dayOfWeek) {name : FieldName} (hcal : name ∈ FieldName.calendar)
    (hne : .dayOfWeek ≠ name) :
    among name.vocabulary (weekWords dayOfMonth dayOfWeek dayOfWeek.phraseWords) = [] := by
  rcases weekWords_cases dayOfMonth dayOfWeek with hwords | ⟨w, hword, hwords⟩
  · rw [hwords, hw.among_vocabulary_of_ne hname (by decide) hcal hne]
  · rw [hwords]
    apply among_eq_nil
    intro v hv
    rw [List.mem_singleton.1 hv]
    exact FieldName.vocabulary_disjoint (by decide) hcal hne (groupWord?_mem_vocabulary hword)

theorem isBlank_head_dayWords :
    ∀ c ∈ (dayWords dayOfMonth dayOfWeek).toList.head?, isBlank c = true := by
  unfold dayWords dayWordsBy
  dsimp only [LookUps.plain, bind, pure]
  split_ifs <;> simp [String.toList_append] <;> decide

theorem isBlank_head_monthWords : ∀ c ∈ (monthWords month).toList.head?, isBlank c = true := by
  unfold monthWords monthWordsBy
  dsimp only [LookUps.plain, bind, pure]
  split_ifs <;> simp [String.toList_append] <;> decide

/-- The words of a sentence before its full stop. -/
def spokenWords (s : Schedule) : List (List Char) :=
  words (timeWords s.minute s.hour).toList ++ words (dayWords s.dayOfMonth s.dayOfWeek).toList ++
    words (monthWords s.month).toList

variable {s t : Schedule}

theorem spokenWords_eq_of_sentence (h : s.sentence = t.sentence) :
    s.spokenWords = t.spokenWords := by
  have hwords : ∀ s : Schedule,
      ∃ cs, words cs = s.spokenWords ∧ s.sentence.toList = cs ++ ['.'] := by
    intro s
    refine ⟨(timeWords s.minute s.hour ++ dayWords s.dayOfMonth s.dayOfWeek ++
      monthWords s.month).toList, ?_, String.toList_append⟩
    rw [String.toList_append, String.toList_append,
      words_append_of_head isBlank_head_monthWords, words_append_of_head isBlank_head_dayWords]
    rfl
  obtain ⟨cs, hcs, hs⟩ := hwords s
  obtain ⟨ds, hds, ht⟩ := hwords t
  rw [h, ht] at hs
  rw [← hcs, ← hds, List.append_cancel_right hs]

namespace IsSound

theorem isTimePair (hs : s.IsSound) : IsTimePair s.minute s.hour :=
  ⟨hs.name_eq .minute, hs.field .minute, hs.name_eq .hour, hs.field .hour⟩

/-- The words of a sentence for values of a field of the calendar are those told of that field. -/
theorem among_spokenWords (hs : s.IsSound) :
    among FieldName.dayOfMonth.vocabulary s.spokenWords = s.dayOfMonth.told ∧
      among FieldName.month.vocabulary s.spokenWords = s.month.told ∧
      among FieldName.dayOfWeek.vocabulary s.spokenWords =
        weekWords s.dayOfMonth s.dayOfWeek s.dayOfWeek.told := by
  have hday : s.dayOfMonth.IsSound := hs.field .dayOfMonth
  have hday_name : s.dayOfMonth.name = .dayOfMonth := hs.name_eq .dayOfMonth
  have hmonth : s.month.IsSound := hs.field .month
  have hmonth_name : s.month.name = .month := hs.name_eq .month
  have hweek : s.dayOfWeek.IsSound := hs.field .dayOfWeek
  have hweek_name : s.dayOfWeek.name = .dayOfWeek := hs.name_eq .dayOfWeek
  obtain ⟨form, htime⟩ := exists_timeWords hs.isTimePair
  have hparts : ∀ name ∈ FieldName.calendar, among name.vocabulary s.spokenWords =
      among name.vocabulary s.dayOfMonth.phraseWords ++
        among name.vocabulary (weekWords s.dayOfMonth s.dayOfWeek s.dayOfWeek.phraseWords) ++
          among name.vocabulary s.month.phraseWords := by
    intro name hcal
    have hlinks := linkWords_not_mem_vocabulary hcal
    rw [spokenWords, among_append, among_append, htime.among_vocabulary hs.isTimePair hcal,
      among_dayWords hweek hweek_name hlinks, among_monthWords hmonth_name hlinks,
      List.nil_append]
  refine ⟨?_, ?_, ?_⟩
  · rw [hparts .dayOfMonth (by decide), hday.among_vocabulary hday_name (by decide),
      among_vocabulary_weekWords_of_ne hweek hweek_name (by decide) (by decide),
      hmonth.among_vocabulary_of_ne hmonth_name (by decide) (by decide) (by decide),
      List.append_nil, List.append_nil]
  · rw [hparts .month (by decide), hmonth.among_vocabulary hmonth_name (by decide),
      among_vocabulary_weekWords_of_ne hweek hweek_name (by decide) (by decide),
      hday.among_vocabulary_of_ne hday_name (by decide) (by decide) (by decide),
      List.nil_append, List.nil_append]
  · rw [hparts .dayOfWeek (by decide), among_vocabulary_weekWords hweek hweek_name,
      hday.among_vocabulary_of_ne hday_name (by decide) (by decide) (by decide),
      hmonth.among_vocabulary_of_ne hmonth_name (by decide) (by decide) (by decide),
      List.nil_append, List.append_nil]

end IsSound

/-- The words of a sentence determine the fields. -/
theorem field_eq_of_spokenWords (hs : s.IsSound) (ht : t.IsSound)
    (heq : s.spokenWords = t.spokenWords) (name : FieldName) : s.field name = t.field name := by
  obtain ⟨hday, hmonth, hweek⟩ := hs.among_spokenWords
  obtain ⟨hday', hmonth', hweek'⟩ := ht.among_spokenWords
  rw [← heq] at hday' hmonth' hweek'
  have hnames : ∀ name, (s.field name).name = (t.field name).name :=
    fun name => (hs.name_eq name).trans (ht.name_eq name).symm
  have hcalendar : ∀ name, name ∈ FieldName.calendar → (s.field name).name ∈ FieldName.calendar :=
    fun name hcal => (hs.name_eq name).symm ▸ hcal
  have hsame_day : s.dayOfMonth = t.dayOfMonth :=
    (hs.field .dayOfMonth).told_inj (ht.field .dayOfMonth) (hnames .dayOfMonth)
      (hcalendar .dayOfMonth (by decide)) (hday.symm.trans hday')
  have hsame_month : s.month = t.month :=
    (hs.field .month).told_inj (ht.field .month) (hnames .month) (hcalendar .month (by decide))
      (hmonth.symm.trans hmonth')
  rw [hsame_day] at hweek
  have hsame_week : s.dayOfWeek = t.dayOfWeek :=
    weekWords_inj (hs.field .dayOfWeek) (ht.field .dayOfWeek) (hs.name_eq .dayOfWeek)
      (ht.name_eq .dayOfWeek) (hweek.symm.trans hweek')
  -- With the days and months the same, what is left of the sentence is the time.
  have htime : words (timeWords s.minute s.hour).toList =
      words (timeWords t.minute t.hour).toList := by
    unfold spokenWords at heq
    rw [hsame_day, hsame_month, hsame_week] at heq
    exact List.append_cancel_right (List.append_cancel_right heq)
  obtain ⟨form, hform⟩ := exists_timeWords hs.isTimePair
  obtain ⟨form', hform'⟩ := exists_timeWords ht.isTimePair
  rw [← htime] at hform'
  have hsame_form := hform.form_eq hform' hs.isTimePair ht.isTimePair
  subst hsame_form
  obtain ⟨hsame_minute, hsame_hour⟩ := hform.inj hform' hs.isTimePair ht.isTimePair rfl
  cases name with
  | minute => exact hsame_minute
  | hour => exact hsame_hour
  | dayOfMonth => exact hsame_day
  | month => exact hsame_month
  | dayOfWeek => exact hsame_week

/-- The sentence determines the schedule: expressions that are put alike in English have the same
fields, each with the same values and open or not alike, and so they match the same times. -/
theorem field_eq_of_sentence {e e' : String} (hs : ofExpression e = .ok s)
    (ht : ofExpression e' = .ok t) (heq : s.sentence = t.sentence) :
    (∀ name, s.field name = t.field name) ∧ ∀ w : WallTime, s.matchesTime w = t.matchesTime w := by
  obtain ⟨text, hparse⟩ := exists_parse_of_ofExpression hs
  obtain ⟨text', hparse'⟩ := exists_parse_of_ofExpression ht
  have hfields := field_eq_of_spokenWords (isSound_of_parse hparse) (isSound_of_parse hparse')
    (spokenWords_eq_of_sentence heq)
  refine ⟨hfields, fun w => ?_⟩
  have hminute : s.minute = t.minute := hfields .minute
  have hhour : s.hour = t.hour := hfields .hour
  have hday : s.dayOfMonth = t.dayOfMonth := hfields .dayOfMonth
  have hmonth : s.month = t.month := hfields .month
  have hweek : s.dayOfWeek = t.dayOfWeek := hfields .dayOfWeek
  unfold matchesTime matchesDay
  rw [hminute, hhour, hday, hmonth, hweek]

/-- Two expressions of one sentence: the days of the week by their names, and as a list. -/
theorem field_eq_of_sentence_weekdays :
    ∃ s t, ofExpression "0 9 * * mon-fri" = .ok s ∧ ofExpression "0 9 * * 2-5,1" = .ok t ∧
      s.sentence = "At 09:00 on every weekday." ∧ t.sentence = "At 09:00 on every weekday." ∧
      s.expression ≠ t.expression ∧ (∀ name, s.field name = t.field name) ∧
      ∀ w : WallTime, s.matchesTime w = t.matchesTime w := by
  let weekdays (expression : String) : Schedule :=
    ⟨expression, .ofValues .minute [0] false, .ofValues .hour [9] false, .wildcard .dayOfMonth,
      .wildcard .month, .ofValues .dayOfWeek [1, 2, 3, 4, 5] false⟩
  have hs : ofExpression "0 9 * * mon-fri" = .ok (weekdays "0 9 * * 1-5") := by decide +kernel
  have ht : ofExpression "0 9 * * 2-5,1" = .ok (weekdays "0 9 * * 2-5,1") := by decide +kernel
  have hsentence : (weekdays "0 9 * * 1-5").sentence = "At 09:00 on every weekday." := by
    decide +kernel
  have hsentence' : (weekdays "0 9 * * 2-5,1").sentence = "At 09:00 on every weekday." := by
    decide +kernel
  exact ⟨_, _, hs, ht, hsentence, hsentence', by decide,
    field_eq_of_sentence hs ht (hsentence.trans hsentence'.symm)⟩

end Cron.Schedule
