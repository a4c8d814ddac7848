import Cron.Proofs.Field.Lookup
import Cron.Proofs.Schedule.Normal
import Cron.Schedule.Build
import Cron.Schedule.Sentence

/-!
What every schedule that was read keeps, and what its sentence and its table rely on: five sound
fields, each under its own name and from its own word. So no look-up goes astray, and the table has
a row for each field, in order.
-/
namespace Cron.Schedule

open Text

/-- A schedule whose fields stand in their places and are sound. -/
structure IsSound (s : Schedule) : Prop where
  name_eq : ∀ name, (s.field name).name = name
  field : ∀ name, (s.field name).IsSound

variable {s : Schedule} {expression : String}

theorem timeWordsBy_eq {minute hour : Field} (hm : minute.IsSound) (hh : hour.IsSound) :
    timeWordsBy .checked minute hour = some (timeWordsBy .plain minute hour) := by
  unfold timeWordsBy LookUps.checked
  dsimp only
  rw [hm.head?_eq, hh.head?_eq, hh.getLast?_eq]
  simp only [Option.bind_eq_bind, Option.bind_some]
  split_ifs <;> rfl

theorem dayWordsBy_eq {dayOfMonth dayOfWeek : Field} (hm : dayOfMonth.IsSound)
    (hw : dayOfWeek.IsSound) (hname : dayOfWeek.name = .dayOfWeek) :
    dayWordsBy .checked dayOfMonth dayOfWeek = some (dayWordsBy .plain dayOfMonth dayOfWeek) := by
  have hphrase : dayOfMonth.phraseBy .checked = some dayOfMonth.phrase := hm.phrase?_eq
  have hphrase' : dayOfWeek.phraseBy .checked = some dayOfWeek.phrase := hw.phrase?_eq
  have hfirst := hw.valueText?_eq hw.firstValue_mem
  have hlast := hw.valueText?_eq hw.lastValue_mem
  have hall := mapM_eq_some_map fun v hv => hw.valueText?_eq hv
  rw [hname] at hfirst hlast hall
  unfold dayWordsBy
  rw [hphrase, hphrase', LookUps.mapM_plain]
  unfold LookUps.checked
  dsimp only
  rw [hw.head?_eq, hw.getLast?_eq, hall]
  simp only [Option.bind_eq_bind, Option.bind_some, hfirst, hlast]
  split_ifs <;> rfl

theorem monthWordsBy_eq {month : Field} (h : month.IsSound) (hname : month.name = .month) :
    monthWordsBy .checked month = some (monthWordsBy .plain month) := by
  have hfirst := h.valueText?_eq h.firstValue_mem
  have hlast := h.valueText?_eq h.lastValue_mem
  have hall := mapM_eq_some_map fun v hv => h.valueText?_eq hv
  rw [hname] at hfirst hlast hall
  unfold monthWordsBy
  rw [LookUps.mapM_plain]
  unfold LookUps.checked
  dsimp only
  rw [h.head?_eq, h.getLast?_eq, hall]
  simp only [Option.bind_eq_bind, Option.bind_some, hfirst, hlast]
  split_ifs <;> rfl

theorem IsSound.sentence?_eq (h : s.IsSound) : s.sentence? = some s.sentence := by
  have htime := timeWordsBy_eq (h.field .minute) (h.field .hour)
  have hdays := dayWordsBy_eq (h.field .dayOfMonth) (h.field .dayOfWeek) (h.name_eq .dayOfWeek)
  have hmonths := monthWordsBy_eq (h.field .month) (h.name_eq .month)
  change timeWordsBy .checked s.minute s.hour = _ at htime
  change dayWordsBy .checked s.dayOfMonth s.dayOfWeek = _ at hdays
  change monthWordsBy .checked s.month = _ at hmonths
  rw [sentence?, sentenceBy, htime, hdays, hmonths]
  rfl

theorem rowBy_eq {field : Field} (h : field.IsSound) (word : String) :
    rowBy .checked field word = some (row field word) := by
  have hphrase : field.phraseBy .checked = some field.phrase := h.phrase?_eq
  unfold row rowBy rowPhraseBy
  rw [hphrase]
  split_ifs <;> rfl

theorem mem_fields {f : Field} : f ∈ s.fields ↔ ∃ name, s.field name = f := by
  unfold fields
  rw [List.mem_map]
  simp [FieldName.mem_all]

theorem IsSound.breakdown?_eq (h : s.IsSound) : s.breakdown? = some s.breakdown := by
  have hrow : ∀ entry ∈ s.fields.zip s.tokens,
      rowBy .checked entry.1 entry.2 = some (row entry.1 entry.2) := by
    intro entry hentry
    obtain ⟨name, hname⟩ := mem_fields.1 (List.of_mem_zip hentry).1
    exact rowBy_eq (hname ▸ h.field name) entry.2
  unfold breakdown? breakdown
  rw [mapM_eq_some_map hrow, List.zip, List.map_zipWith]

theorem isSound_of_parse (h : parse expression = .ok s) : s.IsSound := by
  have hword : ∀ name, ∃ w, Field.parse name (String.ofList w) = .ok (s.field name) := by
    intro name
    obtain ⟨w, -, hw⟩ := exists_mem_of_forall₂ (parse_eq_ok_iff.1 h).1.flip (FieldName.mem_all name)
    exact ⟨w, hw⟩
  constructor
  · intro name
    obtain ⟨w, hw⟩ := hword name
    exact (Field.isSound_of_parse hw).2.1
  · intro name
    obtain ⟨w, hw⟩ := hword name
    exact (Field.isSound_of_parse hw).1

theorem exists_parse_of_ofExpression (h : ofExpression expression = .ok s) :
    ∃ text, parse text = .ok s := by
  obtain ⟨text, -, hparse⟩ := bind_eq_ok_iff.1 h
  exact ⟨text, hparse⟩

-- The tokens of a schedule are the words that its fields were read from.
theorem forall₂_tokens (h : parse expression = .ok s) :
    List.Forall₂ (fun name token => Field.parse name token = .ok (s.field name)) FieldName.all
      s.tokens := by
  obtain ⟨hfields, hexpression⟩ := parse_eq_ok_iff.1 h
  rw [tokens, hexpression, words_spaced fun w hw => isWord_of_mem_words hw,
    List.forall₂_map_right_iff]
  exact hfields

theorem breakdown_getElem? {i : Nat} {name : FieldName} {token : String}
    (hname : FieldName.all[i]? = some name) (htoken : s.tokens[i]? = some token) :
    s.breakdown[i]? = some (row (s.field name) token) := by
  rw [breakdown, List.getElem?_zipWith, fields, List.getElem?_map, hname, htoken]
  rfl

/-- Fields that were read are sound, wherever they were read from, and their schedules can be shown:
nothing that a sentence, a phrase or a row looks up is missing, and there is a row for each field
and the word that gave it. -/
theorem isSound_and_shown :
    (∀ (text raw : String) (f : Field), Field.parseNamed text raw = .ok f →
      f.IsSound ∧ f.name.text = text ∧ (f.isWildcard = true ↔ trim raw.toList = ['*'])) ∧
    (∀ (expression : String) (s : Schedule),
      parse expression = .ok s ∨ ofExpression expression = .ok s →
      s.IsSound ∧ s.sentence? = some s.sentence ∧
      (∀ name, (s.field name).phrase? = some (s.field name).phrase) ∧
      s.breakdown? = some s.breakdown ∧ s.tokens.length = 5 ∧ s.breakdown.length = 5 ∧
      ∀ (i : Nat) (name : FieldName) (token : String),
        FieldName.all[i]? = some name → s.tokens[i]? = some token →
        s.breakdown[i]? = some (row (s.field name) token) ∧
          Field.parse name token = .ok (s.field name)) ∧
    ∀ (value : FieldName → String) (expression : String), build value = .ok expression →
      ∃ s, ofExpression expression = .ok s := by
  refine ⟨?_, ?_, ?_⟩
  · intro text raw f h
    obtain ⟨name, hname, hparse⟩ := Field.parseNamed_eq_ok_iff.1 h
    obtain ⟨hsound, rfl, hopen⟩ := Field.isSound_of_parse hparse
    exact ⟨hsound, by simpa using List.find?_some hname, hopen⟩
  · intro expression s h
    have hparse : ∃ text, parse text = .ok s :=
      h.elim (fun h => ⟨expression, h⟩) exists_parse_of_ofExpression
    obtain ⟨text, hparse⟩ := hparse
    have hsound := isSound_of_parse hparse
    have htokens := forall₂_tokens hparse
    have hcount : s.tokens.length = 5 := htokens.length_eq.symm
    refine ⟨hsound, hsound.sentence?_eq, fun name => (hsound.field name).phrase?_eq,
      hsound.breakdown?_eq, hcount, ?_, fun i name token hname htoken => ?_⟩
    · rw [breakdown, List.length_zipWith, hcount]
      rfl
    · refine ⟨breakdown_getElem? hname htoken, ?_⟩
      obtain ⟨hi, rfl⟩ := List.getElem?_eq_some_iff.1 hname
      obtain ⟨hj, rfl⟩ := List.getElem?_eq_some_iff.1 htoken
      exact htokens.get hi hj
  · intro value expression h
    obtain ⟨s, hs, hok⟩ := bind_eq_ok_iff.1 h
    have heq := Except.ok.inj hok
    exact ⟨s, heq ▸ hs⟩

/-- Friday to Sunday folds the seventh day to the first, and is a sound field; a schedule with it is
shown without a fault. -/
theorem isSound_and_shown_weekend :
    let weekend : Field := .ofValues .dayOfWeek [0, 5, 6] false
    Field.parseNamed "day_of_week" "5-7" = .ok weekend ∧ weekend.IsSound ∧
      build (fun _ => " * ") = .ok "* * * * *" ∧
      ∃ s, ofExpression "* * * * *" = .ok s ∧ s.breakdown? = some s.breakdown := by
  intro weekend
  have hfield : Field.parseNamed "day_of_week" "5-7" = .ok weekend := by decide +kernel
  have hbuild : build (fun _ => " * ") = .ok "* * * * *" := by decide +kernel
  obtain ⟨hfields, hschedules, hbuilt⟩ := isSound_and_shown
  obtain ⟨s, hs⟩ := hbuilt _ _ hbuild
  exact ⟨hfield, (hfields _ _ _ hfield).1, hbuild, s, hs, (hschedules _ s (.inr hs)).2.2.2.1⟩

end Cron.Schedule
