import Cron.Proofs.Schedule.Building
import Cron.Wizard

/-!
Dialogues that build an expression. Each answer is checked on its own, with the other fields left
open; the values of a dialogue are then put together without another check. They make an expression,
since building goes field by field.
-/
namespace Cron.Wizard

open Schedule Text

/-- A value is right for a field: it is among the common ones, or passes as a typed one. -/
def Fits (name : FieldName) (value : String) : Prop :=
  (∃ label, (value, label) ∈ name.presets) ∨ verdictOn name value = .ok .accepted

/-- The values so far are right for their fields. -/
def IsFit (w : Wizard) : Prop :=
  ∀ (i : Nat) (name : FieldName) (value : String),
    FieldName.all[i]? = some name → w.values[i]? = some value → Fits name value

/-- Whether a question takes a value for an answer: a selection takes its choices only. -/
def Question.offers : Question → String → Bool
  | .select field, value => ((choices field).map (·.2)).contains value
  | .typed _, _ => true

/-- Whether answers to selections are choices of theirs. -/
def chooses (w : Wizard) : List (Option String) → Bool
  | some value :: rest =>
    match w.question? with
    | none => true
    | some question =>
      question.offers value &&
        match w.answer question value with
        | .ok (_, w) => chooses w rest
        | .error _ => true
  | _ => true

variable {w w' : Wizard} {name : FieldName} {value : String} {question : Question}
  {verdict : Verdict} {answers : List (Option String)} {asked : List (Question × Verdict)}
  {values : List String}

theorem isOk_readWord_presets (name : FieldName) :
    (name.presets.all fun entry => (name.readWord (givenWord entry.1)).isOk) = true := by
  cases name <;> decide

theorem verdictOn_eq_accepted_iff :
    verdictOn name value = .ok .accepted ↔
      ∃ expression, build (only name value) = .ok expression := by
  unfold verdictOn only
  split
  · next expression h => exact iff_of_true rfl ⟨expression, h⟩
  · next h => simp [h]
  · next h => simp [h]

-- A value that is right for its field makes an expression with the other fields left open.
theorem Fits.exists_build (h : Fits name value) :
    ∃ expression, build (only name value) = .ok expression := by
  rcases h with ⟨label, hmem⟩ | haccepted
  · have hok := List.all_eq_true.1 (isOk_readWord_presets name) _ hmem
    exact exists_build_only_iff.2 (exists_eq_ok_of_isOk hok)
  · exact verdictOn_eq_accepted_iff.1 haccepted

theorem mem_choices (h : ((choices name).map (·.2)).contains value = true) :
    value = customChoice ∨ ∃ label, (value, label) ∈ name.presets := by
  rw [List.contains_iff_mem] at h
  simp only [choices, List.map_append, List.map_map, List.mem_append, List.mem_map,
    List.map_cons, List.map_nil, List.mem_singleton, Function.comp_apply, Prod.exists] at h
  rcases h with ⟨v, label, hmem, rfl⟩ | rfl
  · exact .inr ⟨label, hmem⟩
  · exact .inl rfl

/-! One answer, and then all of them, leave values that are right for their fields. -/

theorem isFit_start : start.IsFit := by
  intro i name value _ hvalue
  cases hvalue

theorem IsFit.append (h : w.IsFit) (hname : FieldName.all[w.values.length]? = some name)
    (hvalue : Fits name value) : IsFit ⟨w.values ++ [value], false⟩ := by
  intro i other v hother hv
  dsimp only at hv
  rcases Nat.lt_trichotomy i w.values.length with hlt | rfl | hgt
  · rw [List.getElem?_append_left hlt] at hv
    exact h i other v hother hv
  · rw [hname] at hother
    rw [List.getElem?_concat_length] at hv
    cases hother
    cases hv
    exact hvalue
  · rw [List.getElem?_eq_none (by simpa using Nat.succ_le_of_lt hgt)] at hv
    cases hv

theorem IsFit.answer (h : w.IsFit) (hquestion : w.question? = some question)
    (hoffers : question.offers value = true)
    (hanswer : w.answer question value = .ok (verdict, w')) : w'.IsFit := by
  obtain ⟨name, hname, rfl⟩ := Option.map_eq_some_iff.1 hquestion
  by_cases htyping : w.isTyping = true
  · rw [if_pos htyping] at hanswer
    unfold Wizard.answer at hanswer
    dsimp only at hanswer
    split at hanswer
    · next haccepted =>
      cases hanswer
      exact h.append hname (.inr haccepted)
    · cases hanswer
      exact h
    · cases hanswer
  · rw [if_neg htyping] at hanswer hoffers
    unfold Wizard.answer at hanswer
    dsimp only at hanswer
    split at hanswer
    · cases hanswer
      exact fun i name value => h i name value
    · next hcustom =>
      cases hanswer
      exact h.append hname (.inl ((mem_choices hoffers).resolve_left hcustom))

-- The values of a dialogue are those of its last state, which asks nothing more.
theorem IsFit.run (h : w.IsFit) (hchooses : w.chooses answers = true)
    (hrun : w.run answers = .ok (asked, some values)) :
    ∃ w' : Wizard, w'.IsFit ∧ w'.question? = none ∧ w'.values = values := by
  induction answers generalizing w asked with
  | nil =>
    unfold Wizard.run at hrun
    cases hquestion : w.question? with
    | none =>
      rw [hquestion] at hrun
      cases hrun
      exact ⟨w, h, hquestion, rfl⟩
    | some question =>
      rw [hquestion] at hrun
      cases hrun
  | cons answer rest ih =>
    cases hquestion : w.question? with
    | none =>
      unfold Wizard.run at hrun
      simp only [hquestion] at hrun
      refine ⟨w, h, hquestion, ?_⟩
      cases answer <;> cases hrun <;> rfl
    | some question =>
      cases answer with
      | none =>
        unfold Wizard.run at hrun
        rw [hquestion] at hrun
        cases hrun
      | some value =>
        unfold Wizard.run at hrun
        unfold chooses at hchooses
        simp only [hquestion] at hrun hchooses
        obtain ⟨hoffers, hrest⟩ := Bool.and_eq_true_iff.1 hchooses
        obtain ⟨⟨verdict, next⟩, hanswer, hrun⟩ := bind_eq_ok_iff.1 hrun
        obtain ⟨⟨asked', values'⟩, hmore, hrun⟩ := bind_eq_ok_iff.1 hrun
        cases hrun
        rw [hanswer] at hrest
        exact ih (h.answer hquestion hoffers hanswer) hrest hmore

-- All five values are there once nothing is asked any more.
theorem IsFit.fits_valueOf (h : w.IsFit) (hnone : w.question? = none) (name : FieldName) :
    Fits name (valueOf w.values name) := by
  have hlength : FieldName.all.length ≤ w.values.length :=
    List.getElem?_eq_none_iff.1 (Option.map_eq_none_iff.1 hnone)
  obtain ⟨values, isTyping⟩ := w
  match values, hlength with
  | minute :: hour :: day :: month :: weekday :: rest, _ =>
    cases name with
    | minute => exact h 0 .minute minute rfl rfl
    | hour => exact h 1 .hour hour rfl rfl
    | dayOfMonth => exact h 2 .dayOfMonth day rfl rfl
    | month => exact h 3 .month month rfl rfl
    | dayOfWeek => exact h 4 .dayOfWeek weekday rfl rfl

/-! A dialogue that got all its values ends with their expression. -/

theorem exists_schedule_of_fits {value : FieldName → String}
    (h : ∀ name, Fits name (value name)) :
    ∃ expression s, build value = .ok expression ∧ ofExpression expression = .ok s :=
  exists_schedule_of_only fun name => (h name).exists_build

theorem finish_eq {expression : String} {s : Schedule}
    (hbuild : build (valueOf values) = .ok expression) (hs : ofExpression expression = .ok s)
    (clocks : ClockRule) (now : Moment) (zone : String) (count : Int) :
    finish clocks now zone count asked values =
      (s.upcoming clocks now count Schedule.defaultMinutes zone >>= fun runs =>
        .ok ⟨asked, some expression, .done (opening ++ closing expression s.sentence runs)⟩) := by
  unfold finish
  rw [hbuild]
  change (ofExpression expression >>= _) = _
  obtain ⟨text, hparse⟩ := exists_parse_of_ofExpression hs
  rw [hs, ok_bind, (isSound_of_parse hparse).sentence?_eq]
  rfl

/-- Values make an expression exactly if each of them does with the other fields left open. Its
words are the values without their blanks, and each word gives the same field as its value alone.
So values that are right for their fields make an expression; the values of a dialogue are right
for theirs, and after the dialogue the runs alone can fail. -/
theorem builds_field_by_field :
    (∀ value : FieldName → String,
      ((∃ expression, build value = .ok expression) ↔
        ∀ name, ∃ alone, build (only name (value name)) = .ok alone) ∧
      ∀ expression, build value = .ok expression →
        expression = builtText value ∧
        words expression.toList = FieldName.all.map (fun name => givenWord (value name)) ∧
        ∃ s, ofExpression expression = .ok s ∧ ∀ name, ∃ alone t,
          build (only name (value name)) = .ok alone ∧ ofExpression alone = .ok t ∧
          s.field name = t.field name) ∧
    (∀ value : FieldName → String, (∀ name, Fits name (value name)) →
      ∃ expression s, build value = .ok expression ∧ ofExpression expression = .ok s) ∧
    ∀ answers asked values, start.chooses answers = true →
      start.run answers = .ok (asked, some values) →
      ∃ expression s, build (valueOf values) = .ok expression ∧
        ofExpression expression = .ok s ∧
        ∀ clocks now zone count, finish clocks now zone count asked values =
          (s.upcoming clocks now count Schedule.defaultMinutes zone >>= fun runs =>
            .ok ⟨asked, some expression,
              .done (opening ++ closing expression s.sentence runs)⟩) := by
  refine ⟨fun value => ⟨?_, ?_⟩, fun value => exists_schedule_of_fits, ?_⟩
  · exact exists_build_iff.trans (forall_congr' fun name => exists_build_only_iff.symm)
  · intro expression hbuild
    obtain ⟨rfl, s, hs⟩ := build_eq_ok_iff.1 hbuild
    have hread := exists_ofExpression_builtText_iff.1 ⟨s, hs, fun _ => rfl⟩
    refine ⟨rfl, words_builtText value, s, hs, fun name => ?_⟩
    obtain ⟨alone, halone⟩ := exists_build_only_iff.2 ⟨_, hread name⟩
    obtain ⟨rfl, t, ht⟩ := build_eq_ok_iff.1 halone
    have hsame := (hread name).symm.trans (field_of_build_only halone ht)
    exact ⟨_, t, halone, ht, Except.ok.inj hsame⟩
  · intro answers asked values hchooses hrun
    obtain ⟨w, hfit, hnone, rfl⟩ := isFit_start.run hchooses hrun
    obtain ⟨expression, s, hbuild, hs⟩ :=
      exists_schedule_of_fits fun name => hfit.fits_valueOf hnone name
    exact ⟨expression, s, hbuild, hs, finish_eq hbuild hs⟩

theorem builds_field_by_field_typed_hours :
    ∃ asked expression s,
      start.run [some "*/15", some "__custom__", some "9-17 / 2", some "1,15", some "__custom__",
        some "JAN,jul", some "1-5"] =
          .ok (asked, some ["*/15", "9-17 / 2", "1,15", "JAN,jul", "1-5"]) ∧
      build (valueOf ["*/15", "9-17 / 2", "1,15", "JAN,jul", "1-5"]) = .ok expression ∧
      expression = "*/15 9-17/2 1,15 JAN,jul 1-5" ∧ ofExpression expression = .ok s ∧
      build (only .hour "9-17 / 2") = .ok "* 9-17/2 * * *" := by
  let asked : List (Question × Verdict) :=
    [(.select .minute, .accepted), (.select .hour, .accepted), (.typed .hour, .accepted),
      (.select .dayOfMonth, .accepted), (.select .month, .accepted), (.typed .month, .accepted),
      (.select .dayOfWeek, .accepted)]
  have hrun : start.run [some "*/15", some "__custom__", some "9-17 / 2", some "1,15",
      some "__custom__", some "JAN,jul", some "1-5"] =
        .ok (asked, some ["*/15", "9-17 / 2", "1,15", "JAN,jul", "1-5"]) := by
    decide +kernel
  obtain ⟨expression, s, hbuild, hs, -⟩ :=
    builds_field_by_field.2.2 _ _ _ (by decide +kernel) hrun
  have htext := ((builds_field_by_field.1 _).2 _ hbuild).1
  obtain ⟨alone, halone⟩ := (builds_field_by_field.1 _).1.1 ⟨expression, hbuild⟩ .hour
  have halone_text := ((builds_field_by_field.1 _).2 _ halone).1
  refine ⟨asked, expression, s, hrun, hbuild, ?_, hs, ?_⟩
  · rw [htext]
    decide +kernel
  · change build (only .hour "9-17 / 2") = .ok alone at halone
    rw [halone, halone_text]
    decide +kernel

end Cron.Wizard
