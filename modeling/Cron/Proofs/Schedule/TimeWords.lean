import Cron.Proofs.Field.Spelling
import Cron.Schedule.Sentence

/-!
What the words for the time tell. There are six ways to put the time, each with key words of its
own; once the way is known, the words between the key words give back the minutes and the hours.
-/
namespace Cron

open Text

/-- The ways to put the time: `Every minute`, `Every minute past hours 1, 3`, `Every minute from 9am
through 5pm`, `At minutes 1, 3 of every hour`, `At 09:00, 17:00`, `At minute 1, 3 past hour 9`. -/
inductive TimeForm
  | every
  | past
  | through
  | each
  | clocks
  | both

/-- The words that tell the form. -/
def TimeForm.keyWords : TimeForm → List (List Char)
  | every => ["Every".toList]
  | past => ["Every".toList, "past".toList]
  | through => ["Every".toList, "from".toList, "through".toList]
  | each => ["At".toList, "of".toList, "every".toList]
  | clocks => ["At".toList]
  | both => ["At".toList, "past".toList]

def keyWords : List (List Char) :=
  ["Every".toList, "At".toList, "past".toList, "from".toList, "through".toList, "of".toList,
    "every".toList]

theorem TimeForm.eq_of_keyWords {form form' : TimeForm} (h : form.keyWords = form'.keyWords) :
    form = form' := by
  cases form <;> cases form' <;> first | rfl | exact absurd h (by decide)

theorem TimeForm.among_keyWords (form : TimeForm) :
    among Cron.keyWords form.keyWords = form.keyWords := by
  cases form <;> decide

theorem TimeForm.keyWords_subset {form : TimeForm} : form.keyWords ⊆ Cron.keyWords := by
  cases form <;> decide

/-- The words that name the unit of a number. -/
def unitWords : List (List Char) :=
  ["minute".toList, "minutes".toList, "hour".toList, "hours".toList]

/-- The words of a text that puts the time of a minute and an hour field in a form. -/
inductive TimeWords (minute hour : Field) : TimeForm → List (List Char) → Prop
  | every (hm : minute.isWildcard = true) (hh : hour.isWildcard = true) :
      TimeWords minute hour .every ["Every".toList, "minute".toList]
  | past {unit : List Char} (hunit : unit ∈ unitWords) (hm : minute.isWildcard = true)
      (hh : hour.isWildcard = false) :
      TimeWords minute hour .past
        (["Every".toList, "minute".toList, "past".toList, unit] ++
          listedValues toString hour.values)
  | through (hm : minute.isWildcard = true) (hh : hour.isWildcard = false)
      (hrun : hour.isRun = true) :
      TimeWords minute hour .through
        (["Every".toList, "minute".toList, "from".toList] ++
          words (hourText hour.firstValue).toList ++ ["through".toList] ++
            words (hourText hour.lastValue).toList)
  | each {unit : List Char} (hunit : unit ∈ unitWords) (hm : minute.isWildcard = false)
      (hh : hour.isWildcard = true) :
      TimeWords minute hour .each
        (["At".toList, unit] ++ listedValues toString minute.values ++
          ["of".toList, "every".toList, "hour".toList])
  | clocks {m : Nat} (hone : minute.values = [m]) (hm : minute.isWildcard = false)
      (hh : hour.isWildcard = false) :
      TimeWords minute hour .clocks
        (["At".toList] ++ listedValues (fun (h : Nat) => timeText h m) hour.values)
  | both (hm : minute.isWildcard = false) (hh : hour.isWildcard = false) :
      TimeWords minute hour .both
        (["At".toList, "minute".toList] ++ listedValues toString minute.values ++
          ["past".toList, "hour".toList] ++ listedValues toString hour.values)

theorem isSpelling_toString : IsSpelling (fun v : Nat => toString v) FieldName.minute.domain := by
  decide +kernel

section Clock

variable {h h' m m' : Nat}

theorem hour_mem_domain_minute (hh : h ∈ FieldName.hour.domain) : h ∈ FieldName.minute.domain := by
  have hbounds := FieldName.mem_domain.1 hh
  exact FieldName.mem_domain.2 ⟨hbounds.1, Nat.le_trans hbounds.2 (by decide)⟩

theorem toList_timeText :
    (timeText h m).toList = (padNumber 2 h).toList ++ ':' :: (padNumber 2 m).toList := by
  rw [timeText, String.toList_append, String.toList_append, List.append_assoc]
  rfl

theorem isSpelling_padNumber :
    IsSpelling (fun v : Nat => padNumber 2 v) FieldName.minute.domain := by
  decide +kernel

theorem timeText_inj (hh : h ∈ FieldName.hour.domain) (hh' : h' ∈ FieldName.hour.domain)
    (hm : m ∈ FieldName.minute.domain) (hm' : m' ∈ FieldName.minute.domain)
    (heq : timeText h m = timeText h' m') : h = h' ∧ m = m' := by
  have hcolon : ∀ v ∈ FieldName.minute.domain, ':' ∉ (padNumber 2 v).toList := by decide
  have hlist := congrArg String.toList heq
  rw [toList_timeText, toList_timeText, List.append_cons_inj_of_notMem
    (hcolon h (hour_mem_domain_minute hh)) (hcolon m hm), String.toList_inj, String.toList_inj]
    at hlist
  exact ⟨isSpelling_padNumber.inj (hour_mem_domain_minute hh) (hour_mem_domain_minute hh') hlist.1,
    isSpelling_padNumber.inj hm hm' hlist.2.2⟩

theorem isSpelling_timeText (hm : m ∈ FieldName.minute.domain) :
    IsSpelling (fun (h : Nat) => timeText h m) FieldName.hour.domain where
  isItem h hh := by
    have hcolon : IsItem [':'] := by decide
    rw [toList_timeText]
    exact (isSpelling_padNumber.isItem h (hour_mem_domain_minute hh)).append
      (hcolon.append (isSpelling_padNumber.isItem m hm))
  nodup := by
    apply List.Nodup.map_on
    · intro h hh h' hh' heq
      exact (timeText_inj hh hh' hm hm heq).1
    · decide

end Clock

/-- A minute field and an hour field, both sound. -/
structure IsTimePair (minute hour : Field) : Prop where
  minute_name : minute.name = .minute
  minute : minute.IsSound
  hour_name : hour.name = .hour
  hour : hour.IsSound

section Pair

variable {minute hour : Field} {v : Nat}

theorem IsTimePair.minute_mem (hp : IsTimePair minute hour) (hv : v ∈ minute.values) :
    v ∈ FieldName.minute.domain :=
  hp.minute_name ▸ hp.minute.mem_domain hv

theorem IsTimePair.hour_mem (hp : IsTimePair minute hour) (hv : v ∈ hour.values) :
    v ∈ FieldName.hour.domain :=
  hp.hour_name ▸ hp.hour.mem_domain hv

theorem IsTimePair.hour_mem_minute (hp : IsTimePair minute hour) (hv : v ∈ hour.values) :
    v ∈ FieldName.minute.domain :=
  hour_mem_domain_minute (hp.hour_mem hv)

end Pair

variable {minute hour minute' hour' : Field} {form form' : TimeForm} {ws ws' : List (List Char)}

theorem firstValue_eq_numbers {f : Field} (hone : f.values.length = 1) :
    toString f.firstValue = f.numbers :=
  Field.text_firstValue (fun v : Nat => toString v) hone

/-- The words for the time, as they are shown. -/
def Schedule.timeWords (minute hour : Field) : String := timeWordsBy .plain minute hour

theorem exists_timeWords (hp : IsTimePair minute hour) :
    ∃ form, TimeWords minute hour form (words (Schedule.timeWords minute hour).toList) := by
  have hminutes : words minute.numbers.toList = listedValues toString minute.values :=
    isSpelling_toString.words_joined fun _ => hp.minute_mem
  have hhours : words hour.numbers.toList = listedValues toString hour.values :=
    isSpelling_toString.words_joined fun _ => hp.hour_mem_minute
  unfold Schedule.timeWords Schedule.timeWordsBy
  dsimp only [LookUps.plain, bind, pure]
  cases hopen : minute.isWildcard with
  | true =>
    cases hopen' : hour.isWildcard with
    | true =>
      simp only [↓reduceIte]
      exact ⟨.every, .every hopen hopen'⟩
    | false =>
      simp only [Bool.false_eq_true, ↓reduceIte]
      split
      · next hone =>
        rw [firstValue_eq_numbers hone, words_literal_append "Every minute past hour " rfl, hhours]
        exact ⟨.past, .past (by decide) hopen hopen'⟩
      · split
        · next hrun =>
          rw [words_append_literal_append " through " rfl rfl,
            words_literal_append "Every minute from " rfl]
          exact ⟨.through, .through hopen hopen' hrun⟩
        · rw [words_literal_append "Every minute past hours " rfl, hhours]
          exact ⟨.past, .past (by decide) hopen hopen'⟩
  | false =>
    cases hopen' : hour.isWildcard with
    | true =>
      simp only [Bool.false_eq_true, ↓reduceIte]
      split
      · next hone =>
        rw [firstValue_eq_numbers hone, words_append_literal " of every hour" rfl,
          words_literal_append "At minute " rfl, hminutes]
        exact ⟨.each, .each (by decide) hopen hopen'⟩
      · rw [words_append_literal " of every hour" rfl, words_literal_append "At minutes " rfl,
          hminutes]
        exact ⟨.each, .each (by decide) hopen hopen'⟩
    | false =>
      simp only [Bool.false_eq_true, ↓reduceIte]
      split
      · next hone =>
        obtain ⟨m, hvalues⟩ := List.length_eq_one_iff.1 hone
        have hfirst : minute.firstValue = m := by rw [Field.firstValue, hvalues]; rfl
        have hmem : m ∈ FieldName.minute.domain := hp.minute_mem (by simp [hvalues])
        have hclocks := (isSpelling_timeText hmem).words_joined fun _ => hp.hour_mem
        rw [hfirst, words_literal_append "At " rfl, hclocks]
        exact ⟨.clocks, .clocks hvalues hopen hopen'⟩
      · rw [words_append_literal_append " past hour " rfl rfl,
          words_literal_append "At minute " rfl, hminutes, hhours]
        exact ⟨.both, .both hopen hopen'⟩

/-- A table of words without units, numbers, texts of hours, and times of a clock. -/
structure IsTimeless (table : List (List Char)) : Prop where
  unit : ∀ w ∈ unitWords, bare w ∉ table
  number : ∀ v ∈ FieldName.minute.domain, (toString v).toList ∉ table
  hour : ∀ v ∈ FieldName.hour.domain, ∀ w ∈ words (hourText v).toList, bare w ∉ table
  clock : ∀ w ∈ table, ':' ∉ w

instance (table : List (List Char)) : Decidable (IsTimeless table) :=
  decidable_of_iff ((∀ w ∈ unitWords, bare w ∉ table) ∧
      (∀ v ∈ FieldName.minute.domain, (toString v).toList ∉ table) ∧
      (∀ v ∈ FieldName.hour.domain, ∀ w ∈ words (hourText v).toList, bare w ∉ table) ∧
      ∀ w ∈ table, ':' ∉ w)
    ⟨fun h => ⟨h.1, h.2.1, h.2.2.1, h.2.2.2⟩, fun h => ⟨h.unit, h.number, h.hour, h.clock⟩⟩

theorem isTimeless_keyWords : IsTimeless keyWords := by decide +kernel

theorem isTimeless_vocabulary {name : FieldName} (h : name ∈ FieldName.calendar) :
    IsTimeless name.vocabulary := by
  have hall : ∀ name ∈ FieldName.calendar, IsTimeless name.vocabulary := by
    decide +kernel
  exact hall name h

section Among

variable {table : List (List Char)}

theorem IsTimeless.among_numbers {vs : List Nat} (ht : IsTimeless table)
    (hvs : ∀ v ∈ vs, v ∈ FieldName.minute.domain) :
    among table (listedValues toString vs) = [] := by
  apply among_listed_eq_nil fun w => isSpelling_toString.isItem_of_mem hvs
  intro w hw
  rw [List.map_map, List.mem_map] at hw
  obtain ⟨v, hv, rfl⟩ := hw
  exact ht.number v (hvs v hv)

theorem IsTimeless.among_clocks {vs : List Nat} {m : Nat} (ht : IsTimeless table)
    (hvs : ∀ v ∈ vs, v ∈ FieldName.hour.domain) (hm : m ∈ FieldName.minute.domain) :
    among table (listedValues (fun (h : Nat) => timeText h m) vs) = [] := by
  apply among_listed_eq_nil fun w => (isSpelling_timeText hm).isItem_of_mem hvs
  intro w hw hmem
  rw [List.map_map, List.mem_map] at hw
  obtain ⟨v, -, rfl⟩ := hw
  apply ht.clock _ hmem
  rw [Function.comp_apply, toList_timeText]
  simp

/-- Besides the key words of its form, no word for the time is in a timeless table. -/
theorem TimeWords.among_eq (h : TimeWords minute hour form ws) (ht : IsTimeless table)
    (hp : IsTimePair minute hour) : among table ws = among table form.keyWords := by
  have hunit : ∀ unit ∈ unitWords, among table [unit] = [] := by
    intro unit hu
    rw [among_cons_of_not_mem (ht.unit unit hu)]
    rfl
  have hminute := hunit "minute".toList (by decide)
  have hhour := hunit "hour".toList (by decide)
  have hminutes := ht.among_numbers fun _ => hp.minute_mem
  have hhours := ht.among_numbers fun _ => hp.hour_mem_minute
  have hcons : ∀ w v vs, among table (w :: v :: vs) = among table [w] ++ among table (v :: vs) :=
    fun w _ _ => List.filter_append [w] _
  have htext : ∀ v ∈ hour.values, among table (words (hourText v).toList) = [] := by
    intro v hv
    exact among_eq_nil (ht.hour v (hp.hour_mem hv))
  cases h with
  | every => simp only [TimeForm.keyWords, hcons, hminute, List.append_nil]
  | past hu =>
    simp only [TimeForm.keyWords, among_append, hcons, hminute, hunit _ hu, hhours,
      List.append_nil, List.nil_append]
  | through =>
    simp only [TimeForm.keyWords, among_append, hcons, hminute, htext _ hp.hour.firstValue_mem,
      htext _ hp.hour.lastValue_mem, List.append_nil, List.nil_append, List.append_assoc]
  | each hu =>
    simp only [TimeForm.keyWords, among_append, hcons, hhour, hunit _ hu, hminutes,
      List.append_nil]
  | clocks hone =>
    have hclocks := ht.among_clocks (fun _ => hp.hour_mem)
      (hp.minute_mem (hone ▸ List.mem_singleton_self _))
    simp only [TimeForm.keyWords, among_append, hclocks, List.append_nil]
  | both =>
    simp only [TimeForm.keyWords, among_append, hcons, hminute, hhour, hminutes, hhours,
      List.append_nil]

theorem TimeWords.among_vocabulary (h : TimeWords minute hour form ws)
    (hp : IsTimePair minute hour) {name : FieldName} (hcal : name ∈ FieldName.calendar) :
    among name.vocabulary ws = [] := by
  have hkeys : ∀ name ∈ FieldName.calendar, ∀ w ∈ keyWords, bare w ∉ name.vocabulary := by
    decide
  rw [h.among_eq (isTimeless_vocabulary hcal) hp]
  apply among_eq_nil
  intro w hw
  exact hkeys name hcal w (TimeForm.keyWords_subset hw)

end Among

-- The key words are all that is left of the words for the time among them, so they tell the form.
theorem TimeWords.form_eq (h : TimeWords minute hour form ws)
    (h' : TimeWords minute' hour' form' ws) (hp : IsTimePair minute hour)
    (hp' : IsTimePair minute' hour') : form = form' := by
  apply TimeForm.eq_of_keyWords
  rw [← form.among_keyWords, ← h.among_eq isTimeless_keyWords hp,
    h'.among_eq isTimeless_keyWords hp', form'.among_keyWords]

section Texts

variable {vs vs' : List Nat}

theorem listedNumbers_inj (hvs : ∀ v ∈ vs, v ∈ FieldName.minute.domain)
    (hvs' : ∀ v ∈ vs', v ∈ FieldName.minute.domain)
    (heq : listedValues (fun v : Nat => toString v) vs =
      listedValues (fun v : Nat => toString v) vs') : vs = vs' :=
  isSpelling_toString.listedValues_inj hvs hvs' heq

theorem past_not_mem_listedNumbers (hvs : ∀ v ∈ vs, v ∈ FieldName.minute.domain) :
    "past".toList ∉ listedValues (fun v : Nat => toString v) vs := by
  intro hmem
  have hin : "past".toList ∈ among keyWords (listedValues (fun v : Nat => toString v) vs) :=
    List.mem_filter.2 ⟨hmem, by decide⟩
  rw [isTimeless_keyWords.among_numbers hvs] at hin
  cases hin

theorem through_not_mem_words_hourText {v : Nat} (hv : v ∈ FieldName.hour.domain) :
    "through".toList ∉ words (hourText v).toList :=
  fun hmem => isTimeless_keyWords.hour v hv _ hmem (by decide)

theorem words_hourText_inj {v v' : Nat} (hv : v ∈ FieldName.hour.domain)
    (hv' : v' ∈ FieldName.hour.domain)
    (heq : words (hourText v).toList = words (hourText v').toList) : v = v' := by
  have hnodup : (FieldName.hour.domain.map fun v : Nat => words (hourText v).toList).Nodup := by
    decide
  exact List.inj_on_of_nodup_map hnodup hv hv' heq

theorem listedClocks_inj {m m' : Nat} (hvs : ∀ v ∈ vs, v ∈ FieldName.hour.domain)
    (hvs' : ∀ v ∈ vs', v ∈ FieldName.hour.domain) (hm : m ∈ FieldName.minute.domain)
    (hm' : m' ∈ FieldName.minute.domain) (hne : vs ≠ [])
    (heq : listedValues (fun (h : Nat) => timeText h m) vs =
      listedValues (fun (h : Nat) => timeText h m') vs') : vs = vs' ∧ m = m' := by
  have htexts := listed_inj (fun _ => (isSpelling_timeText hm).isItem_of_mem hvs)
    (fun _ => (isSpelling_timeText hm').isItem_of_mem hvs') heq
  have hminute : m = m' := by
    cases vs with
    | nil => exact absurd rfl hne
    | cons v rest =>
      cases vs' with
      | nil => exact absurd htexts (by simp)
      | cons v' rest' =>
        simp only [List.map_cons, List.cons.injEq, String.toList_inj] at htexts
        exact (timeText_inj (hvs v List.mem_cons_self) (hvs' v' List.mem_cons_self) hm hm'
          htexts.1).2
  subst hminute
  exact ⟨(isSpelling_timeText hm).listedValues_inj hvs hvs' heq, rfl⟩

end Texts

-- Fields of one name are one field if both are open, or neither is and they have the same values.
theorem IsTimePair.eq_of_values (hp : IsTimePair minute hour) (hp' : IsTimePair minute' hour')
    (hopen : minute.isWildcard = minute'.isWildcard) (hopen' : hour.isWildcard = hour'.isWildcard)
    (hvalues : minute.isWildcard = false → minute.values = minute'.values)
    (hvalues' : hour.isWildcard = false → hour.values = hour'.values) :
    minute = minute' ∧ hour = hour' :=
  ⟨hp.minute.eq_of_values hp'.minute (hp.minute_name.trans hp'.minute_name.symm) hopen hvalues,
    hp.hour.eq_of_values hp'.hour (hp.hour_name.trans hp'.hour_name.symm) hopen' hvalues'⟩

/-- Words that put the time in one form tell the minutes and the hours. -/
theorem TimeWords.inj (h : TimeWords minute hour form ws) (h' : TimeWords minute' hour' form ws')
    (hp : IsTimePair minute hour) (hp' : IsTimePair minute' hour') (heq : ws = ws') :
    minute = minute' ∧ hour = hour' := by
  have hhours : ∀ v ∈ hour.values, v ∈ FieldName.minute.domain := fun _ => hp.hour_mem_minute
  have hhours' : ∀ v ∈ hour'.values, v ∈ FieldName.minute.domain := fun _ => hp'.hour_mem_minute
  cases h with
  | every hm hh =>
    cases h' with
    | every hm' hh' =>
      exact hp.eq_of_values hp' (hm.trans hm'.symm) (hh.trans hh'.symm) (by simp [hm])
        (by simp [hh])
  | past hu hm hh =>
    cases h' with
    | past hu' hm' hh' =>
      have hlists := (List.append_inj heq rfl).2
      exact hp.eq_of_values hp' (hm.trans hm'.symm) (hh.trans hh'.symm) (by simp [hm])
        fun _ => listedNumbers_inj hhours hhours' hlists
  | through hm hh hrun =>
    cases h' with
    | through hm' hh' hrun' =>
      have hfirst := hp.hour_mem hp.hour.firstValue_mem
      have hlast := hp.hour_mem hp.hour.lastValue_mem
      have hfirst' := hp'.hour_mem hp'.hour.firstValue_mem
      have hlast' := hp'.hour_mem hp'.hour.lastValue_mem
      simp only [List.append_assoc] at heq
      -- `through` is no word for an hour, so it ends the words for the first one.
      have hends := (List.append_cons_inj_of_notMem (through_not_mem_words_hourText hfirst)
        (through_not_mem_words_hourText hlast)).1 (List.append_cancel_left heq)
      have heq_first := words_hourText_inj hfirst hfirst' hends.1
      have heq_last := words_hourText_inj hlast hlast' hends.2.2
      apply hp.eq_of_values hp' (hm.trans hm'.symm) (hh.trans hh'.symm) (by simp [hm])
      intro _
      rw [Field.values_eq_of_isRun hrun, Field.values_eq_of_isRun hrun', heq_first, heq_last]
  | each hu hm hh =>
    cases h' with
    | each hu' hm' hh' =>
      have hlists := (List.append_inj (List.append_cancel_right heq) rfl).2
      exact hp.eq_of_values hp' (hm.trans hm'.symm) (hh.trans hh'.symm)
        (fun _ => listedNumbers_inj (fun _ => hp.minute_mem) (fun _ => hp'.minute_mem) hlists)
        (by simp [hh])
  | clocks hone hm hh =>
    cases h' with
    | clocks hone' hm' hh' =>
      have hmem := hp.minute_mem (hone ▸ List.mem_singleton_self _)
      have hmem' := hp'.minute_mem (hone' ▸ List.mem_singleton_self _)
      obtain ⟨heq_hours, heq_minute⟩ := listedClocks_inj (fun _ => hp.hour_mem)
        (fun _ => hp'.hour_mem) hmem hmem' hp.hour.nonempty (List.append_cancel_left heq)
      apply hp.eq_of_values hp' (hm.trans hm'.symm) (hh.trans hh'.symm)
      · intro _
        rw [hone, hone', heq_minute]
      · intro _
        exact heq_hours
  | both hm hh =>
    cases h' with
    | both hm' hh' =>
      have hpast := past_not_mem_listedNumbers fun _ => hp.minute_mem
      have hpast' : "past".toList ∉ "hour".toList :: listedValues toString hour.values := by
        rw [List.mem_cons, not_or]
        exact ⟨by decide, past_not_mem_listedNumbers hhours⟩
      simp only [List.append_assoc] at heq
      obtain ⟨heq_minutes, -, htail⟩ := (List.append_cons_inj_of_notMem hpast hpast').1
        (List.append_cancel_left heq)
      exact hp.eq_of_values hp' (hm.trans hm'.symm) (hh.trans hh'.symm)
        (fun _ => listedNumbers_inj (fun _ => hp.minute_mem) (fun _ => hp'.minute_mem) heq_minutes)
        fun _ => listedNumbers_inj hhours hhours' (List.cons.inj htail).2

end Cron
