import Cron.Proofs.Field.Lookup
import Cron.Proofs.Text.Listed
import Mathlib.Data.List.Nodup

/-!
What the phrase of a field tells of it. The texts of a field's values are words, no two of them
alike, and no word for a value of one field is a word for a value of another. So the words of a
phrase that are words for values tell the values: the ends of a run, or all of a list.
-/
namespace Cron

open Text

/-- Values that are told apart by their texts, each text one item of a list. -/
structure IsSpelling (text : Nat → String) (domain : List Nat) : Prop where
  isItem : ∀ v ∈ domain, IsItem (text v).toList
  nodup : (domain.map text).Nodup

instance (text : Nat → String) (domain : List Nat) : Decidable (IsSpelling text domain) :=
  decidable_of_iff ((∀ v ∈ domain, IsItem (text v).toList) ∧ (domain.map text).Nodup)
    ⟨fun h => ⟨h.1, h.2⟩, fun h => ⟨h.isItem, h.nodup⟩⟩

/-- The words of a list of values. -/
def listedValues (text : Nat → String) (values : List Nat) : List (List Char) :=
  listed ((values.map text).map String.toList)

section Spelling

variable {text : Nat → String} {domain vs ws : List Nat}

theorem IsSpelling.inj (h : IsSpelling text domain) {v w : Nat} (hv : v ∈ domain)
    (hw : w ∈ domain) (heq : text v = text w) : v = w :=
  List.inj_on_of_nodup_map h.nodup hv hw heq

theorem IsSpelling.map_inj (h : IsSpelling text domain) (hvs : ∀ v ∈ vs, v ∈ domain)
    (hws : ∀ w ∈ ws, w ∈ domain) (heq : vs.map text = ws.map text) : vs = ws := by
  induction vs generalizing ws with
  | nil => exact (List.map_eq_nil_iff.1 heq.symm).symm
  | cons v rest ih =>
    cases ws with
    | nil => cases heq
    | cons w others =>
      obtain ⟨hhead, htail⟩ := List.cons.inj heq
      rw [h.inj (hvs v List.mem_cons_self) (hws w List.mem_cons_self) hhead,
        ih (fun u hu => hvs u (List.mem_cons_of_mem _ hu))
          (fun u hu => hws u (List.mem_cons_of_mem _ hu)) htail]

theorem IsSpelling.isItem_of_mem (h : IsSpelling text domain) (hvs : ∀ v ∈ vs, v ∈ domain)
    {w : List Char} (hw : w ∈ (vs.map text).map String.toList) : IsItem w := by
  rw [List.map_map, List.mem_map] at hw
  obtain ⟨v, hv, rfl⟩ := hw
  exact h.isItem v (hvs v hv)

theorem IsSpelling.words_joined (h : IsSpelling text domain) (hvs : ∀ v ∈ vs, v ∈ domain) :
    words (joined ", " (vs.map text)).toList = listedValues text vs := by
  apply Text.words_joined
  intro s hs
  exact h.isItem_of_mem hvs (List.mem_map_of_mem hs)

theorem IsSpelling.listedValues_inj (h : IsSpelling text domain) (hvs : ∀ v ∈ vs, v ∈ domain)
    (hws : ∀ w ∈ ws, w ∈ domain) (heq : listedValues text vs = listedValues text ws) :
    vs = ws := by
  have htexts := listed_inj (fun _ => h.isItem_of_mem hvs) (fun _ => h.isItem_of_mem hws) heq
  have hstring : Function.Injective String.toList := fun s t => String.toList_inj.1
  exact h.map_inj hvs hws (hstring.list_map htexts)

end Spelling

theorem climbs_eq_range' {v : Nat} {rest : List Nat}
    (h : climbs ((v :: rest).map Int.ofNat) = true) :
    v :: rest = List.range' v (rest.length + 1) := by
  induction rest generalizing v with
  | nil => rfl
  | cons w others ih =>
    simp only [List.map_cons, climbs, Bool.and_eq_true, beq_iff_eq] at h
    have hw : w = v + 1 := by
      have hint : (w : Int) = (v : Int) + 1 := h.1
      omega
    rw [List.length_cons, List.range'_succ, ← hw, ← ih h.2]

namespace FieldName

/-- The fields that a sentence tells by the names and the ordinals of their values. -/
def calendar : List FieldName := [dayOfMonth, month, dayOfWeek]

/-- The words that tell one value of a field. -/
def valueWords (field : FieldName) : List (List Char) :=
  (field.domain.map field.valueText).map String.toList

/-- The days of the week that have a word together. -/
def dayGroups : List (List Nat × List Char) :=
  [([1, 2, 3, 4, 5], "weekday".toList), ([0, 6], "weekends".toList)]

/-- The words that tell values of a field. -/
def vocabulary (field : FieldName) : List (List Char) :=
  field.valueWords ++ if field = dayOfWeek then dayGroups.map (·.2) else []

variable {field other : FieldName}

theorem ne_minute (h : field ∈ calendar) : field ≠ .minute := by
  intro heq
  exact absurd (heq ▸ h) (by decide)

theorem isSpelling_valueText (h : field ∈ calendar) :
    IsSpelling field.valueText field.domain := by
  have hall : ∀ field ∈ calendar, IsSpelling field.valueText field.domain := by decide
  exact hall field h

theorem vocabulary_disjoint (h : field ∈ calendar) (h' : other ∈ calendar) (hne : field ≠ other)
    {w : List Char} (hw : w ∈ field.vocabulary) : w ∉ other.vocabulary := by
  have hall : ∀ field ∈ calendar, ∀ other ∈ calendar, field ≠ other →
      ∀ w ∈ field.vocabulary, w ∉ other.vocabulary := by decide
  exact hall field h other h' hne w hw

theorem through_not_mem_vocabulary (h : field ∈ calendar) :
    "through".toList ∉ field.vocabulary := by
  have hall : ∀ field ∈ calendar, "through".toList ∉ field.vocabulary := by decide
  exact hall field h

theorem valueText_mem_valueWords {v : Nat} (hv : v ∈ field.domain) :
    (field.valueText v).toList ∈ field.valueWords :=
  List.mem_map_of_mem (List.mem_map_of_mem hv)

end FieldName

namespace Field

variable {f g : Field}

/-- A run is told by its ends. -/
theorem values_eq_of_isRun (hrun : f.isRun = true) :
    f.values = List.range' f.firstValue (f.lastValue + 1 - f.firstValue) := by
  unfold isRun isConsecutive at hrun
  unfold firstValue lastValue
  cases hvalues : f.values with
  | nil =>
    rw [hvalues] at hrun
    cases hrun
  | cons v rest =>
    rw [hvalues, Bool.and_eq_true] at hrun
    have hrange := climbs_eq_range' hrun.2
    rw [hrange, List.head?_range', List.getLast?_range', if_neg (by omega), if_neg (by omega),
      Option.getD_some, Option.getD_some]
    congr 1
    omega

theorem IsSound.eq_of_values (hf : f.IsSound) (hg : g.IsSound) (hname : f.name = g.name)
    (hopen : f.isWildcard = g.isWildcard)
    (hvalues : f.isWildcard = false → f.values = g.values) : f = g := by
  have hlow : f.low = g.low := by rw [hf.low_eq, hg.low_eq, hname]
  have hhigh : f.high = g.high := by rw [hf.high_eq, hg.high_eq, hname]
  obtain ⟨name, low, high, values, isWildcard⟩ := f
  obtain ⟨name', low', high', values', isWildcard'⟩ := g
  cases hname
  cases hlow
  cases hhigh
  cases hopen
  have heq : values = values' := by
    cases isWildcard with
    | false => exact hvalues rfl
    | true => exact (hf.values_of_isWildcard rfl).trans (hg.values_of_isWildcard rfl).symm
  rw [heq]

theorem IsSound.mem_domain (hf : f.IsSound) {v : Nat} (hv : v ∈ f.values) : v ∈ f.name.domain :=
  FieldName.mem_domain.2 (hf.within v hv)

/-- The words for the values of a field: none if it is open, the ends of a run, or a list. -/
def told (f : Field) : List (List Char) :=
  let text := f.name.valueText
  if f.isWildcard then []
  else if f.isRun then [(text f.firstValue).toList, (text f.lastValue).toList]
  else listedValues text f.values

theorem IsSound.told_eq_nil_iff (hf : f.IsSound) : f.told = [] ↔ f.isWildcard = true := by
  have hlist : listedValues f.name.valueText f.values ≠ [] :=
    listed_ne_nil (by simpa using hf.nonempty)
  unfold told
  cases f.isWildcard with
  | true => simp
  | false => cases f.isRun <;> simp [hlist]

/-- What is told of a field determines it. -/
theorem IsSound.told_inj (hf : f.IsSound) (hg : g.IsSound) (hname : f.name = g.name)
    (hcal : f.name ∈ FieldName.calendar) (h : f.told = g.told) : f = g := by
  have hopen : f.isWildcard = g.isWildcard := by
    rw [Bool.eq_iff_iff, ← hf.told_eq_nil_iff, ← hg.told_eq_nil_iff, h]
  apply hf.eq_of_values hg hname hopen
  intro hf_open
  have hspell := FieldName.isSpelling_valueText hcal
  have hin : ∀ v ∈ f.values, v ∈ f.name.domain := fun v => hf.mem_domain
  have hin' : ∀ v ∈ g.values, v ∈ f.name.domain := hname ▸ fun v => hg.mem_domain
  have hfirst := hin _ hf.firstValue_mem
  have hfirst' := hin' _ hg.firstValue_mem
  simp only [told, ← hname, ← hopen, hf_open, Bool.false_eq_true, ↓reduceIte] at h
  cases hrun : f.isRun <;> cases hrun' : g.isRun
  all_goals simp only [hrun, hrun', Bool.false_eq_true, ↓reduceIte] at h
  · exact hspell.listedValues_inj hin hin' h
  · exact absurd h (listed_ne_pair (hspell.isItem _ hfirst'))
  · exact absurd h.symm (listed_ne_pair (hspell.isItem _ hfirst))
  · have hends : f.firstValue = g.firstValue ∧ f.lastValue = g.lastValue := by
      simp only [List.cons.injEq, String.toList_inj, and_true] at h
      exact ⟨hspell.inj hfirst hfirst' h.1,
        hspell.inj (hin _ hf.lastValue_mem) (hin' _ hg.lastValue_mem) h.2⟩
    rw [values_eq_of_isRun hrun, values_eq_of_isRun hrun', hends.1, hends.2]

theorem length_ne_one_of_isRun (hrun : f.isRun = true) : f.values.length ≠ 1 := by
  intro hone
  simp [isRun, isConsecutive, hone] at hrun

-- The text of the only value is a list of one.
theorem text_firstValue (text : Nat → String) (hone : f.values.length = 1) :
    text f.firstValue = joined ", " (f.values.map text) := by
  obtain ⟨v, hv⟩ := List.length_eq_one_iff.1 hone
  rw [firstValue, hv]
  exact String.intercalate_singleton.symm

section Phrase

variable (hcal : f.name ∈ FieldName.calendar) (hopen : f.isWildcard = false)
include hcal hopen

theorem phrase_of_isRun (hrun : f.isRun = true) :
    f.phrase =
      f.name.valueText f.firstValue ++ " through " ++ f.name.valueText f.lastValue := by
  have hmany := length_ne_one_of_isRun hrun
  have hminute := FieldName.ne_minute hcal
  unfold phrase phraseBy
  simp only [hopen, hmany, hrun, hminute, Bool.false_eq_true, ↓reduceIte]
  rfl

theorem phrase_of_not_isRun (hrun : f.isRun = false) :
    f.phrase = joined ", " (f.values.map f.name.valueText) := by
  have hminute := FieldName.ne_minute hcal
  unfold phrase phraseBy
  simp only [hopen, hrun, hminute, LookUps.mapM_plain, Bool.false_eq_true, ↓reduceIte]
  split
  · next hone => exact text_firstValue f.name.valueText hone
  · rfl

-- The words of a phrase are those told, and one more between the ends of a run.
theorem IsSound.words_phrase (hf : f.IsSound) :
    words f.phrase.toList =
      if f.isRun then
        [(f.name.valueText f.firstValue).toList, "through".toList,
          (f.name.valueText f.lastValue).toList]
      else listedValues f.name.valueText f.values := by
  have hspell := FieldName.isSpelling_valueText hcal
  have hin : ∀ v ∈ f.values, v ∈ f.name.domain := fun v => hf.mem_domain
  cases hrun : f.isRun with
  | true =>
    rw [phrase_of_isRun hcal hopen hrun, words_append_literal_append " through " rfl rfl,
      (hspell.isItem _ (hin _ hf.firstValue_mem)).words,
      (hspell.isItem _ (hin _ hf.lastValue_mem)).words]
    rfl
  | false =>
    rw [phrase_of_not_isRun hcal hopen hrun]
    exact hspell.words_joined hin

end Phrase

/-- The words of a phrase, none if the field is open. -/
def phraseWords (f : Field) : List (List Char) :=
  if f.isWildcard then [] else words f.phrase.toList

theorem IsSound.bare_mem_valueWords (hf : f.IsSound) (hcal : f.name ∈ FieldName.calendar)
    {w : List Char} (hw : w ∈ f.told) : bare w ∈ f.name.valueWords := by
  have hspell := FieldName.isSpelling_valueText hcal
  have hin : ∀ v ∈ f.values, v ∈ f.name.domain := fun v => hf.mem_domain
  have htext : ∀ v ∈ f.values, bare (f.name.valueText v).toList ∈ f.name.valueWords := by
    intro v hv
    rw [(hspell.isItem v (hin v hv)).bare]
    exact FieldName.valueText_mem_valueWords (hin v hv)
  unfold told at hw
  dsimp only at hw
  split at hw
  · cases hw
  · split at hw
    · rcases List.mem_pair.1 hw with rfl | rfl
      · exact htext _ hf.firstValue_mem
      · exact htext _ hf.lastValue_mem
    · have hitem := bare_mem_of_mem_listed (fun _ => hspell.isItem_of_mem hin) hw
      rw [List.map_map, List.mem_map] at hitem
      obtain ⟨v, hv, hvw⟩ := hitem
      rw [← hvw]
      exact FieldName.valueText_mem_valueWords (hin v hv)

theorem IsSound.among_phraseWords (hf : f.IsSound) (hcal : f.name ∈ FieldName.calendar)
    {table : List (List Char)} (ht : "through".toList ∉ table) :
    among table f.phraseWords = among table f.told := by
  have hthrough : ∀ w v, among table [w, "through".toList, v] = among table [w, v] := by
    intro w v
    show among table ([w] ++ "through".toList :: [v]) = among table ([w] ++ [v])
    rw [among_append, among_cons_of_not_mem (w := "through".toList) ht, among_append]
  unfold phraseWords
  cases hopen : f.isWildcard with
  | true => rw [hf.told_eq_nil_iff.2 hopen, if_pos rfl]
  | false =>
    rw [if_neg Bool.false_ne_true, hf.words_phrase hcal hopen, told, hopen,
      if_neg Bool.false_ne_true]
    split
    · exact hthrough _ _
    · rfl

/-- The words of a phrase for values of its field are those told. -/
theorem IsSound.among_vocabulary {name : FieldName} (hf : f.IsSound) (hname : f.name = name)
    (hcal : name ∈ FieldName.calendar) : among name.vocabulary f.phraseWords = f.told := by
  subst hname
  rw [hf.among_phraseWords hcal (FieldName.through_not_mem_vocabulary hcal)]
  exact among_eq_self fun w hw => List.mem_append_left _ (hf.bare_mem_valueWords hcal hw)

/-- No word of a phrase is for a value of another field. -/
theorem IsSound.among_vocabulary_of_ne {name other : FieldName} (hf : f.IsSound)
    (hname : f.name = name) (hcal : name ∈ FieldName.calendar) (hcal' : other ∈ FieldName.calendar)
    (hne : name ≠ other) : among other.vocabulary f.phraseWords = [] := by
  subst hname
  rw [hf.among_phraseWords hcal (FieldName.through_not_mem_vocabulary hcal')]
  apply among_eq_nil
  intro w hw
  exact FieldName.vocabulary_disjoint hcal hcal' hne
    (List.mem_append_left _ (hf.bare_mem_valueWords hcal hw))

end Field

end Cron
