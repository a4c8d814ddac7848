import Cron.Proofs.Schedule.Fields
import Cron.Proofs.Schedule.Search
import Cron.Proofs.Text.Blanks

/-!
The normal form of an expression is its own normal form. A name gives way to a number, which is a
run of word characters like the name, so that the runs of a word stay the same in number and kind,
and none of them is a name any more.
-/
namespace Cron

open Text

namespace Schedule

/-- What the replacing of names relies on, besides plain names: numbers are words of small word
characters, and a number is no name. -/
structure IsNumbered (names : List String) (first : Nat) : Prop extends ArePlain names where
  number_ne_nil : ∀ i < names.length, (toString (first + i)).toList ≠ []
  isWordChar_number : ∀ i < names.length, ∀ c ∈ (toString (first + i)).toList,
    isWordChar c = true ∧ isBlank c = false ∧ IsSmall c
  replaceName_number : ∀ i < names.length,
    replaceName names first (toString (first + i)).toList = .ok (toString (first + i)).toList

theorem isNumbered_monthNames : IsNumbered monthNames 1 where
  toArePlain := arePlain_monthNames
  number_ne_nil := by decide
  isWordChar_number := by decide
  replaceName_number := by decide

theorem isNumbered_dayNames : IsNumbered dayNames 0 where
  toArePlain := arePlain_dayNames
  number_ne_nil := by decide
  isWordChar_number := by decide
  replaceName_number := by decide

/-- A run of a word and what stands for it, of the same kind. -/
def IsAlike (run replaced : List Char) : Prop :=
  replaced ≠ [] ∧ ∀ c ∈ run, ∀ d ∈ replaced, isWordChar c = isWordChar d

theorem IsAlike.isWordChar_eq {run replaced : List Char} (h : IsAlike run replaced)
    (hne : run ≠ []) : ∀ c ∈ replaced, ∀ d ∈ replaced, isWordChar c = isWordChar d := by
  intro c hc d hd
  obtain ⟨x, hx⟩ := List.exists_mem_of_ne_nil run hne
  rw [← h.2 x hx c hc, h.2 x hx d hd]

-- What stands for two runs that differ in kind differs in kind.
theorem isChain_of_forall₂_isAlike {rs replaced : List (List Char)}
    (h : List.Forall₂ IsAlike rs replaced)
    (hrs : rs.IsChain fun a b => ∃ (ha : a ≠ []) (hb : b ≠ []),
      (isWordChar (a.getLast ha) == isWordChar (b.head hb)) = false) :
    replaced.IsChain fun a b => ∃ (ha : a ≠ []) (hb : b ≠ []),
      (isWordChar (a.getLast ha) == isWordChar (b.head hb)) = false := by
  induction h with
  | nil => exact .nil
  | cons hhead htail ih =>
    cases htail with
    | nil => exact .singleton _
    | cons hnext _ =>
      obtain ⟨⟨ha, hb, hkinds⟩, hrest⟩ := List.isChain_cons_cons.1 hrs
      refine List.isChain_cons_cons.2 ⟨⟨hhead.1, hnext.1, ?_⟩, ih hrest⟩
      rw [← hhead.2 _ (List.getLast_mem ha) _ (List.getLast_mem hhead.1),
        ← hnext.2 _ (List.head_mem hb) _ (List.head_mem hnext.1)]
      exact hkinds

-- Runs that are alike one by one make up a word that splits into them.
theorem runs_flatten {word : List Char} {replaced : List (List Char)}
    (h : List.Forall₂ IsAlike (runs word) replaced) : runs replaced.flatten = replaced := by
  have hmem : ∀ r ∈ replaced, ∃ run ∈ runs word, IsAlike run r := fun r hr =>
    exists_mem_of_forall₂ h hr
  apply List.splitBy_flatten
  · intro hnil
    obtain ⟨run, -, halike⟩ := hmem _ hnil
    exact halike.1 rfl
  · intro r hr
    obtain ⟨run, hrun, halike⟩ := hmem r hr
    have hsame := halike.isWordChar_eq (List.ne_nil_of_mem_splitBy hrun)
    have hpairs := List.pairwise_of_forall_mem_list hsame
    exact hpairs.isChain.imp fun c d hcd => by simpa using hcd
  · exact isChain_of_forall₂_isAlike h (runs_isChain word)

/-- A run that passes for a name without being one. -/
def IsLookalike (names : List String) (run : List Char) : Prop :=
  (∀ name ∈ names, name.toList ≠ run) ∧ ∃ name ∈ names, name.toList = run.map plainLetter

variable {names : List String} {first : Nat} {run out word : List Char}

-- A run is a name, passes for one, or is neither.
theorem replaceName_cases (names : List String) (first : Nat) (run : List Char) :
    (∃ i, ∃ h : i < names.length, names[i].toList = run ∧
        replaceName names first run = .ok (toString (first + i)).toList) ∨
      (IsLookalike names run ∧
        replaceName names first run = .error (.unknownName (String.ofList run))) ∨
      ¬ IsLookalike names run ∧ replaceName names first run = .ok run := by
  unfold replaceName
  cases hindex : names.findIdx? fun name => name.toList = run with
  | some i =>
    obtain ⟨hi, hname, -⟩ := List.findIdx?_eq_some_iff_getElem.1 hindex
    exact .inl ⟨i, hi, by simpa using hname, rfl⟩
  | none =>
    have hnone : ∀ name ∈ names, name.toList ≠ run := fun name hname => by
      simpa using List.findIdx?_eq_none_iff.1 hindex name hname
    right
    by_cases hlike : (names.any fun name => name.toList = run.map plainLetter) = true
    · have hsome : ∃ name ∈ names, name.toList = run.map plainLetter := by simpa using hlike
      exact .inl ⟨⟨hnone, hsome⟩, if_pos hlike⟩
    · refine .inr ⟨fun hboth => hlike ?_, if_neg hlike⟩
      simpa using hboth.2

theorem replaceName_eq_error_iff {fault : Fault} :
    replaceName names first run = .error fault ↔
      IsLookalike names run ∧ fault = .unknownName (String.ofList run) := by
  rcases replaceName_cases names first run with ⟨i, hi, hname, hok⟩ | ⟨hlike, herror⟩ | ⟨hlike, hok⟩
  · have hnot : ¬ IsLookalike names run := fun hlike => hlike.1 _ (List.getElem_mem hi) hname
    simp [hok, hnot]
  · simp [herror, hlike, eq_comm]
  · simp [hok, hlike]

-- What stands for a run is of its kind and holds its characters or those of a number.
theorem IsNumbered.of_replaceName (h : IsNumbered names first) (hrun : run ∈ runs word)
    (hok : replaceName names first run = .ok out) :
    IsAlike run out ∧ (∀ c ∈ out, c ∈ run ∨ isBlank c = false ∧ IsSmall c) ∧
      replaceName names first out = .ok out := by
  rcases replaceName_cases names first run with ⟨i, hi, hname, hnumber⟩ | ⟨-, herror⟩ | ⟨-, hself⟩
  · rw [hnumber] at hok
    cases hok
    refine ⟨⟨h.number_ne_nil i hi, ?_⟩, fun c hc => .inr (h.isWordChar_number i hi c hc).2,
      h.replaceName_number i hi⟩
    intro c hc d hd
    rw [(h.isWordChar_number i hi d hd).1, h.isWordChar_name _ (List.getElem_mem hi) c (hname ▸ hc)]
  · rw [herror] at hok
    cases hok
  · rw [hself] at hok
    cases hok
    exact ⟨⟨List.ne_nil_of_mem_splitBy hrun, isWordChar_eq_of_mem_runs hrun⟩,
      fun c hc => .inl hc, hself⟩

theorem ArePlain.replaceNames_eq_ok_iff (h : ArePlain names) :
    replaceNames names first word = .ok out ↔
      ∃ replaced, (runs word).mapM (replaceName names first) = .ok replaced ∧
        replaced.flatten = out := by
  rw [h.replaceNames_eq, bind_eq_ok_iff]
  simp

-- What stands for the runs of a word, one by one.
theorem ArePlain.exists_forall₂ (h : ArePlain names)
    (hok : replaceNames names first word = .ok out) :
    ∃ replaced, replaced.flatten = out ∧
      List.Forall₂ (fun run r => run ∈ runs word ∧ replaceName names first run = .ok r)
        (runs word) replaced := by
  obtain ⟨replaced, hmap, hflat⟩ := h.replaceNames_eq_ok_iff.1 hok
  exact ⟨replaced, hflat,
    (List.forall₂_and_left _ _).2 ⟨fun run hrun => hrun, mapM_eq_ok_iff.1 hmap⟩⟩

theorem IsNumbered.of_replaceNames (h : IsNumbered names first)
    (hok : replaceNames names first word = .ok out) :
    (word ≠ [] → out ≠ []) ∧ (∀ c ∈ out, c ∈ word ∨ isBlank c = false ∧ IsSmall c) ∧
      replaceNames names first out = .ok out := by
  obtain ⟨replaced, rfl, hmem⟩ := h.exists_forall₂ hok
  have hruns : List.Forall₂ IsAlike (runs word) replaced :=
    hmem.imp fun run r hr => (h.of_replaceName hr.1 hr.2).1
  refine ⟨?_, ?_, ?_⟩
  · intro hne hnil
    apply hne
    apply List.splitBy_eq_nil.1
    change runs word = []
    generalize runs word = rs at hruns
    cases hruns with
    | nil => rfl
    | cons halike _ =>
      exact absurd (List.flatten_eq_nil_iff.1 hnil _ List.mem_cons_self) halike.1
  · intro c hc
    obtain ⟨r, hr, hcr⟩ := List.mem_flatten.1 hc
    obtain ⟨run, hrun, hin, hok⟩ := exists_mem_of_forall₂ hmem hr
    exact ((h.of_replaceName hin hok).2.1 c hcr).imp_left (mem_of_mem_runs hin)
  · refine h.replaceNames_eq_ok_iff.2 ⟨replaced, ?_, rfl⟩
    rw [runs_flatten hruns, mapM_eq_ok_iff, List.forall₂_same]
    intro r hr
    obtain ⟨run, -, hin, hok⟩ := exists_mem_of_forall₂ hmem hr
    exact (h.of_replaceName hin hok).2.2

/-! Expressions, by their words. -/

theorem toList_spaced (ws : List (List Char)) : (spaced ws).toList = [' '].intercalate ws := by
  rw [spaced, String.toList_intercalate, List.map_map]
  congr 1
  exact (List.map_congr_left fun w _ => String.toList_ofList).trans (List.map_id ws)

theorem words_spaced {ws : List (List Char)} (h : ∀ w ∈ ws, IsWord w) :
    words (spaced ws).toList = ws := by
  rw [toList_spaced, words_intercalate h]

/-- A word that lowering leaves as it is. -/
def IsSmallWord (w : List Char) : Prop := IsWord w ∧ ∀ c ∈ w, IsSmall c

theorem lower_spaced {ws : List (List Char)} (h : ∀ w ∈ ws, IsSmallWord w) :
    lower (spaced ws).toList = (spaced ws).toList := by
  apply lower_of_isSmall
  rw [toList_spaced]
  intro c hc
  rcases eq_or_mem_of_mem_intercalate hc with rfl | ⟨w, hw, hcw⟩
  · decide
  · exact (h w hw).2 c hcw

theorem words_lower_spaced {ws : List (List Char)} (h : ∀ w ∈ ws, IsSmallWord w) :
    words (lower (spaced ws).toList) = ws := by
  rw [lower_spaced h, words_spaced fun w hw => (h w hw).1]

theorem isSmallWord_of_mem_words {cs w : List Char} (h : w ∈ words (lower cs)) :
    IsSmallWord w :=
  ⟨isWord_of_mem_words h, fun _ hc => isSmall_of_mem_lower ((infix_of_mem_words h).subset hc)⟩

-- An alias is one word.
theorem find?_aliases_eq_none {ws : List (List Char)} (h : ∀ w ∈ ws, IsWord w)
    (hcount : ws.length ≠ 1) : aliases.find? (fun entry => entry.1 = spaced ws) = none := by
  have hone : ∀ entry ∈ aliases, (words entry.1.toList).length = 1 := by decide
  apply List.find?_eq_none.2
  intro entry hentry
  rw [decide_eq_true_eq]
  intro heq
  have hlength := hone entry hentry
  rw [heq, words_spaced h] at hlength
  exact hcount hlength

-- Reading an expression is reading its normal form, or being refused with it.
theorem ofExpression_of_normalize {expression text : String}
    (h : normalize expression = .ok text) : ofExpression expression = parse text := by
  rw [ofExpression, h]
  rfl

theorem ofExpression_of_normalize_error {expression : String} {fault : Fault}
    (h : normalize expression = .error fault) : ofExpression expression = .error fault := by
  rw [ofExpression, h]
  rfl

-- An expression is read by its small words, so blanks around it do not count.
theorem ofExpression_trim (expression : String) :
    ofExpression (String.ofList (trim expression.toList)) = ofExpression expression := by
  have hwords := words_lower_trim expression.toList
  have hnormal : normalize (String.ofList (trim expression.toList)) = normalize expression := by
    unfold normalize
    rw [String.toList_ofList, hwords]
  rw [ofExpression, ofExpression, hnormal]

section Cases
variable {expression : String} {a b c d e : List Char}

theorem normalize_of_alias {entry : String × String}
    (h : aliases.find? (fun entry => entry.1 = spaced (words (lower expression.toList))) =
      some entry) : normalize expression = .ok entry.2 := by
  unfold normalize
  simp only [h]

theorem normalize_of_five (h : words (lower expression.toList) = [a, b, c, d, e]) :
    normalize expression = (do
      let d ← replaceNames monthNames 1 d
      let e ← replaceNames dayNames 0 e
      .ok (spaced [a, b, c, d, e])) := by
  have hnone : aliases.find? (fun entry => entry.1 = spaced [a, b, c, d, e]) = none := by
    apply find?_aliases_eq_none
    · rw [← h]
      exact fun w hw => isWord_of_mem_words hw
    · simp
  unfold normalize
  simp only [h, hnone]

theorem normalize_of_length_ne_five
    (hnone : aliases.find? (fun entry => entry.1 = spaced (words (lower expression.toList))) = none)
    (h : (words (lower expression.toList)).length ≠ 5) :
    normalize expression = .ok (spaced (words (lower expression.toList))) := by
  unfold normalize
  simp only [hnone]
  split
  · next hwords => exact absurd (congrArg List.length hwords) h
  · rfl

end Cases

theorem normalize_spaced_five {a b c d e : List Char}
    (h : ∀ w ∈ [a, b, c, d, e], IsSmallWord w) (hd : replaceNames monthNames 1 d = .ok d)
    (he : replaceNames dayNames 0 e = .ok e) :
    normalize (spaced [a, b, c, d, e]) = .ok (spaced [a, b, c, d, e]) := by
  rw [normalize_of_five (words_lower_spaced h), hd, he]
  rfl

theorem IsNumbered.isSmallWord {names : List String} {first : Nat} {word out : List Char}
    (h : IsNumbered names first) (hok : replaceNames names first word = .ok out)
    (hword : IsSmallWord word) : IsSmallWord out := by
  obtain ⟨hne, hchars, -⟩ := h.of_replaceNames hok
  refine ⟨⟨hne hword.1.1, ?_⟩, ?_⟩
  · intro c hc
    exact (hchars c hc).elim (hword.1.2 c) And.left
  · intro c hc
    exact (hchars c hc).elim (hword.2 c) And.right

/-- Normalizing gives words with single blanks between them, and leaves them as they are when it
is repeated. -/
theorem normalize_eq_ok {expression text : String} (h : normalize expression = .ok text) :
    normalize text = .ok text ∧ text = spaced (words text.toList) := by
  have hsmall : ∀ w ∈ words (lower expression.toList), IsSmallWord w := fun w hw =>
    isSmallWord_of_mem_words hw
  cases halias : aliases.find? fun entry => entry.1 = spaced (words (lower expression.toList)) with
  | some entry =>
    have hfixed : ∀ entry ∈ aliases, normalize entry.2 = .ok entry.2 ∧
        entry.2 = spaced (words entry.2.toList) := by
      decide
    rw [normalize_of_alias halias] at h
    cases h
    exact hfixed entry (List.mem_of_find?_eq_some halias)
  | none =>
    by_cases hcount : (words (lower expression.toList)).length = 5
    · obtain ⟨a, b, c, d, e, hwords⟩ := exists_eq_of_length_eq_five hcount
      rw [normalize_of_five hwords] at h
      obtain ⟨d', hd, h⟩ := bind_eq_ok_iff.1 h
      obtain ⟨e', he, h⟩ := bind_eq_ok_iff.1 h
      cases h
      rw [hwords] at hsmall
      have hd' := isNumbered_monthNames.isSmallWord hd (hsmall d (by simp))
      have he' := isNumbered_dayNames.isSmallWord he (hsmall e (by simp))
      have hsmall' : ∀ w ∈ [a, b, c, d', e'], IsSmallWord w := by
        simp only [List.forall_mem_cons, List.not_mem_nil, false_implies, implies_true] at hsmall ⊢
        exact ⟨hsmall.1, hsmall.2.1, hsmall.2.2.1, hd', he', trivial⟩
      refine ⟨normalize_spaced_five hsmall' ?_ ?_, ?_⟩
      · exact (isNumbered_monthNames.of_replaceNames hd).2.2
      · exact (isNumbered_dayNames.of_replaceNames he).2.2
      · rw [words_spaced fun w hw => (hsmall' w hw).1]
    · rw [normalize_of_length_ne_five halias hcount] at h
      cases h
      have hwords := words_lower_spaced hsmall
      refine ⟨?_, by rw [words_spaced fun w hw => (hsmall w hw).1]⟩
      rw [← hwords] at halias hcount
      rw [normalize_of_length_ne_five halias hcount, hwords]

-- The expression of a schedule is the normal form of the one it was read from, and gives it again.
theorem ofExpression_expression {expression : String} {s : Schedule}
    (h : ofExpression expression = .ok s) :
    ofExpression s.expression = .ok s ∧ normalize expression = .ok s.expression := by
  obtain ⟨text, htext, hparse⟩ := bind_eq_ok_iff.1 h
  obtain ⟨hnormal, hspaced⟩ := normalize_eq_ok htext
  obtain ⟨-, hexpression⟩ := parse_eq_ok_iff.1 hparse
  rw [hexpression, ← hspaced, ofExpression_of_normalize hnormal]
  exact ⟨hparse, htext⟩

/-- Normalizing twice is normalizing once. The expression of a schedule is the normal form of the
one it was read from, five words with single blanks between them, and gives the schedule again. -/
theorem normalize_idempotent (expression : String) :
    (∀ text, normalize expression = .ok text → normalize text = .ok text) ∧
      ∀ s, ofExpression expression = .ok s →
        ofExpression s.expression = .ok s ∧ normalize expression = .ok s.expression ∧
          ∃ ws : List (List Char), ws.length = 5 ∧ (∀ w ∈ ws, IsWord w) ∧
            s.expression = spaced ws := by
  refine ⟨fun text h => (normalize_eq_ok h).1, ?_⟩
  intro s h
  obtain ⟨hagain, hnormal⟩ := ofExpression_expression h
  obtain ⟨hfixed, hspaced⟩ := normalize_eq_ok hnormal
  have hparse : parse s.expression = .ok s := by rw [← ofExpression_of_normalize hfixed, hagain]
  have hfields := (parse_eq_ok_iff.1 hparse).1
  exact ⟨hagain, hnormal, words s.expression.toList, hfields.length_eq.symm,
    fun w hw => isWord_of_mem_words hw, hspaced⟩

/-- Mondays at nine in the first quarter: the second normalization and the second reading change
nothing. -/
theorem normalize_idempotent_names :
    let expression := "0 9 * Jan-Mar MON"
    ∃ s, normalize expression = .ok "0 9 * 1-3 1" ∧ ofExpression expression = .ok s ∧
      normalize "0 9 * 1-3 1" = .ok "0 9 * 1-3 1" ∧ ofExpression s.expression = .ok s := by
  intro expression
  have hnormal : normalize expression = .ok "0 9 * 1-3 1" := by decide +kernel
  have hsome : ∃ s, ofExpression expression = .ok s := by
    cases h : ofExpression expression with
    | ok s => exact ⟨s, rfl⟩
    | error fault =>
      have hok : (ofExpression expression).isOk = true := by decide +kernel
      rw [h] at hok
      cases hok
  obtain ⟨s, hs⟩ := hsome
  exact ⟨s, hnormal, hs, (normalize_idempotent expression).1 _ hnormal,
    ((normalize_idempotent expression).2 s hs).1⟩

end Schedule

end Cron
