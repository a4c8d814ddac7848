import Cron.Proofs.Schedule.Normal

/-!
What the normal form puts in place of names. A word is cut into its longest runs of word characters
and of others; each run that is a name gives way to its number, and all else stays.
-/
namespace Cron

open Text

namespace Schedule

/-- What stands for a run: the number of the name that it is, or else the run itself. -/
def StandsFor (names : List String) (first : Nat) (run out : List Char) : Prop :=
  (∃ i, ∃ h : i < names.length, run = names[i].toList ∧ out = (toString (first + i)).toList) ∨
    (∀ name ∈ names, run ≠ name.toList) ∧ out = run

/-- A word with numbers in place of the runs that are names. -/
def IsSubstituted (names : List String) (first : Nat) (word out : List Char) : Prop :=
  ∃ pieces outs, IsRuns pieces word ∧ List.Forall₂ (StandsFor names first) pieces outs ∧
    outs.flatten = out

variable {names : List String} {first : Nat} {run word out : List Char}

theorem standsFor_of_replaceName (h : replaceName names first run = .ok out) :
    StandsFor names first run out := by
  unfold replaceName at h
  split at h
  · next i hindex =>
    cases h
    obtain ⟨hi, hname, -⟩ := List.findIdx?_eq_some_iff_getElem.1 hindex
    exact .inl ⟨i, hi, by simpa [eq_comm] using hname, rfl⟩
  · next hindex =>
    split at h
    · cases h
    · cases h
      refine .inr ⟨fun name hname heq => ?_, rfl⟩
      have hnone := List.findIdx?_eq_none_iff.1 hindex name hname
      simp [heq] at hnone

theorem ArePlain.isSubstituted (h : ArePlain names)
    (hok : replaceNames names first word = .ok out) :
    IsSubstituted names first word out := by
  obtain ⟨replaced, hflat, hmem⟩ := h.exists_forall₂ hok
  exact ⟨runs word, replaced, isRuns_runs word,
    hmem.imp fun _ _ hrun => standsFor_of_replaceName hrun.2, hflat⟩

/-! Expressions. -/

-- An alias is found among the words of an expression if it is the small text of it.
theorem find?_aliases_eq_none_of_trim {expression : String}
    (h : ∀ entry ∈ aliases, lower (trim expression.toList) ≠ entry.1.toList) :
    aliases.find? (fun entry => entry.1 = spaced (words (lower expression.toList))) = none := by
  have hone : ∀ entry ∈ aliases, words entry.1.toList = [entry.1.toList] := by decide
  apply List.find?_eq_none.2
  intro entry hentry
  rw [decide_eq_true_eq]
  intro heq
  have hwords : words (lower expression.toList) = [entry.1.toList] := by
    rw [← hone entry hentry, heq, words_spaced fun w hw => isWord_of_mem_words hw]
  rw [words_lower] at hwords
  obtain ⟨w, hw, hlower⟩ := List.map_eq_singleton_iff.1 hwords
  apply h entry hentry
  rw [trim_of_words hw, hlower]

/-- Let an expression that is no alias have a normal form. If it has five words, the first three are
lowered, and so are the last two, with numbers in place of just those runs that are names; these are
what the search finds. Any other number of words are lowered and joined by single blanks. -/
theorem normalize_substitutes {expression text : String}
    (halias : ∀ entry ∈ aliases, lower (trim expression.toList) ≠ entry.1.toList)
    (h : normalize expression = .ok text) :
    (∀ a b c d e, words expression.toList = [a, b, c, d, e] → ∃ d' e',
      text = spaced [lower a, lower b, lower c, d', e'] ∧
      IsSubstituted monthNames 1 (lower d) d' ∧ replaceNames monthNames 1 (lower d) = .ok d' ∧
      IsSubstituted dayNames 0 (lower e) e' ∧ replaceNames dayNames 0 (lower e) = .ok e') ∧
      ((words expression.toList).length ≠ 5 →
        text = spaced ((words expression.toList).map lower)) := by
  constructor
  · intro a b c d e hwords
    have hlower : words (lower expression.toList) =
        [lower a, lower b, lower c, lower d, lower e] := by
      rw [words_lower, hwords]
      rfl
    rw [normalize_of_five hlower] at h
    obtain ⟨d', hd, h⟩ := bind_eq_ok_iff.1 h
    obtain ⟨e', he, h⟩ := bind_eq_ok_iff.1 h
    exact ⟨d', e', (Except.ok.inj h).symm, arePlain_monthNames.isSubstituted hd, hd,
      arePlain_dayNames.isSubstituted he, he⟩
  · intro hcount
    rw [← List.length_map (f := lower), ← words_lower] at hcount
    rw [normalize_of_length_ne_five (find?_aliases_eq_none_of_trim halias) hcount] at h
    rw [← words_lower]
    exact (Except.ok.inj h).symm

/-- Names next to digits and underscores are part of longer runs, and are kept. An alias with more
after it is none. -/
theorem normalize_substitutes_kept_names :
    let five := " 0 9 *\tJan-x_feb/MAR sun,SAT2,mon_ "
    let two := "@Daily  Now"
    (∀ entry ∈ aliases, lower (trim five.toList) ≠ entry.1.toList) ∧
      normalize five = .ok "0 9 * 1-x_feb/3 0,sat2,mon_" ∧
      (∀ a b c d e, words five.toList = [a, b, c, d, e] → ∃ d' e',
        "0 9 * 1-x_feb/3 0,sat2,mon_" = spaced [lower a, lower b, lower c, d', e'] ∧
        IsSubstituted monthNames 1 (lower d) d' ∧ replaceNames monthNames 1 (lower d) = .ok d' ∧
        IsSubstituted dayNames 0 (lower e) e' ∧ replaceNames dayNames 0 (lower e) = .ok e') ∧
      (∀ entry ∈ aliases, lower (trim two.toList) ≠ entry.1.toList) ∧
      normalize two = .ok "@daily now" ∧
      ((words two.toList).length ≠ 5 → "@daily now" = spaced ((words two.toList).map lower)) := by
  intro five two
  have hfive : ∀ entry ∈ aliases, lower (trim five.toList) ≠ entry.1.toList := by decide +kernel
  have htwo : ∀ entry ∈ aliases, lower (trim two.toList) ≠ entry.1.toList := by decide +kernel
  have hnormal : normalize five = .ok "0 9 * 1-x_feb/3 0,sat2,mon_" := by decide +kernel
  have hnormal' : normalize two = .ok "@daily now" := by decide +kernel
  exact ⟨hfive, hnormal, (normalize_substitutes hfive hnormal).1, htwo, hnormal',
    (normalize_substitutes htwo hnormal').2⟩

end Schedule

end Cron
