import Cron.Duration
import Cron.Proofs.Readings
import Cron.Proofs.Text.Blanks
import Cron.Proofs.Text.Integer

/-!
Texts of lengths of time. A length is written as a numeral with the letter of its unit behind it,
and a numeral alone counts minutes; blanks may stand around either. One more letter is let through,
the long s, and then no unit is found for it. Any other text is refused as such.
-/
namespace Cron.Duration

open Text

/-- The letters of the units, in either case, with the seconds of each unit. -/
def unitLetters : List (Char × Nat) :=
  [('s', 1), ('S', 1), ('m', 60), ('M', 60), ('h', 3600), ('H', 3600), ('d', 86400),
   ('D', 86400), ('w', 604800), ('W', 604800)]

/-- The seconds of a unit, by the letter that stands for it. Without a letter minutes are meant. -/
inductive IsUnit : Option Char → Nat → Prop
  | minute : IsUnit none 60
  | letter {c : Char} {seconds : Nat} (h : (c, seconds) ∈ unitLetters) : IsUnit (some c) seconds

/-- A numeral that is not too long, perhaps with a mark behind it, and blanks before, between and
after. -/
def IsMarked (cs : List Char) (n : Nat) (mark : Option Char) : Prop :=
  ∃ before digits gap after, cs = before ++ (digits ++ (gap ++ mark.toList) ++ after) ∧
    (∀ c ∈ before ++ gap ++ after, isBlank c = true) ∧ IsNumeral digits n ∧
    digits.length ≤ maxDigits

variable {cs digits gap : List Char} {c : Char} {n seconds : Nat} {mark : Option Char}
  {shown s : String}

/-! Letters of units. -/

theorem unitSeconds?_ascii : ∀ k < 128, ∀ seconds ∈ unitSeconds? (Char.ofNat k).toLower,
    (Char.ofNat k, seconds) ∈ unitLetters := by
  decide

theorem mem_unitLetters : (c, seconds) ∈ unitLetters ↔ unitSeconds? c.toLower = some seconds := by
  constructor
  · intro h
    have hall : ∀ entry ∈ unitLetters, unitSeconds? entry.1.toLower = some entry.2 := by decide
    exact hall _ h
  · intro h
    have hascii : c.toNat < 128 := by
      by_contra hlarge
      have hlower : c.toLower = c := by
        refine dif_neg fun hcapital => ?_
        have hz : c.toNat ≤ 90 := by exact_mod_cast hcapital.2
        omega
      rw [hlower] at h
      unfold unitSeconds? at h
      split at h <;> simp_all
    rw [← Char.ofNat_toNat c] at h ⊢
    exact unitSeconds?_ascii c.toNat hascii seconds h

theorem isUnitLetter_cases (h : isUnitLetter c = true) :
    (∃ seconds, (c, seconds) ∈ unitLetters) ∨ c = 'ſ' := by
  rcases Bool.or_eq_true_iff.1 h with h | h
  · obtain ⟨seconds, hseconds⟩ := Option.isSome_iff_exists.1 h
    exact .inl ⟨seconds, mem_unitLetters.2 hseconds⟩
  · exact .inr (beq_iff_eq.1 h)

theorem isUnitLetter_of_mem (h : (c, seconds) ∈ unitLetters) : isUnitLetter c = true := by
  rw [isUnitLetter, mem_unitLetters.1 h, Option.isSome_some, Bool.true_or]

theorem readUnit_of_mem (h : (c, seconds) ∈ unitLetters) : readUnit shown c = .ok seconds := by
  rw [readUnit, mem_unitLetters.1 h]

theorem readUnit_long_s : readUnit shown 'ſ' = .error (.unknownName "ſ") := rfl

-- A letter of a unit is neither a digit, nor a mark for one, nor a blank.
theorem isDigitMark_of_isUnitLetter (h : isUnitLetter c = true) :
    isDigitMark c = false ∧ isBlank c = false := by
  rcases isUnitLetter_cases h with ⟨seconds, hmem⟩ | rfl
  · have hall : ∀ entry ∈ unitLetters, isDigitMark entry.1 = false ∧ isBlank entry.1 = false := by
      decide
    exact hall _ hmem
  · decide

/-! What is read, without the blanks at the ends. -/

theorem readAmount_of_isNumeral (h : IsNumeral cs n) (hshort : cs.length ≤ maxDigits) :
    readAmount cs = .ok n := by
  rw [readAmount, readInteger_of_isNumeral h, if_neg hshort.not_gt]

theorem readAmount_of_readInteger {e : NumeralError} (h : readInteger cs = .error e) :
    ∃ error, readAmount cs = .error (.input error) := by
  rw [readAmount, h]
  cases e with
  | malformed => exact ⟨_, rfl⟩
  | tooLong digits => exact ⟨_, rfl⟩

theorem readAmount_of_long (h : IsNumeral cs n) (hlong : maxDigits < cs.length) :
    ∃ error, readAmount cs = .error (.input error) := by
  apply readAmount_of_readInteger
  rw [readInteger_of_isNumeral h, if_pos hlong]

theorem readTrimmed_of_isNumeral (h : IsNumeral cs n) (hshort : cs.length ≤ maxDigits) :
    readTrimmed shown cs = ofMinutes n := by
  have hmarks : cs.all isDigitMark = true := by
    rw [List.all_eq_true]
    exact fun c hc => isDigitMark_of_isDigit (h.isDigit_of_mem c hc)
  rw [readTrimmed, hmarks, if_pos (by simpa using h.ne_nil), readAmount_of_isNumeral h hshort,
    ok_bind]

-- The digits end where the blanks begin, or the letter, for neither of them is a digit.
theorem digits_append_unit (h : IsNumeral digits n) (hgap : ∀ c ∈ gap, isBlank c = true)
    (hc : isUnitLetter c = true) :
    (digits ++ (gap ++ [c])).takeWhile isDigit = digits ∧
      (digits ++ (gap ++ [c])).dropWhile isDigit = gap ++ [c] ∧
      (gap ++ [c]).dropWhile isBlank = [c] := by
  obtain ⟨hmark, hblank⟩ := isDigitMark_of_isUnitLetter hc
  have hstop : ∀ d ∈ (gap ++ [c]).head?, ¬ isDigit d = true := by
    intro d hd hdigit
    have hspec := isDigitMark_of_isDigit hdigit
    cases gap with
    | nil =>
      cases hd
      rw [hspec] at hmark
      cases hmark
    | cons b rest =>
      cases hd
      have hblank' := hgap d List.mem_cons_self
      rw [(isDigitMark_spec hspec).1] at hblank'
      cases hblank'
  obtain ⟨d, rest, hrest⟩ := List.exists_cons_of_ne_nil (l := gap ++ [c]) (by simp)
  rw [hrest] at hstop
  have hd := hstop d rfl
  rw [List.takeWhile_append_of_pos h.isDigit_of_mem, List.dropWhile_append_of_pos h.isDigit_of_mem,
    List.dropWhile_append_of_pos hgap, hrest, List.takeWhile_cons_of_neg hd,
    List.dropWhile_cons_of_neg hd, List.dropWhile_cons_of_neg (by simp [hblank]), List.append_nil]
  exact ⟨rfl, rfl, rfl⟩

theorem readTrimmed_of_isUnitLetter (h : IsNumeral digits n) (hgap : ∀ c ∈ gap, isBlank c = true)
    (hc : isUnitLetter c = true) :
    readTrimmed shown (digits ++ (gap ++ [c])) = (do
      let amount ← readAmount digits
      let seconds ← readUnit shown c
      ofSeconds (amount * seconds)) := by
  obtain ⟨htake, hdrop, hunit⟩ := digits_append_unit h hgap hc
  have hmixed : (digits ++ (gap ++ [c])).all isDigitMark = false := by
    simp [(isDigitMark_of_isUnitLetter hc).1]
  obtain ⟨d, ds, rfl⟩ := List.exists_cons_of_ne_nil h.ne_nil
  rw [readTrimmed, hmixed, Bool.and_false, if_neg Bool.false_ne_true, htake, hdrop, hunit]
  exact if_pos hc

-- Marks alone are a numeral, or are refused where one of them is no digit or they are too many.
theorem readTrimmed_cases_of_marks (shown : String)
    (h : (!cs.isEmpty && cs.all isDigitMark) = true) :
    (∃ error, readTrimmed shown cs = .error (.input error)) ∨
      ∃ n, IsNumeral cs n ∧ cs.length ≤ maxDigits := by
  have hread : readTrimmed shown cs = readAmount cs >>= ofMinutes := by
    rw [readTrimmed, if_pos (by simpa using h)]
  have hrefused : ∀ {error}, readAmount cs = .error (.input error) →
      ∃ error, readTrimmed shown cs = .error (.input error) := by
    intro error herror
    rw [hread, herror]
    exact ⟨error, rfl⟩
  rw [Bool.and_eq_true, List.all_eq_true] at h
  by_cases hdigits : ∀ c ∈ cs, isDigit c = true
  · obtain ⟨n, hn⟩ := exists_isNumeral (by simpa using h.1) hdigits
    rcases Nat.lt_or_ge maxDigits cs.length with hlong | hshort
    · obtain ⟨error, herror⟩ := readAmount_of_long hn hlong
      exact .inl (hrefused herror)
    · exact .inr ⟨n, hn, hshort⟩
  · obtain ⟨c, hc, hdigit⟩ : ∃ c ∈ cs, ¬ isDigit c = true := by simpa using hdigits
    obtain ⟨e, he⟩ := exists_readInteger_eq_error h.2 hc (by simpa using hdigit)
    obtain ⟨error, herror⟩ := readAmount_of_readInteger he
    exact .inl (hrefused herror)

theorem readTrimmed_cases_of_not_marks (shown : String)
    (h : ¬ (!cs.isEmpty && cs.all isDigitMark) = true) :
    (∃ error, readTrimmed shown cs = .error (.input error)) ∨
      ∃ digits gap c n, cs = digits ++ (gap ++ [c]) ∧ IsNumeral digits n ∧
        digits.length ≤ maxDigits ∧ (∀ c ∈ gap, isBlank c = true) ∧ isUnitLetter c = true := by
  rw [readTrimmed, if_neg h]
  split
  · next d ds c htake hrest =>
    by_cases hc : isUnitLetter c = true
    · rw [if_pos hc]
      have hdigits : ∀ e ∈ d :: ds, isDigit e = true := by
        rw [← htake]
        exact fun e he => List.mem_takeWhile_imp he
      obtain ⟨n, hn⟩ := exists_isNumeral (List.cons_ne_nil d ds) hdigits
      rcases Nat.lt_or_ge maxDigits (d :: ds).length with hlong | hshort
      · obtain ⟨error, herror⟩ := readAmount_of_long hn hlong
        rw [herror]
        exact .inl ⟨error, rfl⟩
      · refine .inr ⟨d :: ds, (cs.dropWhile isDigit).takeWhile isBlank, c, n, ?_, hn, hshort,
          fun e he => List.mem_takeWhile_imp he, hc⟩
        rw [← htake, ← hrest, List.takeWhile_append_dropWhile, List.takeWhile_append_dropWhile]
    · rw [if_neg hc]
      exact .inl ⟨_, rfl⟩
  · exact .inl ⟨_, rfl⟩

-- Whatever else a text is, it is refused as such.
theorem readTrimmed_cases (shown : String) (cs : List Char) :
    (∃ error, readTrimmed shown cs = .error (.input error)) ∨
      (∃ n, IsNumeral cs n ∧ cs.length ≤ maxDigits) ∨
      ∃ digits gap c n, cs = digits ++ (gap ++ [c]) ∧ IsNumeral digits n ∧
        digits.length ≤ maxDigits ∧ (∀ c ∈ gap, isBlank c = true) ∧ isUnitLetter c = true := by
  by_cases h : (!cs.isEmpty && cs.all isDigitMark) = true
  · rcases readTrimmed_cases_of_marks shown h with hinput | hnumeral
    · exact .inl hinput
    · exact .inr (.inl hnumeral)
  · rcases readTrimmed_cases_of_not_marks shown h with hinput | hunit
    · exact .inl hinput
    · exact .inr (.inr hunit)

/-! Texts with blanks at their ends. -/

theorem ofText_of_isMarked_none (h : IsMarked s.toList n none) : ofText s = ofMinutes n := by
  obtain ⟨before, digits, gap, after, hs, hblank, hn, hshort⟩ := h
  simp only [List.forall_mem_append] at hblank
  have hdigit := fun c hc => (isDigitMark_spec (isDigitMark_of_isDigit (hn.isDigit_of_mem c hc))).1
  have htrim : trim s.toList = digits := by
    rw [hs, Option.toList_none, List.append_nil, List.append_assoc]
    refine trim_append hblank.1.1 ?_ hn.ne_nil (hdigit _ (List.head_mem _))
      (hdigit _ (List.getLast_mem _))
    simp only [List.forall_mem_append]
    exact ⟨hblank.1.2, hblank.2⟩
  rw [ofText, htrim, readTrimmed_of_isNumeral hn hshort]

theorem ofText_of_isMarked_some (h : IsMarked s.toList n (some c)) (hc : isUnitLetter c = true) :
    ofText s = readUnit (quoted s) c >>= fun seconds => ofSeconds (n * seconds) := by
  obtain ⟨before, digits, gap, after, hs, hblank, hn, hshort⟩ := h
  simp only [List.forall_mem_append] at hblank
  have hdigit := fun c hc => (isDigitMark_spec (isDigitMark_of_isDigit (hn.isDigit_of_mem c hc))).1
  have htrim : trim s.toList = digits ++ (gap ++ [c]) := by
    rw [hs, Option.toList_some]
    refine trim_append hblank.1.1 hblank.2 (by simp) ?_ ?_
    · rw [List.head_append_of_ne_nil hn.ne_nil]
      exact hdigit _ (List.head_mem _)
    · simpa using (isDigitMark_of_isUnitLetter hc).2
  rw [ofText, htrim, readTrimmed_of_isUnitLetter hn hblank.1.2 hc,
    readAmount_of_isNumeral hn hshort, ok_bind]

/-- A number of units is read as its seconds, as far as there is room for them. -/
theorem ofText_of_isUnit (h : IsMarked s.toList n mark) (hunit : IsUnit mark seconds) :
    ofText s = ofSeconds (n * seconds) := by
  cases hunit with
  | minute =>
    rw [ofText_of_isMarked_none h, ofMinutes, mul_comm]
    rfl
  | letter hmem =>
    rw [ofText_of_isMarked_some h (isUnitLetter_of_mem hmem), readUnit_of_mem hmem, ok_bind]

theorem ofText_of_long_s (h : IsMarked s.toList n (some 'ſ')) :
    ofText s = .error (.unknownName "ſ") := by
  rw [ofText_of_isMarked_some h (by decide), readUnit_long_s, error_bind]

theorem ofText_cases (s : String) :
    (∃ error, ofText s = .error (.input error)) ∨
      (∃ n mark seconds, IsMarked s.toList n mark ∧ IsUnit mark seconds) ∨
      ∃ n, IsMarked s.toList n (some 'ſ') := by
  obtain ⟨before, after, hs, hbefore, hafter⟩ := exists_eq_append_trim s.toList
  rcases readTrimmed_cases (quoted s) (trim s.toList) with hinput | ⟨n, hn, hshort⟩ |
    ⟨digits, gap, c, n, htrim, hn, hshort, hgap, hc⟩
  · exact .inl hinput
  · have hmarked : IsMarked s.toList n none := by
      refine ⟨before, trim s.toList, [], after, ?_, ?_, hn, hshort⟩
      · rw [Option.toList_none, List.append_nil, List.append_nil, ← List.append_assoc, ← hs]
      · simp only [List.forall_mem_append]
        exact ⟨⟨hbefore, by simp⟩, hafter⟩
    exact .inr (.inl ⟨n, none, 60, hmarked, .minute⟩)
  · have hmarked : IsMarked s.toList n (some c) := by
      refine ⟨before, digits, gap, after, ?_, ?_, hn, hshort⟩
      · rw [Option.toList_some, ← List.append_assoc, ← htrim, ← hs]
      · simp only [List.forall_mem_append]
        exact ⟨⟨hbefore, hgap⟩, hafter⟩
    rcases isUnitLetter_cases hc with ⟨seconds, hmem⟩ | rfl
    · exact .inr (.inl ⟨n, some c, seconds, hmarked, .letter hmem⟩)
    · exact .inr (.inr ⟨n, hmarked⟩)

end Cron.Duration
