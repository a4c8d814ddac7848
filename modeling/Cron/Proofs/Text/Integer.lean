import Cron.Proofs.Text.Numeral
import Cron.Proofs.Text.Pieces

/-!
Integers that are written with digits alone. A numeral is read as the number it denotes, unless it
has too many digits. The marks for digits that are none, such as raised numbers, look like digits
but cannot be read.
-/
namespace Cron.Text

variable {cs : List Char} {c : Char} {n : Nat}

theorem forall_isDigitMark {P : Char → Prop} (hdigit : ∀ c, isDigit c = true → P c)
    (hmark : ∀ r ∈ digitMarkRanges, ∀ k ≤ r.2 - r.1, P (Char.ofNat (r.1 + k)))
    (hc : isDigitMark c = true) : P c := by
  rcases Bool.or_eq_true_iff.1 hc with hc | hc
  · exact hdigit c hc
  · obtain ⟨r, hr, hlo, hhi⟩ := exists_mem_of_inRanges hc
    have hcode : r.1 + (c.toNat - r.1) = c.toNat := by omega
    rw [← Char.ofNat_toNat c, ← hcode]
    exact hmark r hr _ (by omega)

-- Nothing that an integer may begin or end with besides its digits is a digit or a mark for one.
theorem isDigitMark_spec (hc : isDigitMark c = true) :
    isBlank c = false ∧ c ∉ ['-', '+', '_'] := by
  apply forall_isDigitMark (P := fun c => isBlank c = false ∧ c ∉ ['-', '+', '_']) _ _ hc
  · intro c hc
    exact forall_isDigit (P := fun c => isBlank c = false ∧ c ∉ ['-', '+', '_'])
      (by decide +kernel) hc
  · decide +kernel

theorem isDigitMark_of_isDigit (hc : isDigit c = true) : isDigitMark c = true := by
  rw [isDigitMark, hc, Bool.true_or]

theorem wellSpaced_of_not_mem (hne : cs ≠ []) (h : '_' ∉ cs) : wellSpaced cs = true := by
  induction cs with
  | nil => exact absurd rfl hne
  | cons c rest ih =>
    rw [List.mem_cons, not_or] at h
    cases rest with
    | nil =>
      rw [wellSpaced]
      exact bne_iff_ne.2 (Ne.symm h.1)
    | cons d rest =>
      have hd : d ≠ '_' := fun heq => h.2 (heq ▸ List.mem_cons_self)
      rw [wellSpaced]
      · exact ih (List.cons_ne_nil d rest) h.2
      all_goals simp [hd, Ne.symm h.1]

/-- What an integer holds between its sign and the blanks at its end. -/
def isIntegerPart (c : Char) : Bool := isDigit c || c == '_'

-- Signs, blanks and underscores are no digits and no marks for one.
theorem readInteger_of_isDigitMark (hmarks : ∀ c ∈ cs, isDigitMark c = true) :
    readInteger cs =
      if !wellSpaced (cs.takeWhile isIntegerPart) then .error .malformed
      else
        match valueOfDigits ((cs.takeWhile isIntegerPart).filterMap digit?) with
        | .error e => .error e
        | .ok n => if (cs.dropWhile isIntegerPart).isEmpty then .ok n else .error .malformed := by
  have hinner : ((cs.dropWhile isIntegerBlank).reverse.dropWhile isIntegerBlank).reverse = cs := by
    apply strip_eq_self
    intro c hc
    rw [isIntegerBlank, (isDigitMark_spec (hmarks c hc)).1, Bool.false_and]
  have hsign : takeSign cs = (false, cs) := by
    cases cs with
    | nil => rfl
    | cons c rest =>
      have hc := (isDigitMark_spec (hmarks c List.mem_cons_self)).2
      unfold takeSign
      split <;> simp_all
  rw [readInteger, hinner, hsign]
  rfl

theorem readInteger_of_isNumeral (h : IsNumeral cs n) :
    readInteger cs = if maxDigits < cs.length then .error (.tooLong cs.length) else .ok n := by
  have hparts : ∀ c ∈ cs, isIntegerPart c = true := by
    intro c hc
    rw [isIntegerPart, h.isDigit_of_mem c hc, Bool.true_or]
  have htake : cs.takeWhile isIntegerPart = cs := List.takeWhile_eq_self_iff.2 hparts
  have hdrop : cs.dropWhile isIntegerPart = [] := List.dropWhile_eq_nil_iff.2 hparts
  have hspaced : wellSpaced cs = true := wellSpaced_of_not_mem h.ne_nil (h.not_mem (by decide))
  obtain ⟨digits, -, hmap, hn⟩ := id h
  have hdigits : cs.filterMap digit? = digits := by
    simpa [List.filterMap_map] using congrArg (List.filterMap id) hmap
  have hlength : digits.length = cs.length := by
    rw [← List.length_map (f := digit?), hmap, List.length_map]
  rw [readInteger_of_isDigitMark fun c hc => isDigitMark_of_isDigit (h.isDigit_of_mem c hc), htake,
    hdrop, hspaced, hdigits, valueOfDigits, hlength, ofDigits_eq, ← hn, if_neg (by decide)]
  by_cases hlong : maxDigits < cs.length
  · rw [if_pos hlong, if_pos hlong]
  · rw [if_neg hlong, if_neg hlong]
    rfl

-- A mark for a digit is the end of what can be read.
theorem exists_readInteger_eq_error (hmarks : ∀ c ∈ cs, isDigitMark c = true)
    (hc : c ∈ cs) (hdigit : isDigit c = false) : ∃ e, readInteger cs = .error e := by
  have hrest : cs.dropWhile isIntegerPart ≠ [] := by
    intro hnil
    have hpart := List.dropWhile_eq_nil_iff.1 hnil c hc
    have hunder := (isDigitMark_spec (hmarks c hc)).2
    simp [isIntegerPart, hdigit] at hpart
    simp [hpart] at hunder
  rw [readInteger_of_isDigitMark hmarks]
  split
  · exact ⟨_, rfl⟩
  · split
    · exact ⟨_, rfl⟩
    · rw [if_neg (by simpa using hrest)]
      exact ⟨_, rfl⟩

end Cron.Text
