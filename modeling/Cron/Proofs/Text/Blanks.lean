import Cron.Proofs.Text.LowerCase
import Cron.Proofs.Text.Pieces
import Cron.Proofs.Text.Words
import Mathlib.Data.List.TakeWhile

/-!
Blanks around a text. A blank is no letter, and no mark that is skipped in a search for one, so each
side of it is lowered on its own; and words do not reach over it. So the small words of a text are
those of the text without the blanks at its ends.
-/
namespace Cron.Text

/-- A character that lowering stops at: it is small, has no case, and is not skipped. -/
structure IsBoundary (c : Char) : Prop where
  isSmall : IsSmall c
  not_skipped : inRanges skippedRanges c.toNat = false
  not_cased : inRanges casedRanges c.toNat = false

instance (c : Char) : Decidable (IsBoundary c) :=
  decidable_of_iff (IsSmall c ∧ inRanges skippedRanges c.toNat = false ∧
      inRanges casedRanges c.toNat = false)
    ⟨fun h => ⟨h.1, h.2.1, h.2.2⟩, fun h => ⟨h.1, h.2, h.3⟩⟩

variable {cs before after : List Char} {c : Char}

theorem isBoundary_of_isBlank (h : isBlank c = true) : IsBoundary c := by
  have hall : ∀ r ∈ blankRanges, ∀ k ≤ r.2 - r.1, IsBoundary (Char.ofNat (r.1 + k)) := by
    decide +kernel
  obtain ⟨r, hr, hlo, hhi⟩ := exists_mem_of_inRanges h
  have hcode : r.1 + (c.toNat - r.1) = c.toNat := by omega
  rw [← Char.ofNat_toNat c, ← hcode]
  exact hall r hr _ (by omega)

-- Nothing beyond a boundary is looked at in a search for a letter.
theorem IsBoundary.meetsCased_append (h : IsBoundary c) :
    meetsCased (before ++ c :: after) = meetsCased before := by
  unfold meetsCased
  rw [List.dropWhile_append]
  cases hdrop : before.dropWhile fun d => inRanges skippedRanges d.toNat with
  | nil => simp [h.not_skipped, h.not_cased]
  | cons d rest => simp

theorem IsBoundary.lowerFrom_append (h : IsBoundary c) (before far cs : List Char) :
    lowerFrom (before ++ c :: far) cs = lowerFrom before cs := by
  induction cs generalizing before with
  | nil => rfl
  | cons d rest ih =>
    have hrest := ih (d :: before)
    rw [List.cons_append] at hrest
    rw [lowerFrom, lowerFrom, h.meetsCased_append, hrest]

/-- The two sides of a boundary are lowered on their own. -/
theorem IsBoundary.lower_append (h : IsBoundary c) :
    lower (before ++ c :: after) = lower before ++ c :: lower after := by
  have hfrom : ∀ read, lowerFrom read (before ++ c :: after) =
      lowerFrom read before ++ c :: lower after := by
    induction before with
    | nil =>
      intro read
      have hnil : lowerFrom read [] = [] := rfl
      have hstart : lowerFrom (c :: read) after = lower after := h.lowerFrom_append [] read after
      rw [hnil, List.nil_append, List.nil_append, lowerFrom,
        if_neg (by simpa using h.isSmall.ne_sigma), if_neg (by simpa using h.isSmall.ne_dotted),
        h.isSmall.smallLetter_eq, hstart]
      rfl
    | cons d rest ih =>
      intro read
      rw [List.cons_append, lowerFrom, lowerFrom, h.meetsCased_append, ih, List.append_assoc]
  exact hfrom []

theorem words_lower_append (h : isBlank c = true) (before after : List Char) :
    words (lower (before ++ c :: after)) = words (lower before) ++ words (lower after) := by
  rw [(isBoundary_of_isBlank h).lower_append, words_append_blank h]

theorem words_lower_of_isBlank (h : ∀ c ∈ cs, isBlank c = true) : words (lower cs) = [] := by
  induction cs with
  | nil => rfl
  | cons c rest ih =>
    have hrest := ih fun d hd => h d (List.mem_cons_of_mem _ hd)
    rw [← List.nil_append (c :: rest), words_lower_append (h c List.mem_cons_self), hrest]
    rfl

theorem exists_eq_append_trim (cs : List Char) :
    ∃ before after, cs = before ++ trim cs ++ after ∧ (∀ c ∈ before, isBlank c = true) ∧
      ∀ c ∈ after, isBlank c = true := by
  refine ⟨cs.takeWhile isBlank, ((cs.dropWhile isBlank).reverse.takeWhile isBlank).reverse, ?_,
    fun c hc => List.mem_takeWhile_imp hc,
    fun c hc => List.mem_takeWhile_imp (List.mem_reverse.1 hc)⟩
  have hinner : trim cs ++ ((cs.dropWhile isBlank).reverse.takeWhile isBlank).reverse =
      cs.dropWhile isBlank := by
    rw [trim, ← List.reverse_append, List.takeWhile_append_dropWhile, List.reverse_reverse]
  rw [List.append_assoc, hinner, List.takeWhile_append_dropWhile]

theorem trim_ne_nil (h : ∃ c ∈ cs, isBlank c = false) : trim cs ≠ [] := by
  obtain ⟨before, after, heq, hbefore, hafter⟩ := exists_eq_append_trim cs
  intro hnil
  obtain ⟨c, hc, hblank⟩ := h
  rw [heq, hnil, List.append_nil, List.mem_append] at hc
  have hboth : isBlank c = true := hc.elim (hbefore c) (hafter c)
  rw [hblank] at hboth
  cases hboth

/-- The small words of a text do not depend on the blanks at its ends. -/
theorem words_lower_trim (cs : List Char) : words (lower (trim cs)) = words (lower cs) := by
  have hbefore : ∀ before after : List Char, (∀ c ∈ before, isBlank c = true) →
      words (lower (before ++ after)) = words (lower after) := by
    intro before after hblank
    induction before with
    | nil => rfl
    | cons c rest ih =>
      have hc : words (lower (c :: (rest ++ after))) = words (lower (rest ++ after)) :=
        words_lower_append (hblank c List.mem_cons_self) [] _
      rw [List.cons_append, hc, ih fun d hd => hblank d (List.mem_cons_of_mem _ hd)]
  have hafter : ∀ before after : List Char, (∀ c ∈ after, isBlank c = true) →
      words (lower (before ++ after)) = words (lower before) := by
    intro before after hblank
    cases after with
    | nil => rw [List.append_nil]
    | cons c rest =>
      have hrest := words_lower_of_isBlank fun d hd => hblank d (List.mem_cons_of_mem _ hd)
      rw [words_lower_append (hblank c List.mem_cons_self), hrest, List.append_nil]
  obtain ⟨before, after, heq, hblank, hblank'⟩ := exists_eq_append_trim cs
  conv_rhs => rw [heq]
  rw [hafter _ _ hblank', hbefore _ _ hblank]

/-! A text of one word. -/

-- A text that begins with a letter begins with a word.
theorem words_cons_of_not_isBlank (hc : isBlank c = false) :
    words (c :: cs) =
      (c :: cs).takeWhile (!isBlank ·) :: words ((c :: cs).dropWhile (!isBlank ·)) := by
  have hword : words ((c :: cs).takeWhile (!isBlank ·)) = [(c :: cs).takeWhile (!isBlank ·)] := by
    apply words_of_not_isBlank
    · simp [hc]
    · intro d hd
      simpa using List.mem_takeWhile_imp hd
  have hrest : ∀ d ∈ ((c :: cs).dropWhile (!isBlank ·)).head?, isBlank d = true := by
    intro d hd
    have hnot := List.head?_dropWhile_not (!isBlank ·) (c :: cs)
    rw [hd] at hnot
    simpa using hnot
  conv_lhs => rw [← List.takeWhile_append_dropWhile (p := (!isBlank ·)) (l := c :: cs)]
  rw [words_append_of_head hrest, hword, List.singleton_append]

theorem isBlank_of_words_eq_nil (h : words cs = []) : ∀ c ∈ cs, isBlank c = true := by
  induction cs with
  | nil => simp
  | cons d rest ih =>
    by_cases hd : isBlank d = true
    · rw [words_cons_blank hd] at h
      exact List.forall_mem_cons.2 ⟨hd, ih h⟩
    · rw [words_cons_of_not_isBlank (by simpa using hd)] at h
      cases h

theorem exists_eq_append_of_words {w : List Char} (h : words cs = [w]) :
    ∃ before after, cs = before ++ (w ++ after) ∧ (∀ c ∈ before, isBlank c = true) ∧
      ∀ c ∈ after, isBlank c = true := by
  induction cs with
  | nil => cases h
  | cons d rest ih =>
    by_cases hd : isBlank d = true
    · rw [words_cons_blank hd] at h
      obtain ⟨before, after, rfl, hbefore, hafter⟩ := ih h
      exact ⟨d :: before, after, rfl, List.forall_mem_cons.2 ⟨hd, hbefore⟩, hafter⟩
    · rw [words_cons_of_not_isBlank (by simpa using hd)] at h
      obtain ⟨hword, hrest⟩ := List.cons.inj h
      refine ⟨[], (d :: rest).dropWhile (!isBlank ·), ?_, by simp, isBlank_of_words_eq_nil hrest⟩
      rw [← hword, List.nil_append, List.takeWhile_append_dropWhile]

theorem trim_of_words {w : List Char} (h : words cs = [w]) : trim cs = w := by
  have hword : IsWord w := isWord_of_mem_words (h ▸ List.mem_cons_self)
  obtain ⟨before, after, rfl, hbefore, hafter⟩ := exists_eq_append_of_words h
  exact trim_append hbefore hafter hword.1 (hword.2 _ (List.head_mem hword.1))
    (hword.2 _ (List.getLast_mem hword.1))

/-! Lowering brings in no blank and no star, so it acts on each word by itself. -/

theorem smallLetter_ascii_cases : ∀ n < 128, smallLetter (Char.ofNat n) = Char.ofNat n ∨
    isBlank (smallLetter (Char.ofNat n)) = false ∧ smallLetter (Char.ofNat n) ≠ '*' := by
  decide

theorem isBlank_smallsOf : ∀ row ∈ capitalRows, ∀ m ∈ smallsOf row,
    inRanges blankRanges m = false ∧ m ≠ '*'.toNat := by
  decide +kernel

theorem smallLetter_cases (c : Char) :
    smallLetter c = c ∨ isBlank (smallLetter c) = false ∧ smallLetter c ≠ '*' := by
  by_cases hc : c.toNat < 128
  · rw [← Char.ofNat_toNat c]
    exact smallLetter_ascii_cases c.toNat hc
  apply (smallLetter_eq_or_mem hc).imp_right
  rintro ⟨row, hrow, m, hm, hvalid, hsmall⟩
  have hcode := toNat_ofNat_of_isValidChar hvalid
  obtain ⟨hblank, hstar⟩ := isBlank_smallsOf row hrow m hm
  rw [hsmall, isBlank, hcode]
  refine ⟨hblank, fun heq => hstar ?_⟩
  rw [← hcode, heq]

theorem mem_of_mem_lowerFrom (hc : isBlank c = true ∨ c = '*') (h : c ∈ lowerFrom before cs) :
    c ∈ cs := by
  induction cs generalizing before with
  | nil => cases h
  | cons d rest ih =>
    have hmarks : ∀ d ∈ ['ς', 'σ', 'i', '\u0307'], isBlank d = false ∧ d ≠ '*' := by decide
    have hnew : ¬ (isBlank c = false ∧ c ≠ '*') := by
      rintro ⟨hblank, hstar⟩
      simp [hblank, hstar] at hc
    unfold lowerFrom at h
    rcases List.mem_append.1 h with h | h
    · rw [List.mem_cons]
      left
      split at h
      · refine absurd (hmarks c ?_) hnew
        rw [List.mem_singleton] at h
        split at h <;> simp [h]
      · split at h
        · exact absurd (hmarks c (by simp_all)) hnew
        · rcases smallLetter_cases d with hself | hsmall
          · rw [← hself, List.mem_singleton.1 h]
          · rw [List.mem_singleton.1 h] at hnew
            exact absurd hsmall hnew
    · exact List.mem_cons_of_mem _ (ih h)

theorem length_le_lowerFrom (before cs : List Char) : cs.length ≤ (lowerFrom before cs).length := by
  induction cs generalizing before with
  | nil => exact Nat.le_refl _
  | cons c rest ih =>
    have hrest := ih (c :: before)
    rw [lowerFrom, List.length_append, List.length_cons]
    split
    · rw [List.length_singleton]
      omega
    · split
      · rw [List.length_cons, List.length_singleton]
        omega
      · rw [List.length_singleton]
        omega

theorem IsWord.lower (h : IsWord cs) : IsWord (lower cs) := by
  constructor
  · intro hnil
    have hlength := length_le_lowerFrom [] cs
    change lowerFrom [] cs = [] at hnil
    rw [hnil, List.length_nil, Nat.le_zero] at hlength
    exact h.1 (List.length_eq_zero_iff.1 hlength)
  · intro c hc
    by_contra hblank
    rw [Bool.not_eq_false] at hblank
    rw [h.2 c (mem_of_mem_lowerFrom (.inl hblank) hc)] at hblank
    cases hblank

-- Only the star is lowered to the star.
theorem lower_eq_star_iff : lower cs = ['*'] ↔ cs = ['*'] := by
  constructor
  · intro h
    have hlength := length_le_lowerFrom [] cs
    change lowerFrom [] cs = ['*'] at h
    have hmem : '*' ∈ cs := mem_of_mem_lowerFrom (.inr rfl) (h ▸ List.mem_cons_self)
    rw [h, List.length_singleton] at hlength
    match cs, hlength, hmem with
    | [c], _, hmem => rw [List.mem_singleton.1 hmem]
  · rintro rfl
    decide

/-- The words of a lowered text are its words, each lowered by itself. -/
theorem words_lower (cs : List Char) : words (lower cs) = (words cs).map lower := by
  induction hlength : cs.length using Nat.strong_induction_on generalizing cs with
  | h length ih =>
    by_cases hblank : ∃ c ∈ cs, isBlank c = true
    · obtain ⟨c, hmem, hc⟩ := hblank
      obtain ⟨before, after, rfl⟩ := List.append_of_mem hmem
      rw [List.length_append, List.length_cons] at hlength
      rw [words_lower_append hc, words_append_blank hc, List.map_append,
        ih before.length (by omega) before rfl, ih after.length (by omega) after rfl]
    · have hnone : ∀ c ∈ cs, isBlank c = false := by simpa using hblank
      by_cases hnil : cs = []
      · rw [hnil]
        rfl
      · have hword : IsWord (lower cs) := IsWord.lower ⟨hnil, hnone⟩
        rw [words_of_not_isBlank hnil hnone, words_of_not_isBlank hword.1 hword.2,
          List.map_singleton]

end Cron.Text
