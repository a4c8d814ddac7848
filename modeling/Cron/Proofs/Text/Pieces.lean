import Cron.Text.Blank
import Cron.Text.Pieces
import Mathlib.Data.List.TakeWhile

/-!
Cutting at separators and into words, as equations on the text: a text without the separator is one
piece, and a separator ends the piece before it. Words are stretches of the text without blanks.
-/
namespace Cron.Text

section Separator
variable {separator : Char} {cs before after : List Char}

theorem piecesFrom_of_not_mem (piece : List Char) (h : separator ∉ cs) :
    piecesFrom separator piece cs = [piece.reverse ++ cs] := by
  induction cs generalizing piece with
  | nil => rw [piecesFrom, List.append_nil]
  | cons c rest ih =>
    rw [List.mem_cons, not_or] at h
    rw [piecesFrom, if_neg (Ne.symm h.1), ih _ h.2, List.reverse_cons, List.append_assoc,
      List.singleton_append]

theorem piecesFrom_append (piece : List Char) (h : separator ∉ before) :
    piecesFrom separator piece (before ++ separator :: after) =
      (piece.reverse ++ before) :: pieces separator after := by
  induction before generalizing piece with
  | nil => rw [List.nil_append, piecesFrom, if_pos rfl, List.append_nil, pieces]
  | cons c rest ih =>
    rw [List.mem_cons, not_or] at h
    rw [List.cons_append, piecesFrom, if_neg (Ne.symm h.1), ih _ h.2, List.reverse_cons,
      List.append_assoc, List.singleton_append]

theorem pieces_ne_nil (cs : List Char) : pieces separator cs ≠ [] := by
  by_cases h : separator ∈ cs
  · rcases List.eq_append_cons_of_mem h with ⟨before, after, rfl, hbefore⟩
    rw [pieces, piecesFrom_append [] hbefore]
    exact List.cons_ne_nil _ _
  · rw [pieces, piecesFrom_of_not_mem [] h]
    exact List.cons_ne_nil _ _

theorem pieces_of_not_mem (h : separator ∉ cs) : pieces separator cs = [cs] :=
  piecesFrom_of_not_mem [] h

theorem pieces_append (h : separator ∉ before) :
    pieces separator (before ++ separator :: after) = before :: pieces separator after :=
  piecesFrom_append [] h

theorem mem_of_mem_piecesFrom {piece p : List Char} {c : Char}
    (h : p ∈ piecesFrom separator piece cs) (hc : c ∈ p) : c ∈ piece ∨ c ∈ cs := by
  induction cs generalizing piece with
  | nil =>
    rw [piecesFrom, List.mem_singleton] at h
    subst h
    exact .inl (List.mem_reverse.1 hc)
  | cons d rest ih =>
    unfold piecesFrom at h
    split at h
    · rcases List.mem_cons.1 h with rfl | h
      · exact .inl (List.mem_reverse.1 hc)
      · exact .inr (List.mem_cons_of_mem _ ((ih h).resolve_left List.not_mem_nil))
    · rcases ih h with hpiece | hrest
      · rcases List.mem_cons.1 hpiece with rfl | hpiece
        · exact .inr List.mem_cons_self
        · exact .inl hpiece
      · exact .inr (List.mem_cons_of_mem _ hrest)

-- A piece holds characters of the text only.
theorem mem_of_mem_pieces {p : List Char} {c : Char} (h : p ∈ pieces separator cs)
    (hc : c ∈ p) : c ∈ cs :=
  (mem_of_mem_piecesFrom h hc).resolve_left List.not_mem_nil

-- Every other character of the text is the separator.
theorem eq_or_mem_pieces {c : Char} (hc : c ∈ cs) :
    c = separator ∨ ∃ p ∈ pieces separator cs, c ∈ p := by
  induction hlength : cs.length using Nat.strong_induction_on generalizing cs with
  | h length ih =>
    by_cases h : separator ∈ cs
    · obtain ⟨before, after, rfl, hbefore⟩ := List.eq_append_cons_of_mem h
      rw [pieces_append hbefore]
      rcases List.mem_append.1 hc with hc | hc
      · exact .inr ⟨before, List.mem_cons_self, hc⟩
      · rcases List.mem_cons.1 hc with rfl | hc
        · exact .inl rfl
        · have hshorter : after.length < length := by
            rw [← hlength, List.length_append, List.length_cons]
            omega
          rcases ih _ hshorter hc rfl with heq | ⟨p, hp, hcp⟩
          · exact .inl heq
          · exact .inr ⟨p, List.mem_cons_of_mem _ hp, hcp⟩
    · rw [pieces_of_not_mem h]
      exact .inr ⟨cs, List.mem_singleton_self _, hc⟩

/-- Pieces with the separator between them are read back. -/
theorem pieces_intercalate {ws : List (List Char)} (hne : ws ≠ [])
    (h : ∀ w ∈ ws, separator ∉ w) : pieces separator ([separator].intercalate ws) = ws := by
  induction ws with
  | nil => exact absurd rfl hne
  | cons w rest ih =>
    have hw := h w List.mem_cons_self
    cases rest with
    | nil => rw [List.intercalate_singleton, pieces_of_not_mem hw]
    | cons v others =>
      have hrest := ih (List.cons_ne_nil _ _) fun u hu => h u (List.mem_cons_of_mem _ hu)
      rw [List.intercalate_cons_cons, List.append_assoc, List.singleton_append, pieces_append hw,
        hrest]

theorem cut?_of_not_mem (h : separator ∉ cs) : cut? separator cs = none := by
  have hnone : cs.dropWhile (· != separator) = [] := by
    apply List.dropWhile_eq_nil_iff.2
    intro c hc
    exact bne_iff_ne.2 fun heq => h (heq ▸ hc)
  rw [cut?, hnone]

theorem cut?_append (h : separator ∉ before) :
    cut? separator (before ++ separator :: after) = some (before, after) := by
  have hpass : ∀ c ∈ before, (c != separator) = true := fun c hc =>
    bne_iff_ne.2 fun heq => h (heq ▸ hc)
  have hdrop : (separator :: after).dropWhile (· != separator) = separator :: after :=
    List.dropWhile_cons_of_neg (by simp)
  have htake : (separator :: after).takeWhile (· != separator) = [] :=
    List.takeWhile_cons_of_neg (by simp)
  rw [cut?, List.dropWhile_append_of_pos hpass, List.takeWhile_append_of_pos hpass, hdrop, htake,
    List.append_nil]

-- The first separator of a text is at one place.
theorem append_inj_of_not_mem {before' after' : List Char} (h : separator ∉ before)
    (h' : separator ∉ before')
    (heq : before ++ separator :: after = before' ++ separator :: after') :
    before = before' ∧ after = after' := by
  have hcut := congrArg (cut? separator) heq
  rw [cut?_append h, cut?_append h'] at hcut
  cases hcut
  exact ⟨rfl, rfl⟩

end Separator

-- A word lies within the letters read so far and the rest of the text.
theorem infix_of_mem_wordsFrom {word cs w : List Char} (h : w ∈ wordsFrom word cs) :
    w <:+: word.reverse ++ cs := by
  induction cs generalizing word with
  | nil =>
    unfold wordsFrom at h
    split at h
    · cases h
    · cases List.mem_singleton.1 h
      exact ⟨[], [], rfl⟩
  | cons c rest ih =>
    have hlater : w ∈ wordsFrom [] rest → w <:+: word.reverse ++ c :: rest := fun hw =>
      (ih hw).trans ((List.suffix_cons c rest).trans (List.suffix_append _ _)).isInfix
    unfold wordsFrom at h
    split at h
    · split at h
      · exact hlater h
      · rcases List.mem_cons.1 h with rfl | h
        · exact (List.prefix_append _ _).isInfix
        · exact hlater h
    · have hword := ih h
      rwa [List.reverse_cons, List.append_assoc, List.singleton_append] at hword

theorem infix_of_mem_words {cs w : List Char} (h : w ∈ words cs) : w <:+: cs :=
  infix_of_mem_wordsFrom h

/-! What stands between characters that are dropped at the ends of a text. -/

section Strip
variable {p : Char → Bool} {before cs after : List Char}

theorem strip_append (hbefore : ∀ c ∈ before, p c = true) (hafter : ∀ c ∈ after, p c = true)
    (hne : cs ≠ []) (hhead : p (cs.head hne) = false) (hlast : p (cs.getLast hne) = false) :
    (((before ++ (cs ++ after)).dropWhile p).reverse.dropWhile p).reverse = cs := by
  have hdrop : ∀ {ds es : List Char} (hne : ds ≠ []), p (ds.head hne) = false →
      (ds ++ es).dropWhile p = ds ++ es := by
    intro ds es hne hd
    obtain ⟨d, rest, rfl⟩ := List.exists_cons_of_ne_nil hne
    rw [List.cons_append, List.dropWhile_cons_of_neg (by simpa using hd)]
  have hlast' : (cs.reverse ++ []).dropWhile p = cs.reverse ++ [] :=
    hdrop (List.reverse_ne_nil_iff.2 hne) (by rwa [List.head_reverse])
  rw [List.append_nil] at hlast'
  rw [List.dropWhile_append_of_pos hbefore, hdrop hne hhead, List.reverse_append,
    List.dropWhile_append_of_pos fun c hc => hafter c (List.mem_reverse.1 hc), hlast',
    List.reverse_reverse]

theorem strip_eq_self (h : ∀ c ∈ cs, p c = false) :
    ((cs.dropWhile p).reverse.dropWhile p).reverse = cs := by
  by_cases hne : cs = []
  · rw [hne]
    rfl
  · have hstrip : ((([] ++ (cs ++ [])).dropWhile p).reverse.dropWhile p).reverse = cs :=
      strip_append (by simp) (by simp) hne (h _ (List.head_mem hne)) (h _ (List.getLast_mem hne))
    rwa [List.append_nil, List.nil_append] at hstrip

theorem trim_append (hbefore : ∀ c ∈ before, isBlank c = true)
    (hafter : ∀ c ∈ after, isBlank c = true) (hne : cs ≠ [])
    (hhead : isBlank (cs.head hne) = false) (hlast : isBlank (cs.getLast hne) = false) :
    trim (before ++ (cs ++ after)) = cs :=
  strip_append hbefore hafter hne hhead hlast

theorem trim_of_not_isBlank (h : ∀ c ∈ cs, isBlank c = false) : trim cs = cs :=
  strip_eq_self h

theorem not_isBlank_of_mem_head?_trim {c : Char} (h : c ∈ (trim cs).head?) :
    isBlank c = false := by
  have hprefix : trim cs <+: cs.dropWhile isBlank := by
    have hsuffix := List.dropWhile_suffix isBlank (l := (cs.dropWhile isBlank).reverse)
    rwa [← List.reverse_prefix, List.reverse_reverse] at hsuffix
  obtain ⟨rest, hrest⟩ := hprefix
  have hnot := List.head?_dropWhile_not isBlank cs
  rw [← hrest, List.head?_append, h, Option.some_or] at hnot
  simpa using hnot

theorem not_isBlank_of_mem_getLast?_trim {c : Char} (h : c ∈ (trim cs).getLast?) :
    isBlank c = false := by
  have hnot := List.head?_dropWhile_not isBlank (cs.dropWhile isBlank).reverse
  rw [trim, List.getLast?_reverse] at h
  rw [h] at hnot
  simpa using hnot

-- A text that has no blanks at its ends is left as it is.
theorem trim_eq_self (hhead : ∀ c ∈ cs.head?, isBlank c = false)
    (hlast : ∀ c ∈ cs.getLast?, isBlank c = false) : trim cs = cs := by
  by_cases hne : cs = []
  · rw [hne]
    rfl
  · have htrim : trim ([] ++ (cs ++ [])) = cs :=
      trim_append (by simp) (by simp) hne (hhead _ (List.head?_eq_some_head hne))
        (hlast _ (List.getLast?_eq_some_getLast hne))
    rwa [List.append_nil, List.nil_append] at htrim

end Strip

end Cron.Text
