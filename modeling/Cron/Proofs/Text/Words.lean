import Cron.Text.Blank
import Mathlib.Data.List.Basic

/-!
Texts and their words. A blank ends a word and belongs to none, so the words of a text are those
before a blank and those after it; words with single blanks between them are read back as they are.
-/
namespace Cron.Text

-- What holds of every character of a text is checked on these, not on all characters there are.
attribute [instance (1100)] List.decidableBAll

variable {cs before after : List Char} {c : Char}

theorem wordsFrom_append_blank (word : List Char) (hc : isBlank c = true) :
    wordsFrom word (before ++ c :: after) = wordsFrom word before ++ words after := by
  induction before generalizing word with
  | nil =>
    simp only [List.nil_append, wordsFrom, hc, ↓reduceIte, words]
    split <;> rfl
  | cons d rest ih =>
    rw [List.cons_append, wordsFrom, wordsFrom]
    split
    · split
      · exact ih []
      · rw [ih [], List.cons_append]
    · exact ih (d :: word)

theorem words_append_blank (hc : isBlank c = true) :
    words (before ++ c :: after) = words before ++ words after :=
  wordsFrom_append_blank [] hc

theorem words_cons_blank (hc : isBlank c = true) : words (c :: cs) = words cs := by
  show words ([] ++ c :: cs) = [] ++ words cs
  exact words_append_blank hc

theorem words_append_of_head (h : ∀ c ∈ after.head?, isBlank c = true) :
    words (before ++ after) = words before ++ words after := by
  cases after with
  | nil =>
    have hnone : words [] = [] := rfl
    rw [List.append_nil, hnone, List.append_nil]
  | cons c rest =>
    have hc : isBlank c = true := h c rfl
    rw [words_append_blank hc, words_cons_blank hc]

theorem words_append_of_getLast (h : ∀ c ∈ before.getLast?, isBlank c = true) :
    words (before ++ after) = words before ++ words after := by
  rcases List.eq_nil_or_concat before with rfl | ⟨rest, c, rfl⟩
  · rfl
  · have hc : isBlank c = true := h c (by simp)
    rw [List.concat_eq_append, List.append_assoc, List.singleton_append, words_append_blank hc,
      words_append_blank hc]
    simp [words, wordsFrom]

section Literal

variable {s t : String} (literal : String)

theorem words_append_literal (h : literal.toList.head? = some ' ') :
    words (s ++ literal).toList = words s.toList ++ words literal.toList := by
  rw [String.toList_append]
  apply words_append_of_head
  intro c hc
  rw [h] at hc
  cases hc
  rfl

theorem words_literal_append (h : literal.toList.getLast? = some ' ') :
    words (literal ++ s).toList = words literal.toList ++ words s.toList := by
  rw [String.toList_append]
  apply words_append_of_getLast
  intro c hc
  rw [h] at hc
  cases hc
  rfl

theorem words_append_literal_append (h : literal.toList.head? = some ' ')
    (h' : literal.toList.getLast? = some ' ') :
    words (s ++ literal ++ t).toList =
      words s.toList ++ words literal.toList ++ words t.toList := by
  rw [words_literal_append _, words_append_literal literal h]
  rw [String.toList_append, List.getLast?_append, h']
  rfl

end Literal

theorem wordsFrom_of_not_isBlank (word : List Char) (h : ∀ c ∈ cs, isBlank c = false) :
    wordsFrom word cs = if word = [] ∧ cs = [] then [] else [word.reverse ++ cs] := by
  induction cs generalizing word with
  | nil => cases word <;> simp [wordsFrom]
  | cons c rest ih =>
    rw [wordsFrom, if_neg (by simp [h c List.mem_cons_self]),
      ih _ fun d hd => h d (List.mem_cons_of_mem _ hd)]
    simp

theorem words_of_not_isBlank (hne : cs ≠ []) (h : ∀ c ∈ cs, isBlank c = false) :
    words cs = [cs] := by
  rw [words, wordsFrom_of_not_isBlank [] h, if_neg fun hnil => hne hnil.2]
  rfl

theorem ne_nil_of_mem_wordsFrom {word w : List Char} (h : w ∈ wordsFrom word cs) : w ≠ [] := by
  induction cs generalizing word with
  | nil =>
    unfold wordsFrom at h
    split at h
    · cases h
    · next hword =>
      rw [List.mem_singleton.1 h]
      simpa using hword
  | cons c rest ih =>
    unfold wordsFrom at h
    split at h
    · split at h
      · exact ih h
      · next hword =>
        rcases List.mem_cons.1 h with rfl | h
        · simpa using hword
        · exact ih h
    · exact ih h

theorem ne_nil_of_mem_words {w : List Char} (h : w ∈ words cs) : w ≠ [] :=
  ne_nil_of_mem_wordsFrom h

/-- A word: it is not empty, and no character of it is a blank. -/
def IsWord (w : List Char) : Prop := w ≠ [] ∧ ∀ c ∈ w, isBlank c = false

theorem isWord_of_mem_words {w : List Char} (h : w ∈ words cs) : IsWord w :=
  ⟨ne_nil_of_mem_words h, not_isBlank_of_mem_words h⟩

/-- Words with single blanks between them are read back. -/
theorem words_intercalate {ws : List (List Char)} (h : ∀ w ∈ ws, IsWord w) :
    words ([' '].intercalate ws) = ws := by
  induction ws with
  | nil => rfl
  | cons w rest ih =>
    have hw := h w List.mem_cons_self
    have hrest : words ([' '].intercalate rest) = rest :=
      ih fun v hv => h v (List.mem_cons_of_mem _ hv)
    cases rest with
    | nil => rw [List.intercalate_singleton, words_of_not_isBlank hw.1 hw.2]
    | cons v others =>
      rw [List.intercalate_cons_cons, List.append_assoc, List.singleton_append,
        words_append_blank (by decide), hrest, words_of_not_isBlank hw.1 hw.2,
        List.singleton_append]

theorem eq_or_mem_of_mem_intercalate {separator : Char} {ws : List (List Char)}
    (h : c ∈ [separator].intercalate ws) : c = separator ∨ ∃ w ∈ ws, c ∈ w := by
  induction ws with
  | nil => cases h
  | cons w rest ih =>
    cases rest with
    | nil =>
      rw [List.intercalate_singleton] at h
      exact .inr ⟨w, List.mem_cons_self, h⟩
    | cons v others =>
      rw [List.intercalate_cons_cons, List.mem_append, List.mem_append, List.mem_singleton] at h
      rcases h with (h | h) | h
      · exact .inr ⟨w, List.mem_cons_self, h⟩
      · exact .inl h
      · exact (ih h).imp_right fun ⟨v, hv, hc⟩ => ⟨v, List.mem_cons_of_mem _ hv, hc⟩

end Cron.Text
