import Cron.Text.Character

/-!
The two readings of a text that depend on its blanks: the text without the blanks at its ends, and
the words between blanks.
-/
namespace Cron.Text

def trim (cs : List Char) : List Char :=
  ((cs.dropWhile isBlank).reverse.dropWhile isBlank).reverse

/-- The words of a text, where `word` holds the letters read so far, last one first. -/
def wordsFrom (word : List Char) : List Char → List (List Char)
  | [] => if word.isEmpty then [] else [word.reverse]
  | c :: rest =>
    if isBlank c then
      if word.isEmpty then wordsFrom [] rest else word.reverse :: wordsFrom [] rest
    else wordsFrom (c :: word) rest

/-- The longest runs of characters that are not blank, in order. -/
def words (cs : List Char) : List (List Char) := wordsFrom [] cs

def squeeze (cs : List Char) : List Char := cs.filter fun c => !isBlank c

theorem not_isBlank_of_mem_wordsFrom {word cs : List Char} {w : List Char}
    (hw : ∀ c ∈ word, isBlank c = false) (h : w ∈ wordsFrom word cs) :
    ∀ c ∈ w, isBlank c = false := by
  induction cs generalizing word with
  | nil =>
    unfold wordsFrom at h
    split at h
    · simp at h
    · rw [List.mem_singleton] at h
      subst h
      intro c hc
      exact hw c (List.mem_reverse.1 hc)
  | cons c rest ih =>
    unfold wordsFrom at h
    split at h
    · split at h
      · exact ih (by simp) h
      · rcases List.mem_cons.1 h with h | h
        · subst h
          intro c hc
          exact hw c (List.mem_reverse.1 hc)
        · exact ih (by simp) h
    · next hc =>
      refine ih ?_ h
      intro d hd
      rcases List.mem_cons.1 hd with rfl | hd
      · simpa using hc
      · exact hw d hd

theorem not_isBlank_of_mem_words {cs w : List Char} (h : w ∈ words cs) :
    ∀ c ∈ w, isBlank c = false :=
  not_isBlank_of_mem_wordsFrom (by simp) h

end Cron.Text
