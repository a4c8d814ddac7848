import Cron.Proofs.Text.Words
import Cron.Text.Pieces

/-!
Lists in a text. The words of a list have a comma after each item but the last, and without their
commas they are the items again; so the words of a list give its items.
-/
namespace Cron.Text

/-- A word without its commas. -/
def bare (w : List Char) : List Char := w.filter (· != ',')

/-- The words of a list with the given items. -/
def listed : List (List Char) → List (List Char)
  | [] => []
  | [w] => [w]
  | w :: v :: rest => (w ++ [',']) :: listed (v :: rest)

/-- An item of a list: one word, and no comma in it. -/
def IsItem (w : List Char) : Prop := IsWord w ∧ ',' ∉ w

instance (w : List Char) : Decidable (IsItem w) :=
  inferInstanceAs (Decidable ((w ≠ [] ∧ ∀ c ∈ w, isBlank c = false) ∧ ',' ∉ w))

variable {w : List Char} {ws vs : List (List Char)}

theorem IsItem.bare (h : IsItem w) : bare w = w := by
  apply List.filter_eq_self.2
  intro c hc
  exact bne_iff_ne.2 fun heq => h.2 (heq ▸ hc)

theorem IsItem.words (h : IsItem w) : words w = [w] := words_of_not_isBlank h.1.1 h.1.2

theorem IsItem.append {v : List Char} (h : IsItem w) (h' : IsItem v) : IsItem (w ++ v) := by
  refine ⟨⟨by simp [h.1.1], fun c hc => ?_⟩, fun hc => ?_⟩
  · exact (List.mem_append.1 hc).elim (h.1.2 c) (h'.1.2 c)
  · exact (List.mem_append.1 hc).elim h.2 h'.2

theorem IsItem.isWord_append_comma (h : IsItem w) : IsWord (w ++ [',']) := by
  refine ⟨by simp, fun c hc => ?_⟩
  rcases List.mem_append.1 hc with hc | hc
  · exact h.1.2 c hc
  · rw [List.mem_singleton.1 hc]
    decide

theorem squeeze_append (before after : List Char) :
    squeeze (before ++ after) = squeeze before ++ squeeze after := List.filter_append ..

theorem words_intercalate_comma (h : ∀ w ∈ ws, IsItem w) :
    words ([',', ' '].intercalate ws) = listed ws := by
  induction ws with
  | nil => rfl
  | cons w rest ih =>
    have hw := h w List.mem_cons_self
    have hcomma := hw.isWord_append_comma
    have hrest := ih fun v hv => h v (List.mem_cons_of_mem _ hv)
    cases rest with
    | nil => rw [List.intercalate_singleton, listed, hw.words]
    | cons v others =>
      have hsplit : ∀ after : List Char,
          w ++ [',', ' '] ++ after = (w ++ [',']) ++ ' ' :: after := by simp
      rw [List.intercalate_cons_cons, hsplit, words_append_blank (by decide), hrest,
        words_of_not_isBlank hcomma.1 hcomma.2, listed, List.singleton_append]

theorem words_joined {texts : List String} (h : ∀ s ∈ texts, IsItem s.toList) :
    words (joined ", " texts).toList = listed (texts.map String.toList) := by
  rw [joined, String.toList_intercalate]
  apply words_intercalate_comma
  intro w hw
  obtain ⟨s, hs, rfl⟩ := List.mem_map.1 hw
  exact h s hs

/-- Without its blanks a list has its items with commas alone between them. -/
theorem squeeze_intercalate_comma (h : ∀ w ∈ ws, IsItem w) :
    squeeze ([',', ' '].intercalate ws) = [','].intercalate ws := by
  induction ws with
  | nil => rfl
  | cons w rest ih =>
    have hw : squeeze w = w :=
      List.filter_eq_self.2 fun c hc => by simp [(h w List.mem_cons_self).1.2 c hc]
    have hrest := ih fun v hv => h v (List.mem_cons_of_mem _ hv)
    cases rest with
    | nil => rw [List.intercalate_singleton, List.intercalate_singleton, hw]
    | cons v others =>
      have hcomma : squeeze [',', ' '] = [','] := by decide
      rw [List.intercalate_cons_cons, List.intercalate_cons_cons, squeeze_append, squeeze_append,
        hw, hrest, hcomma]

theorem map_bare_listed (h : ∀ w ∈ ws, IsItem w) : (listed ws).map bare = ws := by
  induction ws with
  | nil => rfl
  | cons w rest ih =>
    have hw : bare w = w := (h w List.mem_cons_self).bare
    have hrest := ih fun v hv => h v (List.mem_cons_of_mem _ hv)
    cases rest with
    | nil => rw [listed, List.map_singleton, hw]
    | cons v others =>
      have hcomma : bare (w ++ [',']) = w := by
        rw [bare, List.filter_append]
        exact (List.append_nil _).trans hw
      rw [listed, List.map_cons, hcomma, hrest]

theorem bare_mem_of_mem_listed (h : ∀ w ∈ ws, IsItem w) (hw : w ∈ listed ws) : bare w ∈ ws := by
  have hmem := List.mem_map_of_mem (f := bare) hw
  rwa [map_bare_listed h] at hmem

/-- The words of a list give its items. -/
theorem listed_inj (h : ∀ w ∈ ws, IsItem w) (h' : ∀ v ∈ vs, IsItem v)
    (heq : listed ws = listed vs) : ws = vs := by
  rw [← map_bare_listed h, heq, map_bare_listed h']

theorem listed_ne_nil (hne : ws ≠ []) : listed ws ≠ [] := by
  match ws, hne with
  | [w], _ => simp [listed]
  | w :: v :: rest, _ => simp [listed]

-- Two words of which the first has no comma are no list.
theorem listed_ne_pair {v : List Char} (hw : IsItem w) : listed ws ≠ [w, v] := by
  intro heq
  match ws, heq with
  | _ :: _ :: _, heq =>
    rw [listed] at heq
    injection heq with hhead
    exact hw.2 (hhead ▸ by simp)

/-- The words that are in a table, commas aside. -/
def among (table words : List (List Char)) : List (List Char) :=
  words.filter fun w => table.contains (bare w)

section Among

variable {table : List (List Char)}

@[simp]
theorem among_append : among table (ws ++ vs) = among table ws ++ among table vs :=
  List.filter_append ..

theorem among_cons_of_not_mem (h : bare w ∉ table) : among table (w :: ws) = among table ws :=
  List.filter_cons_of_neg fun hmem => h (List.contains_iff_mem.1 hmem)

theorem among_eq_self (hin : ∀ w ∈ ws, bare w ∈ table) : among table ws = ws :=
  List.filter_eq_self.2 fun w hw => List.contains_iff_mem.2 (hin w hw)

theorem among_eq_nil (hout : ∀ w ∈ ws, bare w ∉ table) : among table ws = [] :=
  List.filter_eq_nil_iff.2 fun w hw hmem => hout w hw (List.contains_iff_mem.1 hmem)

theorem among_listed_eq_nil (h : ∀ w ∈ ws, IsItem w) (hout : ∀ w ∈ ws, w ∉ table) :
    among table (listed ws) = [] :=
  among_eq_nil fun _ hw => hout _ (bare_mem_of_mem_listed h hw)

end Among

end Cron.Text
