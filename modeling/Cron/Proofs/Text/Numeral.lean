import Cron.Text.Numeral
import Mathlib.Data.List.Infix
import Mathlib.Data.Nat.Digits.Defs

/-!
Numerals and the numbers they denote. Within a word, whose digits are never too many in a row, the
reading of numerals finds every numeral, and refuses all else as malformed.
-/
namespace Cron.Text

/-- A numeral, one or more decimal digits of any script, and the number that it denotes. -/
def IsNumeral (cs : List Char) (n : Nat) : Prop :=
  ∃ digits : List Nat, digits ≠ [] ∧ cs.map digit? = digits.map some ∧
    n = Nat.ofDigits 10 digits.reverse

/-- A part of a word: it has no blanks, and no more digits in a row than a numeral may have. -/
structure IsPlain (cs : List Char) : Prop where
  not_blank : ∀ c ∈ cs, isBlank c = false
  length_le : ∀ run, run <:+: cs → (∀ c ∈ run, isDigit c = true) → run.length ≤ maxDigits

variable {cs : List Char} {n : Nat}

-- What holds of the ten digits of every script holds of every digit.
theorem forall_isDigit {P : Char → Prop}
    (h : ∀ start ∈ zeroDigits, ∀ k < 10, P (Char.ofNat (start + k))) {c : Char}
    (hc : isDigit c = true) : P c := by
  rw [isDigit, digit?, Option.isSome_map, List.find?_isSome] at hc
  obtain ⟨start, hstart, hbounds⟩ := hc
  simp only [Bool.and_eq_true, decide_eq_true_eq] at hbounds
  have hcode : start + (c.toNat - start) = c.toNat := by omega
  rw [← Char.ofNat_toNat c, ← hcode]
  exact h start hstart _ (by omega)

theorem IsPlain.of_infix {part : List Char} (h : IsPlain cs) (hp : part <:+: cs) : IsPlain part :=
  ⟨fun c hc => h.not_blank c (hp.subset hc), fun run hrun => h.length_le run (hrun.trans hp)⟩

theorem IsPlain.before {before after : List Char} {c : Char} (h : IsPlain (before ++ c :: after)) :
    IsPlain before :=
  h.of_infix (List.prefix_append _ _).isInfix

theorem IsPlain.after {before after : List Char} {c : Char} (h : IsPlain (before ++ c :: after)) :
    IsPlain after :=
  h.of_infix ((List.suffix_cons _ _).trans (List.suffix_append _ _)).isInfix

-- Horner's scheme and the sum of the digits' powers give one number.
theorem ofDigits_eq (digits : List Nat) : ofDigits digits = Nat.ofDigits 10 digits.reverse := by
  have hfold : ∀ m, digits.foldl (fun n d => 10 * n + d) m =
      Nat.ofDigits 10 (digits.reverse ++ [m]) := by
    induction digits with
    | nil =>
      intro m
      simp
    | cons d rest ih =>
      intro m
      have hpair : Nat.ofDigits 10 [10 * m + d] = Nat.ofDigits 10 ([d] ++ [m]) := by
        simp only [List.singleton_append, Nat.ofDigits_cons, Nat.ofDigits_nil]
        omega
      rw [List.foldl_cons, ih, List.reverse_cons, List.append_assoc, Nat.ofDigits_append,
        Nat.ofDigits_append, hpair]
  rw [ofDigits, hfold, Nat.ofDigits_append]
  simp

theorem mapM_digit?_eq_some {digits : List Nat} :
    cs.mapM digit? = some digits ↔ cs.map digit? = digits.map some := by
  induction cs generalizing digits with
  | nil => cases digits <;> simp
  | cons c rest ih =>
    cases hc : digit? c with
    | none => cases digits <;> simp [List.mapM_cons, hc]
    | some d =>
      cases hrest : rest.mapM digit? with
      | none => cases digits <;> simp [List.mapM_cons, hc, hrest, ← ih]
      | some ds => cases digits <;> simp [List.mapM_cons, hc, hrest, ← ih]

theorem IsNumeral.isDigit_of_mem (h : IsNumeral cs n) : ∀ c ∈ cs, isDigit c = true := by
  rcases h with ⟨digits, -, hmap, -⟩
  intro c hc
  have hmem : digit? c ∈ digits.map some := hmap ▸ List.mem_map_of_mem hc
  rcases List.mem_map.1 hmem with ⟨d, -, hd⟩
  rw [isDigit, ← hd, Option.isSome_some]

theorem IsNumeral.ne_nil (h : IsNumeral cs n) : cs ≠ [] := by
  rcases h with ⟨digits, hne, hmap, -⟩
  intro heq
  subst heq
  cases digits with
  | nil => exact hne rfl
  | cons d rest => cases hmap

theorem exists_isNumeral (hne : cs ≠ []) (h : ∀ c ∈ cs, isDigit c = true) :
    ∃ n, IsNumeral cs n := by
  have hmap : cs.map digit? = (cs.filterMap digit?).map some := by
    clear hne
    induction cs with
    | nil => rfl
    | cons c rest ih =>
      obtain ⟨d, hd⟩ := Option.isSome_iff_exists.1 (h c List.mem_cons_self)
      rw [List.map_cons, List.filterMap_cons_some hd, List.map_cons, hd,
        ih fun e he => h e (List.mem_cons_of_mem c he)]
  refine ⟨_, cs.filterMap digit?, ?_, hmap, rfl⟩
  intro hnil
  rw [hnil, List.map_nil, List.map_eq_nil_iff] at hmap
  exact hne hmap

theorem IsNumeral.not_mem (h : IsNumeral cs n) {c : Char} (hc : isDigit c = false) : c ∉ cs := by
  intro hmem
  rw [h.isDigit_of_mem c hmem] at hc
  cases hc

theorem IsNumeral.ne_star (h : IsNumeral cs n) : cs ≠ ['*'] := by
  intro heq
  rw [heq] at h
  exact h.not_mem (c := '*') (by decide) List.mem_cons_self

theorem IsNumeral.unique {m : Nat} (h : IsNumeral cs n) (h' : IsNumeral cs m) : n = m := by
  rcases h with ⟨digits, -, hmap, rfl⟩
  rcases h' with ⟨digits', -, hmap', rfl⟩
  rw [hmap] at hmap'
  rw [List.map_injective_iff.2 (Option.some_injective _) hmap']

theorem dropLineEnd_of_not_mem (h : '\n' ∉ cs) : dropLineEnd cs = cs :=
  if_neg fun hlast => h (List.mem_of_getLast? hlast)

theorem dropLineEnd_concat (cs : List Char) : dropLineEnd (cs ++ ['\n']) = cs := by
  rw [dropLineEnd, if_pos List.getLast?_concat, List.dropLast_concat]

theorem eq_dropLineEnd (cs : List Char) :
    cs = dropLineEnd cs ∨ cs = dropLineEnd cs ++ ['\n'] := by
  unfold dropLineEnd
  split
  · next hlast => exact .inr (List.dropLast_append_getLast? _ hlast).symm
  · exact .inl rfl

theorem numeralDigits?_eq_some_iff {digits : List Nat} : numeralDigits? cs = some digits ↔
    digits ≠ [] ∧ (dropLineEnd cs).map digit? = digits.map some := by
  rw [numeralDigits?, ← mapM_digit?_eq_some]
  cases (dropLineEnd cs).mapM digit? with
  | none => simp
  | some ds => cases ds <;> cases digits <;> simp

-- The one character of a numeral's text that is no digit is a line end, and that is a blank.
theorem numeralDigits?_eq_some (h : ∀ c ∈ cs, isBlank c = false) {digits : List Nat} :
    numeralDigits? cs = some digits ↔ digits ≠ [] ∧ cs.map digit? = digits.map some := by
  have hend : '\n' ∉ cs := by
    intro hmem
    exact absurd (h '\n' hmem) (by decide)
  rw [numeralDigits?_eq_some_iff, dropLineEnd_of_not_mem hend]

theorem eq_or_isDigit_of_numeralDigits? {digits : List Nat}
    (h : numeralDigits? cs = some digits) : ∀ c ∈ cs, c = '\n' ∨ isDigit c = true := by
  intro c hc
  obtain ⟨hne, hmap⟩ := numeralDigits?_eq_some_iff.1 h
  have hbody : IsNumeral (dropLineEnd cs) _ := ⟨digits, hne, hmap, rfl⟩
  rcases eq_dropLineEnd cs with heq | heq
  · rw [heq] at hc
    exact .inr (hbody.isDigit_of_mem c hc)
  · rw [heq, List.mem_append, List.mem_singleton] at hc
    exact hc.symm.imp_right (hbody.isDigit_of_mem c)

theorem exists_numeralDigits?_of_readNumeral (h : readNumeral cs = .ok n) :
    ∃ digits, numeralDigits? cs = some digits := by
  cases hdigits : numeralDigits? cs with
  | none =>
    rw [readNumeral, hdigits] at h
    cases h
  | some digits => exact ⟨digits, rfl⟩

theorem not_mem_of_readNumeral (h : readNumeral cs = .ok n) {c : Char} (hend : c ≠ '\n')
    (hdigit : isDigit c = false) : c ∉ cs := by
  intro hc
  obtain ⟨digits, hdigits⟩ := exists_numeralDigits?_of_readNumeral h
  have hmem := (eq_or_isDigit_of_numeralDigits? hdigits c hc).resolve_left hend
  rw [hdigit] at hmem
  cases hmem

theorem IsNumeral.exists_digits (h : IsNumeral cs n) (hb : ∀ c ∈ cs, isBlank c = false) :
    ∃ digits, numeralDigits? cs = some digits := by
  rcases h with ⟨digits, hne, hmap, -⟩
  exact ⟨digits, (numeralDigits?_eq_some hb).2 ⟨hne, hmap⟩⟩

/-- A numeral of more digits than are read. -/
def IsLongNumeral (cs : List Char) : Prop := maxDigits < cs.length ∧ ∃ n, IsNumeral cs n

-- A text without blanks is read as the number that it denotes, is too long, or is malformed.
theorem readNumeral_cases (h : ∀ c ∈ cs, isBlank c = false) :
    (∃ n, IsNumeral cs n ∧ cs.length ≤ maxDigits ∧ readNumeral cs = .ok n) ∨
      (IsLongNumeral cs ∧ readNumeral cs = .error (.tooLong cs.length)) ∨
      ((¬ ∃ n, IsNumeral cs n) ∧ readNumeral cs = .error .malformed) := by
  cases hdigits : numeralDigits? cs with
  | none =>
    right
    right
    refine ⟨?_, by rw [readNumeral, hdigits]⟩
    rintro ⟨n, digits, hne, hmap, -⟩
    rw [(numeralDigits?_eq_some h).2 ⟨hne, hmap⟩] at hdigits
    cases hdigits
  | some digits =>
    obtain ⟨hne, hmap⟩ := (numeralDigits?_eq_some h).1 hdigits
    have hnumeral : IsNumeral cs (Nat.ofDigits 10 digits.reverse) := ⟨digits, hne, hmap, rfl⟩
    have hlength : digits.length = cs.length := by
      rw [← List.length_map (f := digit?), hmap, List.length_map]
    have hread : readNumeral cs = valueOfDigits digits := by
      rw [readNumeral, hdigits]
    rw [hread, valueOfDigits, hlength, ofDigits_eq]
    by_cases hlong : maxDigits < cs.length
    · exact .inr (.inl ⟨⟨hlong, _, hnumeral⟩, if_pos hlong⟩)
    · exact .inl ⟨_, hnumeral, Nat.not_lt.1 hlong, if_neg hlong⟩

-- Part of a word is never too long.
theorem IsPlain.readNumeral_cases (h : IsPlain cs) :
    (∃ n, IsNumeral cs n ∧ readNumeral cs = .ok n) ∨
      ((¬ ∃ n, IsNumeral cs n) ∧ readNumeral cs = .error .malformed) := by
  rcases Text.readNumeral_cases h.not_blank with ⟨n, hn, -, hread⟩ | ⟨⟨hlong, n, hn⟩, -⟩ | hbad
  · exact .inl ⟨n, hn, hread⟩
  · have hshort := h.length_le cs List.infix_rfl hn.isDigit_of_mem
    omega
  · exact .inr hbad

end Cron.Text
