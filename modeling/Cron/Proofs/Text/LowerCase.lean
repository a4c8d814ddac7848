import Cron.Text.LowerCase
import Mathlib.Data.Nat.Bitwise

/-!
Lowering twice is lowering once: no letter that lowering gives is lowered any further. For this the
capitals of the table and their small letters are compared as two sets of code points.
-/
namespace Cron.Text

/-- The capitals of a row, as code points. -/
def capitalsOf (row : Nat × Nat × Nat × Int) : List Nat :=
  List.range' row.1 ((row.2.1 - row.1) / row.2.2.1 + 1) row.2.2.1

def smallsOf (row : Nat × Nat × Nat × Int) : List Nat :=
  (capitalsOf row).map fun (n : Nat) => (n + row.2.2.2).toNat

/-- What else is lowered: the capitals of ASCII, the dotted capital I and the capital sigma. -/
def otherCapitals : List Nat := 304 :: 931 :: List.range' 65 26

/-- Code points as a set, one bit for each. -/
def codeSet (ns : List Nat) : Nat := ns.foldr (fun n set => 1 <<< n ||| set) 0

theorem testBit_codeSet (ns : List Nat) (n : Nat) : (codeSet ns).testBit n = ns.contains n := by
  induction ns with
  | nil => simp [codeSet]
  | cons m rest ih =>
    have hcons : codeSet (m :: rest) = 1 <<< m ||| codeSet rest := rfl
    rw [hcons, Nat.testBit_or, ih, Nat.one_shiftLeft, Nat.testBit_two_pow, List.contains_cons,
      BEq.comm]
    rfl

theorem codeSet_smalls_and_capitals :
    codeSet (capitalRows.flatMap smallsOf) &&&
      codeSet (otherCapitals ++ capitalRows.flatMap capitalsOf) = 0 := by
  decide +kernel

theorem isValidChar_of_row :
    ∀ row ∈ capitalRows, 0 ≤ row.1 + row.2.2.2 ∧
      (row.2.1 + row.2.2.2 < 55296 ∨
        57343 < row.1 + row.2.2.2 ∧ row.2.1 + row.2.2.2 < 1114112) := by
  decide +kernel

/-- Whether a row holds a code point. -/
def inRow (n : Nat) (row : Nat × Nat × Nat × Int) : Bool :=
  row.1 ≤ n && n ≤ row.2.1 && (n - row.1) % row.2.2.1 == 0

theorem inRow_iff {n : Nat} {row : Nat × Nat × Nat × Int} :
    inRow n row = true ↔ row.1 ≤ n ∧ n ≤ row.2.1 ∧ (n - row.1) % row.2.2.1 = 0 := by
  simp [inRow, and_assoc]

theorem mem_capitalsOf_of_inRow {n : Nat} {row : Nat × Nat × Nat × Int}
    (h : inRow n row = true) : n ∈ capitalsOf row := by
  obtain ⟨hfirst, hlast, hstep⟩ := inRow_iff.1 h
  have hsteps := Nat.div_add_mod (n - row.1) row.2.2.1
  have hcount : (n - row.1) / row.2.2.1 ≤ (row.2.1 - row.1) / row.2.2.1 :=
    Nat.div_le_div_right (by omega)
  exact List.mem_range'.2 ⟨(n - row.1) / row.2.2.1, by omega, by omega⟩

-- The small letters of the table are neither in it nor among the other capitals.
theorem not_mem_of_mem_smallsOf {row : Nat × Nat × Nat × Int} (hrow : row ∈ capitalRows) {m : Nat}
    (hm : m ∈ smallsOf row) :
    m ∉ otherCapitals ∧ ∀ other ∈ capitalRows, inRow m other = false := by
  have hsmall : (codeSet (capitalRows.flatMap smallsOf)).testBit m = true := by
    rw [testBit_codeSet, List.contains_iff_mem]
    exact List.mem_flatMap.2 ⟨row, hrow, hm⟩
  have hboth := congrArg (Nat.testBit · m) codeSet_smalls_and_capitals
  simp only [Nat.testBit_and, hsmall, Bool.true_and, Nat.zero_testBit, testBit_codeSet] at hboth
  have hnone : m ∉ otherCapitals ++ capitalRows.flatMap capitalsOf := by
    rw [← List.contains_iff_mem, hboth]
    simp
  rw [List.mem_append, not_or] at hnone
  refine ⟨hnone.1, fun other hother => Bool.eq_false_iff.2 fun hin => hnone.2 ?_⟩
  exact List.mem_flatMap.2 ⟨other, hother, mem_capitalsOf_of_inRow hin⟩

/-- A small character, which lowering leaves as it is wherever it stands. -/
structure IsSmall (c : Char) : Prop where
  smallLetter_eq : smallLetter c = c
  ne_sigma : c ≠ 'Σ'
  ne_dotted : c ≠ 'İ'

instance (c : Char) : Decidable (IsSmall c) :=
  decidable_of_iff (smallLetter c = c ∧ c ≠ 'Σ' ∧ c ≠ 'İ')
    ⟨fun h => ⟨h.1, h.2.1, h.2.2⟩, fun h => ⟨h.1, h.2, h.3⟩⟩

theorem isSmall_smallLetter_ascii : ∀ n < 128, IsSmall (smallLetter (Char.ofNat n)) := by
  decide

theorem isSmall_ascii : ∀ n < 128, n ∉ otherCapitals → IsSmall (Char.ofNat n) := by
  decide

section Beyond
variable {c : Char} (hc : ¬ c.toNat < 128)
include hc

-- Beyond ASCII a letter is looked up in the table.
theorem smallLetter_eq_match :
    smallLetter c =
      match capitalRows.find? (inRow c.toNat) with
      | some (_, _, _, shift) => Char.ofNat (c.toNat + shift).toNat
      | none => c := by
  unfold smallLetter
  rw [if_neg hc]
  rfl

theorem smallLetter_of_not_inRow (h : ∀ row ∈ capitalRows, inRow c.toNat row = false) :
    smallLetter c = c := by
  have hfind : capitalRows.find? (inRow c.toNat) = none :=
    List.find?_eq_none.2 fun row hrow => by simp [h row hrow]
  rw [smallLetter_eq_match hc, hfind]

end Beyond

theorem toNat_ofNat_of_isValidChar {m : Nat} (h : m.isValidChar) : (Char.ofNat m).toNat = m := by
  unfold Char.ofNat
  rw [dif_pos h]
  rfl

theorem isSmall_ofNat {m : Nat} (hvalid : m.isValidChar) (hother : m ∉ otherCapitals)
    (hrows : ∀ row ∈ capitalRows, inRow m row = false) : IsSmall (Char.ofNat m) := by
  by_cases hm : m < 128
  · exact isSmall_ascii m hm hother
  have hcode := toNat_ofNat_of_isValidChar hvalid
  have hne : ∀ c : Char, c.toNat ∈ otherCapitals → Char.ofNat m ≠ c := by
    rintro _ hmem rfl
    exact hother (hcode ▸ hmem)
  refine ⟨smallLetter_of_not_inRow (by rwa [hcode]) (by rwa [hcode]), ?_, ?_⟩
  · exact hne 'Σ' (by decide)
  · exact hne 'İ' (by decide)

-- A letter beyond ASCII is its own small letter, or has one in the table.
theorem smallLetter_eq_or_mem {c : Char} (hc : ¬ c.toNat < 128) :
    smallLetter c = c ∨
      ∃ row ∈ capitalRows, ∃ m ∈ smallsOf row, m.isValidChar ∧ smallLetter c = Char.ofNat m := by
  rw [smallLetter_eq_match hc]
  cases hfind : capitalRows.find? (inRow c.toNat) with
  | none => exact .inl rfl
  | some row =>
    have hrow : row ∈ capitalRows := List.mem_of_find?_eq_some hfind
    have hin : inRow c.toNat row = true := List.find?_some hfind
    have hsmall : (c.toNat + row.2.2.2).toNat ∈ smallsOf row :=
      List.mem_map.2 ⟨c.toNat, mem_capitalsOf_of_inRow hin, rfl⟩
    obtain ⟨hfirst, hlast, -⟩ := inRow_iff.1 hin
    have hbounds := isValidChar_of_row row hrow
    have hvalid : (c.toNat + row.2.2.2).toNat.isValidChar := by
      unfold Nat.isValidChar
      omega
    exact .inr ⟨row, hrow, _, hsmall, hvalid, rfl⟩

theorem isSmall_smallLetter {c : Char} (hsigma : c ≠ 'Σ') (hdotted : c ≠ 'İ') :
    IsSmall (smallLetter c) := by
  by_cases hc : c.toNat < 128
  · rw [← Char.ofNat_toNat c]
    exact isSmall_smallLetter_ascii c.toNat hc
  rcases smallLetter_eq_or_mem hc with hself | ⟨row, hrow, m, hm, hvalid, hsmall⟩
  · rw [hself]
    exact ⟨hself, hsigma, hdotted⟩
  · obtain ⟨hother, hrows⟩ := not_mem_of_mem_smallsOf hrow hm
    rw [hsmall]
    exact isSmall_ofNat hvalid hother hrows

theorem isSmall_of_mem_lowerFrom {before cs : List Char} {c : Char}
    (h : c ∈ lowerFrom before cs) : IsSmall c := by
  induction cs generalizing before with
  | nil => cases h
  | cons d rest ih =>
    have hmarks : IsSmall 'ς' ∧ IsSmall 'σ' ∧ IsSmall 'i' ∧ IsSmall '\u0307' := by
      decide
    unfold lowerFrom at h
    rcases List.mem_append.1 h with h | h
    · split at h
      · rw [List.mem_singleton.1 h]
        split
        · exact hmarks.1
        · exact hmarks.2.1
      · next hsigma =>
        split at h
        · simp only [List.mem_cons, List.not_mem_nil, or_false] at h
          rcases h with rfl | rfl
          · exact hmarks.2.2.1
          · exact hmarks.2.2.2
        · next hdotted =>
          rw [List.mem_singleton.1 h]
          exact isSmall_smallLetter (by simpa using hsigma) (by simpa using hdotted)
    · exact ih h

theorem isSmall_of_mem_lower {cs : List Char} {c : Char} (h : c ∈ lower cs) : IsSmall c :=
  isSmall_of_mem_lowerFrom h

theorem lowerFrom_of_isSmall {cs : List Char} (before : List Char) (h : ∀ c ∈ cs, IsSmall c) :
    lowerFrom before cs = cs := by
  induction cs generalizing before with
  | nil => rfl
  | cons c rest ih =>
    have hc := h c List.mem_cons_self
    rw [lowerFrom, if_neg (by simpa using hc.ne_sigma), if_neg (by simpa using hc.ne_dotted),
      hc.smallLetter_eq, ih _ fun d hd => h d (List.mem_cons_of_mem _ hd), List.singleton_append]

/-- Lowering leaves small characters as they are, whatever stands around them. -/
theorem lower_of_isSmall {cs : List Char} (h : ∀ c ∈ cs, IsSmall c) : lower cs = cs :=
  lowerFrom_of_isSmall [] h

end Cron.Text
