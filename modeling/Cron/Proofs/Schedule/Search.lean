import Cron.Proofs.Readings
import Cron.Schedule.Normal
import Mathlib.Data.List.Find
import Mathlib.Data.List.SplitBy

/-!
Names in a word, as a search from left to right finds them. Before each character the search asks
whether a name stands there as a word of its own. Such a place is where a longest run of word
characters begins, and the name there is the whole run. So the search finds what replacing run by
run finds, and stops at the same run that only passes for a name.
-/
namespace Cron

open Text

namespace Schedule

/-! The runs of a word, and what replaces them. -/

/-- The longest runs of word characters and of other characters, in order. -/
def runs (cs : List Char) : List (List Char) :=
  cs.splitBy fun a b => isWordChar a == isWordChar b

/-- A run with a name replaced by its number, counted from `first`. A run that only passes for a
name is no name, and is refused. -/
def replaceName (names : List String) (first : Nat) (run : List Char) : Except Fault (List Char) :=
  match names.findIdx? fun name => name.toList = run with
  | some index => .ok (toString (first + index)).toList
  | none =>
    if names.any fun name => name.toList = run.map plainLetter then
      .error (.unknownName (String.ofList run))
    else .ok run

/-- A word is cut into its longest runs: none is empty, the characters within one are of one kind,
and those of two that are next to each other are not. -/
structure IsRuns (pieces : List (List Char)) (word : List Char) : Prop where
  flatten_eq : pieces.flatten = word
  ne_nil : ∀ piece ∈ pieces, piece ≠ []
  alike : ∀ piece ∈ pieces, ∀ c ∈ piece, ∀ d ∈ piece, isWordChar c = isWordChar d
  differ : pieces.IsChain fun piece next => ∀ c ∈ piece, ∀ d ∈ next, isWordChar c ≠ isWordChar d

variable {names : List String} {first : Nat} {run rest word out : List Char} {c : Char}

theorem isWordChar_eq_of_mem_runs {word run : List Char} (h : run ∈ runs word) :
    ∀ c ∈ run, ∀ d ∈ run, isWordChar c = isWordChar d := by
  have hchain : run.IsChain fun c d => isWordChar c = isWordChar d :=
    (List.isChain_of_mem_splitBy h).imp fun c d hcd => by simpa using hcd
  have htrans : IsTrans Char fun c d => isWordChar c = isWordChar d := ⟨fun _ _ _ => Eq.trans⟩
  have hsymm : Std.Symm fun c d => isWordChar c = isWordChar d := ⟨fun _ _ => Eq.symm⟩
  have hpairs := List.isChain_iff_pairwise.1 hchain
  intro c hc d hd
  exact List.Pairwise.forall_of_forall (R := fun c d => isWordChar c = isWordChar d)
    (fun _ _ => rfl) hpairs hc hd

theorem runs_isChain (word : List Char) :
    (runs word).IsChain fun a b => ∃ (ha : a ≠ []) (hb : b ≠ []),
      (isWordChar (a.getLast ha) == isWordChar (b.head hb)) = false :=
  List.isChain_getLast_head_splitBy (fun a b => isWordChar a == isWordChar b) word

theorem isRuns_runs (word : List Char) : IsRuns (runs word) word := by
  refine ⟨List.flatten_splitBy _ word, fun run hrun => List.ne_nil_of_mem_splitBy hrun,
    fun run hrun => isWordChar_eq_of_mem_runs hrun, ?_⟩
  refine (runs_isChain word).imp_of_mem_imp fun run next hrun hnext => ?_
  rintro ⟨hne, hne', hkinds⟩ c hc d hd
  rw [isWordChar_eq_of_mem_runs hrun c hc _ (List.getLast_mem hne),
    isWordChar_eq_of_mem_runs hnext d hd _ (List.head_mem hne')]
  simpa using hkinds

theorem mem_of_mem_runs (hrun : run ∈ runs word) (hc : c ∈ run) : c ∈ word := by
  rw [← (isRuns_runs word).flatten_eq]
  exact List.mem_flatten_of_mem hrun hc

/-! The search. -/

/-- What the search relies on: a name is not empty, and has plain letters, which are word
characters. -/
structure ArePlain (names : List String) : Prop where
  ne_nil : ∀ name ∈ names, name.toList ≠ []
  isWordChar_name : ∀ name ∈ names, ∀ c ∈ name.toList, isWordChar c = true
  plainLetter_name : ∀ name ∈ names, name.toList.map plainLetter = name.toList

theorem arePlain_monthNames : ArePlain monthNames := by
  constructor <;> decide

theorem arePlain_dayNames : ArePlain dayNames := by
  constructor <;> decide

theorem isWordChar_plainLetter (c : Char) : isWordChar (plainLetter c) = isWordChar c := by
  unfold plainLetter
  split
  · next hlong =>
    rw [hlong]
    decide
  · split
    · next hdotless =>
      rw [hdotless]
      decide
    · rfl

-- The rest of a name that is found is passed over.
theorem scanFrom_skip {kind : Bool} (hrun : ∀ c ∈ run, isWordChar c = kind) :
    scanFrom names first kind run.length (run ++ rest) = scanFrom names first kind 0 rest := by
  induction run with
  | nil => rfl
  | cons c others ih =>
    rw [List.length_cons, List.cons_append, scanFrom, hrun c List.mem_cons_self]
    exact ih fun d hd => hrun d (List.mem_cons_of_mem c hd)

section Search
variable (h : ArePlain names) {inWord kind : Bool} {name : String} {cs : List Char}
include h

-- What passes for a name is made of word characters.
theorem ArePlain.isWordChar_of_map (hname : name ∈ names)
    (hmap : run.map plainLetter = name.toList) : run ≠ [] ∧ ∀ c ∈ run, isWordChar c = true := by
  constructor
  · rintro rfl
    exact h.ne_nil name hname hmap.symm
  · intro c hc
    rw [← isWordChar_plainLetter]
    exact h.isWordChar_name name hname _ (hmap ▸ List.mem_map_of_mem hc)

theorem ArePlain.standsAt_iff (hname : name ∈ names) :
    standsAt inWord cs name = true ↔ inWord = false ∧ ∃ found rest, cs = found ++ rest ∧
      found.map plainLetter = name.toList ∧ rest.head?.any isWordChar = false := by
  have hends : ∀ found : List Char, found.map plainLetter = name.toList →
      found.head?.any isWordChar = true ∧ found.getLast?.any isWordChar = true := by
    intro found hmap
    obtain ⟨hne, hword⟩ := h.isWordChar_of_map hname hmap
    rw [List.head?_eq_some_head hne, List.getLast?_eq_some_getLast hne]
    exact ⟨hword _ (List.head_mem hne), hword _ (List.getLast_mem hne)⟩
  unfold standsAt
  rw [List.splitAt_eq]
  simp only [Bool.and_eq_true, beq_iff_eq, bne_iff_ne, ne_eq]
  constructor
  · rintro ⟨⟨hbefore, hmap⟩, hafter⟩
    obtain ⟨hhead, hlast⟩ := hends _ hmap
    rw [hhead] at hbefore
    rw [hlast] at hafter
    exact ⟨Bool.eq_false_of_not_eq_true hbefore, _, _, (List.take_append_drop _ cs).symm, hmap,
      Bool.eq_false_of_not_eq_true (Ne.symm hafter)⟩
  · rintro ⟨rfl, found, rest, rfl, hmap, hrest⟩
    obtain ⟨hhead, hlast⟩ := hends found hmap
    have hlength : name.toList.length = found.length := by rw [← hmap, List.length_map]
    rw [hlength, List.take_left, List.drop_left, hhead, hlast, hrest]
    exact ⟨⟨by decide, hmap⟩, by decide⟩

-- A name begins at a word character that follows none.
theorem ArePlain.find?_standsAt_eq_none (hc : isWordChar c = true → inWord = true) :
    names.find? (standsAt inWord (c :: rest)) = none := by
  rw [List.find?_eq_none]
  intro name hname hstands
  obtain ⟨hbefore, found, after, heq, hmap, -⟩ := (h.standsAt_iff hname).1 hstands
  obtain ⟨hne, hword⟩ := h.isWordChar_of_map hname hmap
  obtain ⟨d, others, rfl⟩ := List.exists_cons_of_ne_nil hne
  obtain ⟨rfl, -⟩ := List.cons.inj heq
  rw [hc (hword c List.mem_cons_self)] at hbefore
  cases hbefore

-- Before a run of word characters the name is the whole run.
theorem ArePlain.standsAt_run_iff (hname : name ∈ names) (hrun : ∀ c ∈ run, isWordChar c = true)
    (hrest : rest.head?.any isWordChar = false) :
    standsAt false (run ++ rest) name = true ↔ name.toList = run.map plainLetter := by
  rw [h.standsAt_iff hname]
  constructor
  · rintro ⟨-, found, after, heq, hmap, hafter⟩
    obtain ⟨-, hword⟩ := h.isWordChar_of_map hname hmap
    rcases List.append_eq_append_iff.1 heq with ⟨more, rfl, rfl⟩ | ⟨more, rfl, rfl⟩
    · cases more with
      | nil => rw [← hmap, List.append_nil]
      | cons d others =>
        have hd : isWordChar d = true := hword d (by simp)
        simp [hd] at hrest
    · cases more with
      | nil => rw [← hmap, List.append_nil]
      | cons d others =>
        have hd : isWordChar d = true := hrun d (by simp)
        simp [hd] at hafter
  · intro hmap
    exact ⟨rfl, run, rest, rfl, hmap.symm, hrest⟩

-- Within a run nothing is found.
theorem ArePlain.scanFrom_pass (hrun : ∀ c ∈ run, isWordChar c = kind) :
    scanFrom names first kind 0 (run ++ rest) =
      (scanFrom names first kind 0 rest).map (run ++ ·) := by
  induction run with
  | nil =>
    show scanFrom names first kind 0 rest = (scanFrom names first kind 0 rest).map id
    cases scanFrom names first kind 0 rest <;> rfl
  | cons c others ih =>
    have hc := hrun c List.mem_cons_self
    rw [List.cons_append, scanFrom, h.find?_standsAt_eq_none fun hword => hc ▸ hword, hc]
    dsimp only
    rw [ih fun d hd => hrun d (List.mem_cons_of_mem c hd)]
    cases scanFrom names first kind 0 rest <;> rfl

-- A run that passes for a name has to be one.
theorem ArePlain.replaceName_eq (run : List Char) :
    replaceName names first run =
      match names.find? fun name => name.toList = run.map plainLetter with
      | none => .ok run
      | some _ => numberOf names first run := by
  cases hfind : names.find? fun name => name.toList = run.map plainLetter with
  | none =>
    have hnone : ∀ name ∈ names, name.toList ≠ run.map plainLetter := by simpa using hfind
    have hindex : names.findIdx? (fun name => name.toList = run) = none := by
      apply List.findIdx?_eq_none_iff.2
      intro name hname
      rw [decide_eq_false_iff_not]
      rintro rfl
      exact hnone name hname (h.plainLetter_name name hname).symm
    unfold replaceName
    rw [hindex]
    dsimp only
    rw [if_neg (by simpa using hnone)]
  | some name =>
    have hmap : name.toList = run.map plainLetter := by simpa using List.find?_some hfind
    have hany : (names.any fun name => name.toList = run.map plainLetter) = true :=
      List.any_eq_true.2 ⟨name, List.mem_of_find?_eq_some hfind, by simpa using hmap⟩
    show replaceName names first run = numberOf names first run
    unfold replaceName numberOf
    cases names.findIdx? fun name => name.toList = run with
    | some index => rfl
    | none => exact if_pos hany

theorem ArePlain.replaceName_of_not_isWordChar (hne : run ≠ [])
    (hrun : ∀ c ∈ run, isWordChar c = false) : replaceName names first run = .ok run := by
  have hfind : names.find? (fun name => name.toList = run.map plainLetter) = none := by
    rw [List.find?_eq_none]
    intro name hname hmap
    have hword := (h.isWordChar_of_map hname (of_decide_eq_true hmap).symm).2
    obtain ⟨c, hc⟩ := List.exists_mem_of_ne_nil run hne
    have hboth := hword c hc
    rw [hrun c hc] at hboth
    cases hboth
  rw [h.replaceName_eq, hfind]

-- After a character that is none, a run of word characters is replaced as a whole.
theorem ArePlain.scanFrom_word (hne : run ≠ []) (hrun : ∀ c ∈ run, isWordChar c = true)
    (hrest : rest.head?.any isWordChar = false) :
    scanFrom names first false 0 (run ++ rest) = (do
      let out ← replaceName names first run
      let tail ← scanFrom names first true 0 rest
      .ok (out ++ tail)) := by
  have hfind : names.find? (standsAt false (run ++ rest)) =
      names.find? fun name => name.toList = run.map plainLetter := by
    apply List.find?_congr
    intro name hname
    rw [Bool.eq_iff_iff, h.standsAt_run_iff hname hrun hrest, decide_eq_true_eq]
  obtain ⟨c, others, rfl⟩ := List.exists_cons_of_ne_nil hne
  have hc := hrun c List.mem_cons_self
  have hothers : ∀ d ∈ others, isWordChar d = true := fun d hd =>
    hrun d (List.mem_cons_of_mem c hd)
  rw [h.replaceName_eq, List.cons_append, scanFrom, ← List.cons_append, hfind, hc]
  cases hname : names.find? fun name => name.toList = (c :: others).map plainLetter with
  | none =>
    dsimp only
    rw [h.scanFrom_pass hothers, ok_bind]
    cases scanFrom names first true 0 rest <;> rfl
  | some name =>
    have hmap : name.toList = (c :: others).map plainLetter := by
      simpa using List.find?_some hname
    have hlength : name.toList.length = (c :: others).length := by rw [hmap, List.length_map]
    dsimp only
    rw [hlength, List.take_left, List.length_cons, Nat.add_sub_cancel, scanFrom_skip hothers]

end Search

section Runs
variable {piece : List Char} {pieces : List (List Char)}

theorem IsRuns.tail (h : IsRuns (piece :: pieces) word) : IsRuns pieces pieces.flatten :=
  ⟨rfl, fun p hp => h.ne_nil p (List.mem_cons_of_mem _ hp),
    fun p hp => h.alike p (List.mem_cons_of_mem _ hp), h.differ.of_cons⟩

theorem IsRuns.any_head? (h : IsRuns (piece :: pieces) word) (hc : c ∈ piece)
    (hword : isWordChar c = true) : pieces.flatten.head?.any isWordChar = false := by
  cases pieces with
  | nil => rfl
  | cons next others =>
    obtain ⟨d, more, rfl⟩ := List.exists_cons_of_ne_nil (h.ne_nil next (by simp))
    have hd := h.differ.rel c hc d List.mem_cons_self
    rw [hword] at hd
    exact Bool.eq_false_of_not_eq_true (Ne.symm hd)

-- The search goes over the runs of a word one by one.
theorem ArePlain.scanFrom_eq (h : ArePlain names) {inWord : Bool} (hruns : IsRuns pieces word)
    (hstart : inWord = true → word.head?.any isWordChar = false) :
    scanFrom names first inWord 0 word = (do
      let replaced ← pieces.mapM (replaceName names first)
      .ok replaced.flatten) := by
  induction pieces generalizing inWord word with
  | nil =>
    rw [← hruns.flatten_eq]
    rfl
  | cons piece others ih =>
    obtain ⟨c, tail, rfl⟩ := List.exists_cons_of_ne_nil (hruns.ne_nil piece List.mem_cons_self)
    have hkind := fun d hd => hruns.alike _ List.mem_cons_self d hd c List.mem_cons_self
    rw [← hruns.flatten_eq, List.flatten_cons] at hstart ⊢
    rw [List.mapM_cons]
    cases hword : isWordChar c with
    | true =>
      rw [hword] at hkind
      have hrest := hruns.any_head? List.mem_cons_self hword
      have hbefore : inWord = false := by
        by_contra hin
        have hhead : isWordChar c = false := hstart (by simpa using hin)
        rw [hword] at hhead
        cases hhead
      rw [hbefore, h.scanFrom_word (by simp) hkind hrest, ih hruns.tail fun _ => hrest]
      cases replaceName names first (c :: tail) with
      | error fault => rfl
      | ok out => cases others.mapM (replaceName names first) <;> rfl
    | false =>
      rw [hword] at hkind
      have hpass : scanFrom names first false 0 (tail ++ others.flatten) =
          (scanFrom names first false 0 others.flatten).map (tail ++ ·) :=
        h.scanFrom_pass fun d hd => hkind d (List.mem_cons_of_mem c hd)
      rw [h.replaceName_of_not_isWordChar (by simp) hkind, List.cons_append, scanFrom,
        h.find?_standsAt_eq_none fun hc => absurd hc (by simp [hword]), hword]
      dsimp only
      rw [hpass, ih hruns.tail (by simp)]
      cases others.mapM (replaceName names first) <;> rfl

end Runs

/-- Searching a word for names from left to right is replacing its runs, also where a run only
passes for a name. -/
theorem ArePlain.replaceNames_eq (h : ArePlain names) (first : Nat) (word : List Char) :
    replaceNames names first word = (do
      let replaced ← (runs word).mapM (replaceName names first)
      .ok replaced.flatten) :=
  h.scanFrom_eq (isRuns_runs word) (by simp)

end Schedule

end Cron
