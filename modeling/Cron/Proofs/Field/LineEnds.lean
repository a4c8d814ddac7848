import Cron.Proofs.Field.Accepted
import Cron.Proofs.Field.Written

/-!
Line ends in fields. A line end that stands where a number ends is passed over, wherever the number
stands in the field; a field with any other blank in it is refused. So what is read is what would be
read without the line ends, and holds nothing else but characters of terms.
-/
namespace Cron

open Text

/-- The marks of terms that a number can stand before. -/
def numberMarks : List Char := ['-', '/', ',']

/-- The line ends of a text stand where numbers end: after a digit, and before a mark or at the end
of the text. -/
def EndsNumbers (cs : List Char) : Prop :=
  ∀ before after, cs = before ++ '\n' :: after →
    (∃ c ∈ before.getLast?, isDigit c = true) ∧ ∀ c ∈ after.head?, c ∈ numberMarks

def withoutLineEnds (cs : List Char) : List Char := cs.filter (· != '\n')

/-- A text of characters of terms, none of which is blank. -/
def IsClean (cs : List Char) : Prop := ∀ c ∈ cs, isBlank c = false ∧ IsTermChar c

variable {cs before after body : List Char} {c mark : Char}

theorem IsTermChar.not_blank (h : IsTermChar c) : isBlank c = false := by
  rcases h with h | h
  · exact forall_isDigit (P := fun c => isBlank c = false) (by decide +kernel) h
  · have hmarks : ∀ c ∈ ['*', '-', '/', ','], isBlank c = false := by decide
    exact hmarks c h

theorem IsTermChar.of_mem_numberMarks (h : c ∈ numberMarks) : IsTermChar c :=
  .inr (List.mem_cons_of_mem _ h)

theorem mark_spec (h : mark ∈ numberMarks) : isDigit mark = false ∧ mark ≠ '\n' := by
  have hall : ∀ c ∈ numberMarks, isDigit c = false ∧ c ≠ '\n' := by decide
  exact hall mark h

theorem ne_of_isDigit (h : isDigit c = true) : c ≠ '\n' := by
  rintro rfl
  revert h
  decide

/-! Texts without their line ends. -/

theorem mem_withoutLineEnds : c ∈ withoutLineEnds cs ↔ c ∈ cs ∧ c ≠ '\n' := by
  rw [withoutLineEnds, List.mem_filter, bne_iff_ne]

theorem withoutLineEnds_eq_self (h : '\n' ∉ cs) : withoutLineEnds cs = cs := by
  rw [withoutLineEnds, List.filter_eq_self]
  intro c hc
  rw [bne_iff_ne]
  rintro rfl
  exact h hc

theorem withoutLineEnds_append (hmark : mark ≠ '\n') : withoutLineEnds (before ++ mark :: after) =
    withoutLineEnds before ++ mark :: withoutLineEnds after := by
  have hkept : (mark != '\n') = true := bne_iff_ne.2 hmark
  rw [withoutLineEnds, List.filter_append, List.filter_cons, if_pos hkept]
  rfl

-- A cut of the text without its line ends is a cut of the text.
theorem exists_of_withoutLineEnds_eq_append {a b : List Char}
    (h : withoutLineEnds cs = a ++ mark :: b) : ∃ before after, cs = before ++ mark :: after ∧
      withoutLineEnds before = a ∧ withoutLineEnds after = b := by
  obtain ⟨before, rest, rfl, ha, hrest⟩ := List.filter_eq_append_iff.1 h
  obtain ⟨ends, after, rfl, hends, -, hb⟩ := List.filter_eq_cons_iff.1 hrest
  refine ⟨before ++ ends, after, by rw [List.append_assoc], ?_, hb⟩
  rw [withoutLineEnds, List.filter_append, ha, List.filter_eq_nil_iff.2 hends, List.append_nil]

/-! Line ends on the two sides of a mark, and in a number. -/

theorem endsNumbers_of_not_mem (h : '\n' ∉ cs) : EndsNumbers cs := by
  rintro before after rfl
  exact absurd (List.mem_append_right _ List.mem_cons_self) h

theorem EndsNumbers.left (h : EndsNumbers (before ++ mark :: after)) : EndsNumbers before := by
  rintro start rest rfl
  obtain ⟨hlast, hhead⟩ := h start (rest ++ mark :: after) (by simp)
  refine ⟨hlast, fun c hc => hhead c ?_⟩
  rw [List.head?_append, hc, Option.some_or]
  rfl

theorem EndsNumbers.right (hmark : mark ∈ numberMarks)
    (h : EndsNumbers (before ++ mark :: after)) : EndsNumbers after := by
  rintro start rest rfl
  obtain ⟨⟨c, hc, hdigit⟩, hhead⟩ := h (before ++ mark :: start) rest (by simp)
  refine ⟨⟨c, ?_, hdigit⟩, hhead⟩
  -- the number before the line end lies after the mark, which is no digit
  cases hstart : start.getLast? with
  | none =>
    rw [List.getLast?_eq_none_iff.1 hstart, List.getLast?_concat] at hc
    cases hc
    rw [(mark_spec hmark).1] at hdigit
    cases hdigit
  | some d =>
    rw [List.getLast?_append, List.getLast?_cons, hstart] at hc
    exact hc

theorem EndsNumbers.append (hmark : mark ∈ numberMarks) (hbefore : EndsNumbers before)
    (hafter : EndsNumbers after) : EndsNumbers (before ++ mark :: after) := by
  have hne : mark ≠ '\n' := (mark_spec hmark).2
  intro start rest heq
  rcases List.append_eq_append_iff.1 heq with ⟨part, rfl, hpart⟩ | ⟨part, rfl, hpart⟩
  · rcases List.append_eq_cons_iff.1 hpart.symm with ⟨-, hcons⟩ | ⟨part, rfl, rfl⟩
    · exact absurd (List.cons.inj hcons).1.symm hne
    · obtain ⟨⟨c, hc, hdigit⟩, hhead⟩ := hafter part rest rfl
      refine ⟨⟨c, ?_, hdigit⟩, hhead⟩
      rw [List.getLast?_append, List.getLast?_cons, hc]
      rfl
  · rcases List.append_eq_cons_iff.1 hpart.symm with ⟨-, hcons⟩ | ⟨part, rfl, rfl⟩
    · exact absurd (List.cons.inj hcons).1 hne
    · obtain ⟨hlast, hhead⟩ := hbefore start part rfl
      refine ⟨hlast, fun c hc => ?_⟩
      cases hfirst : part.head? with
      | none =>
        rw [List.head?_eq_none_iff.1 hfirst, List.nil_append, List.head?_cons] at hc
        cases hc
        exact hmark
      | some d =>
        rw [List.head?_append, hfirst, Option.some_or] at hc
        exact hhead c (hfirst ▸ hc)

theorem EndsNumbers.exists_isDigit (h : EndsNumbers cs) (hmem : '\n' ∈ cs) :
    ∃ c ∈ withoutLineEnds cs, isDigit c = true := by
  obtain ⟨start, rest, rfl⟩ := List.append_of_mem hmem
  obtain ⟨⟨c, hc, hdigit⟩, -⟩ := h start rest rfl
  refine ⟨c, mem_withoutLineEnds.2 ⟨?_, ne_of_isDigit hdigit⟩, hdigit⟩
  exact List.mem_append_left _ (List.mem_of_getLast? hc)

theorem trim_withoutLineEnds (cs : List Char) :
    trim (withoutLineEnds (trim cs)) = withoutLineEnds (trim cs) := by
  -- the characters at the ends are not blank, so they are kept
  have hhead : ∀ ds : List Char, (∀ c ∈ ds.head?, isBlank c = false) →
      ∀ c ∈ (withoutLineEnds ds).head?, isBlank c = false := by
    intro ds hds
    cases ds with
    | nil => exact hds
    | cons d rest =>
      have hkept : (d != '\n') = true := by
        rw [bne_iff_ne]
        rintro rfl
        exact absurd (hds '\n' rfl) (by decide)
      rwa [withoutLineEnds, List.filter_cons, if_pos hkept]
  apply trim_eq_self
  · exact hhead _ fun c hc => not_isBlank_of_mem_head?_trim hc
  · have hlast := hhead (trim cs).reverse fun c hc =>
      not_isBlank_of_mem_getLast?_trim (by rwa [List.head?_reverse] at hc)
    rwa [withoutLineEnds, List.filter_reverse, List.head?_reverse] at hlast

/-- The texts of some digits: the digits alone, or one line end after them. -/
theorem endsNumbers_and_eq_iff (hne : body ≠ []) (hbody : ∀ c ∈ body, isDigit c = true) :
    EndsNumbers cs ∧ withoutLineEnds cs = body ↔ cs = body ∨ cs = body ++ ['\n'] := by
  have hnot : '\n' ∉ body := fun hmem => ne_of_isDigit (hbody _ hmem) rfl
  constructor
  · rintro ⟨hends, rfl⟩
    by_cases hmem : '\n' ∈ cs
    · right
      obtain ⟨start, rest, rfl, hstart⟩ := List.eq_append_cons_of_mem hmem
      have hrest : rest = [] := by
        by_contra hrest
        obtain ⟨d, others, rfl⟩ := List.exists_cons_of_ne_nil hrest
        obtain ⟨hdigit, hd⟩ := mark_spec ((hends start _ rfl).2 d rfl)
        have hbad := hbody d (mem_withoutLineEnds.2 ⟨by simp, hd⟩)
        rw [hdigit] at hbad
        cases hbad
      rw [hrest, withoutLineEnds, List.filter_append, ← withoutLineEnds,
        withoutLineEnds_eq_self hstart]
      simp
    · exact .inl (withoutLineEnds_eq_self hmem).symm
  · rintro (rfl | rfl)
    · exact ⟨endsNumbers_of_not_mem hnot, withoutLineEnds_eq_self hnot⟩
    · constructor
      · intro start rest heq
        have hlast : start = body ∧ rest = [] := by
          rcases List.append_eq_append_iff.1 heq with ⟨part, rfl, hpart⟩ | ⟨part, rfl, hpart⟩
          · cases part <;> simp at hpart
            simp [hpart]
          · cases part with
            | nil => simpa using hpart
            | cons d part =>
              cases hpart
              simp at hnot
        obtain ⟨rfl, rfl⟩ := hlast
        exact ⟨⟨_, List.getLast?_eq_some_getLast hne, hbody _ (List.getLast_mem hne)⟩, by simp⟩
      · rw [withoutLineEnds, List.filter_append, ← withoutLineEnds, withoutLineEnds_eq_self hnot]
        exact List.append_nil _

/-! Readings that pass over line ends, from those of numerals up to those of fields. -/

/-- What may be read with line ends where numbers end: it is read as it would be without them, and
holds nothing else but characters of terms. -/
structure TakesLineEnds (P : List Char → Prop) : Prop where
  iff : ∀ cs, P cs ↔ EndsNumbers cs ∧ P (withoutLineEnds cs)
  isTermChar : ∀ cs, P cs → ∀ c ∈ cs, c = '\n' ∨ IsTermChar c

namespace TakesLineEnds

variable {P Q : List Char → Prop}

theorem congr (h : TakesLineEnds P) (hPQ : ∀ cs, P cs ↔ Q cs) : TakesLineEnds Q := by
  have heq : P = Q := funext fun cs => propext (hPQ cs)
  rwa [← heq]

theorem false : TakesLineEnds fun _ => False :=
  ⟨by simp, by simp⟩

theorem or (hP : TakesLineEnds P) (hQ : TakesLineEnds Q) : TakesLineEnds fun cs => P cs ∨ Q cs where
  iff cs := by rw [hP.iff, hQ.iff, ← and_or_left]
  isTermChar cs h := h.elim (hP.isTermChar cs) (hQ.isTermChar cs)

theorem ofExists {α : Type} {P : α → List Char → Prop} (h : ∀ a, TakesLineEnds (P a)) :
    TakesLineEnds fun cs => ∃ a, P a cs where
  iff cs := by
    rw [← exists_and_left]
    exact exists_congr fun a => (h a).iff cs
  isTermChar cs := by
    rintro ⟨a, ha⟩
    exact (h a).isTermChar cs ha

-- What is asked besides may not depend on the line ends.
theorem and_of_iff (hP : TakesLineEnds P)
    (hQ : ∀ cs, EndsNumbers cs → (Q cs ↔ Q (withoutLineEnds cs))) :
    TakesLineEnds fun cs => P cs ∧ Q cs where
  iff cs := by
    rw [hP.iff, and_assoc]
    apply and_congr_right
    intro hends
    rw [hQ cs hends]
  isTermChar cs h := hP.isTermChar cs h.1

theorem and_const (hP : TakesLineEnds P) (q : Prop) : TakesLineEnds fun cs => P cs ∧ q :=
  hP.and_of_iff fun _ _ => Iff.rfl

theorem and_not_mem (hP : TakesLineEnds P) (hmark : mark ≠ '\n') :
    TakesLineEnds fun cs => P cs ∧ mark ∉ cs :=
  hP.and_of_iff fun cs _ => by rw [mem_withoutLineEnds, and_iff_left hmark]

theorem star : TakesLineEnds fun cs => cs = ['*'] where
  iff cs := by
    constructor
    · rintro rfl
      exact ⟨endsNumbers_of_not_mem (by decide), rfl⟩
    · rintro ⟨hends, heq⟩
      rw [← heq, withoutLineEnds_eq_self]
      intro hmem
      obtain ⟨c, hc, hdigit⟩ := hends.exists_isDigit hmem
      rw [heq, List.mem_singleton] at hc
      subst hc
      revert hdigit
      decide
  isTermChar := by
    rintro _ rfl c hc
    rw [List.mem_singleton.1 hc]
    exact .inr (.inr (by decide))

theorem split (hmark : mark ∈ numberMarks) (hP : TakesLineEnds P) (hQ : TakesLineEnds Q) :
    TakesLineEnds fun cs => ∃ before after, cs = before ++ mark :: after ∧ P before ∧ Q after where
  iff cs := by
    constructor
    · rintro ⟨before, after, rfl, hbefore, hafter⟩
      rw [hP.iff] at hbefore
      rw [hQ.iff] at hafter
      exact ⟨hbefore.1.append hmark hafter.1, _, _, withoutLineEnds_append (mark_spec hmark).2,
        hbefore.2, hafter.2⟩
    · rintro ⟨hends, _, _, heq, hbefore, hafter⟩
      obtain ⟨before, after, rfl, rfl, rfl⟩ := exists_of_withoutLineEnds_eq_append heq
      exact ⟨before, after, rfl, (hP.iff before).2 ⟨hends.left, hbefore⟩,
        (hQ.iff after).2 ⟨hends.right hmark, hafter⟩⟩
  isTermChar := by
    rintro _ ⟨before, after, rfl, hbefore, hafter⟩
    rw [List.forall_mem_append, List.forall_mem_cons]
    exact ⟨hP.isTermChar before hbefore, .inr (.of_mem_numberMarks hmark),
      hQ.isTermChar after hafter⟩

theorem digits (ds : List Nat) : TakesLineEnds fun cs => numeralDigits? cs = some ds where
  iff cs := by
    have hnot : '\n' ∉ withoutLineEnds cs := fun hmem => (mem_withoutLineEnds.1 hmem).2 rfl
    simp only [numeralDigits?_eq_some_iff, dropLineEnd_of_not_mem hnot]
    constructor
    · rintro ⟨hne, hmap⟩
      have hbody : IsNumeral (dropLineEnd cs) _ := ⟨ds, hne, hmap, rfl⟩
      obtain ⟨hends, heq⟩ :=
        (endsNumbers_and_eq_iff hbody.ne_nil hbody.isDigit_of_mem).2 (eq_dropLineEnd cs)
      exact ⟨hends, hne, heq ▸ hmap⟩
    · rintro ⟨hends, hne, hmap⟩
      have hbody : IsNumeral (withoutLineEnds cs) _ := ⟨ds, hne, hmap, rfl⟩
      have hdrop : dropLineEnd cs = withoutLineEnds cs := by
        rcases (endsNumbers_and_eq_iff hbody.ne_nil hbody.isDigit_of_mem).1 ⟨hends, rfl⟩ with h | h
        · conv_lhs => rw [h]
          exact dropLineEnd_of_not_mem hnot
        · conv_lhs => rw [h]
          exact dropLineEnd_concat _
      exact ⟨hne, hdrop ▸ hmap⟩
  isTermChar cs h c hc := (eq_or_isDigit_of_numeralDigits? h c hc).imp_right .inl

theorem numeral (n : Nat) : TakesLineEnds fun cs => readNumeral cs = .ok n := by
  refine (ofExists fun ds => (digits ds).and_const (valueOfDigits ds = .ok n)).congr fun cs => ?_
  cases h : numeralDigits? cs <;> simp [readNumeral, h]

/-- The pieces of a list are read one by one, each with line ends where its numbers end. -/
theorem list {α : Type} {R : List Char → α → Prop} (hmark : mark ∈ numberMarks)
    (h : ∀ y, TakesLineEnds fun cs => R cs y) (ys : List α) :
    TakesLineEnds fun cs => List.Forall₂ R (pieces mark cs) ys := by
  have hne := (mark_spec hmark).2
  induction ys with
  | nil =>
    refine TakesLineEnds.false.congr fun cs => ?_
    rw [List.forall₂_nil_right_iff]
    exact iff_of_false id (pieces_ne_nil cs)
  | cons y rest ih =>
    refine ((((h y).and_not_mem hne).and_const (rest = [])).or
      (split hmark ((h y).and_not_mem hne) ih)).congr fun cs => ?_
    constructor
    · rintro (⟨⟨hy, hmem⟩, rfl⟩ | ⟨before, after, rfl, ⟨hy, hmem⟩, hrest⟩)
      · rw [pieces_of_not_mem hmem]
        exact .cons hy .nil
      · rw [pieces_append hmem]
        exact .cons hy hrest
    · intro hall
      by_cases hmem : mark ∈ cs
      · obtain ⟨before, after, rfl, hbefore⟩ := List.eq_append_cons_of_mem hmem
        rw [pieces_append hbefore, List.forall₂_cons] at hall
        exact .inr ⟨before, after, rfl, ⟨hall.1, hbefore⟩, hall.2⟩
      · rw [pieces_of_not_mem hmem, List.forall₂_cons, List.forall₂_nil_left_iff] at hall
        exact .inl ⟨⟨hall.1, hmem⟩, hall.2⟩

end TakesLineEnds

namespace Term

variable {field : FieldName}

theorem takesLineEnds_readBounds (bounds : Nat × Nat) :
    TakesLineEnds fun cs => readBounds field cs = .ok bounds :=
  (TakesLineEnds.split (by decide : '-' ∈ numberMarks) (.numeral _) (.numeral _)).congr
    fun _ => readBounds_eq_ok.symm

theorem takesLineEnds_readStep (s : Nat) : TakesLineEnds fun cs => readStep field cs = .ok s :=
  ((TakesLineEnds.numeral s).and_const _).congr fun _ => readStep_eq_ok.symm

theorem takesLineEnds_readBase (bounds : Nat × Nat) :
    TakesLineEnds fun cs => readBase field cs = .ok bounds :=
  ((TakesLineEnds.star.and_const _).or ((takesLineEnds_readBounds bounds).or
    ((TakesLineEnds.numeral _).and_const _))).congr fun _ => readBase_eq_ok.symm

theorem takesLineEnds_readValue (term : Term) :
    TakesLineEnds fun cs => readValue field cs = .ok term :=
  (TakesLineEnds.ofExists fun n => (TakesLineEnds.numeral n).and_const _).congr
    fun _ => readValue_eq_ok.symm

theorem takesLineEnds_read (term : Term) : TakesLineEnds fun cs => read field cs = .ok term := by
  have hstepped : TakesLineEnds fun cs => ∃ bounds s, (∃ base step, cs = base ++ '/' :: step ∧
      readBase field base = .ok bounds ∧ readStep field step = .ok s) ∧
        term = .range bounds.1 bounds.2 s :=
    .ofExists fun bounds => .ofExists fun s => .and_const (.split (by decide)
      (takesLineEnds_readBase bounds) (takesLineEnds_readStep s)) _
  exact ((TakesLineEnds.star.and_const _).or ((takesLineEnds_readValue term).or
    ((TakesLineEnds.ofExists fun bounds => (takesLineEnds_readBounds bounds).and_const _).or
      hstepped))).congr fun _ => read_eq_ok.symm

end Term

namespace Field

variable {name : FieldName} {raw : String} {f : Field}

theorem takesLineEnds_ofTerms (f : Field) :
    TakesLineEnds fun cs => ofTerms name cs = .ok f := by
  have hterms : ∀ terms, TakesLineEnds fun cs =>
      (pieces ',' cs).mapM (Term.read name) = .ok terms := fun terms =>
    (TakesLineEnds.list (by decide) Term.takesLineEnds_read terms).congr
      fun _ => mapM_eq_ok_iff.symm
  exact (TakesLineEnds.ofExists fun terms => (hterms terms).and_const _).congr
    fun _ => ofTerms_eq_ok_iff.symm

theorem parse_eq_ok_iff : parse name raw = .ok f ↔
    trim raw.toList = ['*'] ∧ f = wildcard name ∨
      ofTerms name (trim raw.toList) = .ok f ∧ trim raw.toList ≠ ['*'] := by
  unfold parse
  by_cases hstar : trim raw.toList = ['*']
  · simp [hstar, eq_comm]
  · simp [hstar]

theorem takesLineEnds_parse (f : Field) : TakesLineEnds fun cs =>
    cs = ['*'] ∧ f = wildcard name ∨ ofTerms name cs = .ok f ∧ cs ≠ ['*'] := by
  refine (TakesLineEnds.star.and_const _).or ((takesLineEnds_ofTerms f).and_of_iff ?_)
  intro cs hends
  rw [Ne, TakesLineEnds.star.iff cs, and_iff_right hends]

/-- If the text gives a field, it is clean between the blanks around it. -/
def IsCleanIfRead (name : FieldName) (raw : String) : Prop :=
  ∀ f, parse name raw = .ok f → IsClean (trim raw.toList)

/-- A text that gives a field without the line ends in it, each of which stands where a number
ends. -/
def HoldsLineEnds (name : FieldName) (raw : String) : Prop :=
  '\n' ∈ trim raw.toList ∧ EndsNumbers (trim raw.toList) ∧
    ∃ f, parse name (String.ofList (withoutLineEnds (trim raw.toList))) = .ok f

theorem parse_iff_withoutLineEnds : parse name raw = .ok f ↔ EndsNumbers (trim raw.toList) ∧
    parse name (String.ofList (withoutLineEnds (trim raw.toList))) = .ok f := by
  simp only [parse_eq_ok_iff, String.toList_ofList, trim_withoutLineEnds]
  exact (takesLineEnds_parse f).iff _

theorem isClean_of_parse (h : parse name raw = .ok f) :
    IsClean (withoutLineEnds (trim raw.toList)) := by
  intro c hc
  obtain ⟨hmem, hne⟩ := mem_withoutLineEnds.1 hc
  have hterm := ((takesLineEnds_parse f).isTermChar _ (parse_eq_ok_iff.1 h) c hmem).resolve_left hne
  exact ⟨hterm.not_blank, hterm⟩

/-- A text that gives a field is clean between the blanks around it, save for line ends where its
numbers end; and with such line ends it gives the field that it gives without them. -/
theorem parse_isClean_iff (name : FieldName) (raw : String) :
    (IsCleanIfRead name raw ↔ ¬ HoldsLineEnds name raw) ∧
      (∀ f, parse name raw = .ok f ↔ EndsNumbers (trim raw.toList) ∧
        parse name (String.ofList (withoutLineEnds (trim raw.toList))) = .ok f) ∧
      ∀ f, parse name raw = .ok f → IsClean (withoutLineEnds (trim raw.toList)) := by
  refine ⟨⟨?_, ?_⟩, fun f => parse_iff_withoutLineEnds, fun f => isClean_of_parse⟩
  · rintro hclean ⟨hmem, hends, f, hf⟩
    have hblank := (hclean f (parse_iff_withoutLineEnds.2 ⟨hends, hf⟩) '\n' hmem).1
    exact absurd hblank (by decide)
  · intro hnot f hf
    obtain ⟨hends, hwithout⟩ := parse_iff_withoutLineEnds.1 hf
    have hmem : '\n' ∉ trim raw.toList := fun hmem => hnot ⟨hmem, hends, f, hwithout⟩
    rw [← withoutLineEnds_eq_self hmem]
    exact isClean_of_parse hf

-- The line end between the minutes one and two is passed over.
theorem not_isCleanIfRead_two_minutes :
    parse .minute "1\n,2" = .ok (.ofValues .minute [1, 2] false) ∧
      ¬ IsCleanIfRead .minute "1\n,2" := by
  have hread : parse .minute "1\n,2" = .ok (.ofValues .minute [1, 2] false) := by decide +kernel
  refine ⟨hread, fun hclean => ?_⟩
  exact absurd (hclean _ hread '\n' (by decide)).1 (by decide)

end Field

end Cron
