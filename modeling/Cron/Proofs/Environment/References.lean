import Cron.Environment
import Cron.Proofs.Json.Texts
import Mathlib.Data.List.TakeWhile

/-!
References to variables. A text can be cut at a dollar sign, and its parts are resolved apart, for
no reference reaches beyond the next dollar sign. So a reference gives its value wherever it
stands, and all other text stays as it is. A value is resolved text by text within its outline, as
far as it does not lie too deep.
-/
namespace Cron.Environment

open Text

/-- Names of variables, as they can stand in a reference. -/
def IsName (name : List Char) : Prop := name ≠ [] ∧ ∀ c ∈ name, isWordChar c = true

def referenceTo (name : List Char) : List Char := '$' :: '\x7b' :: (name ++ ['\x7d'])

variable {env : Environment} {a b cs name after : List Char}

/-! References at the start of a text. -/

theorem not_isWordChar_mark {c : Char} (hc : c = '$' ∨ c = '\x7b' ∨ c = '\x7d') :
    isWordChar c = false := by
  rcases hc with rfl | rfl | rfl <;> decide

theorem dollar_not_mem (h : IsName name) : '$' ∉ '\x7b' :: (name ++ ['\x7d']) := by
  have hname : '$' ∉ name := by
    intro hmem
    have hword := h.2 _ hmem
    rw [not_isWordChar_mark (.inl rfl)] at hword
    cases hword
  simp [hname]

theorem reference?_referenceTo (h : IsName name) (after : List Char) :
    reference? (referenceTo name ++ after) = some (name, after) := by
  obtain ⟨hne, hword⟩ := h
  obtain ⟨c, rest, rfl⟩ := List.exists_cons_of_ne_nil hne
  have hmark : isWordChar '\x7d' = false := not_isWordChar_mark (.inr (.inr rfl))
  have htake : ((c :: rest) ++ '\x7d' :: after).takeWhile isWordChar = c :: rest := by
    rw [List.takeWhile_append_of_pos hword, List.takeWhile_cons_of_neg (by simp [hmark]),
      List.append_nil]
  have hdrop : ((c :: rest) ++ '\x7d' :: after).dropWhile isWordChar = '\x7d' :: after := by
    rw [List.dropWhile_append_of_pos hword, List.dropWhile_cons_of_neg (by simp [hmark])]
  have hcut : referenceTo (c :: rest) ++ after =
      '$' :: '\x7b' :: ((c :: rest) ++ '\x7d' :: after) := by
    simp [referenceTo]
  rw [hcut, reference?]
  simp only [htake, hdrop]

theorem reference?_eq_some_iff :
    reference? cs = some (name, after) ↔ IsName name ∧ cs = referenceTo name ++ after := by
  constructor
  · intro h
    unfold reference? at h
    split at h
    · next rest =>
      split at h
      · next c n a htake hdrop =>
        cases h
        have hword : ∀ d ∈ c :: n, isWordChar d = true := by
          rw [← htake]
          exact fun d hd => List.mem_takeWhile_imp hd
        refine ⟨⟨List.cons_ne_nil c n, hword⟩, ?_⟩
        rw [← List.takeWhile_append_dropWhile (p := isWordChar) (l := rest), htake, hdrop]
        simp [referenceTo]
      · cases h
    · cases h
  · rintro ⟨hname, rfl⟩
    exact reference?_referenceTo hname after

-- The dollar sign of a reference is its only one.
theorem reference?_append_dollar (ha : a ≠ []) :
    reference? (a ++ '$' :: b) =
      (reference? a).map fun found => (found.1, found.2 ++ '$' :: b) := by
  cases h : reference? a with
  | some found =>
    obtain ⟨name, after⟩ := found
    obtain ⟨hname, rfl⟩ := reference?_eq_some_iff.1 h
    rw [List.append_assoc, reference?_referenceTo hname]
    rfl
  | none =>
    cases h' : reference? (a ++ '$' :: b) with
    | none => rfl
    | some found =>
      obtain ⟨name, after⟩ := found
      obtain ⟨hname, hcs⟩ := reference?_eq_some_iff.1 h'
      have hshort : ∀ more, a ≠ referenceTo name ++ more := by
        rintro more rfl
        rw [reference?_referenceTo hname] at h
        cases h
      rcases List.append_eq_append_iff.1 hcs with ⟨more, href, hmore⟩ | ⟨more, hlong, -⟩
      · cases more with
        | nil => exact absurd (by simpa using href.symm) (hshort [])
        | cons d more =>
          cases hmore
          obtain ⟨c, a', rfl⟩ := List.exists_cons_of_ne_nil ha
          have hmem : '$' ∈ '\x7b' :: (name ++ ['\x7d']) := by
            rw [(List.cons.inj href).2]
            simp
          exact absurd hmem (dollar_not_mem hname)
      · exact absurd hlong (hshort more)

/-! Texts. -/

theorem resolveChars_of_some (h : reference? cs = some (name, after)) :
    env.resolveChars cs = env.valueOf name ++ env.resolveChars after := by
  rw [resolveChars.eq_def]
  split
  · next h' =>
    rw [h] at h'
    cases h'
    rfl
  · next h' =>
    rw [h] at h'
    cases h'

theorem resolveChars_of_none {c : Char} (h : reference? (c :: cs) = none) :
    env.resolveChars (c :: cs) = c :: env.resolveChars cs := by
  rw [resolveChars.eq_def]
  split
  · next h' =>
    rw [h] at h'
    cases h'
  · rfl

/-- A text is resolved in two parts if the second one starts with a dollar sign. -/
theorem resolveChars_append_dollar (a b : List Char) :
    env.resolveChars (a ++ '$' :: b) = env.resolveChars a ++ env.resolveChars ('$' :: b) := by
  fun_induction env.resolveChars a with
  | case1 cs name after h ih =>
    have hne : cs ≠ [] := by
      rintro rfl
      cases h
    rw [resolveChars_of_some (by rw [reference?_append_dollar hne, h]; rfl), ih, List.append_assoc]
  | case2 h => rw [List.nil_append, List.nil_append]
  | case3 c rest h ih =>
    have hnone : reference? (c :: (rest ++ '$' :: b)) = none := by
      rw [← List.cons_append, reference?_append_dollar (List.cons_ne_nil c rest), h]
      rfl
    rw [List.cons_append, resolveChars_of_none hnone, ih, List.cons_append]

theorem resolveChars_referenceTo (h : IsName name) (b : List Char) :
    env.resolveChars (referenceTo name ++ b) = env.valueOf name ++ env.resolveChars b :=
  resolveChars_of_some (reference?_referenceTo h b)

/-- A text without references is as it was. -/
theorem resolveChars_eq_self
    (h : ∀ a name b, IsName name → cs ≠ a ++ (referenceTo name ++ b)) :
    env.resolveChars cs = cs := by
  fun_induction env.resolveChars cs with
  | case1 cs name after href =>
    obtain ⟨hname, rfl⟩ := reference?_eq_some_iff.1 href
    exact absurd rfl (h [] name after hname)
  | case2 => rfl
  | case3 c rest _ ih =>
    have hrest : ∀ a name b, IsName name → rest ≠ a ++ (referenceTo name ++ b) := by
      rintro a name b hname rfl
      exact h (c :: a) name b hname rfl
    rw [ih hrest]

/-- A reference as a text. -/
def referenceText (name : String) : String := "$\x7b" ++ name ++ "\x7d"

theorem toList_referenceText (name : String) :
    (referenceText name).toList = referenceTo name.toList := by
  simp [referenceText, referenceTo]

theorem ofList_valueOf (env : Environment) (name : String) :
    String.ofList (env.valueOf name.toList) = (env.get? name).getD (referenceText name) := by
  rw [valueOf, String.ofList_toList]
  cases env.get? name with
  | some value => exact String.ofList_toList
  | none =>
    show String.ofList (referenceTo name.toList) = referenceText name
    rw [← toList_referenceText, String.ofList_toList]

/-- A reference gives the value of its variable, and the texts around it are resolved apart. -/
theorem resolve_append_referenceText (env : Environment) (a b : String) {name : String}
    (h : IsName name.toList) :
    env.resolve (a ++ referenceText name ++ b) =
      env.resolve a ++ (env.get? name).getD (referenceText name) ++ env.resolve b := by
  have hchars : (a ++ referenceText name ++ b).toList =
      a.toList ++ '$' :: ('\x7b' :: (name.toList ++ ['\x7d']) ++ b.toList) := by
    simp [toList_referenceText, referenceTo]
  rw [resolve, hchars, resolveChars_append_dollar]
  show String.ofList (_ ++ env.resolveChars (referenceTo name.toList ++ b.toList)) = _
  rw [resolveChars_referenceTo h, String.ofList_append, String.ofList_append, ofList_valueOf,
    String.append_assoc]
  rfl

theorem resolve_eq_self {s : String}
    (h : ∀ a name b, IsName name.toList → s ≠ a ++ referenceText name ++ b) :
    env.resolve s = s := by
  have hchars : ∀ a name b, IsName name → s.toList ≠ a ++ (referenceTo name ++ b) := by
    intro a name b hname hs
    apply h (String.ofList a) (String.ofList name) (String.ofList b) (by simpa using hname)
    rw [← String.toList_inj, hs]
    simp [toList_referenceText]
  rw [resolve, resolveChars_eq_self hchars, String.ofList_toList]

-- The marks of a reference and its name take four characters.
theorem ne_append_referenceText {s : String} (h : s.length < 4) (a b : String) {name : String}
    (hname : IsName name.toList) : s ≠ a ++ referenceText name ++ b := by
  rintro rfl
  have hmarks : "$\x7b".length = 2 ∧ "\x7d".length = 1 := by decide
  have hletters := List.length_pos_iff.2 hname.1
  simp only [referenceText, String.length_append, String.length_toList] at h hletters
  omega

theorem resolve_of_length_lt {s : String} (h : s.length < 4) : env.resolve s = s :=
  resolve_eq_self fun a _ b hname => ne_append_referenceText h a b hname

theorem resolve_referenceText (env : Environment) (name : String) (h : IsName name.toList) :
    env.resolve (referenceText name) = (env.get? name).getD (referenceText name) := by
  have hempty : env.resolve "" = "" := resolve_of_length_lt (by decide)
  have happend := resolve_append_referenceText env "" "" h
  rwa [hempty, String.empty_append, String.append_empty, String.empty_append,
    String.append_empty] at happend

/-! Values. -/

mutual

theorem outline_resolveJson (env : Environment) (v : Json) :
    (env.resolveJson v).outline = v.outline := by
  cases v with
  | list items => simp [resolveJson, Json.outline, outlineOfItems_resolveItems env items]
  | object members => simp [resolveJson, Json.outline, outlineOfMembers_resolveMembers env members]
  | _ => simp [resolveJson, Json.outline]

theorem outlineOfItems_resolveItems (env : Environment) (items : List Json) :
    Json.outlineOfItems (env.resolveItems items) = Json.outlineOfItems items := by
  match items with
  | [] => rfl
  | v :: rest =>
    simp [resolveItems, Json.outlineOfItems, outline_resolveJson env v,
      outlineOfItems_resolveItems env rest]

theorem outlineOfMembers_resolveMembers (env : Environment) (members : List (String × Json)) :
    Json.outlineOfMembers (env.resolveMembers members) = Json.outlineOfMembers members := by
  match members with
  | [] => rfl
  | (name, v) :: rest =>
    simp [resolveMembers, Json.outlineOfMembers, outline_resolveJson env v,
      outlineOfMembers_resolveMembers env rest]

end

mutual

theorem texts_resolveJson (env : Environment) (v : Json) :
    (env.resolveJson v).texts = v.texts.map env.resolve := by
  cases v with
  | list items => simp [resolveJson, Json.texts, textsOfItems_resolveItems env items]
  | object members => simp [resolveJson, Json.texts, textsOfMembers_resolveMembers env members]
  | _ => simp [resolveJson, Json.texts]

theorem textsOfItems_resolveItems (env : Environment) (items : List Json) :
    Json.textsOfItems (env.resolveItems items) = (Json.textsOfItems items).map env.resolve := by
  match items with
  | [] => rfl
  | v :: rest =>
    simp [resolveItems, Json.textsOfItems, texts_resolveJson env v,
      textsOfItems_resolveItems env rest]

theorem textsOfMembers_resolveMembers (env : Environment) (members : List (String × Json)) :
    Json.textsOfMembers (env.resolveMembers members) =
      (Json.textsOfMembers members).map env.resolve := by
  match members with
  | [] => rfl
  | (name, v) :: rest =>
    simp [resolveMembers, Json.textsOfMembers, texts_resolveJson env v,
      textsOfMembers_resolveMembers env rest]

end

/-- The resolved value is the only one with the same outline and the texts resolved one by one. -/
theorem resolveJson_eq_iff {v w : Json} :
    env.resolveJson v = w ↔ w.outline = v.outline ∧ w.texts = v.texts.map env.resolve := by
  constructor
  · rintro rfl
    exact ⟨outline_resolveJson env v, texts_resolveJson env v⟩
  · rintro ⟨houtline, htexts⟩
    apply Json.eq_of_outline_of_texts
    · rw [outline_resolveJson, houtline]
    · rw [texts_resolveJson, htexts]

theorem resolveWithin_of_depth_le {levels : Nat} {v : Json} (h : v.depth ≤ levels) :
    env.resolveWithin levels v = .ok (env.resolveJson v) := by
  rw [resolveWithin, if_neg h.not_gt]

theorem resolveWithin_of_lt_depth {levels : Nat} {v : Json} (h : levels < v.depth) :
    env.resolveWithin levels v = .error .tooDeep := by
  rw [resolveWithin, if_pos h]

/-- Lists with one item each, one within the other. -/
def nested : Nat → Json
  | 0 => .list []
  | n + 1 => .list [nested n]

theorem depth_nested (n : Nat) : (nested n).depth = n + 1 := by
  induction n with
  | zero => rfl
  | succ n ih => simp [nested, Json.depth, Json.depthOfItems, ih]

/-- A reference gives the value of its variable as it is, or stays where there is none, and the
texts before and after it are resolved apart. A text without references stays as it is. Of a value
each text is resolved by itself and the outline kept, so that there is just one result, unless more
values lie within each other than the stack has levels for, however many it has. -/
theorem resolve_isCompositional (env : Environment) :
    (∀ a b name : String, IsName name.toList →
      env.resolve (a ++ referenceText name ++ b) =
        env.resolve a ++ (env.get? name).getD (referenceText name) ++ env.resolve b) ∧
    (∀ s : String, (∀ a name b, IsName name.toList → s ≠ a ++ referenceText name ++ b) →
      env.resolve s = s) ∧
    ∀ (levels : Nat) (v : Json),
      (v.depth ≤ levels → ∃ w, env.resolveWithin levels v = .ok w ∧
        ∀ x : Json, x = w ↔ x.outline = v.outline ∧ x.texts = v.texts.map env.resolve) ∧
      (levels < v.depth → env.resolveWithin levels v = .error .tooDeep) := by
  refine ⟨fun a b name => resolve_append_referenceText env a b, fun s => resolve_eq_self, ?_⟩
  refine fun levels v => ⟨fun hdepth => ?_, resolveWithin_of_lt_depth⟩
  refine ⟨env.resolveJson v, resolveWithin_of_depth_le hdepth, fun x => ?_⟩
  rw [← resolveJson_eq_iff]
  exact eq_comm

/-- A value that looks like a reference, between broken ones; a text that is too short to hold a
reference; a member within an object; and lists that lie too deep. -/
theorem resolve_isCompositional_broken :
    (IsName "A".toList ∧
      (⟨[("A", "$\x7bB\x7d"), ("B", "b")]⟩ : Environment).resolve
          ("$\x7b" ++ referenceText "A" ++ "\x7d$") = "$\x7b$\x7bB\x7d\x7d$") ∧
    ((∀ a name b, IsName name.toList → "$\x7b\x7d" ≠ a ++ referenceText name ++ b) ∧
      (⟨[("A", "$\x7bB\x7d"), ("B", "b")]⟩ : Environment).resolve "$\x7b\x7d" = "$\x7b\x7d") ∧
    ((Json.object [("k", .text "$\x7bB\x7d")]).depth ≤ maxDepth ∧
      (⟨[("A", "$\x7bB\x7d"), ("B", "b")]⟩ : Environment).resolveValue
        (.object [("k", .text "$\x7bB\x7d")]) = .ok (.object [("k", .text "b")])) ∧
    maxDepth < (nested 899).depth ∧
    (⟨[("A", "$\x7bB\x7d"), ("B", "b")]⟩ : Environment).resolveValue (nested 899) =
      .error .tooDeep := by
  have hname : IsName "A".toList := ⟨by decide, by decide⟩
  have hshort : ∀ a name b, IsName name.toList → "$\x7b\x7d" ≠ a ++ referenceText name ++ b :=
    fun a _ b => ne_append_referenceText (by decide) a b
  have hdeep : maxDepth < (nested 899).depth := by
    rw [depth_nested]
    decide
  refine ⟨⟨hname, ?_⟩, ⟨hshort, ?_⟩, ⟨by decide, ?_⟩, hdeep, ?_⟩
  · rw [(resolve_isCompositional _).1 _ _ _ hname, resolve_of_length_lt (by decide),
      resolve_of_length_lt (by decide)]
    rfl
  · exact (resolve_isCompositional _).2.1 _ hshort
  · obtain ⟨w, hw, hunique⟩ := ((resolve_isCompositional
      ⟨[("A", "$\x7bB\x7d"), ("B", "b")]⟩).2.2 maxDepth
        (.object [("k", .text "$\x7bB\x7d")])).1 (by decide)
    have hvalue :
        (⟨[("A", "$\x7bB\x7d"), ("B", "b")]⟩ : Environment).resolve "$\x7bB\x7d" = "b" := by
      have hreference : referenceText "B" = "$\x7bB\x7d" := by decide
      rw [← hreference, resolve_referenceText _ "B" ⟨by decide, by decide⟩]
      rfl
    have htexts : ["b"] = ["$\x7bB\x7d"].map
        (⟨[("A", "$\x7bB\x7d"), ("B", "b")]⟩ : Environment).resolve := by
      rw [List.map_singleton, hvalue]
    rw [resolveValue, hw, ← (hunique (.object [("k", .text "b")])).2 ⟨rfl, htexts⟩]
  · exact ((resolve_isCompositional _).2.2 maxDepth _).2 hdeep

/-- Nine hundred lists within each other are not resolved, though there are no texts in them. -/
theorem resolveValue_nested_eq_error :
    (⟨[]⟩ : Environment).resolveValue (nested 899) = .error .tooDeep ∧
      ¬ ∃ w, (⟨[]⟩ : Environment).resolveValue (nested 899) = .ok w ∧
        w.outline = (nested 899).outline ∧
        w.texts = (nested 899).texts.map (⟨[]⟩ : Environment).resolve := by
  have hdeep : (⟨[]⟩ : Environment).resolveValue (nested 899) = .error .tooDeep := by
    apply resolveWithin_of_lt_depth
    rw [depth_nested]
    decide
  simp [hdeep]

end Cron.Environment
