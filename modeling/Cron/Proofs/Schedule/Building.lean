import Cron.Proofs.Schedule.WordByWord

/-!
Expressions put together from a value for each field. Each value makes one word, and the words are
read one by one. So all values together make an expression exactly if each of them does with the
other fields left open, and each gives the same field either way.
-/
namespace Cron.Schedule

open Text

/-- The word that a value makes: the value without its blanks, or a star if nothing is left. -/
def givenWord (value : String) : List Char :=
  if squeeze value.toList = [] then ['*'] else squeeze value.toList

/-- The expression that values make. -/
def builtText (value : FieldName → String) : String :=
  spaced (FieldName.all.map fun name => givenWord (value name))

/-- A value for one field, with the others left open. -/
def only (name : FieldName) (value : String) : FieldName → String :=
  fun other => if other = name then value else "*"

variable {value : FieldName → String} {name : FieldName} {v expression : String}
  {field : FieldName → Field}

theorem isWord_givenWord (v : String) : IsWord (givenWord v) := by
  unfold givenWord
  split
  · exact ⟨by decide, by decide⟩
  · next hne =>
    refine ⟨hne, fun c hc => ?_⟩
    simpa using (List.mem_filter.1 hc).2

theorem fieldWord_eq (v : String) : fieldWord v = String.ofList (givenWord v) := by
  unfold fieldWord givenWord
  dsimp only
  simp only [List.isEmpty_iff]
  split
  · rfl
  · rfl

theorem givenWord_star : givenWord "*" = ['*'] := by decide

theorem words_builtText (value : FieldName → String) :
    words (builtText value).toList = FieldName.all.map fun name => givenWord (value name) := by
  apply words_spaced
  intro w hw
  obtain ⟨name, -, rfl⟩ := List.mem_map.1 hw
  exact isWord_givenWord (value name)

theorem build_eq_ok_iff :
    build value = .ok expression ↔
      expression = builtText value ∧ ∃ s, ofExpression (builtText value) = .ok s := by
  have htext : " ".intercalate (FieldName.all.map fun name => fieldWord (value name)) =
      builtText value := by
    simp only [fieldWord_eq]
    rfl
  rw [build, htext, bind_eq_ok_iff]
  simp only [Except.ok.injEq]
  constructor
  · rintro ⟨s, hs, rfl⟩
    exact ⟨rfl, s, hs⟩
  · rintro ⟨rfl, s, hs⟩
    exact ⟨s, hs, rfl⟩

-- The fields of what is built, one by one.
theorem exists_ofExpression_builtText_iff :
    (∃ s, ofExpression (builtText value) = .ok s ∧ ∀ name, s.field name = field name) ↔
      ∀ name : FieldName, name.readWord (givenWord (value name)) = .ok (field name) := by
  rw [exists_ofExpression_iff (by rw [words_builtText]; rfl), words_builtText,
    List.forall₂_map_right_iff, List.forall₂_same]
  exact ⟨fun h name => h name (FieldName.mem_all name), fun h name _ => h name⟩

theorem exists_build_iff :
    (∃ expression, build value = .ok expression) ↔
      ∀ name : FieldName, ∃ f, name.readWord (givenWord (value name)) = .ok f := by
  constructor
  · rintro ⟨expression, h⟩
    obtain ⟨-, s, hs⟩ := build_eq_ok_iff.1 h
    have hread := exists_ofExpression_builtText_iff.1 ⟨s, hs, fun name => rfl⟩
    exact fun name => ⟨_, hread name⟩
  · intro h
    choose field hfield using h
    obtain ⟨s, hs, -⟩ := exists_ofExpression_builtText_iff.2 hfield
    exact ⟨_, build_eq_ok_iff.2 ⟨rfl, s, hs⟩⟩

-- With one value alone, what it gives is all that is asked for.
theorem readWord_only (name : FieldName) (v : String) (other : FieldName) :
    other.readWord (givenWord (only name v other)) =
      if other = name then name.readWord (givenWord v) else .ok (.wildcard other) := by
  unfold only
  split
  · next heq => rw [heq]
  · rw [givenWord_star, FieldName.readWord_star]

theorem exists_build_only_iff :
    (∃ expression, build (only name v) = .ok expression) ↔
      ∃ f, name.readWord (givenWord v) = .ok f := by
  rw [exists_build_iff]
  simp only [readWord_only]
  constructor
  · intro h
    simpa using h name
  · rintro ⟨f, hf⟩ other
    split
    · exact ⟨f, hf⟩
    · exact ⟨_, rfl⟩

theorem field_of_build_only {s : Schedule} (h : build (only name v) = .ok expression)
    (hs : ofExpression expression = .ok s) : name.readWord (givenWord v) = .ok (s.field name) := by
  obtain ⟨rfl, -⟩ := build_eq_ok_iff.1 h
  have hread := exists_ofExpression_builtText_iff.1 ⟨s, hs, fun _ => rfl⟩ name
  rwa [readWord_only, if_pos rfl] at hread

/-- Values that each make an expression make one together. -/
theorem exists_schedule_of_only
    (h : ∀ name, ∃ expression, build (only name (value name)) = .ok expression) :
    ∃ expression s, build value = .ok expression ∧ ofExpression expression = .ok s := by
  obtain ⟨expression, hbuild⟩ := exists_build_iff.2 fun name => exists_build_only_iff.1 (h name)
  obtain ⟨rfl, s, hs⟩ := build_eq_ok_iff.1 hbuild
  exact ⟨_, s, hbuild, hs⟩

end Cron.Schedule
