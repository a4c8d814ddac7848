import Cron.Json.Basic
import Mathlib.Data.List.Basic

/-!
The texts within a value, and the value around them: its outline. Together they make up the value,
for every text has its place in the outline.
-/
namespace Cron.Json

mutual

/-- The value with nothing in its texts. Its other parts are as they were, and so are the names of
members. -/
def outline : Json → Json
  | text _ => text ""
  | list items => list (outlineOfItems items)
  | object members => object (outlineOfMembers members)
  | v => v

def outlineOfItems : List Json → List Json
  | [] => []
  | v :: rest => outline v :: outlineOfItems rest

def outlineOfMembers : List (String × Json) → List (String × Json)
  | [] => []
  | (name, v) :: rest => (name, outline v) :: outlineOfMembers rest

end

mutual

/-- The texts within a value, in order. -/
def texts : Json → List String
  | text s => [s]
  | list items => textsOfItems items
  | object members => textsOfMembers members
  | _ => []

def textsOfItems : List Json → List String
  | [] => []
  | v :: rest => texts v ++ textsOfItems rest

def textsOfMembers : List (String × Json) → List String
  | [] => []
  | (_, v) :: rest => texts v ++ textsOfMembers rest

end

mutual

-- More texts may follow on either side, so that items can be taken one after the other.
theorem eq_of_texts_append (v w : Json) {more others : List String}
    (houtline : v.outline = w.outline) (htexts : v.texts ++ more = w.texts ++ others) :
    v = w ∧ more = others := by
  cases v with
  | text s =>
    cases w with
    | text t => simpa [texts] using htexts
    | _ => simp [outline] at houtline
  | list items =>
    cases w with
    | list items' =>
      simp only [outline, list.injEq] at houtline
      obtain ⟨rfl, hmore⟩ := eq_of_textsOfItems_append items items' houtline htexts
      exact ⟨rfl, hmore⟩
    | _ => simp [outline] at houtline
  | object members =>
    cases w with
    | object members' =>
      simp only [outline, object.injEq] at houtline
      obtain ⟨rfl, hmore⟩ := eq_of_textsOfMembers_append members members' houtline htexts
      exact ⟨rfl, hmore⟩
    | _ => simp [outline] at houtline
  | _ => cases w <;> simp_all [outline, texts]

theorem eq_of_textsOfItems_append (vs ws : List Json) {more others : List String}
    (houtline : outlineOfItems vs = outlineOfItems ws)
    (htexts : textsOfItems vs ++ more = textsOfItems ws ++ others) : vs = ws ∧ more = others := by
  cases vs with
  | nil =>
    cases ws with
    | nil => exact ⟨rfl, htexts⟩
    | cons w ws => simp [outlineOfItems] at houtline
  | cons v vs =>
    cases ws with
    | nil => simp [outlineOfItems] at houtline
    | cons w ws =>
      simp only [outlineOfItems, List.cons.injEq] at houtline
      simp only [textsOfItems, List.append_assoc] at htexts
      obtain ⟨rfl, hrest⟩ := eq_of_texts_append v w houtline.1 htexts
      obtain ⟨rfl, hmore⟩ := eq_of_textsOfItems_append vs ws houtline.2 hrest
      exact ⟨rfl, hmore⟩

theorem eq_of_textsOfMembers_append (vs ws : List (String × Json)) {more others : List String}
    (houtline : outlineOfMembers vs = outlineOfMembers ws)
    (htexts : textsOfMembers vs ++ more = textsOfMembers ws ++ others) :
    vs = ws ∧ more = others := by
  match vs, ws with
  | [], [] => exact ⟨rfl, htexts⟩
  | [], _ :: _ => simp [outlineOfMembers] at houtline
  | _ :: _, [] => simp [outlineOfMembers] at houtline
  | (name, v) :: vs, (name', w) :: ws =>
    simp only [outlineOfMembers, List.cons.injEq, Prod.mk.injEq] at houtline
    simp only [textsOfMembers, List.append_assoc] at htexts
    obtain ⟨rfl, hrest⟩ := eq_of_texts_append v w houtline.1.2 htexts
    obtain ⟨rfl, hmore⟩ := eq_of_textsOfMembers_append vs ws houtline.2 hrest
    exact ⟨by rw [houtline.1.1], hmore⟩

end

theorem eq_of_outline_of_texts {v w : Json} (houtline : v.outline = w.outline)
    (htexts : v.texts = w.texts) : v = w :=
  (eq_of_texts_append v w houtline (congrArg (· ++ []) htexts)).1

end Cron.Json
