import Cron.Proofs.Zone.Regions

/-!
What labels of zones give. Some names cannot even be looked for: those of directories, and those
whose last part is longer than the name of a file. Such a name has none of the forms of a label.
-/
namespace Cron.Zone

variable {name : List Char} {label : String}

theorem offsetAt_ofOffset (offset : Int) (t : Nat) :
    (ofOffset offset).rule.offsetAt t = offset := by
  unfold ofOffset
  split
  · next hzero => exact hzero.symm
  · rfl

-- The clocks that a label names stand whole minutes away from UTC.
theorem offsetAt_mod_of_ofLabel {zone : Zone} (h : ofLabel label = .ok (some zone)) :
    zone.rule.offsetAt 0 % 60 = 0 := by
  have hregions : ∀ place ∈ Region.all, place.rule.offsetAt 0 % 60 = 0 := by decide
  unfold ofLabel at h
  dsimp only at h
  split at h
  · cases h
  split at h
  · cases h
    rfl
  split at h
  · next negative hours minutes _ =>
    split at h
    · cases h
    · cases h
      rw [offsetAt_ofOffset]
      split <;> omega
  · split at h
    · next place hplace =>
      cases h
      exact hregions place (List.mem_of_find?_eq_some hplace)
    · cases h

end Cron.Zone
