import Cron.Proofs.Duration.Grammar
import Cron.Proofs.Number.Rounding

/-!
The minutes of a length of time. They are counted from its seconds as a binary fraction, which is
exact for every length that there is. So a text gives the whole minutes of what it says, down to
the last one.
-/
namespace Cron.Duration

open Text

variable {seconds : Int}

/-- The fraction from which minutes are counted is the number of seconds itself. -/
theorem truncate_total (d : Duration) : d.total.truncate = d.seconds := by
  have hlower := d.lower
  have hupper := d.upper
  have hmicros : 0 < 1000000 := by decide
  rw [total, mul_comm]
  exact Number.truncate_nearest_mul d.seconds hmicros (by omega)

theorem minutes_eq (d : Duration) : d.minutes = d.seconds / 60 := by
  rw [minutes, truncate_total, Int.fdiv_eq_ediv_of_nonneg _ (by decide)]

theorem map_minutes_ofSeconds (hlower : -86399999913600 ≤ seconds)
    (hupper : seconds < 86400000000000) : (ofSeconds seconds).map minutes = .ok (seconds / 60) := by
  rw [ofSeconds, dif_pos ⟨hlower, hupper⟩, Except.map, minutes_eq]

theorem map_minutes_ofMinutes {n : Int} (hlower : -86399999913600 ≤ 60 * n)
    (hupper : 60 * n < 86400000000000) : (ofMinutes n).map minutes = .ok n := by
  rw [ofMinutes, map_minutes_ofSeconds hlower hupper, Int.mul_ediv_cancel_left n (by decide)]

/-- A number of units gives the whole minutes of its seconds, wherever blanks stand; a number alone
gives as many minutes, and so does an integer, a negative one too. The lengths that there are, up to
a thousand million days, bound the numbers, and the digits of a text are not too many to be read. -/
theorem minutes_isExact :
    (∀ (before digits gap after : List Char) (letter : Char) (n seconds : Nat),
      (∀ c ∈ before ++ gap ++ after, isBlank c = true) → IsNumeral digits n →
      digits.length ≤ maxDigits → (letter, seconds) ∈ unitLetters →
      n * seconds < 86400000000000 →
        (ofText (String.ofList (before ++ digits ++ gap ++ [letter] ++ after))).map minutes =
          .ok (n * seconds / 60 : Nat)) ∧
    (∀ (digits : List Char) (n : Nat), IsNumeral digits n → digits.length ≤ maxDigits →
      n * 60 < 86400000000000 → (ofText (String.ofList digits)).map minutes = .ok n) ∧
    ∀ n : Int, -86399999913600 ≤ 60 * n → 60 * n < 86400000000000 →
      (ofJson (.int n)).map minutes = .ok n := by
  refine ⟨?_, ?_, fun n => map_minutes_ofMinutes⟩
  · intro before digits gap after letter n seconds hblank hn hshort hletter hupper
    have hmarked :
        IsMarked (String.ofList (before ++ digits ++ gap ++ [letter] ++ after)).toList n
          (some letter) := by
      refine ⟨before, digits, gap, after, ?_, hblank, hn, hshort⟩
      simp
    rw [ofText_of_isUnit hmarked (.letter hletter), map_minutes_ofSeconds (by omega) (by omega)]
    rfl
  · intro digits n hn hshort hupper
    have hmarked : IsMarked (String.ofList digits).toList n none := by
      refine ⟨[], digits, [], [], ?_, by simp, hn, hshort⟩
      simp
    rw [ofText_of_isMarked_none hmarked, map_minutes_ofMinutes (by omega) (by omega)]

/-- The longest length of whole seconds, in seconds and in minutes, and the least integer. -/
theorem minutes_isExact_longest :
    ((∀ c ∈ [' '] ++ ['\t'] ++ [], isBlank c = true) ∧
      IsNumeral "86399999999999".toList 86399999999999 ∧
      "86399999999999".toList.length ≤ maxDigits ∧ ('S', 1) ∈ unitLetters ∧
      86399999999999 * 1 < 86400000000000 ∧
      (ofText (String.ofList ([' '] ++ "86399999999999".toList ++ ['\t'] ++ ['S'] ++ []))).map
        minutes = .ok 1439999999999) ∧
    (IsNumeral "1439999999999".toList 1439999999999 ∧
      "1439999999999".toList.length ≤ maxDigits ∧ 1439999999999 * 60 < 86400000000000 ∧
      (ofText (String.ofList "1439999999999".toList)).map minutes = .ok 1439999999999) ∧
    -86399999913600 ≤ 60 * (-1439999998560 : Int) ∧
    60 * (-1439999998560 : Int) < 86400000000000 ∧
    (ofJson (.int (-1439999998560))).map minutes = .ok (-1439999998560) := by
  have hseconds : IsNumeral "86399999999999".toList 86399999999999 :=
    ⟨[8, 6, 3, 9, 9, 9, 9, 9, 9, 9, 9, 9, 9, 9], by decide, by decide, by decide⟩
  have hminutes : IsNumeral "1439999999999".toList 1439999999999 :=
    ⟨[1, 4, 3, 9, 9, 9, 9, 9, 9, 9, 9, 9, 9], by decide, by decide, by decide⟩
  have hblank : ∀ c ∈ [' '] ++ ['\t'] ++ [], isBlank c = true := by decide
  have hshort : "86399999999999".toList.length ≤ maxDigits := by decide
  have hshort' : "1439999999999".toList.length ≤ maxDigits := by decide
  have hletter : ('S', 1) ∈ unitLetters := by decide
  refine ⟨⟨hblank, hseconds, hshort, hletter, by decide, ?_⟩,
    ⟨hminutes, hshort', by decide, ?_⟩, by decide, by decide, ?_⟩
  · exact minutes_isExact.1 _ _ _ _ _ _ _ hblank hseconds hshort hletter (by decide)
  · exact minutes_isExact.2.1 _ _ hminutes hshort' (by decide)
  · exact minutes_isExact.2.2 _ (by decide) (by decide)

end Cron.Duration
