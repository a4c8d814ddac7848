import Cron.Proofs.Runs.Paging
import Cron.Proofs.Schedule.WordByWord

/-!
Runs of an expression that restricts the days of the month and those of the week: they are the runs
with the first restriction alone and those with the second alone, in order and each once. Whether a
day is restricted is decided by the spelling of its word, not by the values that it stands for.
-/
namespace Cron.Schedule

open Text

variable {expression : String} {s monthly weekly : Schedule} {start : Moment}
  {count minutes : Int}

theorem matchesTime_eq_field (s : Schedule) (v : WallTime) :
    s.matchesTime v =
      ((s.field .minute).admits v.minute && (s.field .hour).admits v.hour &&
        ((s.field .month).admits v.date.month &&
          dayRule (s.field .dayOfMonth).isRestricted (s.field .dayOfWeek).isRestricted
            ((s.field .dayOfMonth).admits v.date.day) ((s.field .dayOfWeek).admits v.weekday))) :=
  rfl

/-- A schedule that restricts both the days of the month and those of the week, and the two that
have one of the restrictions each and are the same otherwise. -/
structure IsEither (s monthly weekly : Schedule) : Prop where
  restricted : (s.field .dayOfMonth).isRestricted = true ∧ (s.field .dayOfWeek).isRestricted = true
  monthly_eq : ∀ name, monthly.field name =
    if name = .dayOfWeek then .wildcard .dayOfWeek else s.field name
  weekly_eq : ∀ name, weekly.field name =
    if name = .dayOfMonth then .wildcard .dayOfMonth else s.field name

theorem IsEither.matchesTime_eq (h : IsEither s monthly weekly) (v : WallTime) :
    s.matchesTime v = (monthly.matchesTime v || weekly.matchesTime v) := by
  have hopen : ∀ name, (Field.wildcard name).isRestricted = false := fun _ => rfl
  simp only [matchesTime_eq_field, h.monthly_eq, h.weekly_eq, reduceCtorEq, if_true, if_false,
    h.restricted, hopen, dayRule, Bool.and_self, Bool.and_false, Bool.false_and,
    Bool.false_eq_true, Bool.and_or_distrib_left]

-- A walk that has to find as many runs as it looks at minutes looks at all of them.
theorem staysInside_iff_of_le (s : Schedule) (zone : Zone) (instant : WallTime) {n k : Nat}
    (h : k ≤ n) : s.StaysInside zone instant n k ↔ ∀ j < k, zone.Inside instant j := by
  have hfew : ∀ j < k, (s.dueWithin zone instant j).length < n := fun j hj =>
    (s.length_dueWithin_le zone instant j).trans_lt (hj.trans_le h)
  exact ⟨fun hin j hj => hin j hj (hfew j hj), fun hin j hj _ => hin j hj⟩

-- Such a walk finds all that is due.
theorem nextRuns_eq_of_le (hk : ∀ zone ∈ start.zone, zone.IsKnown) (hm : 1 ≤ minutes)
    (hcount : minutes ≤ count) {first instant : WallTime}
    (hfirst : start.wall.floorMinute.nextMinute? = some first)
    (hread : (start.zone.getD .utc).toUtc first false = .ok instant)
    (hin : ∀ j < minutes.toNat, (start.zone.getD .utc).Inside instant j) (s : Schedule) :
    s.nextRuns start count minutes =
      .ok (runsAt start (s.dueWithin (start.zone.getD .utc) instant minutes.toNat)) := by
  have hle : minutes.toNat ≤ count.toNat := by omega
  have hstays := (s.staysInside_iff_of_le (start.zone.getD .utc) instant hle).2 hin
  have hlength := s.length_dueWithin_le (start.zone.getD .utc) instant minutes.toNat
  rcases s.nextRuns_of_first hk (hm.trans hcount) hm hfirst hread with ⟨-, hruns⟩ | ⟨hout, -⟩
  · rw [hruns, List.take_of_length_le (hlength.trans hle), runsAt]
  · exact absurd hstays hout

/-- Of what is due, each wall time is due by one restriction or the other. -/
theorem IsEither.mem_dueWithin_iff (h : IsEither s monthly weekly) {zone : Zone}
    {instant v : WallTime} {n : Nat} :
    v ∈ s.dueWithin zone instant n ↔
      v ∈ monthly.dueWithin zone instant n ∨ v ∈ weekly.dueWithin zone instant n := by
  simp only [dueWithin, List.mem_filter, h.matchesTime_eq, Bool.or_eq_true, and_or_left]

/-- The runs of one walk are those of two others together, in order and each once. -/
structure IsUnion (runs xs ys : List Moment) : Prop where
  mem_iff : ∀ r, r ∈ runs ↔ r ∈ xs ∨ r ∈ ys
  pairwise : runs.Pairwise ComesBefore

theorem IsEither.exists_nextRuns (h : IsEither s monthly weekly)
    (hk : ∀ zone ∈ start.zone, zone.IsKnown) (hcount : minutes ≤ count)
    (hkeeps : s.KeepsCalendar start count minutes) :
    ∃ runs xs ys, s.nextRuns start count minutes = .ok runs ∧
      monthly.nextRuns start count minutes = .ok xs ∧
      weekly.nextRuns start count minutes = .ok ys ∧ IsUnion runs xs ys := by
  by_cases hm : 1 ≤ minutes
  · obtain ⟨first, instant, hfirst, hread, hin⟩ := hkeeps (hm.trans hcount) hm
    rw [staysInside_iff_of_le _ _ _ (by omega)] at hin
    have hruns := nextRuns_eq_of_le hk hm hcount hfirst hread hin
    refine ⟨_, _, _, hruns s, hruns monthly, hruns weekly, ?_, ?_⟩
    · intro r
      simp only [runsAt, List.mem_map, h.mem_dueWithin_iff, or_and_right, exists_or]
    · exact comesBefore_runsAt (isKnown_getD hk).isSteady (List.Sublist.refl _)
  · have hnone : ∀ s : Schedule, s.nextRuns start count minutes = .ok [] := fun s =>
      if_pos (.inr (by omega))
    exact ⟨[], [], [], hnone s, hnone monthly, hnone weekly, by simp, .nil⟩

section Words
variable {m h d mo w : List Char} (hwords : words expression.toList = [m, h, d, mo, w])
include hwords

-- A word that is replaced by the star leaves its field open, and the others as they are.
theorem exists_ofExpression_star (hs : ofExpression expression = .ok s) :
    (∃ t, ofExpression (spaced [m, h, d, mo, ['*']]) = .ok t ∧ ∀ name, t.field name =
        if name = .dayOfWeek then .wildcard .dayOfWeek else s.field name) ∧
      ∃ t, ofExpression (spaced [m, h, ['*'], mo, w]) = .ok t ∧ ∀ name, t.field name =
        if name = .dayOfMonth then .wildcard .dayOfMonth else s.field name := by
  have hfields := (exists_ofExpression_iff (by rw [hwords]; rfl)).1 ⟨s, hs, fun name => rfl⟩
  have hisWord : ∀ v ∈ [m, h, d, mo, w], IsWord v := fun v hv =>
    isWord_of_mem_words (hwords ▸ hv)
  have hstar : IsWord ['*'] := ⟨by decide, by decide⟩
  rw [hwords] at hfields
  simp only [FieldName.all, List.forall₂_cons, List.forall₂_nil_left_iff] at hfields
  simp only [List.forall_mem_cons, List.not_mem_nil, false_implies, implies_true] at hisWord
  have hmonthly : words (spaced [m, h, d, mo, ['*']]).toList = [m, h, d, mo, ['*']] :=
    words_spaced (by simp_all)
  have hweekly : words (spaced [m, h, ['*'], mo, w]).toList = [m, h, ['*'], mo, w] :=
    words_spaced (by simp_all)
  constructor
  · rw [exists_ofExpression_iff (by rw [hmonthly]; rfl), hmonthly]
    simp only [FieldName.all, List.forall₂_cons, List.forall₂_nil_left_iff]
    simp [hfields, FieldName.readWord_star]
  · rw [exists_ofExpression_iff (by rw [hweekly]; rfl), hweekly]
    simp only [FieldName.all, List.forall₂_cons, List.forall₂_nil_left_iff]
    simp [hfields, FieldName.readWord_star]

/-- Take an expression of five words whose third and fifth are not the bare star, and the two
expressions that have a star in place of one of these words. From any start, as long as the walk
stays on the calendar, the runs of the first within a horizon are those of the other two together,
in order and each once. -/
theorem nextRuns_isUnion (hd : d ≠ ['*']) (hw : w ≠ ['*'])
    (hs : ofExpression expression = .ok s) (hk : ∀ zone ∈ start.zone, zone.IsKnown)
    (hcount : minutes ≤ count) (hkeeps : s.KeepsCalendar start count minutes) :
    ∃ monthly weekly runs xs ys,
      ofExpression (spaced [m, h, d, mo, ['*']]) = .ok monthly ∧
      ofExpression (spaced [m, h, ['*'], mo, w]) = .ok weekly ∧
      s.nextRuns start count minutes = .ok runs ∧
      monthly.nextRuns start count minutes = .ok xs ∧
      weekly.nextRuns start count minutes = .ok ys ∧ IsUnion runs xs ys := by
  obtain ⟨⟨monthly, hmonthly, hmonthly_eq⟩, weekly, hweekly, hweekly_eq⟩ :=
    exists_ofExpression_star hwords hs
  have hfields := (exists_ofExpression_iff (by rw [hwords]; rfl)).1 ⟨s, hs, fun name => rfl⟩
  have hisWord : ∀ v ∈ [m, h, d, mo, w], IsWord v := fun v hv =>
    isWord_of_mem_words (hwords ▸ hv)
  rw [hwords] at hfields
  simp only [FieldName.all, List.forall₂_cons] at hfields
  obtain ⟨-, -, hreadDay, -, hreadWeekday, -⟩ := hfields
  have hday := FieldName.isWildcard_readWord (hisWord d (by simp)) hreadDay
  have hweekday := FieldName.isWildcard_readWord (hisWord w (by simp)) hreadWeekday
  have heither : IsEither s monthly weekly :=
    ⟨⟨by simp [Field.isRestricted, mt hday.1 hd], by simp [Field.isRestricted, mt hweekday.1 hw]⟩,
      hmonthly_eq, hweekly_eq⟩
  obtain ⟨runs, xs, ys, hruns⟩ := heither.exists_nextRuns hk hcount hkeeps
  exact ⟨monthly, weekly, runs, xs, ys, hmonthly, hweekly, hruns⟩

end Words

/-- On the night that New York's clocks are set back: the days of the month are restricted to all
of them, so the runs of two days are those of each night, with the Sunday's among them once. -/
theorem nextRuns_isUnion_new_york :
    let expression := "30 1 */1 Nov Sun"
    let m := "30".toList
    let h := "1".toList
    let d := "*/1".toList
    let mo := "Nov".toList
    let w := "Sun".toList
    let zone : Zone := .region ⟨"America/New_York", Region.northAmerica (Region.hm (-5) 0)⟩
    let start : Moment :=
      ⟨⟨(86400 * Date.toDay ⟨2026, 11, 1⟩ + 3600) * 1000000, by decide⟩, some zone, false⟩
    words expression.toList = [m, h, d, mo, w] ∧ d ≠ ['*'] ∧ w ≠ ['*'] ∧
      (∀ zone ∈ start.zone, zone.IsKnown) ∧ (2880 : Int) ≤ 2880 ∧
      ∃ s, ofExpression expression = .ok s ∧ s.KeepsCalendar start 2880 2880 ∧
        ∃ monthly weekly runs xs ys,
          ofExpression (spaced [m, h, d, mo, ['*']]) = .ok monthly ∧
          ofExpression (spaced [m, h, ['*'], mo, w]) = .ok weekly ∧
          s.nextRuns start 2880 2880 = .ok runs ∧
          monthly.nextRuns start 2880 2880 = .ok xs ∧
          weekly.nextRuns start 2880 2880 = .ok ys ∧ IsUnion runs xs ys := by
  intro expression m h d mo w zone start
  have hwords : words expression.toList = [m, h, d, mo, w] := by decide
  have hk : ∀ zone ∈ start.zone, zone.IsKnown := by decide
  have hok : (ofExpression expression).isOk = true := by decide +kernel
  obtain ⟨s, hs⟩ := exists_eq_ok_of_isOk hok
  have hkeeps : s.KeepsCalendar start 2880 2880 := by
    intro _ _
    refine ⟨⟨start.wall.micros + 60000000, by decide⟩,
      ⟨start.wall.micros + 60000000 + 14400000000, by decide⟩, by decide +kernel, ?_, ?_⟩
    · exact Zone.toUtc_eq_ok.2 (by decide +kernel)
    · exact staysInside_of_le (isKnown_getD hk).isSteady (by decide) (by decide)
  exact ⟨hwords, by decide, by decide, hk, Int.le_refl _, s, hs, hkeeps,
    nextRuns_isUnion hwords (by decide) (by decide) hs hk (Int.le_refl _) hkeeps⟩

end Cron.Schedule
