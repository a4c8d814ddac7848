import Cron.Proofs.Runs.Waiting
import Cron.Proofs.Schedule.Breakdown
import Cron.Session

/-!
Sessions, one step after another. A step that fails changes nothing. Any other leaves the session as
it is, or puts in a schedule that was read, or moves the cursor: where it is told to, to the last of
the runs found, or to other clocks. So the schedule of a session is always one that was read, and
can be shown, and the clocks of the cursor are always known ones.
-/
namespace Cron.Session

variable {clocks : ClockRule} {session after : Session} {s : Step} {steps : List Step}
  {fault : Fault} {finding : Finding}

/-- Steps that ask for something and change nothing. -/
def Step.asks : Step → Bool
  | hits | weekday | get _ | admits _ _ | describe | relative _ => true
  | _ => false

/-- What a step makes of a session if it does not fail. To set a field is not among these steps. -/
inductive Moves (clocks : ClockRule) (session : Session) : Step → Session → Prop
  | asks {s : Step} (h : s.asks = true) : Moves clocks session s session
  | uses {expression : String} {schedule : Schedule}
    (h : Schedule.ofExpression expression = .ok schedule) :
    Moves clocks session (.use expression) (session.withSchedule schedule)
  | builds {fields : List (String × Json)} {expression : String} {schedule : Schedule}
    (hbuild : Schedule.buildGiven fields = .ok expression)
    (h : Schedule.ofExpression expression = .ok schedule) :
    Moves clocks session (.build fields) (session.withSchedule schedule)
  | seeks (m : Moment) : Moves clocks session (.seek m) (session.withCursor m)
  | finds {count minutes : Int} {found : List Moment} (h : session.runs count minutes = .ok found) :
    Moves clocks session (.next count minutes)
      { session with cursor := found.getLast?.or session.cursor }
  | tells {label : String} {target : Option Zone} {cursor m : Moment}
    (htarget : Zone.ofLabel label = .ok target) (hcursor : session.cursor = some cursor)
    (h : cursor.localize clocks target = .ok m) :
    Moves clocks session (.localize label) (session.withCursor m)

theorem present_eq_ok_iff {α : Type} {x : Option α} {a : α} :
    present fault x = .ok a ↔ x = some a := by
  cases x <;> simp [present]

theorem moves_of_step (h : session.step clocks s = .ok (after, finding)) :
    Moves clocks session s after := by
  cases s with
  | use expression =>
    obtain ⟨schedule, hread, h⟩ := bind_eq_ok_iff.1 h
    cases h
    exact .uses hread
  | build fields =>
    obtain ⟨expression, hbuild, h⟩ := bind_eq_ok_iff.1 h
    obtain ⟨schedule, hread, h⟩ := bind_eq_ok_iff.1 h
    cases h
    exact .builds hbuild hread
  | seek m =>
    cases h
    exact .seeks m
  | next count minutes =>
    obtain ⟨found, hfound, h⟩ := bind_eq_ok_iff.1 h
    cases h
    exact .finds hfound
  | localize label =>
    obtain ⟨target, htarget, h⟩ := bind_eq_ok_iff.1 h
    obtain ⟨cursor, hcursor, h⟩ := bind_eq_ok_iff.1 h
    obtain ⟨m, hm, h⟩ := bind_eq_ok_iff.1 h
    cases h
    exact .tells htarget (present_eq_ok_iff.1 hcursor) hm
  | hits =>
    obtain ⟨schedule, -, h⟩ := bind_eq_ok_iff.1 h
    obtain ⟨cursor, -, h⟩ := bind_eq_ok_iff.1 h
    cases h
    exact .asks rfl
  | weekday =>
    obtain ⟨cursor, -, h⟩ := bind_eq_ok_iff.1 h
    cases h
    exact .asks rfl
  | get name =>
    obtain ⟨field, -, h⟩ := bind_eq_ok_iff.1 h
    cases h
    exact .asks rfl
  | admits name value =>
    obtain ⟨field, -, h⟩ := bind_eq_ok_iff.1 h
    cases h
    exact .asks rfl
  | set name =>
    obtain ⟨schedule, -, h⟩ := bind_eq_ok_iff.1 h
    cases h
  | describe =>
    obtain ⟨schedule, -, h⟩ := bind_eq_ok_iff.1 h
    obtain ⟨sentence, -, h⟩ := bind_eq_ok_iff.1 h
    cases h
    exact .asks rfl
  | relative run =>
    obtain ⟨cursor, -, h⟩ := bind_eq_ok_iff.1 h
    obtain ⟨label, -, h⟩ := bind_eq_ok_iff.1 h
    cases h
    exact .asks rfl

/-- A step fails and changes nothing, or does not fail and moves the session. -/
theorem perform_cases (clocks : ClockRule) (session : Session) (s : Step) :
    (∃ fault, session.perform clocks s = (session, .error fault)) ∨
      ∃ after finding, session.perform clocks s = (after, .ok finding) ∧
        Moves clocks session s after := by
  unfold perform
  cases hstep : session.step clocks s with
  | error fault => exact .inl ⟨fault, rfl⟩
  | ok result => exact .inr ⟨result.1, result.2, rfl, moves_of_step hstep⟩

/-! What holds after each step, and so after all of them. -/

/-- The schedule of a session was read, and the clocks of its cursor are known. -/
structure IsKept (session : Session) : Prop where
  schedule : ∀ schedule ∈ session.schedule, schedule.IsSound ∧
    Schedule.ofExpression schedule.expression = .ok schedule
  cursor : ∀ m ∈ session.cursor, ∀ zone ∈ m.zone, zone.IsKnown

/-- A step that goes nowhere but to known clocks. -/
def Step.IsKnown : Step → Prop
  | seek m => ∀ zone ∈ m.zone, zone.IsKnown
  | _ => True

theorem isKept_start : start.IsKept where
  schedule _ h := by cases h
  cursor _ h := by cases h

theorem IsKept.zone_of_runs {count minutes : Int} {found : List Moment} {run : Moment}
    (h : session.IsKept) (hfound : session.runs count minutes = .ok found) (hrun : run ∈ found) :
    ∃ cursor, session.cursor = some cursor ∧ run.zone = cursor.zone ∧
      cursor.wall.micros < run.wall.micros := by
  unfold runs at hfound
  split at hfound
  · cases hfound
    cases hrun
  · obtain ⟨schedule, -, hfound⟩ := bind_eq_ok_iff.1 hfound
    obtain ⟨cursor, hcursor, hfound⟩ := bind_eq_ok_iff.1 hfound
    have hcursor := present_eq_ok_iff.1 hcursor
    have hzone := h.cursor cursor hcursor
    exact ⟨cursor, hcursor, (Schedule.ascending_nextRuns hzone hfound).1 run hrun⟩

theorem IsKept.withSchedule {expression : String} {schedule : Schedule} (h : session.IsKept)
    (hread : Schedule.ofExpression expression = .ok schedule) :
    (session.withSchedule schedule).IsKept := by
  refine ⟨?_, h.cursor⟩
  rintro _ ⟨⟩
  obtain ⟨text, hparse⟩ := Schedule.exists_parse_of_ofExpression hread
  exact ⟨Schedule.isSound_of_parse hparse, (Schedule.ofExpression_expression hread).1⟩

theorem IsKept.moves (h : session.IsKept) (hknown : s.IsKnown)
    (hmoves : Moves clocks session s after) : after.IsKept := by
  cases hmoves with
  | asks => exact h
  | uses hread => exact h.withSchedule hread
  | builds _ hread => exact h.withSchedule hread
  | seeks m =>
    refine ⟨h.schedule, ?_⟩
    rintro _ ⟨⟩
    exact hknown
  | finds hfound =>
    refine ⟨h.schedule, fun m hm => ?_⟩
    rcases Option.or_eq_some_iff.1 hm with hlast | ⟨-, hcursor⟩
    · obtain ⟨cursor, hcursor, hzone, -⟩ := h.zone_of_runs hfound (List.mem_of_getLast? hlast)
      rw [hzone]
      exact h.cursor cursor hcursor
    · exact h.cursor m hcursor
  | tells htarget hcursor hlocal =>
    refine ⟨h.schedule, ?_⟩
    rintro _ ⟨⟩
    refine Moment.isKnown_of_localize (h.cursor _ hcursor) ?_ hlocal
    rintro zone ⟨⟩
    exact Zone.isKnown_of_ofLabel _ htarget

theorem IsKept.perform (h : session.IsKept) (hknown : s.IsKnown) :
    (session.perform clocks s).1.IsKept := by
  obtain ⟨fault, hsame⟩ | ⟨after, finding, hmoved, hmoves⟩ := perform_cases clocks session s
  · rw [hsame]
    exact h
  · rw [hmoved]
    exact h.moves hknown hmoves

theorem IsKept.run (h : session.IsKept) (hknown : ∀ s ∈ steps, s.IsKnown) :
    (session.run clocks steps).1.IsKept := by
  induction steps generalizing session with
  | nil => exact h
  | cons s rest ih =>
    exact ih (h.perform (hknown s List.mem_cons_self))
      fun s hs => hknown s (List.mem_cons_of_mem _ hs)

/-- After steps that go to known clocks, the schedule is the reading of its own expression, so that
to use that once more changes nothing, and it is described in full. -/
theorem run_describes (hknown : ∀ s ∈ steps, s.IsKnown) {schedule : Schedule}
    (h : (start.run clocks steps).1.schedule = some schedule) :
    (start.run clocks steps).1.perform clocks (.use schedule.expression) =
        ((start.run clocks steps).1, .ok (.text schedule.expression)) ∧
      (start.run clocks steps).1.perform clocks .describe =
        ((start.run clocks steps).1, .ok (.text schedule.sentence)) := by
  have hkept : (start.run clocks steps).1.IsKept := isKept_start.run hknown
  generalize (start.run clocks steps).1 = last at h hkept
  obtain ⟨hsound, hread⟩ := hkept.schedule schedule h
  have hsame : last.withSchedule schedule = last := by rw [withSchedule, ← h]
  constructor
  · rw [perform, step, hread, ok_bind, hsame]
  · rw [perform, step, h]
    dsimp only [present, bind, Except.bind]
    rw [hsound.sentence?_eq]

theorem IsKept.exists_cursor_next (h : session.IsKept) {cursor : Moment}
    (hcursor : session.cursor = some cursor) (count minutes : Int) :
    ∃ m, (session.perform clocks (.next count minutes)).1.cursor = some m ∧
      m.zone = cursor.zone ∧ cursor.wall.micros ≤ m.wall.micros := by
  obtain ⟨fault, hsame⟩ | ⟨after, finding, hmoved, hmoves⟩ :=
    perform_cases clocks session (.next count minutes)
  · rw [hsame]
    exact ⟨cursor, hcursor, rfl, Nat.le_refl _⟩
  · rw [hmoved]
    cases hmoves with
    | asks hasks => cases hasks
    | @finds _ _ found hfound =>
      cases hlast : found.getLast? with
      | none => exact ⟨cursor, hcursor, rfl, Nat.le_refl _⟩
      | some run =>
        obtain ⟨cursor', hcursor', hzone, hlt⟩ :=
          h.zone_of_runs hfound (List.mem_of_getLast? hlast)
        cases hcursor.symm.trans hcursor'
        exact ⟨run, rfl, hzone, Nat.le_of_lt hlt⟩

/-- Steps that look for runs one after the other keep the clocks of the cursor, and never turn it
back. -/
theorem IsKept.run_next (h : session.IsKept) (hnext : ∀ s ∈ steps, ∃ n k, s = .next n k)
    {cursor : Moment} (hcursor : session.cursor = some cursor) :
    ∃ last, (session.run clocks steps).1.cursor = some last ∧ last.zone = cursor.zone ∧
      cursor.wall.micros ≤ last.wall.micros := by
  induction steps generalizing session cursor with
  | nil => exact ⟨cursor, hcursor, rfl, Nat.le_refl _⟩
  | cons s rest ih =>
    obtain ⟨count, minutes, rfl⟩ := hnext s List.mem_cons_self
    obtain ⟨m, hm, hzone, hle⟩ := h.exists_cursor_next hcursor count minutes
    have hkept : (session.perform clocks (.next count minutes)).1.IsKept := h.perform trivial
    obtain ⟨last, hlast, hzone', hle'⟩ :=
      ih hkept (fun s hs => hnext s (List.mem_cons_of_mem _ hs)) hm
    exact ⟨last, hlast, hzone'.trans hzone, Nat.le_trans hle hle'⟩

/-! Steps that fail can be left out. -/

/-- Those of some steps that do not fail, when all are taken one after another. -/
def succeeding (clocks : ClockRule) (session : Session) : List Step → List Step
  | [] => []
  | s :: rest =>
    let (after, found) := session.perform clocks s
    if found.isOk then s :: succeeding clocks after rest else succeeding clocks after rest

/-- Without the steps that fail, a session ends the same, and the others find the same. -/
theorem run_succeeding (clocks : ClockRule) (session : Session) (steps : List Step) :
    session.run clocks (session.succeeding clocks steps) =
      ((session.run clocks steps).1, (session.run clocks steps).2.filter (·.isOk)) := by
  induction steps generalizing session with
  | nil => rfl
  | cons s rest ih =>
    rw [succeeding, run]
    obtain ⟨fault, hsame⟩ | ⟨after, finding, hmoved, -⟩ := perform_cases clocks session s
    · rw [hsame]
      exact ih session
    · rw [hmoved]
      change run clocks session (s :: succeeding clocks after rest) = _
      rw [run, hmoved]
      dsimp only
      rw [ih after]
      rfl

end Cron.Session
