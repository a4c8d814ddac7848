import Cron.Proofs.Readings
import Cron.Proofs.Schedule.Breakdown
import Cron.Proofs.Text.Blanks
import Cron.Service.Basic

/-!
What a request for runs asks for. One route finds it in the body and the other in the address; from
there on both look for the same runs, and differ only in the page that they make of them.
-/
namespace Cron.Service

/-- What a request for runs asks for: an expression, and a count and a zone, null where it names
none. -/
structure Asked where
  expression : String
  count : Json
  zone : Json

namespace Asked

def ofBody (body : Json) : Except Failure Asked := do
  let expression ← expressionOf body
  .ok ⟨expression, (body.member? "count").getD .null, (body.member? "timezone").getD .null⟩

def posted (levels : Nat) (request : Request) : Except Failure Asked :=
  bodyOf levels request >>= ofBody

def queried (request : Request) : Except Failure Asked :=
  let expression := String.ofList (Text.trim ((parameter? request "expression").getD "").toList)
  if expression.isEmpty then .error (refusal "Missing required parameter: expression")
  else
    .ok ⟨expression, ((parameter? request "count").map Json.text).getD .null,
      ((parameter? request "timezone").map Json.text).getD .null⟩

/-- The schedule that is asked about, and its runs. -/
def find (settings : Settings) (clocks : ClockRule) (now : Moment) (asked : Asked) :
    Except Failure (Schedule × Json) := do
  let s ← scheduleOf asked.expression
  let runs ← runsOf settings clocks now s asked.count asked.zone
  .ok (s, runs)

def fullPage (asked : Asked) (found : Schedule × Json) : Json :=
  .object
    [("expression", .text asked.expression),
     ("normalized", .text found.1.expression),
     ("description", .text found.1.sentence),
     ("breakdown", .list (found.1.breakdown.map Schedule.Row.toJson)),
     ("next_runs", found.2)]

def runsPage (asked : Asked) (found : Schedule × Json) : Json :=
  .object [("expression", .text asked.expression), ("next_runs", found.2)]

end Asked

/-- A request to one of the two routes for runs, with its reading: what it asks for, or why it
asks for nothing. A body is read where the stack has room for `levels` values in each other. -/
inductive Asks (levels : Nat) (request : Request) : Except Failure Asked → Prop
  | explain (h : Route.ofRequest request = .ok .explain) :
    Asks levels request (Asked.posted levels request)
  | next (h : Route.ofRequest request = .ok .next) : Asks levels request (Asked.queried request)

variable {levels : Nat} {settings : Settings} {clocks : ClockRule} {now : Moment}
  {request : Request}

theorem expressionOf_text {body : Json} {expression : String}
    (h : body.member? "expression" = some (.text expression))
    (hblank : ∃ c ∈ expression.toList, Text.isBlank c = false) :
    expressionOf body = .ok expression := by
  have hne : expression.isEmpty = false := by
    rw [← Bool.not_eq_true, String.isEmpty_iff]
    rintro rfl
    simp at hblank
  have htrim : (Text.trim expression.toList).isEmpty = false :=
    List.isEmpty_eq_false_iff.2 (Text.trim_ne_nil hblank)
  unfold expressionOf
  rw [h]
  show (if (expression.isEmpty || (Text.trim expression.toList).isEmpty) = true then _ else _) = _
  rw [hne, htrim]
  rfl

theorem Asked.posted_eq {body : Json} {expression : String}
    (hread : Json.read levels request.body = .ok body)
    (hexpression : body.member? "expression" = some (.text expression))
    (hblank : ∃ c ∈ expression.toList, Text.isBlank c = false) :
    posted levels request = .ok ⟨expression, (body.member? "count").getD .null,
      (body.member? "timezone").getD .null⟩ := by
  have hbody : bodyOf levels request = .ok body := by rw [bodyOf, hread]
  rw [posted, hbody, ok_bind, ofBody, expressionOf_text hexpression hblank, ok_bind]

theorem refusing_eq_ok {α : Type} {x : Except Fault α} {a : α} :
    refusing x = .ok a ↔ x = .ok a := by
  unfold refusing
  split <;> simp

theorem scheduleOf_eq_ok_iff {expression : String} {s : Schedule} :
    scheduleOf expression = .ok s ↔ Schedule.ofExpression expression = .ok s := by
  rcases h : Schedule.ofExpression expression with fault | t
  · cases fault <;> simp [scheduleOf, h]
  · simp [scheduleOf, h]

theorem explain_eq : explain levels settings clocks now request = (do
    let asked ← Asked.posted levels request
    let found ← asked.find settings clocks now
    .ok (asked.fullPage found)) := by
  simp only [explain, Asked.posted, Asked.ofBody, Asked.find, Asked.fullPage, bind_assoc, ok_bind]
  refine bind_congr fun body => bind_congr fun expression => bind_congr_of_eq_ok fun s hs => ?_
  -- The schedule was read, so its sentence and its rows are there.
  obtain ⟨text, hparse⟩ := Schedule.exists_parse_of_ofExpression (scheduleOf_eq_ok_iff.1 hs)
  have hsound := Schedule.isSound_of_parse hparse
  rw [hsound.sentence?_eq, hsound.breakdown?_eq]
  rfl

theorem next_eq : next settings clocks now request = (do
    let asked ← Asked.queried request
    let found ← asked.find settings clocks now
    .ok (asked.runsPage found)) := by
  unfold next Asked.queried
  dsimp only
  split
  · rfl
  · simp only [Asked.find, Asked.runsPage, bind_assoc, ok_bind]

/-- A request for runs is answered by the page that its route makes of what it finds. Either page
holds the runs. -/
theorem Asks.exists_answer_eq {asked : Except Failure Asked} (h : Asks levels request asked)
    (settings : Settings) (clocks : ClockRule) (now : Moment) :
    ∃ page : Asked → Schedule × Json → Json,
      (∀ asked found, (page asked found).member? "next_runs" = some found.2) ∧
      answerWithin levels settings clocks now request = respond (do
        let asked ← asked
        let found ← asked.find settings clocks now
        .ok (page asked found)) := by
  cases h with
  | explain h =>
    refine ⟨Asked.fullPage, fun _ _ => rfl, ?_⟩
    rw [answerWithin, h, ← explain_eq]
  | next h =>
    refine ⟨Asked.runsPage, fun _ _ => rfl, ?_⟩
    rw [answerWithin, h, ← next_eq]

theorem respond_eq_page {x : Except Failure Json} {page : Json} :
    respond x = .ok ⟨200, some page⟩ ↔ x = .ok page := by
  cases x with
  | ok body => simp [respond]
  | error failure => cases failure <;> simp [respond]

-- The other pages hold no runs.
theorem exists_asks {page runs : Json}
    (hanswer : answerWithin levels settings clocks now request = .ok ⟨200, some page⟩)
    (hruns : page.member? "next_runs" = some runs) : ∃ asked, Asks levels request asked := by
  cases hroute : Route.ofRequest request with
  | error status =>
    rw [answerWithin, hroute] at hanswer
    cases hanswer
  | ok route =>
    cases route with
    | health =>
      rw [answerWithin, hroute] at hanswer
      cases hanswer
      cases hruns
    | explain => exact ⟨_, .explain hroute⟩
    | next => exact ⟨_, .next hroute⟩

/-- A page of runs holds what was found. -/
theorem Asks.exists_find_eq {asked : Except Failure Asked} {page : Json}
    (h : Asks levels request asked)
    (hanswer : answerWithin levels settings clocks now request = .ok ⟨200, some page⟩) :
    ∃ a found, asked = .ok a ∧ a.find settings clocks now = .ok found ∧
      page.member? "next_runs" = some found.2 := by
  obtain ⟨make, hmake, heq⟩ := h.exists_answer_eq settings clocks now
  rw [heq, respond_eq_page] at hanswer
  obtain ⟨a, hasked, hpage⟩ := bind_eq_ok_iff.1 hanswer
  obtain ⟨found, hfound, hpage⟩ := bind_eq_ok_iff.1 hpage
  cases hpage
  exact ⟨a, found, hasked, hfound, hmake a found⟩

/-- What is found was looked for with the count and the zone that the request gets. -/
theorem Asked.find_eq_ok_iff {asked : Asked} {found : Schedule × Json} :
    asked.find settings clocks now = .ok found ↔
      ∃ n label shown, scheduleOf asked.expression = .ok found.1 ∧
        countOf settings.scheduler asked.count = .ok n ∧
        zoneOf settings.scheduler asked.zone = .ok label ∧
        found.1.upcoming clocks now n settings.scheduler.horizon.minutes label = .ok shown ∧
        found.2 = .list (shown.map ShownRun.toJson) := by
  constructor
  · intro h
    obtain ⟨s, hs, h⟩ := bind_eq_ok_iff.1 h
    obtain ⟨runs, hruns, h⟩ := bind_eq_ok_iff.1 h
    obtain ⟨n, hcount, hruns⟩ := bind_eq_ok_iff.1 hruns
    obtain ⟨label, hzone, hruns⟩ := bind_eq_ok_iff.1 hruns
    obtain ⟨shown, hshown, hruns⟩ := bind_eq_ok_iff.1 hruns
    cases hruns
    cases h
    exact ⟨n, label, shown, hs, hcount, hzone, refusing_eq_ok.1 hshown, rfl⟩
  · rintro ⟨n, label, shown, hs, hcount, hzone, hshown, hruns⟩
    rw [find, hs, ok_bind, runsOf, hcount, ok_bind, hzone, ok_bind, refusing_eq_ok.2 hshown,
      ok_bind, ok_bind, ← hruns]

-- A request finds the runs that the program shows for what it asks.
theorem Asked.exists_find_iff {asked : Asked} {runs : Json} {label : String} {n : Nat}
    (hcount : countOf settings.scheduler asked.count = .ok n)
    (hlabel : zoneOf settings.scheduler asked.zone = .ok label) :
    (∃ s, asked.find settings clocks now = .ok (s, runs)) ↔
      ∃ shown, upcomingRuns clocks asked.expression now n settings.scheduler.horizon.minutes
          label = .ok shown ∧ runs = .list (shown.map ShownRun.toJson) := by
  simp only [find_eq_ok_iff, upcomingRuns, bind_eq_ok_iff, scheduleOf_eq_ok_iff, hcount, hlabel,
    Except.ok.injEq]
  constructor
  · rintro ⟨s, _, _, shown, hs, rfl, rfl, hshown, hruns⟩
    exact ⟨shown, ⟨s, hs, hshown⟩, hruns⟩
  · rintro ⟨shown, ⟨s, hs, hshown⟩, hruns⟩
    exact ⟨s, n, label, shown, hs, rfl, rfl, hshown, hruns⟩

-- A request that gets some runs is answered by a page that holds them, and is answered by no page
-- if there is no telling which runs there are.
theorem answer_upcomingRuns {asked : Asked} {label : String} {n : Nat} (clocks : ClockRule)
    (now : Moment) (hasks : Asks levels request (.ok asked))
    (hcount : countOf settings.scheduler asked.count = .ok n)
    (hlabel : zoneOf settings.scheduler asked.zone = .ok label) :
    match upcomingRuns clocks asked.expression now n settings.scheduler.horizon.minutes label with
    | .ok shown => ∃ page, answerWithin levels settings clocks now request = .ok ⟨200, some page⟩ ∧
        page.member? "next_runs" = some (.list (shown.map ShownRun.toJson))
    | .error _ =>
      ∀ page, answerWithin levels settings clocks now request ≠ .ok ⟨200, some page⟩ := by
  obtain ⟨make, hmake, heq⟩ := hasks.exists_answer_eq settings clocks now
  split
  · next shown hshown =>
    obtain ⟨s, hs⟩ := (Asked.exists_find_iff hcount hlabel).2 ⟨shown, hshown, rfl⟩
    refine ⟨make asked (s, .list (shown.map ShownRun.toJson)), ?_, hmake _ _⟩
    rw [heq, ok_bind, hs, ok_bind]
    rfl
  · next fault hfault =>
    intro page hpage
    obtain ⟨a, found, ha, hfound, -⟩ := hasks.exists_find_eq hpage
    cases ha
    obtain ⟨shown, hshown, -⟩ := (Asked.exists_find_iff hcount hlabel).1 ⟨found.1, hfound⟩
    rw [hfault] at hshown
    cases hshown

end Cron.Service
