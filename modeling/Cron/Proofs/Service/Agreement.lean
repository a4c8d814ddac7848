import Cron.Proofs.Schedule.Normal
import Cron.Proofs.Service.Asked

/-!
The two routes for runs agree. One cuts off the blanks around an expression and the other does not,
but an expression is read by its words; and both look at its parts in the same order, so that the
same part is found at fault first.
-/
namespace Cron.Service

/-- Texts to ask for runs with: an expression, and a count and a zone if they are given. -/
structure Inquiry where
  expression : String
  count : Option String
  zone : Option String

namespace Inquiry

/-- A request that gives the texts in its body; what is not given may stand there as null. -/
def IsPosted (levels : Nat) (inquiry : Inquiry) (request : Request) : Prop :=
  Route.ofRequest request = .ok .explain ∧
    ∃ body, Json.read levels request.body = .ok body ∧
      body.member? "expression" = some (.text inquiry.expression) ∧
      (body.member? "count").getD .null = (inquiry.count.map Json.text).getD .null ∧
      (body.member? "timezone").getD .null = (inquiry.zone.map Json.text).getD .null

/-- A request that gives the texts in its address. -/
def IsQueried (inquiry : Inquiry) (request : Request) : Prop :=
  Route.ofRequest request = .ok .next ∧
    parameter? request "expression" = some inquiry.expression ∧
    parameter? request "count" = inquiry.count ∧ parameter? request "timezone" = inquiry.zone

/-- What the texts ask for, with the expression as one of the routes takes it. -/
def asked (inquiry : Inquiry) (expression : String) : Asked :=
  ⟨expression, (inquiry.count.map Json.text).getD .null, (inquiry.zone.map Json.text).getD .null⟩

end Inquiry

/-- Answers that agree: pages with the same runs, the same refusal, or the same fault. -/
inductive Agree : Except Fault Response → Except Fault Response → Prop
  | found {page page' runs : Json} (h : page.member? "next_runs" = some runs)
    (h' : page'.member? "next_runs" = some runs) :
    Agree (.ok ⟨200, some page⟩) (.ok ⟨200, some page'⟩)
  | refused (body : Json) : Agree (.ok ⟨400, some body⟩) (.ok ⟨400, some body⟩)
  | fault (fault : Fault) : Agree (.error fault) (.error fault)

variable {levels : Nat} {inquiry : Inquiry} {post get : Request}

theorem Inquiry.IsPosted.asks (h : inquiry.IsPosted levels post)
    (hblank : ∃ c ∈ inquiry.expression.toList, Text.isBlank c = false) :
    Asks levels post (.ok (inquiry.asked inquiry.expression)) := by
  obtain ⟨hroute, body, hread, hexpression, hcount, hzone⟩ := h
  have hposted : Asked.posted levels post = .ok (inquiry.asked inquiry.expression) := by
    rw [Asked.posted_eq hread hexpression hblank, hcount, hzone]
    rfl
  exact hposted ▸ .explain hroute

theorem Inquiry.IsQueried.asks (h : inquiry.IsQueried get)
    (hblank : ∃ c ∈ inquiry.expression.toList, Text.isBlank c = false) :
    Asks levels get
      (.ok (inquiry.asked (String.ofList (Text.trim inquiry.expression.toList)))) := by
  obtain ⟨hroute, hexpression, hcount, hzone⟩ := h
  have hne : (String.ofList (Text.trim inquiry.expression.toList)).isEmpty = false := by
    rw [← Bool.not_eq_true, String.isEmpty_iff, ← String.toList_eq_nil_iff, String.toList_ofList]
    exact Text.trim_ne_nil hblank
  have hqueried : Asked.queried get =
      .ok (inquiry.asked (String.ofList (Text.trim inquiry.expression.toList))) := by
    rw [Asked.queried, hexpression, hcount, hzone]
    exact if_neg (by simp [hne])
  exact hqueried ▸ .next hroute

-- An inquiry finds the same with its expression cut off.
theorem Inquiry.find_trim (inquiry : Inquiry) (settings : Settings) (clocks : ClockRule)
    (now : Moment) :
    (inquiry.asked (String.ofList (Text.trim inquiry.expression.toList))).find settings clocks now =
      (inquiry.asked inquiry.expression).find settings clocks now := by
  have hschedule : scheduleOf (String.ofList (Text.trim inquiry.expression.toList)) =
      scheduleOf inquiry.expression := by
    rw [scheduleOf, scheduleOf, Schedule.ofExpression_trim]
  unfold asked Asked.find
  rw [hschedule]

/-- The same texts, given in a body to one route and in an address to the other, are answered
alike, if the expression is not blank. -/
theorem agree_answer (settings : Settings) (clocks : ClockRule) (now : Moment)
    (hpost : inquiry.IsPosted levels post) (hget : inquiry.IsQueried get)
    (hblank : ∃ c ∈ inquiry.expression.toList, Text.isBlank c = false) :
    Agree (answerWithin levels settings clocks now post)
      (answerWithin levels settings clocks now get) := by
  obtain ⟨page, hpage, hanswer⟩ := (hpost.asks hblank).exists_answer_eq settings clocks now
  obtain ⟨page', hpage', hanswer'⟩ := (hget.asks hblank).exists_answer_eq settings clocks now
  rw [hanswer, hanswer', ok_bind, ok_bind, inquiry.find_trim]
  cases (inquiry.asked inquiry.expression).find settings clocks now with
  | ok found => exact .found (hpage _ found) (hpage' _ found)
  | error failure =>
    cases failure with
    | refused body => exact .refused body
    | fault fault => exact .fault fault

/-- Two runs on weekdays at nine, with blanks around the expression. -/
theorem agree_answer_weekdays :
    let settings := Settings.initial "~/.cronscope"
    let clocks : ClockRule := .constant 0
    let now : Moment := default
    let inquiry : Inquiry := ⟨" 0 9 * * MON-FRI ", some "2", none⟩
    let post : Request := ⟨"POST", ⟨"/cron/explain", []⟩,
      "\x7b\x22expression\x22: \x22 0 9 * * MON-FRI \x22, \x22count\x22: \x222\x22\x7d"⟩
    let get : Request :=
      ⟨"GET", ⟨"/cron/next", [("expression", " 0 9 * * MON-FRI "), ("count", "2")]⟩, ""⟩
    inquiry.IsPosted maxDepth post ∧ inquiry.IsQueried get ∧
      (∃ c ∈ inquiry.expression.toList, Text.isBlank c = false) ∧
      Agree (answer settings clocks now post) (answer settings clocks now get) := by
  intro settings clocks now inquiry post get
  have hpost : inquiry.IsPosted maxDepth post := by
    have hread : Json.read maxDepth post.body = .ok (.object
        [("expression", .text " 0 9 * * MON-FRI "), ("count", .text "2")]) := by
      cbv
    exact ⟨by decide +kernel, _, hread, rfl, rfl, rfl⟩
  have hget : inquiry.IsQueried get :=
    ⟨by decide +kernel, by decide +kernel, by decide +kernel, by decide +kernel⟩
  have hblank : ∃ c ∈ inquiry.expression.toList, Text.isBlank c = false :=
    ⟨'0', by decide +kernel, by decide +kernel⟩
  exact ⟨hpost, hget, hblank, agree_answer settings clocks now hpost hget hblank⟩

end Cron.Service
