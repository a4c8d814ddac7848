import Cron.CommandLine.Run
import Cron.Proofs.Moment.Localize
import Cron.Proofs.Runs.Upcoming
import Cron.Proofs.Service.Asked

/-!
Runs from one instant, however it is given. Of the start that an instant is told as, no more is read
than its clocks and what they show. So a command, which takes the instant as a local wall time, and
a request, which takes it in UTC, come to the same runs.
-/
namespace Cron

namespace Moment

variable {home : Zone} {a b m run : Moment} {t w : WallTime} {second : Bool}

/-- Moments of one wall time on the same clocks. They may differ in the pass that is meant. -/
structure LookAlike (a b : Moment) : Prop where
  zone : a.zone = b.zone
  wall : a.wall = b.wall

-- Two days from the calendar's ends no year outside it is met.
theorem yearOutside?_eq_none (hs : home.rule.IsSteady) (h : home.Shows t w)
    (hlo : 172800000000 ≤ t.micros) (hhi : t.micros + 172800000000 ≤ calendarMicros)
    (second : Bool) : yearOutside? home.rule w second = none := by
  have hmicros := Zone.shows_iff.1 h
  have hbound := hs.bounded t.seconds
  have hcalendar : calendarMicros = 1000000 * calendarSeconds := by decide
  apply yearOutside?_of_bounds hs <;> simp only [WallTime.seconds] <;> omega

theorem toUtc_of_names_inside (hhome : home.IsKnown) (hz : ∀ zone ∈ m.zone, zone.IsKnown)
    (hlo : 172800000000 ≤ t.micros) (hhi : t.micros + 172800000000 ≤ calendarMicros)
    (h : m.Names home t) : m.toUtc home.rule = .ok t := by
  cases hzone : m.zone with
  | some zone => exact toUtc_of_names hzone (hz zone hzone) h
  | none =>
    rw [names_of_no_zone hzone] at h
    rw [toUtc, hzone]
    dsimp only
    rw [utcOfLocal_of_names hhome.isSteady h,
      yearOutside?_eq_none hhome.isSteady h.shows hlo hhi]

/-- Moments that name one instant are told to any clocks alike, or neither can be told. -/
theorem localize_lookAlike {target : Option Zone} (hhome : home.IsKnown)
    (ha : ∀ zone ∈ a.zone, zone.IsKnown) (hb : ∀ zone ∈ b.zone, zone.IsKnown)
    (htarget : ∀ zone ∈ target, zone.IsKnown) (hlo : 172800000000 ≤ t.micros)
    (hhi : t.micros + 172800000000 ≤ calendarMicros) (h : a.Names home t) (h' : b.Names home t) :
    (∃ start start', a.localize home.rule target = .ok start ∧
        b.localize home.rule target = .ok start' ∧ start.zone = target ∧
        start.LookAlike start') ∨
      a.localize home.rule target = .error .beyondRange ∧
        b.localize home.rule target = .error .beyondRange := by
  have hread := toUtc_of_names_inside hhome ha hlo hhi h
  have hread' := toUtc_of_names_inside hhome hb hlo hhi h'
  rcases localize_of_names ha htarget hread h with
    ⟨start, hstart, hzone, hshows, -⟩ | ⟨herror, hnone⟩
  · rcases localize_of_names hb htarget hread' h' with
      ⟨start', hstart', hzone', hshows', -⟩ | ⟨-, hnone⟩
    · exact .inl ⟨start, start', hstart, hstart', hzone, hzone.trans hzone'.symm,
        hshows.unique hshows'⟩
    · exact absurd hshows (hnone _)
  · rcases localize_of_names hb htarget hread' h' with ⟨start', -, -, hshows', -⟩ | ⟨herror', -⟩
    · exact absurd hshows' (hnone _)
    · exact .inr ⟨herror, herror'⟩

-- The pass that is meant does not matter where both moments have the same clocks.
theorem LookAlike.since_eq (h : a.LookAlike b) (hrun : run.zone = a.zone) :
    run.since a = run.since b := by
  rw [since_of_zone_eq hrun, since_of_zone_eq (hrun.trans h.zone), h.wall]

end Moment

variable {a b : Moment}

theorem showRun_eq_of_lookAlike {run : Moment} (h : a.LookAlike b) (hrun : run.zone = a.zone) :
    showRun run a = showRun run b := by
  rw [showRun, showRun, relativeLabel, relativeLabel, h.since_eq hrun]

theorem Schedule.nextRuns_eq_of_lookAlike (s : Schedule) (h : a.LookAlike b)
    (count minutes : Int) : s.nextRuns a count minutes = s.nextRuns b count minutes := by
  rw [nextRuns, nextRuns, h.zone, h.wall]

-- What is shown from a start on is shown from any that looks alike.
theorem Schedule.upcoming_eq_of_names {home : Zone} {now now' : Moment} {t : WallTime}
    (s : Schedule) (hhome : home.IsKnown) (hz : ∀ zone ∈ now.zone, zone.IsKnown)
    (hz' : ∀ zone ∈ now'.zone, zone.IsKnown) (hlo : 172800000000 ≤ t.micros)
    (hhi : t.micros + 172800000000 ≤ calendarMicros) (h : now.Names home t)
    (h' : now'.Names home t) (count minutes : Int) (label : String) :
    s.upcoming home.rule now count minutes label =
      s.upcoming home.rule now' count minutes label := by
  unfold upcoming
  cases hlabel : Zone.ofLabel label with
  | error fault => rw [error_bind, error_bind]
  | ok target =>
    rw [ok_bind, ok_bind]
    have htarget : ∀ zone ∈ target, zone.IsKnown := by
      rintro zone ⟨⟩
      exact Zone.isKnown_of_ofLabel label hlabel
    rcases Moment.localize_lookAlike hhome hz hz' htarget hlo hhi h h' with
      ⟨start, start', hstart, hstart', hzone, halike⟩ | ⟨herror, herror'⟩
    · rw [hstart, hstart', ok_bind, ok_bind, ← s.nextRuns_eq_of_lookAlike halike]
      rcases s.nextRuns_cases (hzone ▸ htarget) count minutes with
        ⟨-, runs, hruns, -, -, hclocks⟩ | ⟨-, herror⟩
      · rw [hruns, ok_bind, ok_bind]
        exact mapM_congr fun run hrun => showRun_eq_of_lookAlike halike (hclocks run hrun)
      · rw [herror, error_bind, error_bind]
    · rw [herror, herror', error_bind]

theorem CommandLine.next_number (machine : Machine) (settings : Settings) (expression : String)
    (n : Nat) (zone : Option String) :
    next machine settings expression (.number n) zone none =
      reportOf ((upcomingRuns machine.clocks expression machine.now n
        settings.scheduler.horizon.minutes (givenOr zone settings.scheduler.timezone)).map
          runText) := rfl

/-- Two moments that name one instant, two days or more from the calendar's ends, have the same
upcoming runs, or the same fault, whatever the local clocks are. So a command that is given one of
them and a request that is given the other show the same runs, of the same expression, count and
zone, or neither shows any. -/
theorem upcomingRuns_eq_of_names {home : Zone} {now now' : Moment} {t : WallTime}
    (hhome : home.IsKnown) (hz : ∀ zone ∈ now.zone, zone.IsKnown)
    (hz' : ∀ zone ∈ now'.zone, zone.IsKnown) (hlo : 172800000000 ≤ t.micros)
    (hhi : t.micros + 172800000000 ≤ calendarMicros) (h : now.Names home t)
    (h' : now'.Names home t) :
    (∀ expression count minutes label,
      upcomingRuns home.rule expression now count minutes label =
        upcomingRuns home.rule expression now' count minutes label) ∧
      ∀ (machine : CommandLine.Machine) (levels : Nat) (settings : Settings) (request : Request)
        (asked : Service.Asked) (n : Nat) (zone : Option String),
        Service.Asks levels request (.ok asked) →
        Service.countOf settings.scheduler asked.count = .ok n →
        Service.zoneOf settings.scheduler asked.zone =
          .ok (CommandLine.givenOr zone settings.scheduler.timezone) →
        (∃ shown page,
          CommandLine.next { machine with clocks := home.rule, now := now } settings
              asked.expression (.number n) zone none =
            .ok (.done (CommandLine.runText shown)) ∧
          Service.answerWithin levels settings home.rule now' request = .ok ⟨200, some page⟩ ∧
          page.member? "next_runs" = some (.list (shown.map ShownRun.toJson))) ∨
        (∃ fault, CommandLine.next { machine with clocks := home.rule, now := now } settings
            asked.expression (.number n) zone none = CommandLine.reportOf (.error fault)) ∧
          ∀ page,
            Service.answerWithin levels settings home.rule now' request ≠ .ok ⟨200, some page⟩ := by
  have hsame : ∀ expression count minutes label,
      upcomingRuns home.rule expression now count minutes label =
        upcomingRuns home.rule expression now' count minutes label := by
    intro expression count minutes label
    rw [upcomingRuns, upcomingRuns]
    congr 1
    funext s
    exact s.upcoming_eq_of_names hhome hz hz' hlo hhi h h' count minutes label
  refine ⟨hsame, ?_⟩
  intro machine levels settings request asked n zone hasks hcount hlabel
  have hanswer := Service.answer_upcomingRuns home.rule now' hasks hcount hlabel
  rw [CommandLine.next_number, hsame]
  cases hruns : upcomingRuns home.rule asked.expression now' n settings.scheduler.horizon.minutes
      (CommandLine.givenOr zone settings.scheduler.timezone) with
  | ok shown =>
    rw [hruns] at hanswer
    obtain ⟨page, hpage, hmember⟩ := hanswer
    exact .inl ⟨shown, page, rfl, hpage, hmember⟩
  | error fault =>
    rw [hruns] at hanswer
    exact .inr ⟨⟨fault, rfl⟩, hanswer⟩

/-- At half past one in the second pass, on the night that New York's clocks are set back: a
command there that takes the local wall time, and a request that takes UTC, for runs in Berlin. -/
theorem upcomingRuns_eq_of_names_new_york :
    let home : Zone := .region ⟨"America/New_York", Region.northAmerica (Region.hm (-5) 0)⟩
    let night := 86400 * Date.toDay ⟨2026, 11, 1⟩
    let t : WallTime := ⟨(night + 5400 + 18000) * 1000000, by decide⟩
    let now : Moment := ⟨⟨(night + 5400) * 1000000, by decide⟩, none, true⟩
    let now' : Moment := ⟨t, some .utc, false⟩
    let settings := Settings.initial "~/.cronscope"
    let machine : CommandLine.Machine :=
      ⟨⟨"/home/me", []⟩, "~/.cronscope", ⟨[]⟩, .constant 0, default, fun _ => .empty⟩
    let asked : Service.Asked := ⟨"0,59 * * * *", .text "3", .text "Europe/Berlin"⟩
    let request : Request := ⟨"GET", ⟨"/cron/next",
      [("expression", "0,59 * * * *"), ("count", "3"), ("timezone", "Europe/Berlin")]⟩, ""⟩
    home.IsKnown ∧ (∀ zone ∈ now.zone, zone.IsKnown) ∧ (∀ zone ∈ now'.zone, zone.IsKnown) ∧
      172800000000 ≤ t.micros ∧ t.micros + 172800000000 ≤ calendarMicros ∧ now.Names home t ∧
      now'.Names home t ∧ Service.Asks Service.maxDepth request (.ok asked) ∧
      Service.countOf settings.scheduler asked.count = .ok 3 ∧
      Service.zoneOf settings.scheduler asked.zone =
        .ok (CommandLine.givenOr (some "Europe/Berlin") settings.scheduler.timezone) ∧
      (∀ expression count minutes label,
        upcomingRuns home.rule expression now count minutes label =
          upcomingRuns home.rule expression now' count minutes label) ∧
      ((∃ shown page,
          CommandLine.next { machine with clocks := home.rule, now := now } settings
              asked.expression (.number (3 : Nat)) (some "Europe/Berlin") none =
            .ok (.done (CommandLine.runText shown)) ∧
          Service.answer settings home.rule now' request = .ok ⟨200, some page⟩ ∧
          page.member? "next_runs" = some (.list (shown.map ShownRun.toJson))) ∨
        (∃ fault, CommandLine.next { machine with clocks := home.rule, now := now } settings
            asked.expression (.number (3 : Nat)) (some "Europe/Berlin") none =
              CommandLine.reportOf (.error fault)) ∧
          ∀ page, Service.answer settings home.rule now' request ≠ .ok ⟨200, some page⟩) := by
  intro home night t now now' settings machine asked request
  have hhome : home.IsKnown := by decide
  have hutc : Zone.utc.IsKnown := trivial
  have hz : ∀ zone ∈ now.zone, zone.IsKnown := by
    rintro _ ⟨⟩
  have hz' : ∀ zone ∈ now'.zone, zone.IsKnown := by
    rintro _ ⟨⟩
    exact hutc
  have h : now.Names home t :=
    Moment.names_of_offset hhome (by decide +kernel) (by decide +kernel)
  have h' : now'.Names home t :=
    Moment.names_of_offset hutc (by decide +kernel) (by decide +kernel)
  have hasks : Service.Asks Service.maxDepth request (.ok asked) := by
    have hexpression : String.ofList (Text.trim ((Service.parameter? request
        "expression").getD "").toList) = "0,59 * * * *" := by decide +kernel
    have hcount : Service.parameter? request "count" = some "3" := by decide +kernel
    have hzone : Service.parameter? request "timezone" = some "Europe/Berlin" := by decide +kernel
    have hqueried : Service.Asked.queried request = .ok asked := by
      rw [Service.Asked.queried, hexpression, hcount, hzone]
      exact if_neg (by decide)
    have hroute : Service.Route.ofRequest request = .ok .next := by decide +kernel
    exact hqueried ▸ .next hroute
  have hcount : Service.countOf settings.scheduler asked.count = .ok 3 := rfl
  have hlabel : Service.zoneOf settings.scheduler asked.zone =
      .ok (CommandLine.givenOr (some "Europe/Berlin") settings.scheduler.timezone) := rfl
  have hlo : 172800000000 ≤ t.micros := by decide +kernel
  have hhi : t.micros + 172800000000 ≤ calendarMicros := by decide +kernel
  have hboth := upcomingRuns_eq_of_names hhome hz hz' hlo hhi h h'
  exact ⟨hhome, hz, hz', hlo, hhi, h, h', hasks, hcount, hlabel, hboth.1,
    hboth.2 machine Service.maxDepth settings request asked 3 (some "Europe/Berlin") hasks hcount
      hlabel⟩

end Cron
