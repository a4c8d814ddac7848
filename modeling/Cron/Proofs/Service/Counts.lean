import Cron.Proofs.Number.Rounding
import Cron.Proofs.Runs.Bounds
import Cron.Proofs.Runs.Upcoming
import Cron.Proofs.Service.Asked

/-!
The counts that requests give. What a value means is said by its kind: an integer, or a text or a
number that is one, means that integer, and null and the empty text the default. The reading of a
count agrees with it on all values but two kinds: the infinite numbers, at which it is at fault, and
numbers with a fraction, which it cuts off, so that a number above `-1` passes for an integer.
-/
namespace Cron

/-- The number that a finite number is. -/
def Number.Real.value? : Number.Real → Option ℚ
  | .finite negative size => some (if negative then -size.value else size.value)
  | _ => none

namespace Service

/-- How many runs a value given as the count means. -/
inductive Means (scheduler : SchedulerSettings) : Json → Nat → Prop
  | null : Means scheduler .null scheduler.defaultCount
  | empty : Means scheduler (.text "") scheduler.defaultCount
  | int (n : Nat) : Means scheduler (.int n) (min n scheduler.maxCount)
  | text {s : String} {n : Nat} (h : Text.readInteger s.toList = .ok n) :
    Means scheduler (.text s) (min n scheduler.maxCount)
  | real {x : Number.Real} {n : Nat} (h : x.value? = some n) :
    Means scheduler (.real x) (min n scheduler.maxCount)

/-- The values whose reading is not what they mean: the infinite numbers, and those with a fraction
that lie above `-1`. -/
inductive IsMisread : Json → Prop
  | infinite (negative : Bool) : IsMisread (.real (.infinite negative))
  | fraction {x : Number.Real} {q : ℚ} (hvalue : x.value? = some q) (hlow : -1 < q)
    (hfraction : ∀ i : Int, q ≠ i) : IsMisread (.real x)

variable {scheduler : SchedulerSettings} {v : Json} {n : Nat} {x : Number.Real} {q : ℚ}

/-! Real numbers are read towards zero. -/

theorem readCount_of_value? (h : x.value? = some q) :
    readCount (.real x) = .ok (Number.towardZero q) := by
  cases x with
  | nan => cases h
  | infinite negative => cases h
  | finite negative size =>
    have hread : readCount (.real (.finite negative size)) =
        .ok (if negative then -size.truncate else size.truncate) := rfl
    rw [hread, size.truncate_eq]
    cases negative with
    | false =>
      cases h
      rfl
    | true =>
      cases h
      rw [if_pos rfl, if_pos rfl, Number.towardZero_neg]

theorem countOf_of_given (hnull : v ≠ .null) (hempty : v ≠ .text "") :
    countOf scheduler v = (do
      let i ← readCount v
      if i < 0 then .error (refusal "count must be >= 0")
      else .ok (min i.toNat scheduler.maxCount)) := by
  unfold countOf
  split
  · exact absurd rfl hnull
  · exact absurd rfl hempty
  · rfl

theorem countOf_of_natCast (hnull : v ≠ .null) (hempty : v ≠ .text "")
    (h : readCount v = .ok n) : countOf scheduler v = .ok (min n scheduler.maxCount) := by
  rw [countOf_of_given hnull hempty, h, ok_bind, if_neg (by omega), Int.toNat_natCast]

theorem readCount_of_readInteger {s : String} {i : Int} (h : Text.readInteger s.toList = .ok i) :
    readCount (.text s) = .ok i := by
  unfold readCount
  dsimp only
  rw [h]

/-- A value that means a count is read as that. -/
theorem Means.countOf_eq (h : Means scheduler v n) : countOf scheduler v = .ok n := by
  cases h with
  | null => rfl
  | empty => rfl
  | int n => exact countOf_of_natCast (v := .int n) (by simp) (by simp) rfl
  | @text s n h =>
    have hempty : s ≠ "" := by
      rintro rfl
      cases h
    exact countOf_of_natCast (by simp) (by simpa using hempty) (readCount_of_readInteger h)
  | @real x n h =>
    have hread := readCount_of_value? h
    rw [show Number.towardZero n = n from Number.towardZero_intCast n] at hread
    exact countOf_of_natCast (by simp) (by simp) hread

/-- A value that means no count is refused, unless it is misread. -/
theorem refused_or_isMisread (h : ∀ n, ¬ Means scheduler v n) :
    (∃ message, countOf scheduler v = .error (refusal message)) ∨ IsMisread v := by
  have hnull : v ≠ .null := by
    rintro rfl
    exact h _ .null
  have hempty : v ≠ .text "" := by
    rintro rfl
    exact h _ .empty
  have hnegative : ∀ i < 0, readCount v = .ok i →
      ∃ message, countOf scheduler v = .error (refusal message) := by
    intro i hi hread
    rw [countOf_of_given hnull hempty, hread, ok_bind, if_pos hi]
    exact ⟨_, rfl⟩
  cases v with
  | null => exact absurd rfl hnull
  | bool b => exact .inl ⟨_, rfl⟩
  | list items => exact .inl ⟨_, rfl⟩
  | object members => exact .inl ⟨_, rfl⟩
  | int i =>
    rcases lt_or_ge i 0 with hi | hi
    · exact .inl (hnegative i hi rfl)
    · obtain ⟨n, rfl⟩ := Int.eq_ofNat_of_zero_le hi
      exact absurd (.int n) (h _)
  | text s =>
    cases hread : Text.readInteger s.toList with
    | error e =>
      have hbad : readCount (.text s) = .error (badCount (.text s)) := by
        unfold readCount
        dsimp only
        rw [hread]
      rw [countOf_of_given hnull hempty, hbad, error_bind]
      exact .inl ⟨_, rfl⟩
    | ok i =>
      rcases lt_or_ge i 0 with hi | hi
      · exact .inl (hnegative i hi (readCount_of_readInteger hread))
      · obtain ⟨n, rfl⟩ := Int.eq_ofNat_of_zero_le hi
        exact absurd (.text hread) (h _)
  | real x =>
    cases hvalue : x.value? with
    | none =>
      cases x with
      | nan => exact .inl ⟨_, rfl⟩
      | infinite negative => exact .inr (.infinite negative)
      | finite negative size => cases hvalue
    | some q =>
      have hread := readCount_of_value? hvalue
      by_cases hint : ∃ i : Int, q = i
      · obtain ⟨i, rfl⟩ := hint
        rw [Number.towardZero_intCast] at hread
        rcases lt_or_ge i 0 with hi | hi
        · exact .inl (hnegative i hi hread)
        · obtain ⟨n, rfl⟩ := Int.eq_ofNat_of_zero_le hi
          exact absurd (.real hvalue) (h _)
      · rcases lt_or_ge (-1) q with hlow | hlow
        · exact .inr (.fraction hvalue hlow (not_exists.1 hint))
        · exact .inl (hnegative _ (Number.towardZero_neg_of_le hlow) hread)

theorem IsMisread.not_means (h : IsMisread v) (n : Nat) : ¬ Means scheduler v n := by
  intro hmeans
  cases hmeans with
  | null => cases h
  | empty => cases h
  | int n => cases h
  | text hread => cases h
  | real hvalue =>
    cases h with
    | infinite negative => cases hvalue
    | fraction hvalue' hlow hfraction =>
      rw [hvalue] at hvalue'
      cases hvalue'
      exact hfraction _ rfl

-- A fraction above `-1` is cut off.
theorem countOf_of_fraction (hvalue : x.value? = some q) (hlow : -1 < q) :
    countOf scheduler (.real x) = .ok (min ⌊q⌋.toNat scheduler.maxCount) := by
  have hread := readCount_of_value? hvalue
  rw [Number.towardZero_of_neg_one_lt hlow] at hread
  exact countOf_of_natCast (by simp) (by simp) hread

/-! Requests with a count. -/

/-- A request asks for the runs of a schedule, in a zone that there is. -/
structure AsksFor (levels : Nat) (settings : Settings) (request : Request) (asked : Asked)
    (s : Schedule) (label : String) : Prop where
  asks : Asks levels request (.ok asked)
  schedule : Schedule.ofExpression asked.expression = .ok s
  zone : zoneOf settings.scheduler asked.zone = .ok label
  target : ∃ target, Zone.ofLabel label = .ok target

section Answers
variable (levels : Nat) (settings : Settings) (clocks : ClockRule) (instant : WallTime)
  (request : Request) (s : Schedule) (label : String)

/-- A request is answered for a number of runs: by a page that holds them, or at the fault at which
the walk leaves the calendar. -/
def IsAnsweredFor (n : Nat) : Prop :=
  (∃ shown page,
    s.upcoming clocks (.utc instant) n settings.scheduler.horizon.minutes label = .ok shown ∧
    answerWithin levels settings clocks (.utc instant) request = .ok ⟨200, some page⟩ ∧
    page.member? "next_runs" = some (.list (shown.map ShownRun.toJson))) ∨
  s.upcoming clocks (.utc instant) n settings.scheduler.horizon.minutes label =
      .error .beyondRange ∧
    answerWithin levels settings clocks (.utc instant) request = .error .beyondRange

/-- A request is refused with status 400 and a text that tells the error. -/
def IsRefused : Prop :=
  ∃ body message,
    answerWithin levels settings clocks (.utc instant) request = .ok ⟨400, some body⟩ ∧
    body.member? "error" = some (.text message)

/-- A request is answered for the runs that its count means, and refused if it means none. -/
def KeepsCount (count : Json) : Prop :=
  (∀ n, Means settings.scheduler count n →
      IsAnsweredFor levels settings clocks instant request s label n) ∧
    ((∀ n, ¬ Means settings.scheduler count n) → IsRefused levels settings clocks instant request)

variable {levels settings clocks instant request s label} {asked : Asked}

theorem IsAnsweredFor.not_isRefused
    (h : IsAnsweredFor levels settings clocks instant request s label n) :
    ¬ IsRefused levels settings clocks instant request := by
  rintro ⟨body, message, hanswer, -⟩
  obtain ⟨shown, page, -, hpage, -⟩ | ⟨-, hfault⟩ := h
  · rw [hanswer] at hpage
    cases hpage
  · rw [hanswer] at hfault
    cases hfault

theorem AsksFor.isAnsweredFor (h : AsksFor levels settings request asked s label)
    (hcount : countOf settings.scheduler asked.count = .ok n) :
    IsAnsweredFor levels settings clocks instant request s label n := by
  obtain ⟨target, htarget⟩ := h.target
  obtain ⟨make, hmake, hanswer⟩ := h.asks.exists_answer_eq settings clocks (.utc instant)
  have hschedule := scheduleOf_eq_ok_iff.2 h.schedule
  have hfind : asked.find settings clocks (.utc instant) = (do
      let shown ← refusing
        (s.upcoming clocks (.utc instant) n settings.scheduler.horizon.minutes label)
      .ok (s, .list (shown.map ShownRun.toJson))) := by
    rw [Asked.find, hschedule, ok_bind, runsOf, hcount, ok_bind, h.zone, ok_bind, bind_assoc]
    rfl
  rw [ok_bind, hfind] at hanswer
  obtain ⟨-, shown, hshown, -⟩ | ⟨-, herror⟩ := s.upcoming_cases clocks instant htarget n
    settings.scheduler.horizon.minutes
  · rw [hshown] at hanswer
    exact .inl ⟨shown, _, hshown, hanswer, hmake _ _⟩
  · rw [herror] at hanswer
    exact .inr ⟨herror, hanswer⟩

theorem AsksFor.answer_of_error {failure : Failure}
    (h : AsksFor levels settings request asked s label)
    (hcount : countOf settings.scheduler asked.count = .error failure) :
    answerWithin levels settings clocks (.utc instant) request = respond (.error failure) := by
  obtain ⟨make, -, hanswer⟩ := h.asks.exists_answer_eq settings clocks (.utc instant)
  rw [hanswer, ok_bind, Asked.find, scheduleOf_eq_ok_iff.2 h.schedule, ok_bind, runsOf, hcount,
    error_bind, error_bind, error_bind]

/-- The text or the number with a fraction that a value is. These can be compared. -/
def atom? : Json → Option (String ⊕ Number.Real)
  | .text s => some (.inl s)
  | .real x => some (.inr x)
  | _ => none

theorem member?_of_atom? {body : Json} {name : String} {atom : String ⊕ Number.Real}
    (h : (body.member? name).bind atom? = some atom) :
    body.member? name = some (atom.elim .text .real) := by
  obtain ⟨v, hv, hatom⟩ := Option.bind_eq_some_iff.1 h
  rw [hv]
  cases v <;> cases hatom <;> rfl

-- A request for every minute in the clocks of UTC, with a count.
theorem asksFor_everyMinute {text : String} (count : String ⊕ Number.Real)
    (hread : (Json.read maxDepth text).toOption.map (fun body =>
        ((body.member? "expression").bind atom?, (body.member? "count").bind atom?,
          (body.member? "timezone").bind atom?)) =
      some (some (.inl "* * * * *"), some count, some (.inl "UTC"))) :
    AsksFor maxDepth settings ⟨"POST", ⟨"/cron/explain", []⟩, text⟩
      ⟨"* * * * *", count.elim .text .real, .text "UTC"⟩ .everyMinute "UTC" := by
  obtain ⟨body, hbody, hmembers⟩ := Option.map_eq_some_iff.1 hread
  simp only [Prod.mk.injEq] at hmembers
  obtain ⟨hexpression, hcount, hzone⟩ := hmembers
  have hroute : Route.ofRequest ⟨"POST", ⟨"/cron/explain", []⟩, text⟩ = .ok .explain := by
    have hmethod : "POST".toUpper = "POST" := by decide +kernel
    simp [Route.ofRequest, Route.all, Route.path, Route.methods, hmethod]
  have hposted := @Asked.posted_eq maxDepth ⟨"POST", ⟨"/cron/explain", []⟩, text⟩ _ _
    (eq_ok_of_toOption hbody) (member?_of_atom? hexpression)
    ⟨'*', by decide +kernel, by decide +kernel⟩
  rw [member?_of_atom? hcount, member?_of_atom? hzone] at hposted
  exact ⟨hposted ▸ .explain hroute, Schedule.ofExpression_everyMinute, rfl, some .utc,
    by decide +kernel⟩

/-- Let a request ask for the runs of an accepted expression in a zone that there is. It is answered
for the runs that its count means, or refused if it means none, exactly if the count is not misread.
At an infinite count the answer is at fault. A number with a fraction above `-1` is answered for the
integer that is left of it. -/
theorem keepsCount_iff (h : AsksFor levels settings request asked s label) :
    (KeepsCount levels settings clocks instant request s label asked.count ↔
      ¬ IsMisread asked.count) ∧
      (∀ negative, asked.count = .real (.infinite negative) →
        answerWithin levels settings clocks (.utc instant) request = .error .beyondRange) ∧
      ∀ x q, asked.count = .real x → x.value? = some q → -1 < q →
        IsAnsweredFor levels settings clocks instant request s label
          (min ⌊q⌋.toNat settings.scheduler.maxCount) := by
  have hinfinite : ∀ negative, asked.count = .real (.infinite negative) →
      answerWithin levels settings clocks (.utc instant) request = .error .beyondRange := by
    intro negative hcount
    have hfault : countOf settings.scheduler asked.count = .error (.fault .beyondRange) := by
      rw [hcount]
      rfl
    exact h.answer_of_error hfault
  have hfraction : ∀ x q, asked.count = .real x → x.value? = some q → -1 < q →
      IsAnsweredFor levels settings clocks instant request s label
        (min ⌊q⌋.toNat settings.scheduler.maxCount) := by
    intro x q hcount hvalue hlow
    apply h.isAnsweredFor
    rw [hcount]
    exact countOf_of_fraction hvalue hlow
  refine ⟨⟨fun hkeeps hmisread => ?_, fun hread => ⟨?_, ?_⟩⟩, hinfinite, hfraction⟩
  · -- a request that is misread is answered for runs, or not answered, but not refused
    have hrefused := hkeeps.2 hmisread.not_means
    generalize hcount : asked.count = count at hmisread
    cases hmisread with
    | infinite negative =>
      obtain ⟨body, message, hanswer, -⟩ := hrefused
      rw [hinfinite negative hcount] at hanswer
      cases hanswer
    | fraction hvalue hlow _ =>
      exact (hfraction _ _ hcount hvalue hlow).not_isRefused hrefused
  · intro n hmeans
    exact h.isAnsweredFor hmeans.countOf_eq
  · intro hnone
    obtain ⟨message, hrefusal⟩ := (refused_or_isMisread hnone).resolve_right hread
    exact ⟨_, message, h.answer_of_error hrefusal, rfl⟩

/-- Two with blanks around it is two. -/
theorem keepsCount_iff_two :
    let settings := Settings.initial "~/.cronscope"
    let clocks : ClockRule := .constant 0
    let morning : WallTime := ⟨(86400 * Date.toDay ⟨2026, 10, 17⟩ + 28800) * 1000000, by decide⟩
    let text := "\x7b\x22expression\x22: \x22* * * * *\x22, \x22count\x22: \x22 2 \x22, " ++
      "\x22timezone\x22: \x22UTC\x22\x7d"
    let request : Request := ⟨"POST", ⟨"/cron/explain", []⟩, text⟩
    let asked : Asked := ⟨"* * * * *", .text " 2 ", .text "UTC"⟩
    AsksFor maxDepth settings request asked .everyMinute "UTC" ∧
      KeepsCount maxDepth settings clocks morning request .everyMinute "UTC" asked.count ∧
      Means settings.scheduler asked.count 2 ∧
      IsAnsweredFor maxDepth settings clocks morning request .everyMinute "UTC" 2 := by
  intro settings clocks morning text request asked
  have hasks : AsksFor maxDepth settings request asked .everyMinute "UTC" :=
    asksFor_everyMinute (.inl " 2 ") (by decide +kernel)
  have htext : ¬ IsMisread asked.count := nofun
  have hkeeps :
      KeepsCount maxDepth settings clocks morning request .everyMinute "UTC" asked.count :=
    (keepsCount_iff hasks).1.2 htext
  have hmeans : Means settings.scheduler asked.count 2 := .text (n := 2) (by decide +kernel)
  exact ⟨hasks, hkeeps, hmeans, hkeeps.1 2 hmeans⟩

/-- One and a half means no count, but is answered with one run. -/
theorem not_keepsCount_fraction :
    let settings := Settings.initial "~/.cronscope"
    let clocks : ClockRule := .constant 0
    let morning : WallTime := ⟨(86400 * Date.toDay ⟨2026, 10, 17⟩ + 28800) * 1000000, by decide⟩
    let text := "\x7b\x22expression\x22: \x22* * * * *\x22, \x22count\x22: 1.5, " ++
      "\x22timezone\x22: \x22UTC\x22\x7d"
    let request : Request := ⟨"POST", ⟨"/cron/explain", []⟩, text⟩
    let count : Json := .real (.finite false ⟨6755399441055744, -52⟩)
    AsksFor maxDepth settings request ⟨"* * * * *", count, .text "UTC"⟩ .everyMinute "UTC" ∧
      (∀ n, ¬ Means settings.scheduler count n) ∧
      (∃ page run, answer settings clocks (.utc morning) request = .ok ⟨200, some page⟩ ∧
        page.member? "next_runs" = some (.list [run])) ∧
      ¬ KeepsCount maxDepth settings clocks morning request .everyMinute "UTC" count := by
  intro settings clocks morning text request count
  have hasks :
      AsksFor maxDepth settings request ⟨"* * * * *", count, .text "UTC"⟩ .everyMinute "UTC" :=
    asksFor_everyMinute (.inr (.finite false ⟨6755399441055744, -52⟩))
      (by decide +kernel)
  have hvalue : Number.Real.value? (.finite false ⟨6755399441055744, -52⟩) = some (3 / 2) := by
    rw [Number.Real.value?, if_neg (by decide), Number.Dyadic.value]
    norm_num
  have hfraction : ∀ i : Int, (3 / 2 : ℚ) ≠ i := by
    intro i heq
    have hdouble : (3 : ℚ) = (2 * i : Int) := by
      push_cast
      linarith
    have hint : 3 = 2 * i := by exact_mod_cast hdouble
    omega
  have hmisread : IsMisread count := .fraction hvalue (by norm_num) hfraction
  have hanswered : IsAnsweredFor maxDepth settings clocks morning request .everyMinute "UTC" 1 := by
    have hfloor : ⌊(3 / 2 : ℚ)⌋ = 1 := by
      rw [Int.floor_eq_iff]
      norm_num
    have hcount : countOf settings.scheduler count =
        .ok (min ⌊(3 / 2 : ℚ)⌋.toNat settings.scheduler.maxCount) :=
      countOf_of_fraction hvalue (by norm_num)
    rw [hfloor] at hcount
    exact hasks.isAnsweredFor hcount
  have hlength : (Schedule.everyMinute.upcoming clocks (.utc morning) (1 : Nat)
      settings.scheduler.horizon.minutes "UTC").toOption.map List.length = some 1 := by
    decide +kernel
  refine ⟨hasks, hmisread.not_means, ?_, fun hkeeps =>
    hanswered.not_isRefused (hkeeps.2 hmisread.not_means)⟩
  obtain ⟨shown, hok, hone⟩ := Option.map_eq_some_iff.1 hlength
  obtain ⟨shown', page, hshown, hpage, hruns⟩ | ⟨herror, -⟩ := hanswered
  · rw [eq_ok_of_toOption hok] at hshown
    cases hshown
    obtain ⟨run, rfl⟩ := List.length_eq_one_iff.1 hone
    exact ⟨page, _, hpage, hruns⟩
  · rw [eq_ok_of_toOption hok] at herror
    cases herror

end Answers

end Service

end Cron
