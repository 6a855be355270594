/-
The decisions of one cron schedule over time: they neither repeat nor regress nor stall, except
where a match was already read before the local clock was set back.
-/
import NervOS.Refinement.LocalTime
import NervOS.Relational.Fallible
import NervOS.Relational.Machine

namespace NervOS

open Relational

structure CronEvaluation where
  anchor : Instant
  now : Instant
  outcome : Except ScheduleError ScheduleDecision
deriving DecidableEq

structure CronSystem where
  nextFireAt : Option Instant
  evaluations : List CronEvaluation := []

/-- The instants that the schedule was honoured for. -/
def CronSystem.nominals (system : CronSystem) : List Instant :=
  system.evaluations.filterMap fun evaluation =>
    evaluation.outcome.toOption.map (·.nominalAt)

def CronSystem.evaluate (calendar : Calendar) (expression : CronExpression)
    (timezone : TimezoneName) (now : Instant) (system : CronSystem) : CronSystem :=
  match system.nextFireAt with
  | none => system
  | some anchor =>
    if anchor ≤ now then
      let outcome := calculateCron calendar anchor expression.1 timezone.1 now
      { nextFireAt := outcome.toOption.bind (·.nextFireAt)
        evaluations := ⟨anchor, now, outcome⟩ :: system.evaluations }
    else system

/-- A schedule from its creation on, looked at again and again. -/
def cronSchedule (calendar : Calendar) (expression : CronExpression) (timezone : TimezoneName)
    (createdAt : Instant) : Machine CronSystem Instant where
  init := ⟨(initialNextFire calendar (.cron expression timezone) createdAt).toOption, []⟩
  exec now system := system.evaluate calendar expression timezone now

structure ExactClock (calendar : Calendar) (expression : String) (Matches : Wall → Prop) :
    Prop where
  whole : ∀ wall, Matches wall → ∃ count, wall = seconds count
  latest : ∀ wall, ∃ found, atOrBefore calendar expression wall = .ok found ∧
    (∀ match', found = some match' →
      IsGreatest {reading | Matches reading ∧ reading ≤ wall} match') ∧
    (found = none → ∀ reading, Matches reading → wall < reading)
  following : ∀ wall, ∃ found, nextAfter calendar expression wall = .ok found ∧
    (∀ match', found = some match' →
      IsLeast {reading | Matches reading ∧ wall < reading} match') ∧
    (found = none → ∀ reading, Matches reading → reading ≤ wall)

structure Zone.Regular (zone : Zone) : Prop where
  separated : ∃ start floor, Separated start floor zone.initial zone.transitions
  whole : WholeSeconds zone.initial zone.transitions

/-- No match after the local reading of `now` was read before: the clock was not set back over
it. -/
def NotSetBack (zone : Zone) (Matches : Wall → Prop) (now : Instant) : Prop :=
  ∀ reading, Matches reading → zone.reading now < reading →
    ∀ earlier ≤ now, zone.reading earlier < reading

/-- The evaluation is decided, for an instant between the stored one and now, and goes on
strictly after now. -/
def CronEvaluation.Steady (evaluation : CronEvaluation) : Prop :=
  ∃ decision next, evaluation.outcome = .ok decision ∧ decision.nextFireAt = some next ∧
    evaluation.anchor ≤ decision.nominalAt ∧ decision.nominalAt ≤ evaluation.now ∧
      evaluation.now < next

/-- The expression has a match on each side of the local reading. -/
def Matched (zone : Zone) (Matches : Wall → Prop) (now : Instant) : Prop :=
  (∃ reading, Matches reading ∧ reading ≤ zone.reading now) ∧
    ∃ reading, Matches reading ∧ zone.reading now < reading

/-- No decision repeats, regresses or stalls. -/
structure CronSystem.Progresses (zone : Zone) (Matches : Wall → Prop) (system : CronSystem) :
    Prop where
  steady : ∀ evaluation ∈ system.evaluations, Matched zone Matches evaluation.now →
    evaluation.Steady
  increasing : system.nominals.Pairwise (· > ·)

section Evaluation

variable {calendar : Calendar} {expression timezone : String} {Matches : Wall → Prop}
  {zone : Zone} {anchor now : Instant}

theorem resolveLocal_of_match (hclock : ExactClock calendar expression Matches)
    (hzone : zone.Regular) {reading : Wall} (hmatch : Matches reading) :
    ∃ instant : Int, resolveLocal reading zone = .ok instant ∧
      IsLeast {instant : Int | reading ≤ zone.reading instant} instant := by
  obtain ⟨count, hcount⟩ := hclock.whole reading hmatch
  obtain ⟨start, floor, hseparated⟩ := hzone.separated
  exact resolveLocal_isLeast hseparated hzone.whole hcount

def ResolvesMatch (zone : Zone) (Matches : Wall → Prop) (anchor : Instant) : Prop :=
  ∃ reading, Matches reading ∧ IsLeast {instant : Int | reading ≤ zone.reading instant} anchor

section

variable (hclock : ExactClock calendar expression Matches)

include hclock

theorem calculateCron_matched (hzone : zone.Regular)
    (hname : calendar.zoneInfo timezone = some zone) (hdue : anchor ≤ now)
    (hmatched : Matched zone Matches now) :
    ∃ latest following, IsGreatest {reading | Matches reading ∧ reading ≤ zone.reading now} latest ∧
      IsLeast {reading | Matches reading ∧ zone.reading now < reading} following ∧
      ∃ nominal next : Int, IsLeast {instant : Int | latest ≤ zone.reading instant} nominal ∧
        IsLeast {instant : Int | following ≤ zone.reading instant} next ∧ nominal ≤ now ∧
        calculateCron calendar anchor expression timezone now =
          if next ≤ now then .error (.calculation .invalid)
          else ScheduleDecision.recurring nominal next := by
  obtain ⟨found, hlatest, hgreatest, hexhausted⟩ := hclock.latest (zone.reading now)
  obtain ⟨found', hfollowing, hleast, hexhausted'⟩ := hclock.following (zone.reading now)
  cases found with
  | none =>
    obtain ⟨reading, hmatch, hle⟩ := hmatched.1
    exact absurd (hexhausted rfl reading hmatch) (not_lt.mpr hle)
  | some latest =>
    cases found' with
    | none =>
      obtain ⟨reading, hmatch, hlt⟩ := hmatched.2
      exact absurd (hexhausted' rfl reading hmatch) (not_le.mpr hlt)
    | some following =>
      have hbelow := hgreatest latest rfl
      have habove := hleast following rfl
      obtain ⟨nominal, hnominal, hfirst⟩ := resolveLocal_of_match hclock hzone hbelow.1.1
      obtain ⟨next, hnext, hfirst'⟩ := resolveLocal_of_match hclock hzone habove.1.1
      have hpast : nominal ≤ now := hfirst.2 hbelow.1.2
      refine ⟨latest, following, hbelow, habove, nominal, next, hfirst, hfirst', hpast, ?_⟩
      have hnotAhead : ¬ (anchor < nominal ∧ now < nominal) :=
        fun hahead => absurd hpast (not_le.mpr hahead.2)
      simp only [calculateCron, zoneFor, hname, Option.elim_some, requireDue, if_pos hdue,
        hlatest, hfollowing, cronDecision, hnominal, hnext, bind, Except.bind,
        if_neg hnotAhead]

theorem calculateCron_steady_iff (hzone : zone.Regular)
    (hname : calendar.zoneInfo timezone = some zone) (hanchor : ResolvesMatch zone Matches anchor)
    (hdue : anchor ≤ now) (hmatched : Matched zone Matches now) :
    (CronEvaluation.mk anchor now
      (calculateCron calendar anchor expression timezone now)).Steady ↔
        NotSetBack zone Matches now := by
  obtain ⟨latest, following, hbelow, habove, nominal, next, hfirst, hfirst', hpast, houtcome⟩ :=
    calculateCron_matched hclock hzone hname hdue hmatched
  rw [houtcome]
  constructor
  · rintro ⟨decision, _, hdecided, -, -, -, -⟩ reading hmatch hahead earlier hearlier
    by_cases hpassed : next ≤ now
    · rw [if_pos hpassed] at hdecided
      cases hdecided
    · by_contra hread
      have hsooner : next ≤ earlier := by
        apply hfirst'.2
        exact (habove.2 ⟨hmatch, hahead⟩).trans (not_lt.mp hread)
      exact hpassed (hsooner.trans hearlier)
  · intro hkept
    have hlater : ¬ next ≤ now := by
      intro hpassed
      have hread := hkept following habove.1.1 habove.1.2 next hpassed
      exact absurd hfirst'.1 (not_le.mpr hread)
    have hordered : nominal < next := lt_of_le_of_lt hpast (not_le.mp hlater)
    rw [if_neg hlater, ScheduleDecision.recurring, dif_pos hordered]
    refine ⟨_, next, rfl, rfl, ?_, hpast, not_le.mp hlater⟩
    obtain ⟨reading, hmatch, hresolves⟩ := hanchor
    have hshown : reading ≤ zone.reading now := by
      by_contra hahead
      have hread := hkept reading hmatch (not_le.mp hahead) anchor hdue
      exact absurd hresolves.1 (not_le.mpr hread)
    apply hresolves.2
    exact (hbelow.2 ⟨hmatch, hshown⟩).trans hfirst.1

theorem calculateCron_exhausted (hname : calendar.zoneInfo timezone = some zone)
    (hdue : anchor ≤ now) (hmatched : ¬ Matched zone Matches now) :
    calculateCron calendar anchor expression timezone now = .error (.calculation .invalid) := by
  obtain ⟨found, hlatest, hgreatest, -⟩ := hclock.latest (zone.reading now)
  obtain ⟨found', hfollowing, hleast, -⟩ := hclock.following (zone.reading now)
  simp only [calculateCron, zoneFor, hname, Option.elim_some, requireDue, if_pos hdue, hlatest,
    hfollowing, bind, Except.bind]
  cases found with
  | none => rfl
  | some latest =>
    cases found' with
    | none => rfl
    | some following =>
      have hbelow := (hgreatest latest rfl).1
      have habove := (hleast following rfl).1
      exact absurd ⟨⟨latest, hbelow⟩, following, habove⟩ hmatched

theorem resolvesMatch_of_decided (hzone : zone.Regular)
    (hname : calendar.zoneInfo timezone = some zone) (hdue : anchor ≤ now)
    (hmatched : Matched zone Matches now) {decision : ScheduleDecision} {next : Instant}
    (hdecided : calculateCron calendar anchor expression timezone now = .ok decision)
    (hnext : decision.nextFireAt = some next) : ResolvesMatch zone Matches next := by
  obtain ⟨latest, following, hbelow, habove, nominal, next', hfirst, hfirst', hpast, houtcome⟩ :=
    calculateCron_matched hclock hzone hname hdue hmatched
  rw [hdecided] at houtcome
  by_cases hpassed : next' ≤ now
  · rw [if_pos hpassed] at houtcome
    cases houtcome
  · rw [if_neg hpassed, ScheduleDecision.recurring,
      dif_pos (lt_of_le_of_lt hpast (not_le.mp hpassed))] at houtcome
    obtain rfl := Except.ok.inj houtcome
    obtain rfl := Option.some.inj hnext
    exact ⟨following, habove.1.1, hfirst'⟩

end

end Evaluation

section Runs

variable {calendar : Calendar} {expression : CronExpression} {timezone : TimezoneName}
  {Matches : Wall → Prop} {zone : Zone} {system : CronSystem} {now : Instant}

/-- The schedule is not evaluated where the clock was set back over a match. -/
def EvaluatedForward (zone : Zone) (Matches : Wall → Prop) (system : CronSystem)
    (now : Instant) : Prop :=
  ∀ anchor ∈ system.nextFireAt, anchor ≤ now → NotSetBack zone Matches now

structure CronSystem.Standing (zone : Zone) (Matches : Wall → Prop) (system : CronSystem) :
    Prop where
  progresses : system.Progresses zone Matches
  stored : ∀ anchor ∈ system.nextFireAt, ResolvesMatch zone Matches anchor ∧
    ∀ nominal ∈ system.nominals, nominal < anchor

section

variable (hclock : ExactClock calendar expression.1 Matches) (hzone : zone.Regular)
    (hname : calendar.zoneInfo timezone.1 = some zone)

include hclock hzone hname

theorem CronSystem.standing_init (createdAt : Instant) :
    (cronSchedule calendar expression timezone createdAt).init.Standing zone Matches := by
  refine ⟨⟨List.forall_mem_nil _, List.Pairwise.nil⟩, ?_⟩
  intro anchor hanchor
  refine ⟨?_, List.forall_mem_nil _⟩
  obtain ⟨found, hfollowing, hleast, -⟩ := hclock.following (zone.reading createdAt)
  have hinit : (initialNextFire calendar (.cron expression timezone) createdAt).toOption =
      some anchor := hanchor
  simp only [initialNextFire, zoneFor, hname, Option.elim_some, hfollowing, bind,
    Except.bind] at hinit
  cases found with
  | none => cases hinit
  | some following =>
    have habove := (hleast following rfl).1
    obtain ⟨instant, hresolved, hfirst⟩ := resolveLocal_of_match hclock hzone habove.1
    simp only [hresolved] at hinit
    obtain rfl := Option.some.inj hinit
    exact ⟨following, habove.1, hfirst⟩

theorem CronSystem.standing_evaluate (h : system.Standing zone Matches)
    (hforward : EvaluatedForward zone Matches system now) :
    (system.evaluate calendar expression timezone now).Standing zone Matches := by
  unfold CronSystem.evaluate
  cases hstored : system.nextFireAt with
  | none => exact h
  | some anchor =>
    by_cases hdue : anchor ≤ now
    · simp only [if_pos hdue]
      obtain ⟨hresolves, hbefore⟩ := h.stored anchor hstored
      by_cases hmatched : Matched zone Matches now
      · have hsteady := (calculateCron_steady_iff hclock hzone hname hresolves hdue hmatched).mpr
          (hforward anchor hstored hdue)
        obtain ⟨decision, next, hdecided, hnext, hlow, hhigh, hlater⟩ := id hsteady
        have hnominals : ∀ nominal ∈ system.nominals, nominal < decision.nominalAt :=
          fun nominal hnominal => lt_of_lt_of_le (hbefore nominal hnominal) hlow
        simp only at hdecided
        rw [hdecided] at hsteady ⊢
        refine ⟨⟨?_, ?_⟩, ?_⟩
        · exact List.forall_mem_cons.mpr ⟨fun _ => hsteady, h.progresses.steady⟩
        · change (decision.nominalAt :: system.nominals).Pairwise (· > ·)
          exact List.pairwise_cons.mpr ⟨hnominals, h.progresses.increasing⟩
        · intro following hfollowing
          obtain rfl : next = following := Option.some.inj (hnext.symm.trans hfollowing)
          refine ⟨resolvesMatch_of_decided hclock hzone hname hdue hmatched hdecided hnext, ?_⟩
          change ∀ nominal ∈ decision.nominalAt :: system.nominals, nominal < next
          have hahead : decision.nominalAt < next := lt_of_le_of_lt hhigh hlater
          exact List.forall_mem_cons.mpr
            ⟨hahead, fun nominal hnominal => (hnominals nominal hnominal).trans hahead⟩
      · rw [calculateCron_exhausted hclock hname hdue hmatched]
        refine ⟨⟨?_, h.progresses.increasing⟩, nofun⟩
        refine List.forall_mem_cons.mpr ⟨fun hboth => absurd hboth hmatched, ?_⟩
        exact h.progresses.steady
    · simp only [if_neg hdue]
      exact h

end

end Runs

/-- Evaluated only where no match was read before its time, a schedule decides every time, and
its nominal instants strictly increase. -/
theorem cron_progresses {calendar : Calendar} {expression : CronExpression}
    {timezone : TimezoneName} {Matches : Wall → Prop} {zone : Zone} {createdAt : Instant}
    {system : CronSystem} (hclock : ExactClock calendar expression.1 Matches)
    (hzone : zone.Regular) (hname : calendar.zoneInfo timezone.1 = some zone)
    (h : (cronSchedule calendar expression timezone createdAt).ReachableAlong
      (EvaluatedForward zone Matches) system) : system.Progresses zone Matches := by
  have hstanding : system.Standing zone Matches := by
    apply h.invariant
    · exact CronSystem.standing_init hclock hzone hname createdAt
    · intro system now hstanding hforward
      exact CronSystem.standing_evaluate hclock hzone hname hstanding hforward
  exact hstanding.progresses

/-- One hour ahead until the hundredth hour, when the clock is set back. -/
def setBackZone : Zone where
  initial := seconds 3600
  transitions := [(seconds 360000, 0)]

def HalfPast (wall : Wall) : Prop :=
  ∃ hour : Int, wall = seconds (3600 * hour + 1800)

/-- The neighbours of a reading among the half hours. -/
def halfPastCalendar : Calendar where
  zoneInfo _ := some setBackZone
  nextAfter _ wall := .ok (some
    (((wall - seconds 1800) / seconds 3600 + 1) * seconds 3600 + seconds 1800))
  previousBefore _ wall := .ok (some
    ((wall - seconds 1 - seconds 1800) / seconds 3600 * seconds 3600 + seconds 1800))

theorem halfPast_valid : ValidCronExpression "30 * * * *" := by
  decide +kernel

theorem sampleTimezone_valid : ValidTimezoneName "Europe/Paris" := by
  decide +kernel

def halfPastExpression : CronExpression := ⟨"30 * * * *", halfPast_valid⟩

def sampleTimezone : TimezoneName := ⟨"Europe/Paris", sampleTimezone_valid⟩

theorem setBackZone_regular : setBackZone.Regular where
  separated := ⟨0, 0, by decide +kernel, by decide +kernel, by decide +kernel, trivial⟩
  whole := by
    refine ⟨⟨3600, rfl, by decide, by decide⟩, ?_⟩
    intro transition htransition
    obtain rfl := List.mem_singleton.mp htransition
    exact ⟨⟨360000, rfl⟩, 0, rfl, by decide, by decide⟩

theorem halfPast_latest (wall : Int) :
    IsGreatest {reading : Int | HalfPast reading ∧ reading ≤ wall}
      ((wall + 1 * 1000000 - 1 * 1000000 - 1800 * 1000000) / (3600 * 1000000) *
        (3600 * 1000000) + 1800 * 1000000) := by
  refine ⟨⟨⟨(wall - 1800 * 1000000) / (3600 * 1000000), ?_⟩, ?_⟩, ?_⟩
  · simp only [seconds]
    change (_ : Int) = _
    omega
  · omega
  · rintro _ ⟨⟨hour, rfl⟩, hle⟩
    have hle' : (3600 * hour + 1800) * 1000000 ≤ wall := hle
    change (3600 * hour + 1800) * 1000000 ≤ _
    omega

theorem halfPast_following (wall : Int) :
    IsLeast {reading : Int | HalfPast reading ∧ wall < reading}
      (((wall - 1800 * 1000000) / (3600 * 1000000) + 1) * (3600 * 1000000) +
        1800 * 1000000) := by
  refine ⟨⟨⟨(wall - 1800 * 1000000) / (3600 * 1000000) + 1, ?_⟩, ?_⟩, ?_⟩
  · simp only [seconds]
    change (_ : Int) = _
    omega
  · omega
  · rintro _ ⟨⟨hour, rfl⟩, hlt⟩
    have hlt' : wall < (3600 * hour + 1800) * 1000000 := hlt
    change _ ≤ (3600 * hour + 1800) * 1000000
    omega

theorem halfPast_exact (expression : String) :
    ExactClock halfPastCalendar expression HalfPast where
  whole := by
    rintro _ ⟨hour, rfl⟩
    exact ⟨_, rfl⟩
  latest wall := by
    refine ⟨_, rfl, ?_, nofun⟩
    rintro _ ⟨rfl⟩
    exact halfPast_latest wall
  following wall := by
    refine ⟨_, rfl, ?_, nofun⟩
    rintro _ ⟨rfl⟩
    exact halfPast_following wall

def halfPastRun (createdAt now : Instant) : CronSystem :=
  (cronSchedule halfPastCalendar halfPastExpression sampleTimezone createdAt).run [now]
    (cronSchedule halfPastCalendar halfPastExpression sampleTimezone createdAt).init

theorem cron_progresses_halfPast :
    (halfPastRun 0 (seconds 7200)).evaluations.length = 1 ∧
      (halfPastRun 0 (seconds 7200)).Progresses setBackZone HalfPast := by
  have hforward : NotSetBack setBackZone HalfPast (seconds 7200) := by
    intro reading _ hahead earlier hearlier
    have hseparated : Separated 0 0 setBackZone.initial setBackZone.transitions :=
      ⟨by decide +kernel, by decide +kernel, by decide +kernel, trivial⟩
    have hlater : earlier < seconds 360000 := lt_of_le_of_lt hearlier (by decide +kernel)
    have hreading : setBackZone.reading earlier = earlier + seconds 3600 :=
      reading_of_lt hseparated hlater
    rw [hreading]
    have hshown : setBackZone.reading (seconds 7200) = seconds 7200 + seconds 3600 := by
      decide +kernel
    rw [hshown] at hahead
    exact lt_of_le_of_lt (Int.add_le_add_right hearlier _) hahead
  refine ⟨by decide +kernel, ?_⟩
  apply cron_progresses (halfPast_exact _) setBackZone_regular rfl
  exact ⟨[seconds 7200], ⟨fun _ _ _ => hforward, trivial⟩, rfl⟩

/-- In the repeated hour the schedule is refused as invalid. -/
theorem cron_refused_repeatedHour :
    ExactClock halfPastCalendar halfPastExpression.1 HalfPast ∧ setBackZone.Regular ∧
      (cronSchedule halfPastCalendar halfPastExpression sampleTimezone (seconds 356400)).Reachable
        (halfPastRun (seconds 356400) (seconds 360900)) ∧
      ¬ (halfPastRun (seconds 356400) (seconds 360900)).Progresses setBackZone HalfPast := by
  refine ⟨halfPast_exact _, setBackZone_regular, ⟨[seconds 360900], rfl⟩, ?_⟩
  intro h
  have hrefused : (halfPastRun (seconds 356400) (seconds 360900)).evaluations =
      [⟨seconds 358200, seconds 360900, .error (.calculation .invalid)⟩] := by
    decide +kernel
  have hmatched : Matched setBackZone HalfPast (seconds 360900) :=
    ⟨⟨seconds 358200, ⟨99, by decide +kernel⟩, by decide +kernel⟩,
      seconds 361800, ⟨100, by decide +kernel⟩, by decide +kernel⟩
  have hsteady := h.steady
  rw [hrefused, List.forall_mem_singleton] at hsteady
  obtain ⟨decision, next, hdecided, -⟩ := hsteady hmatched
  cases hdecided

end NervOS
