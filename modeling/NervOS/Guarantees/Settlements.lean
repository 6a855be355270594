/-
One execution, one truthful settlement: what holds of the race, the heartbeat, the settlement and
its projection, in which interleavings.
-/
import NervOS.Application.JobExecutionService

namespace NervOS

/-- A result in hand wins, and a loss leaves nothing to the deadline. -/
structure RaceDecision.Fair (decision : RaceDecision) : Prop where
  providerWins : ∀ outcome, decision.provider = some (.ok outcome) →
    decision.accepted = some outcome
  lossEnds : decision.provider = none → decision.lost = true → decision.accepted = none

/-- A success is settled as one, and a failure as one or for a retry. -/
def JobSettlement.Fits (settlement : JobSettlement) : Prop :=
  match settlement.outcome with
  | .succeeded _ => settlement.status = .succeeded
  | .failed _ => settlement.status ≠ .succeeded

namespace JobExecution

variable (job : JobExecution)

/-- The outcome that is being finalized. -/
def finalizing? : Option ProviderOutcome :=
  match job.phase with
  | .writing outcome _ | .inspecting outcome _ | .resting outcome _ => some outcome
  | .starting | .preparing | .racing | .returned _ | .raised => none

/-- The race accepted the outcome; without a snapshot there is no race. -/
def Chosen (outcome : ProviderOutcome) : Prop :=
  (∃ decision ∈ job.decision, decision.accepted = some outcome) ∨ job.invocations = 0

def Beating : Prop :=
  job.heartbeat = .sleeping ∨ job.heartbeat = .renewing ∨ job.heartbeat = .inspecting

structure Truthful : Prop where
  invokedOnce : job.invocations ≤ 1
  invokedAfterStart : 0 < job.invocations → job.started = true
  fair : ∀ decision ∈ job.decision, decision.Fair
  finalized : ∀ outcome ∈ job.finalizing?, job.Chosen outcome
  settled : ∀ settlement ∈ job.settlement,
    job.Chosen settlement.outcome ∧ settlement.Fits ∧ settlement.lostBefore = false
  beats : job.Running → job.claim = .active → job.Beating
  signals : job.Running → ¬ job.Beating → job.lost = true ∨ job.claim = .terminal
  projected : ∀ request ∈ job.projections,
    ∃ settlement ∈ job.settlement, settlement.status = request.status

def HonestReport (commits : Option FailureOutcome) : FailureReport → Prop
  | .retryScheduled | .unresolved => False
  | .alreadySettled => commits = some .terminalFailed ∨
      ∃ settlement ∈ job.settlement, settlement.status = .failed
  | .terminalFailed | .unsettled => True

def Undisturbed (projects : Bool) : ExecutionEvent → Prop
  | .inspected none => job.claim = .terminal
  | .successWritten _ .refused => projects = false
  | .failureWritten commits (.reported report) =>
    projects = false ∨ job.HonestReport commits report
  | .failureInspected (some report) => projects = false ∨ job.HonestReport none report
  | _ => True

end JobExecution

section Invariant

/-- Before anything is finalized. -/
def JobExecution.Early (job : JobExecution) : Prop :=
  job.phase = .starting ∨ job.phase = .preparing ∨ job.phase = .racing

structure JobExecution.Kept (job : JobExecution) : Prop where
  invokedOnce : job.invocations ≤ 1
  invokedAfterStart : 0 < job.invocations → job.started = true
  started : job.Running → job.started = true
  uninvoked : job.phase = .starting ∨ job.phase = .preparing → job.invocations = 0
  early : job.Early → job.decision = none ∧ job.settlement = none
  fair : ∀ decision ∈ job.decision, decision.Fair
  finalized : ∀ outcome ∈ job.finalizing?, job.Chosen outcome
  settled : ∀ settlement ∈ job.settlement, job.claim = .terminal ∧
    job.Chosen settlement.outcome ∧ settlement.Fits ∧ settlement.lostBefore = false
  signals : ¬ job.Beating → job.lost = true ∨ job.claim = .terminal
  revoked : job.lost = true → job.claim ≠ .active
  projected : ∀ request ∈ job.projections,
    ∃ settlement ∈ job.settlement, settlement.status = request.status

variable {job : JobExecution} {projects : Bool}

theorem JobExecution.Kept.truthful (h : job.Kept) : job.Truthful where
  invokedOnce := h.invokedOnce
  invokedAfterStart := h.invokedAfterStart
  fair := h.fair
  finalized := h.finalized
  settled := fun settlement hsettlement => (h.settled settlement hsettlement).2
  beats := by
    intro _ hactive
    by_contra hstill
    rcases h.signals hstill with hlost | hterminal
    · exact h.revoked hlost hactive
    · rw [hactive] at hterminal
      cases hterminal
  signals := fun _ hstill => h.signals hstill
  projected := h.projected

theorem JobExecution.Kept.move (h : job.Kept) {phase : ExecutionPhase}
    (hrunning : JobExecution.Running { job with phase := phase } → job.started = true)
    (hlate : ¬ JobExecution.Early { job with phase := phase })
    (hchosen : ∀ outcome ∈ JobExecution.finalizing? { job with phase := phase },
      job.Chosen outcome) :
    JobExecution.Kept { job with phase := phase } :=
  { h with
    started := hrunning
    uninvoked := fun hbefore => absurd (hbefore.imp_right .inl) hlate
    early := fun hearly => absurd hearly hlate
    finalized := hchosen }

theorem JobExecution.Kept.raised (h : job.Kept) :
    JobExecution.Kept { job with phase := .raised } :=
  h.move False.elim (by simp [JobExecution.Early]) (by simp [JobExecution.finalizing?])

theorem JobExecution.Kept.finish (h : job.Kept) (outcome : Option ProviderOutcome) :
    (job.finish outcome).Kept := by
  unfold JobExecution.finish
  split
  · exact h.raised
  · exact h.move False.elim (by simp [JobExecution.Early]) (by simp [JobExecution.finalizing?])

theorem JobExecution.Kept.retry (h : job.Kept) {outcome : ProviderOutcome}
    (hstarted : job.started = true) (hchosen : job.Chosen outcome) (attempt : Nat) :
    (job.retry outcome attempt).Kept := by
  unfold JobExecution.retry
  split
  · apply h.move (fun _ => hstarted) (by simp [JobExecution.Early])
    intro other hother
    obtain rfl := Option.some.inj hother
    exact hchosen
  · exact h.finish _

theorem JobExecution.Kept.project (h : job.Kept) (request : ProjectionRequest)
    (hcommitted : projects = false ∨
      ∃ settlement ∈ job.settlement, settlement.status = request.status) :
    (job.project projects request).Kept := by
  unfold JobExecution.project
  split
  case isFalse => exact h
  case isTrue hprojects =>
    refine { h with projected := ?_ }
    intro other hother
    rw [List.mem_append, List.mem_singleton] at hother
    rcases hother with hother | rfl
    · exact h.projected other hother
    · exact hcommitted.resolve_left (by simp [hprojects])

theorem JobExecution.Kept.commit (h : job.Kept) {outcome : ProviderOutcome}
    (status : SettledStatus) (hlate : ¬ job.Early) (hactive : job.claim = .active)
    (hchosen : job.Chosen outcome)
    (hfits : JobSettlement.Fits ⟨outcome, status, job.lost⟩) :
      (job.commit outcome status).Kept := by
  have hquiet : job.lost = false := by
    rw [Bool.eq_false_iff]
    exact fun hlost => h.revoked hlost hactive
  have hunsettled : ∀ settlement, settlement ∉ job.settlement := by
    intro settlement hsettlement
    have hterminal := (h.settled settlement hsettlement).1
    rw [hactive] at hterminal
    cases hterminal
  refine { h with
    early := fun hearly => absurd hearly hlate
    settled := ?_, signals := fun _ => .inr rfl, revoked := ?_, projected := ?_ }
  · intro settlement hsettlement
    obtain rfl := Option.some.inj hsettlement
    exact ⟨rfl, hchosen, hfits, hquiet⟩
  · intro _ hterminal
    cases hterminal
  · intro request hrequest
    obtain ⟨settlement, hsettlement, -⟩ := h.projected request hrequest
    exact absurd hsettlement (hunsettled settlement)

end Invariant

section Steps

variable {job : JobExecution} {projects : Bool}

theorem JobExecution.Kept.start (h : job.Kept) (committed : Bool) : (job.start committed).Kept := by
  unfold JobExecution.start
  by_cases hphase : job.phase = .starting
  · rw [if_pos hphase]
    have huninvoked := h.uninvoked (.inl hphase)
    have hearly := h.early (.inl hphase)
    cases committed with
    | true =>
      rw [if_pos rfl]
      split
      case isFalse => exact h
      case isTrue =>
        exact { h with
          invokedAfterStart := fun _ => rfl
          started := fun _ => rfl
          uninvoked := fun _ => huninvoked
          early := fun _ => hearly
          finalized := by simp [JobExecution.finalizing?] }
    | false =>
      exact h.move False.elim (by simp [JobExecution.Early]) (by simp [JobExecution.finalizing?])
  · rw [if_neg hphase]
    exact h

theorem JobExecution.Kept.prepared (h : job.Kept) (preparation : JobPreparation) :
    (job.prepared preparation).Kept := by
  unfold JobExecution.prepared
  by_cases hphase : job.phase = .preparing
  · rw [if_pos hphase]
    have huninvoked := h.uninvoked (.inr hphase)
    have hearly := h.early (.inr (.inl hphase))
    have hstarted : job.started = true := h.started (by simp [JobExecution.Running, hphase])
    cases preparation with
    | noCompletion => exact h.finish none
    | unavailable => exact h.raised
    | unusableSnapshot =>
      exact h.move (fun _ => hstarted) (by simp [JobExecution.Early]) fun _ _ => .inr huninvoked
    | ready =>
      exact { h with
        invokedOnce := by simp [huninvoked]
        invokedAfterStart := fun _ => hstarted
        started := fun _ => hstarted
        uninvoked := by simp
        early := fun _ => hearly
        finalized := by simp [JobExecution.finalizing?]
        settled := by simp [hearly.2] }
  · rw [if_neg hphase]
    exact h

theorem JobExecution.Kept.providerAnswers (h : job.Kept)
    (answer : Except Unit ProviderOutcome) : (job.providerAnswers answer).Kept := by
  unfold JobExecution.providerAnswers
  split
  · exact { h with }
  · exact h

theorem JobExecution.Kept.deadlineFires (h : job.Kept) : job.deadlineFires.Kept := by
  unfold JobExecution.deadlineFires
  split
  · exact { h with }
  · exact h

theorem JobExecution.Kept.decided (h : job.Kept) (hearly : job.Early) (phase : ExecutionPhase)
    {decision : RaceDecision} (hfair : decision.Fair)
    (hlate : ¬ JobExecution.Early { job with phase := phase })
    (hstarted : job.started = true)
    (haccepted : ∀ outcome ∈ JobExecution.finalizing? { job with phase := phase },
      decision.accepted = some outcome) :
    JobExecution.Kept { job with phase := phase, decision := some decision } := by
  obtain ⟨-, hunsettled⟩ := h.early hearly
  refine { h with
    started := fun _ => hstarted
    uninvoked := fun hbefore => absurd (hbefore.imp_right .inl) hlate
    early := fun hearly => absurd hearly hlate
    fair := ?_, finalized := ?_, settled := ?_ }
  · intro other hother
    obtain rfl := Option.some.inj hother
    exact hfair
  · intro outcome houtcome
    exact .inl ⟨decision, rfl, haccepted outcome houtcome⟩
  · intro settlement hsettlement
    rw [hunsettled] at hsettlement
    cases hsettlement

theorem JobExecution.Kept.decide (h : job.Kept) : job.decide.Kept := by
  unfold JobExecution.decide
  by_cases hphase : job.phase = .racing
  · rw [if_pos hphase]
    have hearly : job.Early := .inr (.inr hphase)
    have hstarted : job.started = true := h.started (by simp [JobExecution.Running, hphase])
    split
    case h_1 outcome hprovider =>
      apply h.decided hearly _ ⟨by simp, by simp⟩ (by simp [JobExecution.Early]) hstarted
      simp [JobExecution.finalizing?]
    case h_2 error hprovider =>
      apply h.decided hearly _ ⟨by simp, by simp⟩ (by simp [JobExecution.Early]) hstarted
      simp [JobExecution.finalizing?]
    case h_3 =>
      by_cases hlost : job.lost
      · rw [if_pos hlost]
        unfold JobExecution.finish
        apply h.decided hearly _ ⟨by simp, by simp⟩ _ hstarted <;> split <;>
          simp [JobExecution.finalizing?, JobExecution.Early]
      · rw [if_neg hlost]
        by_cases hdeadline : job.deadline
        · rw [if_pos hdeadline]
          apply h.decided hearly _ ⟨by simp, by simp⟩ (by simp [JobExecution.Early]) hstarted
          simp [JobExecution.finalizing?]
        · rw [if_neg hdeadline]
          exact h
  · rw [if_neg hphase]
    exact h

theorem JobExecution.Kept.beat (h : job.Kept) {heartbeat : HeartbeatTask}
    (hbeating : JobExecution.Beating { job with heartbeat := heartbeat }) :
    JobExecution.Kept { job with heartbeat := heartbeat } :=
  { h with signals := fun hstill => absurd hbeating hstill }

theorem JobExecution.Kept.tick (h : job.Kept) : job.tick.Kept := by
  unfold JobExecution.tick
  split
  · exact h.beat (.inr (.inl rfl))
  · exact h

theorem JobExecution.Kept.renewal (h : job.Kept) (answer : Renewal) :
    (job.renewal answer).Kept := by
  unfold JobExecution.renewal
  split
  case isFalse => exact h
  case isTrue =>
    cases answer with
    | renewed =>
      dsimp only
      split
      · exact h.beat (.inl rfl)
      · exact h
    | refused =>
      dsimp only
      split
      · exact h
      · exact h.beat (.inr (.inr rfl))
    | unavailable => exact h.beat (.inl rfl)

theorem JobExecution.Kept.inspected (h : job.Kept) {answer : Option ClaimState}
    (hundisturbed : job.Undisturbed projects (.inspected answer)) :
    (job.inspected answer).Kept := by
  unfold JobExecution.inspected
  split
  case isFalse => exact h
  case isTrue =>
    cases answer with
    | none => exact { h with signals := fun _ => .inr hundisturbed }
    | some state =>
      dsimp only
      by_cases hstate : state = job.claim
      · rw [if_pos hstate]
        cases state with
        | active => exact h.beat (.inl rfl)
        | terminal => exact { h with signals := fun _ => .inr hstate.symm }
        | cancelled | lost =>
          exact { h with
            signals := fun _ => .inl rfl
            revoked := fun _ => by simp [← hstate] }
      · rw [if_neg hstate]
        exact h

theorem JobExecution.Kept.inspect (h : job.Kept) {outcome : ProviderOutcome}
    (hstarted : job.started = true) (hchosen : job.Chosen outcome) (attempt : Nat) :
    JobExecution.Kept { job with phase := .inspecting outcome attempt } := by
  apply h.move (fun _ => hstarted) (by simp [JobExecution.Early])
  intro other hother
  obtain rfl := Option.some.inj hother
  exact hchosen

theorem JobExecution.Kept.successAnswered (h : job.Kept) {outputText : String}
    (hstarted : job.started = true) (hchosen : job.Chosen (.succeeded outputText)) (attempt : Nat)
    {answer : WriteAnswer}
    (hcommitted : answer = .committed →
      ∃ settlement ∈ job.settlement, settlement.status = .succeeded)
    (hrefused : answer = .refused → projects = false) :
    (job.successAnswered projects outputText attempt answer).Kept := by
  cases answer with
  | committed => exact (h.project _ (.inr (hcommitted rfl))).finish _
  | refused => exact (h.project _ (.inl (hrefused rfl))).finish _
  | contention => exact h.retry hstarted hchosen attempt
  | unavailable => exact h.inspect hstarted hchosen attempt

theorem JobExecution.Kept.successWritten (h : job.Kept) {commits : Bool} {answer : WriteAnswer}
    (hundisturbed : job.Undisturbed projects (.successWritten commits answer)) :
    (job.successWritten projects commits answer).Kept := by
  unfold JobExecution.successWritten
  split
  case h_2 => exact h
  case h_1 outputText attempt hphase =>
    have hstarted : job.started = true := h.started (by simp [JobExecution.Running, hphase])
    have hchosen : job.Chosen (.succeeded outputText) :=
      h.finalized _ (by simp [JobExecution.finalizing?, hphase])
    have hrefused : answer = .refused → projects = false := by
      rintro rfl
      exact hundisturbed
    by_cases hfits : job.SuccessFits commits answer
    · rw [if_pos hfits]
      cases commits with
      | true =>
        have hactive : job.claim = .active := by
          cases answer with
          | committed => exact hfits.2
          | refused => cases hfits.1
          | contention => cases hfits
          | unavailable => exact hfits rfl
        have hcommit := h.commit .succeeded
          (by simp [JobExecution.Early, hphase]) hactive hchosen rfl
        exact hcommit.successAnswered hstarted hchosen attempt (fun _ => ⟨_, rfl, rfl⟩) hrefused
      | false =>
        refine h.successAnswered hstarted hchosen attempt ?_ hrefused
        rintro rfl
        cases hfits.1
    · rw [if_neg hfits]
      exact h

theorem JobExecution.Kept.successInspected (h : job.Kept) (answer : Option ClaimState) :
    (job.successInspected answer).Kept := by
  unfold JobExecution.successInspected
  split
  case h_1 => exact h.raised
  case h_3 => exact h
  case h_2 outputText attempt state hphase =>
    have hstarted : job.started = true := h.started (by simp [JobExecution.Running, hphase])
    have hchosen : job.Chosen (.succeeded outputText) :=
      h.finalized _ (by simp [JobExecution.finalizing?, hphase])
    split
    case isFalse => exact h
    case isTrue =>
      cases state with
      | active => exact h.retry hstarted hchosen attempt
      | terminal | cancelled | lost => exact h.finish _

theorem JobExecution.Kept.failureReported (h : job.Kept) {errorCode : String}
    (hstarted : job.started = true) (hchosen : job.Chosen (.failed errorCode)) (attempt : Nat)
    {report : FailureReport} (hfits : job.ReportFits report)
    (hhonest : projects = false ∨ job.HonestReport none report) :
    (job.failureReported projects errorCode attempt report).Kept := by
  cases report with
  | unsettled => exact h.retry hstarted hchosen attempt
  | terminalFailed => exact (h.project ⟨.failed, none, some errorCode⟩ (.inr hfits)).finish _
  | alreadySettled =>
    refine (h.project _ (hhonest.imp_right ?_)).finish _
    rintro (hcommits | hsettled)
    · cases hcommits
    · exact hsettled
  | retryScheduled | unresolved => exact (h.project _ (hhonest.imp_right False.elim)).finish _

theorem JobExecution.Kept.failureAnswered (h : job.Kept) {errorCode : String}
    (hstarted : job.started = true) (hchosen : job.Chosen (.failed errorCode)) (attempt : Nat)
    {answer : FailureAnswer}
    (hhonest : ∀ report, answer = .reported report →
      projects = false ∨ job.HonestReport none report) :
    (job.failureAnswered projects errorCode attempt answer).Kept := by
  cases answer with
  | contention => exact h.retry hstarted hchosen attempt
  | unavailable => exact h.inspect hstarted hchosen attempt
  | reported report =>
    unfold JobExecution.failureAnswered
    dsimp only
    split
    case isFalse => exact h
    case isTrue hfits => exact h.failureReported hstarted hchosen attempt hfits (hhonest report rfl)

theorem JobExecution.Kept.failureWritten (h : job.Kept) {commits : Option FailureOutcome}
    {answer : FailureAnswer}
    (hundisturbed : job.Undisturbed projects (.failureWritten commits answer)) :
    (job.failureWritten projects commits answer).Kept := by
  unfold JobExecution.failureWritten
  split
  case h_3 => exact h
  case h_1 errorCode attempt hphase =>
    have hstarted : job.started = true := h.started (by simp [JobExecution.Running, hphase])
    have hchosen : job.Chosen (.failed errorCode) :=
      h.finalized _ (by simp [JobExecution.finalizing?, hphase])
    apply h.failureAnswered hstarted hchosen attempt
    rintro report rfl
    exact hundisturbed
  case h_2 errorCode attempt outcome hphase =>
    have hstarted : job.started = true := h.started (by simp [JobExecution.Running, hphase])
    have hchosen : job.Chosen (.failed errorCode) :=
      h.finalized _ (by simp [JobExecution.finalizing?, hphase])
    split
    case isFalse => exact h
    case isTrue hactive =>
      have hcommit := h.commit outcome.settled
        (by simp [JobExecution.Early, hphase]) hactive.1 hchosen
        (by cases outcome <;> simp [JobSettlement.Fits, FailureOutcome.settled])
      apply hcommit.failureAnswered hstarted hchosen attempt
      rintro report rfl
      -- what this write committed is what its report may speak of
      refine hundisturbed.imp_right fun hhonest => ?_
      cases report with
      | retryScheduled | unresolved => exact hhonest.elim
      | terminalFailed | unsettled => trivial
      | alreadySettled =>
        refine .inr ⟨_, rfl, ?_⟩
        rcases hhonest with hcommits | ⟨settlement, hsettlement, -⟩
        · obtain rfl := Option.some.inj hcommits
          rfl
        · have hterminal := (h.settled settlement hsettlement).1
          rw [hactive.1] at hterminal
          cases hterminal

theorem JobExecution.Kept.failureInspected (h : job.Kept) {answer : Option FailureReport}
    (hundisturbed : job.Undisturbed projects (.failureInspected answer)) :
    (job.failureInspected projects answer).Kept := by
  unfold JobExecution.failureInspected
  split
  case h_1 => exact h.raised
  case h_3 => exact h
  case h_2 errorCode attempt report hphase =>
    have hstarted : job.started = true := h.started (by simp [JobExecution.Running, hphase])
    have hchosen : job.Chosen (.failed errorCode) :=
      h.finalized _ (by simp [JobExecution.finalizing?, hphase])
    split
    case isFalse => exact h
    case isTrue hfits => exact h.failureReported hstarted hchosen attempt hfits hundisturbed

theorem JobExecution.Kept.rested (h : job.Kept) : job.rested.Kept := by
  unfold JobExecution.rested
  split
  case h_2 => exact h
  case h_1 outcome attempt hphase =>
    apply h.move (fun _ => h.started (by simp [JobExecution.Running, hphase]))
      (by simp [JobExecution.Early])
    intro other hother
    obtain rfl := Option.some.inj hother
    exact h.finalized _ (by simp [JobExecution.finalizing?, hphase])

theorem JobExecution.Kept.claimMoves (h : job.Kept) (claim : ClaimState) :
    (job.claimMoves claim).Kept := by
  unfold JobExecution.claimMoves
  split
  case isFalse => exact h
  case isTrue hmoves =>
    have hopen : job.claim ≠ .terminal := by
      rcases hmoves.2 with hclaim | hclaim <;> rw [hclaim] <;> decide
    refine { h with settled := ?_, signals := ?_, revoked := fun _ => hmoves.1 }
    · intro settlement hsettlement
      exact absurd (h.settled settlement hsettlement).1 hopen
    · intro hstill
      exact .inl ((h.signals hstill).resolve_right hopen)

theorem JobExecution.Kept.exec (h : job.Kept) {event : ExecutionEvent}
    (hundisturbed : job.Undisturbed projects event) : (job.exec projects event).Kept := by
  cases event with
  | start committed => exact h.start committed
  | prepared preparation => exact h.prepared preparation
  | providerAnswers answer => exact h.providerAnswers answer
  | deadlineFires => exact h.deadlineFires
  | decide => exact h.decide
  | tick => exact h.tick
  | renewal answer => exact h.renewal answer
  | inspected answer => exact h.inspected hundisturbed
  | successWritten commits answer => exact h.successWritten hundisturbed
  | successInspected answer => exact h.successInspected answer
  | failureWritten commits answer => exact h.failureWritten hundisturbed
  | failureInspected answer => exact h.failureInspected hundisturbed
  | rested => exact h.rested
  | claimMoves claim => exact h.claimMoves claim

end Steps

/-- Along every interleaving that is undisturbed. -/
theorem truthful_settlement (projects : Bool) {job : JobExecution}
    (h : (jobExecutions projects).ReachableAlong (fun job => job.Undisturbed projects) job) :
    job.Truthful := by
  have hkept : job.Kept := by
    apply h.invariant
    · constructor <;>
        simp [jobExecutions, JobExecution.Running, JobExecution.finalizing?, JobExecution.Beating]
    · intro before event hbefore hundisturbed
      exact hbefore.exec hundisturbed
  exact hkept.truthful

def jobRun (events : List ExecutionEvent) : JobExecution :=
  (jobExecutions true).run events (jobExecutions true).init

def answeredEvents : List ExecutionEvent :=
  [.start true, .prepared .ready, .tick, .renewal .renewed,
    .providerAnswers (.ok (.succeeded "done")), .decide, .successWritten true .committed]

theorem truthful_settlement_answered :
    (jobRun answeredEvents).projections = [⟨.succeeded, some "done", none⟩] ∧
      (jobRun answeredEvents).Truthful :=
  ⟨rfl, truthful_settlement true ⟨answeredEvents,
    ⟨trivial, trivial, trivial, trivial, trivial, trivial, trivial, trivial⟩, rfl⟩⟩

def refusedEvents : List ExecutionEvent :=
  [.start true, .prepared .ready, .providerAnswers (.ok (.succeeded "done")), .decide,
    .claimMoves .lost, .successWritten false .refused]

def deafEvents : List ExecutionEvent :=
  [.start true, .prepared .ready, .claimMoves .lost, .tick, .renewal .refused, .inspected none]

/-- The refused write is projected as a success, and the lost claim is never signalled. -/
theorem untruthful_settlement_refusedOrDeaf :
    ((jobExecutions true).Reachable (jobRun refusedEvents) ∧
      ¬ (jobRun refusedEvents).Truthful) ∧
    (jobExecutions true).Reachable (jobRun deafEvents) ∧ ¬ (jobRun deafEvents).Truthful := by
  refine ⟨⟨⟨refusedEvents, rfl⟩, ?_⟩, ⟨deafEvents, rfl⟩, ?_⟩
  · intro h
    obtain ⟨settlement, hsettlement, -⟩ :=
      h.projected ⟨.succeeded, some "done", none⟩ (List.mem_singleton_self _)
    cases hsettlement
  · intro h
    have hstill : ¬ (jobRun deafEvents).Beating := by
      rintro (hbeat | hbeat | hbeat) <;> cases hbeat
    rcases h.signals trivial hstill with hlost | hterminal
    · cases hlost
    · cases hterminal

end NervOS
