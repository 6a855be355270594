/-
The execution of one claimed Job: the start, the race of provider, authority loss and deadline,
the heartbeat beside it, and the finalization with its bounded retries.  The tasks interleave at
every await, and others may move the claim in between.
-/
import NervOS.Application.Execution
import NervOS.Relational.Machine

namespace NervOS

open Relational

inductive ClaimState where
  | active
  | terminal
  | cancelled
  | lost
deriving DecidableEq

/-- What an execution comes to, as far as its settlement reads it. -/
inductive ProviderOutcome where
  | succeeded (outputText : String)
  | failed (errorCode : String)
deriving DecidableEq

/-- What is read before the provider is called: its completion may be missing, the context
snapshot may be unusable, or a read may fail. -/
inductive JobPreparation where
  | noCompletion
  | unusableSnapshot
  | ready
  | unavailable
deriving DecidableEq

inductive Renewal where
  | renewed
  | refused
  | unavailable
deriving DecidableEq

/-- How `succeed` answers: `True`, `False`, or one of the two persistence failures. -/
inductive WriteAnswer where
  | committed
  | refused
  | contention
  | unavailable
deriving DecidableEq

/-- The `FailureOutcome`s that a settlement of a failure reports. -/
inductive FailureReport where
  | retryScheduled
  | terminalFailed
  | alreadySettled
  | unsettled
  | unresolved
deriving DecidableEq

/-- How `record_failure` answers. -/
inductive FailureAnswer where
  | reported (report : FailureReport)
  | contention
  | unavailable
deriving DecidableEq

inductive SettledStatus where
  | succeeded
  | failed
  | retryScheduled
deriving DecidableEq

def FailureOutcome.settled : FailureOutcome → SettledStatus
  | .retryScheduled => .retryScheduled
  | .terminalFailed => .failed

def persistenceFinalizationAttempts : Nat := 5

inductive HeartbeatTask where
  | sleeping
  | renewing
  | inspecting
  | stopped
  | failed
deriving DecidableEq

inductive ProviderTask where
  | idle
  | running
  | done (answer : Except Unit ProviderOutcome)

inductive ExecutionPhase where
  | starting
  | preparing
  | racing
  | writing (outcome : ProviderOutcome) (attempt : Nat)
  | inspecting (outcome : ProviderOutcome) (attempt : Nat)
  | resting (outcome : ProviderOutcome) (attempt : Nat)
  | returned (outcome : Option ProviderOutcome)
  | raised
deriving DecidableEq

structure RaceDecision where
  provider : Option (Except Unit ProviderOutcome)
  lost : Bool
  accepted : Option ProviderOutcome

structure JobSettlement where
  outcome : ProviderOutcome
  status : SettledStatus
  lostBefore : Bool
deriving DecidableEq

structure ProjectionRequest where
  status : SettledStatus
  outputText : Option String
  errorCode : Option String
deriving DecidableEq

structure JobExecution where
  phase : ExecutionPhase := .starting
  heartbeat : HeartbeatTask := .sleeping
  provider : ProviderTask := .idle
  deadline : Bool := false
  lost : Bool := false
  claim : ClaimState := .active
  started : Bool := false
  invocations : Nat := 0
  decision : Option RaceDecision := none
  settlement : Option JobSettlement := none
  projections : List ProjectionRequest := []

inductive ExecutionEvent where
  | start (committed : Bool)
  | prepared (preparation : JobPreparation)
  | providerAnswers (answer : Except Unit ProviderOutcome)
  | deadlineFires
  | decide
  | tick
  | renewal (answer : Renewal)
  | inspected (answer : Option ClaimState)
  | successWritten (commits : Bool) (answer : WriteAnswer)
  | successInspected (answer : Option ClaimState)
  | failureWritten (commits : Option FailureOutcome) (answer : FailureAnswer)
  | failureInspected (answer : Option FailureReport)
  | rested
  | claimMoves (claim : ClaimState)

namespace JobExecution

variable (projects : Bool) (job : JobExecution)

/-- `execute` waits for the heartbeat, and its failure takes the place of the result. -/
def finish (outcome : Option ProviderOutcome) : JobExecution :=
  { job with phase := if job.heartbeat = .failed then .raised else .returned outcome }

/-- The heartbeat and the race run between the start and the end. -/
def Running : Prop :=
  match job.phase with
  | .starting | .returned _ | .raised => False
  | .preparing | .racing | .writing _ _ | .inspecting _ _ | .resting _ _ => True

instance : Decidable job.Running := by
  unfold Running
  split <;> infer_instance

def start (committed : Bool) : JobExecution :=
  if job.phase = .starting then
    if committed then
      if job.claim = .active then { job with phase := .preparing, started := true } else job
    else { job with phase := .returned none }
  else job

def prepared (preparation : JobPreparation) : JobExecution :=
  if job.phase = .preparing then
    match preparation with
    | .noCompletion => job.finish none
    | .unusableSnapshot => { job with phase := .writing (.failed internalExecutionError) 0 }
    | .ready =>
      { job with
        phase := .racing
        provider := .running
        invocations := job.invocations + 1 }
    | .unavailable => { job with phase := .raised }
  else job

def providerAnswers (answer : Except Unit ProviderOutcome) : JobExecution :=
  match job.phase, job.provider with
  | .racing, .running => { job with provider := .done answer }
  | _, _ => job

def deadlineFires : JobExecution :=
  if job.phase = .racing then { job with deadline := true } else job

def decide : JobExecution :=
  if job.phase = .racing then
    match job.provider with
    | .done (.ok outcome) =>
      { job with
        phase := .writing outcome 0
        decision := some ⟨some (.ok outcome), job.lost, some outcome⟩ }
    | .done (.error error) =>
      { job with
        phase := .raised
        decision := some ⟨some (.error error), job.lost, none⟩ }
    | _ =>
      if job.lost then
        { job.finish none with decision := some ⟨none, true, none⟩ }
      else if job.deadline then
        { job with
          phase := .writing (.failed modelTimedOut) 0
          decision := some ⟨none, false, some (.failed modelTimedOut)⟩ }
      else job
  else job

def tick : JobExecution :=
  if job.Running ∧ job.heartbeat = .sleeping then { job with heartbeat := .renewing } else job

def renewal (answer : Renewal) : JobExecution :=
  if job.Running ∧ job.heartbeat = .renewing then
    match answer with
    | .renewed => if job.claim = .active then { job with heartbeat := .sleeping } else job
    | .refused => if job.claim = .active then job else { job with heartbeat := .inspecting }
    | .unavailable => { job with heartbeat := .sleeping }
  else job

/-- Nothing catches an inspection that fails. -/
def inspected (answer : Option ClaimState) : JobExecution :=
  if job.Running ∧ job.heartbeat = .inspecting then
    match answer with
    | none => { job with heartbeat := .failed }
    | some state =>
      if state = job.claim then
        match state with
        | .active => { job with heartbeat := .sleeping }
        | .terminal => { job with heartbeat := .stopped }
        | .cancelled | .lost => { job with heartbeat := .stopped, lost := true }
      else job
  else job

def commit (outcome : ProviderOutcome) (status : SettledStatus) : JobExecution :=
  { job with claim := .terminal, settlement := some ⟨outcome, status, job.lost⟩ }

/-- Rest before the next attempt, or give up. -/
def retry (outcome : ProviderOutcome) (attempt : Nat) : JobExecution :=
  if attempt + 1 < persistenceFinalizationAttempts then
    { job with phase := .resting outcome (attempt + 1) }
  else job.finish (some outcome)

def project (request : ProjectionRequest) : JobExecution :=
  if projects then { job with projections := job.projections ++ [request] } else job

def successAnswered (outputText : String) (attempt : Nat) : WriteAnswer → JobExecution
  | .committed | .refused =>
    (job.project projects ⟨.succeeded, some outputText, none⟩).finish
      (some (.succeeded outputText))
  | .contention => job.retry (.succeeded outputText) attempt
  | .unavailable => { job with phase := .inspecting (.succeeded outputText) attempt }

def SuccessFits (commits : Bool) : WriteAnswer → Prop
  | .committed => commits = true ∧ job.claim = .active
  | .refused => commits = false ∧ job.claim ≠ .active
  | .contention => commits = false
  | .unavailable => commits = true → job.claim = .active

instance (commits : Bool) (answer : WriteAnswer) : Decidable (job.SuccessFits commits answer) := by
  unfold SuccessFits
  split <;> infer_instance

def successWritten (commits : Bool) (answer : WriteAnswer) : JobExecution :=
  match job.phase with
  | .writing (.succeeded outputText) attempt =>
    if job.SuccessFits commits answer then
      (if commits then job.commit (.succeeded outputText) .succeeded else job).successAnswered
        projects outputText attempt answer
    else job
  | _ => job

def successInspected (answer : Option ClaimState) : JobExecution :=
  match job.phase, answer with
  | .inspecting (.succeeded _) _, none => { job with phase := .raised }
  | .inspecting (.succeeded outputText) attempt, some state =>
    if state = job.claim then
      match state with
      | .active => job.retry (.succeeded outputText) attempt
      | .terminal | .cancelled | .lost => job.finish (some (.succeeded outputText))
    else job
  | _, _ => job

/-- What a report says of the durable rows. -/
def ReportFits : FailureReport → Prop
  | .retryScheduled => ∃ settled ∈ job.settlement, settled.status = .retryScheduled
  | .terminalFailed => ∃ settled ∈ job.settlement, settled.status = .failed
  | .alreadySettled => job.claim = .terminal
  | .unsettled => job.claim = .active
  | .unresolved => job.claim ≠ .active

instance (report : FailureReport) : Decidable (job.ReportFits report) := by
  unfold ReportFits
  split <;> infer_instance

/-- Only an unsettled report is written again, and every other one is projected. -/
def failureReported (errorCode : String) (attempt : Nat) : FailureReport → JobExecution
  | .unsettled => job.retry (.failed errorCode) attempt
  | .retryScheduled | .terminalFailed | .alreadySettled | .unresolved =>
    (job.project projects ⟨.failed, none, some errorCode⟩).finish (some (.failed errorCode))

def failureAnswered (errorCode : String) (attempt : Nat) : FailureAnswer → JobExecution
  | .reported report =>
    if job.ReportFits report then job.failureReported projects errorCode attempt report else job
  | .contention => job.retry (.failed errorCode) attempt
  | .unavailable => { job with phase := .inspecting (.failed errorCode) attempt }

def failureWritten (commits : Option FailureOutcome) (answer : FailureAnswer) : JobExecution :=
  match job.phase, commits with
  | .writing (.failed errorCode) attempt, none =>
    job.failureAnswered projects errorCode attempt answer
  | .writing (.failed errorCode) attempt, some outcome =>
    if job.claim = .active ∧ answer ≠ .contention then
      (job.commit (.failed errorCode) outcome.settled).failureAnswered projects errorCode attempt
        answer
    else job
  | _, _ => job

def failureInspected (answer : Option FailureReport) : JobExecution :=
  match job.phase, answer with
  | .inspecting (.failed _) _, none => { job with phase := .raised }
  | .inspecting (.failed errorCode) attempt, some report =>
    if job.ReportFits report then job.failureReported projects errorCode attempt report else job
  | _, _ => job

def rested : JobExecution :=
  match job.phase with
  | .resting outcome attempt => { job with phase := .writing outcome attempt }
  | _ => job

/-- The lease lapses, the Run is cancelled, or somebody else settles the Attempt. -/
def claimMoves (claim : ClaimState) : JobExecution :=
  if claim ≠ .active ∧ (job.claim = .active ∨ job.claim = .lost) then
    { job with claim := claim }
  else job

def exec : ExecutionEvent → JobExecution
  | .start committed => job.start committed
  | .prepared preparation => job.prepared preparation
  | .providerAnswers answer => job.providerAnswers answer
  | .deadlineFires => job.deadlineFires
  | .decide => job.decide
  | .tick => job.tick
  | .renewal answer => job.renewal answer
  | .inspected answer => job.inspected answer
  | .successWritten commits answer => job.successWritten projects commits answer
  | .successInspected answer => job.successInspected answer
  | .failureWritten commits answer => job.failureWritten projects commits answer
  | .failureInspected answer => job.failureInspected projects answer
  | .rested => job.rested
  | .claimMoves claim => job.claimMoves claim

end JobExecution

/-- Every interleaving of one execution; `projects` says whether there is a projection. -/
def jobExecutions (projects : Bool) : Machine JobExecution ExecutionEvent where
  init := {}
  exec event job := job.exec projects event

end NervOS
