/-
What may happen to one workflow, as a protocol of its own: the acts of the Scheduler,
the Worker and the owner, each with the moves that it is meant to allow.
-/
import NervOS.Workflow.View

namespace NervOS

open Relational

inductive WorkflowAct where
  | tick (now : Instant)
  | commit (runId : Nat) (result : WorkflowStepResult) (now : Instant)
  | deliver (delivery : SignalDelivery)
  | decide (verdict : Verdict)
  | setPaused (paused : Bool) (now : Instant)
  | cancel (now : Instant)

namespace Workflow

section Readings

variable (w : Workflow)

/-- The checkpoint of the highest revision that is still retained. -/
def latest : Option WorkflowCheckpointRecord :=
  w.checkpoints.foldl laterCheckpoint none

/-- The next step would resume from this state. -/
def Resumes (state : FrozenState) : Prop :=
  match w.latest with
  | none => state = emptyState
  | some checkpoint => loadState checkpoint.stateJson = some state

def Blocked : Prop :=
  w.execution.waitKind = some .signal ∨ w.execution.waitKind = some .ownerDecision

/-- The unconsumed approvals of what the last committed step proposed. -/
def approvals : List WorkflowDecisionRecord :=
  w.decisions.filter fun decision =>
    decision.checkpointRevision + 1 = w.execution.checkpointRevision ∧
      decision.state = .approved ∧ decision.consumedAt = none

/-- The decisions once the approval, if there is one, was spent. -/
def spend (approved : Option WorkflowDecisionRecord) (now : Instant) :
    List WorkflowDecisionRecord :=
  match approved with
  | none => w.decisions
  | some approved =>
    w.decisions.map <| Table.amend
      (fun decision => decision.id = approved.id ∧ decision.consumedAt = none)
      (WorkflowDecisionRecord.consume now)

def Identifies (decision : WorkflowDecisionRecord) : Prop :=
  decision ∈ w.decisions ∧ ∀ row ∈ w.decisions, row.id = decision.id → row = decision

/-- A tick may go on to the next step, with this approval if there is one. -/
structure Clears (approved : Option WorkflowDecisionRecord) (now : Instant) : Prop where
  ready : w.execution.status.IsDispatchable
  unblocked : ¬ w.Blocked
  timely : now < w.execution.deadlineAt
  single : w.approvals.length ≤ 1
  head : approved = w.approvals.head?
  identified : ∀ decision ∈ approved, w.Identifies decision
  unexpired : ∀ decision ∈ approved, now < decision.expiresAt

end Readings

structure Dispatch (core : Tables) (w : Workflow) (now : Instant) where
  run : RunRecord
  executable : ExecutableSnapshot
  state : FrozenState
  stepId : Nat
  approved : Option WorkflowDecisionRecord
  clears : w.Clears approved now
  resumes : w.Resumes state
  found : core.runs.find run.id = some run
  identity : w.execution.identity = run.identity executable
  accepts : acceptsReservation w.execution.reservations w.execution.budget
    (reservationFor run.limits)
  steps : w.execution.stepCount + 1 ≤ w.execution.budget.maxSteps

namespace Dispatch

variable {core : Tables} {w : Workflow} {now : Instant} (dispatch : Dispatch core w now)

def step : WorkflowStepRecord where
  id := dispatch.stepId
  workflowId := w.execution.id
  stepNumber := w.execution.stepCount + 1
  runId := some dispatch.run.id
  expectedCheckpointRevision := w.execution.checkpointRevision
  stateJson := dispatch.state.text
  stateDigest := stateDigest dispatch.state
  status := .running
  createdAt := now

def after : Workflow :=
  { w with
    execution := w.execution.dispatch (reservationFor dispatch.run.limits) now w.execution
    steps := w.steps ++ [dispatch.step]
    decisions := w.spend dispatch.approved now }

end Dispatch

structure Commit (w : Workflow) (runId : Nat) where
  step : WorkflowStepRecord
  checkpointId : Nat
  decisionId : Nat
  owned : step ∈ w.steps
  linked : step.runId = some runId
  running : step.status = .running
  expected : step.expectedCheckpointRevision = w.execution.checkpointRevision
  parent : w.execution.status = .running
  workflowId : step.workflowId = w.execution.id

namespace Commit

variable {w : Workflow} {runId : Nat} (commit : Commit w runId) (result : WorkflowStepResult)
  (now : Instant)

def checkpoint : WorkflowCheckpointRecord :=
  result.checkpoint commit.step (w.execution.checkpointRevision + 1) now commit.checkpointId

def decision : Option WorkflowDecisionRecord :=
  result.decisionRequest.map fun request =>
    request.decision w.execution now commit.decisionId

def retained : List WorkflowCheckpointRecord :=
  (w.checkpoints ++ [commit.checkpoint result now]).filter fun row =>
    ¬ row.revision + w.execution.budget.maxRetainedCheckpoints ≤
      w.execution.checkpointRevision + 1

def after : Workflow :=
  { w with
    execution :=
      w.execution.commit result.directive (w.execution.checkpointRevision + 1) now
    steps := w.steps.map <| Table.amend
      (fun row => row.id = commit.step.id ∧ row.status = .running)
      (WorkflowStepRecord.succeed result.summary now)
    checkpoints := commit.retained result now
    decisions := w.decisions ++ (commit.decision result now).toList }

end Commit

structure Decides (w : Workflow) (verdict : Verdict) (decision : WorkflowDecisionRecord) :
    Prop where
  identified : w.Identifies decision
  id : decision.id = verdict.decisionId
  workflow : w.execution.id = verdict.workflowId
  owner : w.execution.ownerUserId = verdict.ownerUserId
  decisionOwner : decision.ownerUserId = verdict.ownerUserId
  pending : decision.state = .pending
  revision : decision.checkpointRevision = verdict.expectedRevision
  package : w.execution.identity.executable.packageContentDigest =
    decision.packageContentDigest
  configuration : w.execution.identity.executable.effectiveConfigDigest =
    decision.effectiveConfigDigest
  unexpired : verdict.now < decision.expiresAt

def decided (w : Workflow) (verdict : Verdict) : Workflow :=
  { w with
    execution := Table.amend verdict.Awaited (WorkflowExecutionRecord.decide verdict) w.execution
    decisions := w.decisions.map <| Table.amend
      (fun row => row.id = verdict.decisionId ∧ row.state = .pending)
      (WorkflowDecisionRecord.close verdict.state verdict.now) }

inductive Moves (core : Tables) : WorkflowAct → Workflow → Workflow → Prop
  /-- It was examined and could not go on. -/
  | rotate {w : Workflow} {now : Instant} (active : ¬ w.execution.status.IsTerminal) :
      Moves core (.tick now) w { w with execution := w.execution.touch now }
  /-- The Run of its step ended without a commit. -/
  | loseRun {w : Workflow} {now : Instant} (running : w.execution.status = .running) :
      Moves core (.tick now) w
        { w with
          execution := w.execution.finish .needsReview .runTerminal now
          steps := w.steps.map <| Table.amend (fun step => step.status = .running)
            (WorkflowStepRecord.fail now) }
  | miss {w : Workflow} {now : Instant} (ready : w.execution.status.IsDispatchable)
      (late : w.execution.deadlineAt ≤ now) :
      Moves core (.tick now) w
        { w with execution := w.execution.finish .failed .deadlineExceeded now }
  /-- Its budget is spent, or what it was pinned to is gone. -/
  | close {w : Workflow} {now : Instant} {status : WorkflowStatus} {reason : ReviewReason}
      (ready : w.execution.status.IsDispatchable) (unblocked : ¬ w.Blocked)
      (closes : status = .failed ∨ status = .needsReview) :
      Moves core (.tick now) w { w with execution := w.execution.finish status reason now }
  | loseAuthority {w : Workflow} {now : Instant} {approved : WorkflowDecisionRecord}
      (ready : w.execution.status.IsDispatchable) (unblocked : ¬ w.Blocked)
      (head : w.approvals.head? = some approved) (identified : w.Identifies approved)
      (expired : approved.expiresAt ≤ now) :
      Moves core (.tick now) w
        { w with
          execution := w.execution.finish .needsReview .authorityLost now
          decisions := w.decisions.map <| Table.amend (fun row => row.id = approved.id)
            WorkflowDecisionRecord.expire }
  /-- A step of the next number is there already. -/
  | relink {w : Workflow} {now : Instant} {step : WorkflowStepRecord}
      {approved : Option WorkflowDecisionRecord} (clears : w.Clears approved now)
      (owned : step ∈ w.steps) (number : step.stepNumber = w.execution.stepCount + 1) :
      Moves core (.tick now) w { w with decisions := w.spend approved now }
  | dispatch {w : Workflow} {now : Instant} (dispatch : Dispatch core w now) :
      Moves core (.tick now) w dispatch.after
  | commit {w : Workflow} {runId : Nat} {result : WorkflowStepResult} {now : Instant}
      (commit : Commit w runId) :
      Moves core (.commit runId result now) w (commit.after result now)
  /-- The Run of a cancelled workflow ended well, which advances nothing. -/
  | finishLate {w : Workflow} {runId : Nat} {result : WorkflowStepResult} {now : Instant}
      {step : WorkflowStepRecord} (owned : step ∈ w.steps) (linked : step.runId = some runId)
      (cancelled : w.execution.status = .cancelled) :
      Moves core (.commit runId result now) w
        { w with
          steps := w.steps.map <| Table.amend (fun row => row.id = step.id)
            (WorkflowStepRecord.finishLate now) }
  | wake {w : Workflow} {delivery : SignalDelivery} {signalId : Nat}
      (workflow : w.execution.id = delivery.workflowId)
      (accepted : delivery.verdict w.execution = .accepted)
      (unused : ∀ signal ∈ w.signals, signal.signalKey ≠ delivery.signalKey) :
      Moves core (.deliver delivery) w
        { w with
          execution := w.execution.wake delivery.now
          signals := w.signals ++ [delivery.signal signalId] }
  | decide {w : Workflow} {verdict : Verdict} {decision : WorkflowDecisionRecord}
      (decides : w.Decides verdict decision) :
      Moves core (.decide verdict) w (w.decided verdict)
  | setPaused {w : Workflow} {paused : Bool} {now : Instant}
      (active : ¬ w.execution.status.IsTerminal) :
      Moves core (.setPaused paused now) w
        { w with execution := w.execution.setPaused paused now }
  | cancel {w : Workflow} {now : Instant} (active : ¬ w.execution.status.IsTerminal) :
      Moves core (.cancel now) w
        { w with
          execution := w.execution.cancel now
          decisions := w.decisions.map <| Table.amend (fun row => row.state = .pending)
            (WorkflowDecisionRecord.close .cancelled now) }

section Facts

variable {w : Workflow}

theorem waits_of_accepted {delivery : SignalDelivery}
    (h : delivery.verdict w.execution = .accepted) :
    w.execution.status = .waiting ∧ w.execution.waitKind = some .signal ∧
      w.execution.signalKey = some delivery.signalKey ∧
      delivery.expectedRevision = w.execution.checkpointRevision := by
  unfold SignalDelivery.verdict at h
  split at h
  · cases h
  split at h
  · cases h
  · rename_i hrevision
    split at h
    · cases h
    · rename_i hwaits
      simp only [not_or, not_not] at hwaits hrevision
      exact ⟨hwaits.1, hwaits.2.1, hwaits.2.2, hrevision⟩

theorem target_allowed (directive : WorkflowDirective) :
    directive.target ∈ allowedTransitions .running := by
  unfold WorkflowDirective.target
  split <;> decide

theorem decided_execution (w : Workflow) (verdict : Verdict) :
    (verdict.Awaited w.execution ∧ (w.decided verdict).execution = w.execution.decide verdict) ∨
      (¬ verdict.Awaited w.execution ∧ (w.decided verdict).execution = w.execution) := by
  by_cases hawaited : verdict.Awaited w.execution
  · exact Or.inl ⟨hawaited, Table.amend_of_pos hawaited⟩
  · exact Or.inr ⟨hawaited, Table.amend_of_neg hawaited⟩

end Facts

structure Opens (core : Tables) (w : Workflow) (request : WorkflowCreationRequest)
    (run : RunRecord) : Prop where
  execution : ∃ executable, w.execution = request.execution run executable w.execution.id
  steps : ∃ stepId, w.steps = [request.firstStep w.execution.id run.id stepId]
  checkpoints : w.checkpoints = []
  signals : w.signals = []
  decisions : w.decisions = []
  found : core.runs.find run.id = some run
  limits : run.limits = request.limits
  accepts : acceptsReservation {} request.budget (reservationFor request.limits)
  loads : w.execution.Loads

end Workflow

end NervOS
