/-
Creation of a workflow, the continuation writer beside the canonical insertion
of a Run, and the Scheduler tick that advances due workflows.
-/
import Mathlib.Data.List.Sort
import NervOS.Database.WorkflowModels
import NervOS.Database.Submission

namespace NervOS

open Relational

structure WorkflowExecutionRecord.Loads (execution : WorkflowExecutionRecord) : Prop where
  positive : 0 < execution.id ∧ 0 < execution.ownerUserId ∧ 0 < execution.agentInstanceId
  kind : ValidSafeKey execution.workflowKind
  submission : ValidSafeKey execution.submissionKey
  steps : execution.stepCount ≤ execution.budget.maxSteps
  signal : ∀ key ∈ execution.signalKey, ValidSafeKey key
  decision : ∀ key ∈ execution.decisionKey, key.ValidSafeKey

instance : DecidablePred WorkflowExecutionRecord.Loads := fun _ =>
  decidable_of_iff (_ ∧ _ ∧ _ ∧ _ ∧ _ ∧ _)
    ⟨fun h => ⟨h.1, h.2.1, h.2.2.1, h.2.2.2.1, h.2.2.2.2.1, h.2.2.2.2.2⟩,
    fun h => ⟨h.1, h.2, h.3, h.4, h.5, h.6⟩⟩

def reloadExecution (workflowId : Nat) : WorkflowConnection WorkflowExecutionRecord := do
  let row ← Tx.query fun db => db.own.executions.find workflowId
  let execution ← Tx.ofExcept (row.elim (.error .workflowNotFound) .ok)
  Tx.require execution.Loads .invalidWorkflow
  pure execution

theorem commits_reload {workflowId : Nat} {db db' : WorkflowDatabase}
    {execution : WorkflowExecutionRecord} :
    (reloadExecution workflowId).Commits db execution db' ↔
      db.1.own.executions.find workflowId = some execution ∧ execution.Loads ∧ db' = db := by
  simp only [reloadExecution, Tx.commits_bind, Tx.commits_query, Tx.commits_found,
    Tx.commits_require, Tx.commits_pure]
  constructor
  · rintro ⟨_, db, ⟨rfl, rfl⟩, _, db, ⟨hfind, rfl⟩, _, db, ⟨hloads, rfl⟩, rfl, rfl⟩
    exact ⟨hfind, hloads, rfl⟩
  · rintro ⟨hfind, hloads, rfl⟩
    exact ⟨_, db', ⟨rfl, rfl⟩, execution, db', ⟨hfind, rfl⟩, (), db', ⟨hloads, rfl⟩, rfl, rfl⟩

/-- What the context, package and integration subsystems make of a submission: the
text that is stored, or their failure, and the executable that is pinned. -/
structure Preparation where
  assemble : String → Except PersistenceError String
  executable : ExecutableSnapshot

def insertedRun (submission : Submission) : WorkflowConnection RunRecord := do
  let runId ← onEngine (insertRunAndJobOnConnection submission)
  let run ← Tx.query fun db => db.core.runs.find runId
  Tx.ofExcept (run.elim (.error (.persistence .persistenceUnavailable)) .ok)

structure WorkflowCreationRequest where
  ownerUserId : Nat
  agentInstanceId : Nat
  workflowKind : String
  submissionKey : String
  inputText : String
  limits : RunLimits
  definitionId : Option AgentDefinitionId
  budget : WorkflowBudget
  now : Instant
  maxActive : Nat := 16
  capacity : Nat := 1000
  agentCapacity : Nat := 1000
  providerCapacity : Nat := 1000

namespace WorkflowCreationRequest

variable (request : WorkflowCreationRequest)

/-- The canonical creation content, which identifies a replay. -/
def digest : Digest :=
  .text (Json.canonicalText (.obj [
    ("agent_instance_id", .int request.agentInstanceId),
    ("deadline_hours", .int request.budget.deadlineHours),
    ("input_text", .str request.inputText),
    ("max_steps", .int request.budget.maxSteps),
    ("model_calls", .int request.budget.modelCallReservation),
    ("output_tokens", .int request.budget.outputTokenReservation),
    ("tool_calls", .int request.budget.toolCallReservation),
    ("workflow_kind", .str request.workflowKind)]))

def submission (preparation : Preparation) : Submission where
  ownerUserId := request.ownerUserId
  agentInstanceId := request.agentInstanceId
  accepted := preparation.assemble request.inputText
  limits := request.limits
  definitionId := request.definitionId
  now := request.now
  maxAttempts := workflowJobMaxAttempts
  capacity := request.capacity
  agentCapacity := request.agentCapacity
  providerCapacity := request.providerCapacity

def execution (run : RunRecord) (executable : ExecutableSnapshot) (id : Nat) :
    WorkflowExecutionRecord where
  id := id
  ownerUserId := request.ownerUserId
  agentInstanceId := request.agentInstanceId
  workflowKind := request.workflowKind
  submissionKey := request.submissionKey
  submissionDigest := request.digest
  status := .running
  paused := false
  checkpointRevision := 0
  stepCount := 1
  budget := request.budget
  reservations := reservationFor request.limits
  deadlineAt := request.budget.deadlineAt request.now
  identity := run.identity executable
  createdAt := request.now
  updatedAt := request.now

def firstStep (workflowId runId id : Nat) : WorkflowStepRecord where
  id := id
  workflowId := workflowId
  stepNumber := 1
  runId := some runId
  expectedCheckpointRevision := 0
  stateJson := emptyState.text
  stateDigest := stateDigest emptyState
  status := .running
  createdAt := request.now

end WorkflowCreationRequest

def createWorkflowWithStep (request : WorkflowCreationRequest) (preparation : Preparation) :
    WorkflowConnection WorkflowExecutionRecord := do
  let existing ← Tx.query fun db => db.own.executions.rows.find? fun row =>
    row.ownerUserId = request.ownerUserId ∧ row.submissionKey = request.submissionKey
  match existing with
  | some row => do
    Tx.require (row.submissionDigest = request.digest)
      (.workflowConflict "submission identity already exists with different content")
    Tx.require row.Loads .invalidWorkflow
    pure row
  | none => do
    let active ← Tx.query fun db => db.own.executions.rows.countP fun row =>
      row.ownerUserId = request.ownerUserId ∧ ¬ row.status.IsTerminal
    Tx.require (active < request.maxActive) .workflowCapacityExceeded
    Tx.require (acceptsReservation {} request.budget (reservationFor request.limits))
      (.workflowConflict "initial step exceeds cumulative reservation")
    let run ← insertedRun (request.submission preparation)
    let workflowId ← Tx.insert (request.execution run preparation.executable)
    let _ ← Tx.insert (request.firstStep workflowId run.id)
    reloadExecution workflowId

structure Continuation where
  workflowId : Nat
  stepNumber : Nat
  checkpointState : FrozenState
  expectedRevision : Nat
  limits : RunLimits
  now : Instant
  capacity : Nat
  agentCapacity : Nat
  providerCapacity : Nat
  preparation : Preparation

def stepInputText (workflowKind : String) (stepNumber revision : Nat) : String :=
  Json.canonicalText (.obj [("revision", .int revision), ("step", .int stepNumber),
    ("workflow", .str workflowKind)])

namespace Continuation

variable (continuation : Continuation)

def submission (current : WorkflowExecutionRecord) : Submission where
  ownerUserId := current.ownerUserId
  agentInstanceId := current.agentInstanceId
  accepted := continuation.preparation.assemble
    (stepInputText current.workflowKind continuation.stepNumber continuation.expectedRevision)
  limits := continuation.limits
  definitionId := none
  now := continuation.now
  maxAttempts := workflowJobMaxAttempts
  capacity := continuation.capacity
  agentCapacity := continuation.agentCapacity
  providerCapacity := continuation.providerCapacity

def step (workflowId runId id : Nat) : WorkflowStepRecord where
  id := id
  workflowId := workflowId
  stepNumber := continuation.stepNumber
  runId := some runId
  expectedCheckpointRevision := continuation.expectedRevision
  stateJson := continuation.checkpointState.text
  stateDigest := stateDigest continuation.checkpointState
  status := .running
  createdAt := continuation.now

end Continuation

def WorkflowExecutionRecord.dispatch (current : WorkflowExecutionRecord)
    (claim : WorkflowReservations) (now : Instant) (row : WorkflowExecutionRecord) :
    WorkflowExecutionRecord :=
  { row with
    status := .running
    waitKind := none
    wakeupAt := none
    signalKey := none
    decisionKey := none
    stepCount := current.stepCount + 1
    reservations := current.reservations.draw claim
    updatedAt := now }

def insertContinuation (current : WorkflowExecutionRecord) (continuation : Continuation) :
    WorkflowConnection Nat := do
  let run ← insertedRun (continuation.submission current)
  Tx.require (current.identity = run.identity continuation.preparation.executable)
    (.uncertain .identityChanged)
  let _ ← Tx.insert (continuation.step current.id run.id)
  let _ ← Tx.update (fun row : WorkflowExecutionRecord => row.id = current.id)
    (WorkflowExecutionRecord.dispatch current (reservationFor continuation.limits)
      continuation.now)
  pure run.id

def submitContinuationOnConnection (continuation : Continuation) : WorkflowConnection Nat := do
  let current ← reloadExecution continuation.workflowId
  Tx.require (current.checkpointRevision = continuation.expectedRevision)
    (.uncertain .revisionMoved)
  let linked ← Tx.query fun db => db.own.steps.rows.find? fun step =>
    step.workflowId = current.id ∧ step.stepNumber = continuation.stepNumber
  match linked with
  | some step => Tx.ofExcept (step.runId.elim (.error (.uncertain .stepUnlinked)) .ok)
  | none => do
    Tx.require (acceptsReservation current.reservations current.budget
      (reservationFor continuation.limits)) (.uncertain .reservationExhausted)
    Tx.require (current.stepCount + 1 ≤ current.budget.maxSteps)
      (.uncertain .stepBudgetExhausted)
    insertContinuation current continuation

/-- What a tick counts about a workflow that it examined. -/
inductive TickCounter where
  | dispatched
  | deferredCapacity
  | deferredConfig
  | needsReview
  | failed
deriving DecidableEq, Repr

/-- What became of one examined workflow. -/
structure Advanced where
  changed : Bool
  counted : Option TickCounter
deriving DecidableEq, Repr

/-- One tick's clock, its configuration, and what the other subsystems make of each
workflow's next submission. -/
structure TickRequest where
  now : Instant
  limitsResolver : AgentDefinitionId → Option RunLimits
  prepare : Nat → Preparation
  capacity : Nat := 1000
  agentCapacity : Nat := 1000
  providerCapacity : Nat := 1000
  scanLimit : Nat := 200

def WorkflowExecutionRecord.finish (status : WorkflowStatus) (reason : ReviewReason)
    (now : Instant) (row : WorkflowExecutionRecord) : WorkflowExecutionRecord :=
  { row with
    status := status
    waitKind := none
    wakeupAt := none
    signalKey := none
    decisionKey := none
    reviewReason := some reason
    updatedAt := now
    finishedAt := some now }

def finish (workflowId : Nat) (status : WorkflowStatus) (reason : ReviewReason)
    (now : Instant) : WorkflowConnection Unit := do
  let _ ← Tx.update
    (fun row : WorkflowExecutionRecord => row.id = workflowId ∧ ¬ row.status.IsTerminal)
    (WorkflowExecutionRecord.finish status reason now)
  pure ()

def InstanceEligible (core : Tables) (workflow : WorkflowExecutionRecord) : Prop :=
  ∃ row ∈ core.configuration.agentInstances.find? fun row =>
      row.id = workflow.agentInstanceId ∧ row.ownerUserId = workflow.ownerUserId ∧
        row.enabled = true,
    row.agentKey = workflow.identity.agentKey ∧
      row.agentDefinitionVersion = workflow.identity.agentDefinitionVersion

instance (core : Tables) : DecidablePred (InstanceEligible core) := fun _ =>
  inferInstanceAs (Decidable (∃ row ∈ core.configuration.agentInstances.find? _, _))

def laterCheckpoint (best : Option WorkflowCheckpointRecord) (row : WorkflowCheckpointRecord) :
    Option WorkflowCheckpointRecord :=
  match best with
  | none => some row
  | some other => if other.revision < row.revision then some row else some other

def WorkflowTables.latestCheckpoint (own : WorkflowTables) (workflowId : Nat) :
    Option WorkflowCheckpointRecord :=
  (own.checkpoints.owned (·.workflowId) workflowId).foldl laterCheckpoint none

/-- The unconsumed approvals of the decision that the last committed step proposed. -/
def WorkflowTables.approvedDecisions (own : WorkflowTables)
    (workflow : WorkflowExecutionRecord) : List WorkflowDecisionRecord :=
  own.decisions.rows.filter fun decision =>
    decision.workflowId = workflow.id ∧
      decision.checkpointRevision + 1 = workflow.checkpointRevision ∧
      decision.state = .approved ∧ decision.consumedAt = none

def WorkflowStepRecord.fail (now : Instant) (step : WorkflowStepRecord) : WorkflowStepRecord :=
  { step with status := .failed, finishedAt := some now }

def WorkflowDecisionRecord.expire (decision : WorkflowDecisionRecord) :
    WorkflowDecisionRecord :=
  { decision with state := .expired }

def WorkflowDecisionRecord.consume (now : Instant) (decision : WorkflowDecisionRecord) :
    WorkflowDecisionRecord :=
  { decision with consumedAt := some now, state := .consumed }

/-- The unconsumed approval was spent on the dispatch. -/
def consumeApproval (approved : Option WorkflowDecisionRecord) (now : Instant) :
    WorkflowConnection Unit :=
  match approved with
  | none => pure ()
  | some approved => do
    let _ ← Tx.update
      (fun decision : WorkflowDecisionRecord =>
        decision.id = approved.id ∧ decision.consumedAt = none)
      (WorkflowDecisionRecord.consume now)
    pure ()

def defer (workflowId : Nat) (now : Instant) : Uncertainty → WorkflowConnection Advanced
  | .identityChanged => do
    finish workflowId .needsReview .configurationChanged now
    pure ⟨true, some .needsReview⟩
  | .reservationExhausted | .stepBudgetExhausted => do
    finish workflowId .failed .budgetExhausted now
    pure ⟨true, some .failed⟩
  | .revisionMoved | .stepUnlinked | .pauseMoved => pure ⟨false, none⟩

def TickRequest.continuation (request : TickRequest) (workflow : WorkflowExecutionRecord)
    (state : FrozenState) (limits : RunLimits) : Continuation where
  workflowId := workflow.id
  stepNumber := workflow.stepCount + 1
  checkpointState := state
  expectedRevision := workflow.checkpointRevision
  limits := limits
  now := request.now
  capacity := request.capacity
  agentCapacity := request.agentCapacity
  providerCapacity := request.providerCapacity
  preparation := request.prepare workflow.id

/-- Submit the next step from the latest checkpoint.  The checks before the source's
own savepoint write nothing, so the whole submission stands behind one here. -/
def continueWorkflow (request : TickRequest) (workflow : WorkflowExecutionRecord)
    (approved : Option WorkflowDecisionRecord) : WorkflowConnection Advanced := do
  let latest ← Tx.query fun db => db.own.latestCheckpoint workflow.id
  let state ← Tx.ofExcept <| match latest with
    | none => .ok emptyState
    | some checkpoint => (loadState checkpoint.stateJson).elim (.error .invalidWorkflow) .ok
  let eligible ← Tx.query fun db => decide (InstanceEligible db.core workflow)
  if eligible = false then pure ⟨false, some .deferredConfig⟩
  else
    match request.limitsResolver
        ⟨workflow.identity.agentKey, workflow.identity.agentDefinitionVersion⟩ with
    | none => do
      finish workflow.id .needsReview .configurationChanged request.now
      pure ⟨true, some .needsReview⟩
    | some limits => do
      let outcome ← Tx.savepoint
        (submitContinuationOnConnection (request.continuation workflow state limits))
      match outcome with
      | .ok _ => do
        consumeApproval approved request.now
        pure ⟨true, some .dispatched⟩
      | .error (.uncertain reason) => defer workflow.id request.now reason
      | .error (.persistence .durableSubmissionRejected) =>
        pure ⟨false, some .deferredConfig⟩
      | .error (.persistence .queueCapacityExceeded) =>
        pure ⟨false, some .deferredCapacity⟩
      | .error error => Tx.raise error

def advance (request : TickRequest) (workflowId : Nat) : WorkflowConnection Advanced := do
  let workflow ← reloadExecution workflowId
  if workflow.status = .running then do
    let _ ← Tx.update
      (fun step : WorkflowStepRecord => step.workflowId = workflowId ∧ step.status = .running)
      (WorkflowStepRecord.fail request.now)
    finish workflow.id .needsReview .runTerminal request.now
    pure ⟨true, some .needsReview⟩
  else if workflow.deadlineAt ≤ request.now then do
    finish workflow.id .failed .deadlineExceeded request.now
    pure ⟨true, some .failed⟩
  else if workflow.waitKind = some .signal ∨ workflow.waitKind = some .ownerDecision then
    pure ⟨false, none⟩
  else if workflow.budget.maxSteps ≤ workflow.stepCount then do
    finish workflow.id .failed .stepLimit request.now
    pure ⟨true, some .failed⟩
  else do
    let approvals ← Tx.query fun db => db.own.approvedDecisions workflow
    Tx.require (approvals.length ≤ 1) .multipleRows
    match approvals.head? with
    | some approved =>
      if approved.expiresAt ≤ request.now then do
        let _ ← Tx.update (fun decision : WorkflowDecisionRecord => decision.id = approved.id)
          WorkflowDecisionRecord.expire
        finish workflow.id .needsReview .authorityLost request.now
        pure ⟨true, some .needsReview⟩
      else continueWorkflow request workflow (some approved)
    | none => continueWorkflow request workflow none

def HasTerminalRun (core : Tables) (own : WorkflowTables) (workflowId : Nat) : Prop :=
  ∃ step ∈ own.steps.rows, step.workflowId = workflowId ∧ step.status = .running ∧
    ∃ runId ∈ step.runId, ∃ run ∈ core.runs.find runId, run.status.IsTerminal

instance (core : Tables) (own : WorkflowTables) : DecidablePred (HasTerminalRun core own) :=
  fun _ => inferInstanceAs (Decidable (∃ step ∈ own.steps.rows, _))

/-- The due-work scan: an ended Run, or an unpaused workflow whose deadline passed or
whose time came. -/
def Due (core : Tables) (own : WorkflowTables) (now : Instant)
    (workflow : WorkflowExecutionRecord) : Prop :=
  (HasTerminalRun core own workflow.id ∧ workflow.status = .running) ∨
    (workflow.paused = false ∧ workflow.status.IsDispatchable ∧
      (workflow.deadlineAt ≤ now ∨
        ((workflow.waitKind = none ∨ workflow.waitKind = some .time) ∧
          ∀ wakeup ∈ workflow.wakeupAt, wakeup ≤ now)))

instance (core : Tables) (own : WorkflowTables) (now : Instant) :
    DecidablePred (Due core own now) := fun _ => inferInstanceAs (Decidable (_ ∨ _))

/-- The bounded page of due workflows, least recently updated first. -/
def dueWorkflows (request : TickRequest) (db : Extended Tables WorkflowTables) : List Nat :=
  (((db.own.executions.rows.filter fun workflow =>
      Due db.core db.own request.now workflow).insertionSort fun left right =>
        left.updatedAt < right.updatedAt ∨
          (left.updatedAt = right.updatedAt ∧ left.id ≤ right.id)).take
    request.scanLimit).map (·.id)

def WorkflowExecutionRecord.touch (now : Instant) (row : WorkflowExecutionRecord) :
    WorkflowExecutionRecord :=
  { row with updatedAt := now }

/-- Examine due workflows up to the first that changes; each that does not is
rotated to the end of the scan order. -/
def scan (request : TickRequest) : List Nat → WorkflowConnection (Bool × List TickCounter)
  | [] => pure (false, [])
  | workflowId :: rest => do
    let advanced ← advance request workflowId
    if advanced.changed = true then pure (true, advanced.counted.toList)
    else do
      let _ ← Tx.update (fun row : WorkflowExecutionRecord => row.id = workflowId)
        (WorkflowExecutionRecord.touch request.now)
      let (changed, counted) ← scan request rest
      pure (changed, advanced.counted.toList ++ counted)

def tickOne (request : TickRequest) : WorkflowConnection (Bool × List TickCounter) := do
  let due ← Tx.query (dueWorkflows request)
  scan request due

end NervOS
