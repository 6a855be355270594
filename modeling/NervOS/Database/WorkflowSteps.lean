/-
The fenced Worker boundary of a workflow step: reading the checkpoint that a Run
resumes from, and committing its result in the transaction that closes the Run.
-/
import NervOS.Database.WorkflowContinuation
import NervOS.Database.Execution

namespace NervOS

open Relational

/-- The exact checkpoint that one dispatched step resumes from. -/
structure WorkflowStepSnapshot where
  stepNumber : Nat
  checkpointRevision : Nat
  stateVersion : Nat
  state : FrozenState
  wakeSignal : FrozenState

def WorkflowTables.wakingSignal (own : WorkflowTables) (step : WorkflowStepRecord) :
    Option WorkflowSignalRecord :=
  (own.signals.rows.filter fun signal =>
    signal.workflowId = step.workflowId ∧
      signal.expectedRevision = step.expectedCheckpointRevision ∧
      signal.outcome = .accepted).getLast?

def WorkflowTables.wakeSignal (own : WorkflowTables) (step : WorkflowStepRecord) :
    Option FrozenState :=
  match own.wakingSignal step with
  | none => some emptyState
  | some signal => do
    let payload ← Json.loads signal.signalJson
    freezeState (.obj [("key", .str signal.signalKey), ("payload", payload)])

def snapshotForRun (own : WorkflowTables) (runId : Nat) :
    Except WorkflowError (Option WorkflowStepSnapshot) :=
  match own.steps.rows.find? fun step => step.runId = some runId ∧ step.status = .running with
  | none => .ok none
  | some step =>
    match own.wakeSignal step, loadState step.stateJson with
    | some wakeSignal, some state =>
      .ok (some {
        stepNumber := step.stepNumber
        checkpointRevision := step.expectedCheckpointRevision
        stateVersion := step.stateSchemaVersion
        state := state
        wakeSignal := wakeSignal })
    | none, _ | _, none => .error .invalidWorkflow

def WorkflowStepRecord.finishLate (now : Instant) (step : WorkflowStepRecord) :
    WorkflowStepRecord :=
  { step with status := .succeeded, finishedAt := some now }

def WorkflowStepRecord.succeed (summary : Option String) (now : Instant)
    (step : WorkflowStepRecord) : WorkflowStepRecord :=
  { step with status := .succeeded, summary := summary, finishedAt := some now }

def WorkflowStepResult.checkpoint (result : WorkflowStepResult) (step : WorkflowStepRecord)
    (revision : Nat) (now : Instant) (id : Nat) : WorkflowCheckpointRecord where
  id := id
  workflowId := step.workflowId
  revision := revision
  stepNumber := step.stepNumber
  stateJson := result.state.text
  stateDigest := stateDigest result.state
  createdAt := now

/-- The proposal that joins the commit; an expiry that has passed is moved to the
next second. -/
def WorkflowDecisionRequest.decision (request : WorkflowDecisionRequest)
    (workflow : WorkflowExecutionRecord) (now : Instant) (id : Nat) :
    WorkflowDecisionRecord where
  id := id
  workflowId := workflow.id
  ownerUserId := workflow.ownerUserId
  checkpointRevision := request.checkpointRevision
  toolDefinitionId := request.toolDefinitionId
  upstreamName := request.upstreamName
  actionFingerprint := request.actionFingerprint
  argumentsDigest := decisionArgumentsDigest request.arguments
  previewJson := request.preview.text
  packageContentDigest := request.packageContentDigest
  effectiveConfigDigest := request.effectiveConfigDigest
  state := .pending
  requestedAt := now
  expiresAt := if request.expiresAt ≤ now then now + seconds 1 else request.expiresAt

def insertDecision (workflow : WorkflowExecutionRecord)
    (request : Option WorkflowDecisionRequest) (now : Instant) : WorkflowConnection Unit :=
  match request with
  | none => pure ()
  | some request => do
    let _ ← Tx.insert (request.decision workflow now)
    pure ()

def WorkflowDirective.target (directive : WorkflowDirective) : WorkflowStatus :=
  match directive.kind with
  | .complete => .succeeded
  | .wait => .waiting
  | .next => .runnable

def WorkflowExecutionRecord.commit (directive : WorkflowDirective) (revision : Nat)
    (now : Instant) (row : WorkflowExecutionRecord) : WorkflowExecutionRecord :=
  { row with
    status := directive.target
    checkpointRevision := revision
    waitKind := if directive.kind = .wait then directive.waitKind else none
    wakeupAt := if directive.kind = .wait then resolvedWakeupAt directive now else none
    signalKey := if directive.kind = .wait then directive.signalKey else none
    decisionKey := if directive.kind = .wait then directive.decisionKey else none
    updatedAt := now
    finishedAt := if directive.target.IsTerminal then some now else none }

/-- Commit one step's checkpoint on the connection of the fenced terminalization;
`false` is a lost fence. -/
def commitStep (runId : Nat) (result : WorkflowStepResult) (now : Instant) :
    WorkflowConnection Bool := do
  let linked ← Tx.query fun db => db.own.steps.rows.find? fun step => step.runId = some runId
  let step ← Tx.ofExcept (linked.elim (.error .workflowNotLinked) .ok)
  let parent ← Tx.query fun db => db.own.executions.find step.workflowId
  let workflow ← Tx.ofExcept (parent.elim (.error .workflowNotLinked) .ok)
  if workflow.status = .cancelled then do
    let _ ← Tx.update (fun row : WorkflowStepRecord => row.id = step.id)
      (WorkflowStepRecord.finishLate now)
    pure true
  else if step.status ≠ .running ∨
      step.expectedCheckpointRevision ≠ workflow.checkpointRevision ∨
      workflow.status ≠ .running then
    pure false
  else do
    let revision := workflow.checkpointRevision + 1
    let _ ← Tx.insert (result.checkpoint step revision now)
    let _ ← Tx.update
      (fun row : WorkflowStepRecord => row.id = step.id ∧ row.status = .running)
      (WorkflowStepRecord.succeed result.summary now)
    insertDecision workflow result.decisionRequest now
    let _ ← Tx.update
      (fun row : WorkflowExecutionRecord => row.id = workflow.id ∧
        row.checkpointRevision = workflow.checkpointRevision ∧ row.status = .running)
      (WorkflowExecutionRecord.commit result.directive revision now)
    let _ ← Tx.update (fun row : WorkflowExecutionRecord => row.id = workflow.id)
      (WorkflowExecutionRecord.touch now)
    Tx.delete fun row : WorkflowCheckpointRecord => row.workflowId = workflow.id ∧
      row.revision + workflow.budget.maxRetainedCheckpoints ≤ revision
    pure true

/-- The result that a terminalization commits: the Worker's, or for a linked Run that
returned none the completion with the state it resumed from. -/
def stepResult (own : WorkflowTables) (runId : Nat) (workflowStep : Option WorkflowStepResult) :
    Except WorkflowError (Option WorkflowStepResult) :=
  match workflowStep with
  | some result => .ok (some result)
  | none =>
    match own.steps.rows.find? fun step => step.runId = some runId with
    | none => .ok none
    | some step =>
      (loadState step.stateJson).elim (.error .invalidWorkflow) fun state =>
        .ok (some (completedResult state))

/-- Commit the step, if the Run executes one; a lost fence undoes the whole
terminalization. -/
def commitResult (runId : Nat) (result : Option WorkflowStepResult) (now : Instant) :
    WorkflowConnection Unit :=
  match result with
  | none => pure ()
  | some result => do
    let committed ← commitStep runId result now
    Tx.require (committed = true) (.persistence .fenced)

def succeedWithStep (claim : ClaimedAttempt) (completion : Completion)
    (workflowStep : Option WorkflowStepResult) (now : Instant) : WorkflowConnection Unit := do
  onEngine (Tx.updateOne .fenced (claim.HoldsAttempt .running now)
    (JobAttemptRecord.succeed now))
  onEngine (Tx.updateOne .fenced (claim.HoldsJob .running) (JobRecord.succeed now))
  onEngine (Tx.updateOne .fenced (claim.HoldsRun .running)
    (RunRecord.succeed completion now))
  onEngine (Tx.ofExcept completion.committed)
  let outcome ← Tx.query fun db => stepResult db.own claim.runId workflowStep
  let result ← Tx.ofExcept outcome
  commitResult claim.runId result now
  onEngine do
    let base ← sequenceBase claim.runId
    appendEventOnConnection (claim.event .runSucceeded (base + 1) now none none)

end NervOS
