/-
The owner-scoped control plane: pause and resume, cancel, signals and decisions.
-/
import NervOS.Database.WorkflowContinuation

namespace NervOS

open Relational

/-- A foreign workflow is indistinguishable from a nonexistent one. -/
def ownedExecution (ownerUserId workflowId : Nat) :
    WorkflowConnection WorkflowExecutionRecord := do
  let row ← Tx.query fun db => (db.own.executions.find workflowId).filter fun row =>
    row.ownerUserId = ownerUserId
  let execution ← Tx.ofExcept (row.elim (.error .workflowNotFound) .ok)
  Tx.require execution.Loads .invalidWorkflow
  pure execution

def WorkflowExecutionRecord.setPaused (paused : Bool) (now : Instant)
    (row : WorkflowExecutionRecord) : WorkflowExecutionRecord :=
  { row with paused := paused, updatedAt := now }

/-- Pause or resume: a durable flag on a workflow that is not over. -/
def setPaused (ownerUserId workflowId : Nat) (paused : Bool) (now : Instant) :
    WorkflowConnection WorkflowExecutionRecord := do
  let workflow ← ownedExecution ownerUserId workflowId
  Tx.require (¬ workflow.status.IsTerminal) .workflowTransition
  Tx.updateOne (.uncertain .pauseMoved)
    (fun row : WorkflowExecutionRecord => row.id = workflowId ∧ row.ownerUserId = ownerUserId)
    (WorkflowExecutionRecord.setPaused paused now)
  reloadExecution workflowId

def WorkflowExecutionRecord.cancel (now : Instant) (row : WorkflowExecutionRecord) :
    WorkflowExecutionRecord :=
  { row with
    status := .cancelled
    waitKind := none
    wakeupAt := none
    signalKey := none
    decisionKey := none
    updatedAt := now
    finishedAt := some now }

def WorkflowDecisionRecord.close (state : WorkflowDecisionState) (now : Instant)
    (decision : WorkflowDecisionRecord) : WorkflowDecisionRecord :=
  { decision with state := state, decidedAt := some now }

/-- Stop the workflow for good, and with it every pending decision. -/
def cancelWorkflow (ownerUserId workflowId : Nat) (now : Instant) :
    WorkflowConnection WorkflowExecutionRecord := do
  let workflow ← ownedExecution ownerUserId workflowId
  if workflow.status = .cancelled then pure workflow
  else do
    Tx.require (.cancelled ∈ allowedTransitions workflow.status) .workflowTransition
    let _ ← Tx.update
      (fun row : WorkflowExecutionRecord => row.id = workflowId ∧ row.ownerUserId = ownerUserId)
      (WorkflowExecutionRecord.cancel now)
    let _ ← Tx.update
      (fun decision : WorkflowDecisionRecord =>
        decision.workflowId = workflowId ∧ decision.state = .pending)
      (WorkflowDecisionRecord.close .cancelled now)
    reloadExecution workflowId

structure SignalDelivery where
  ownerUserId : Nat
  workflowId : Nat
  signalKey : String
  payload : FrozenSignal
  expectedRevision : Nat
  now : Instant

/-- The result of one delivery; a refused one leaves the workflow as it was. -/
structure WorkflowSignalOutcome where
  accepted : Bool
  outcome : SignalOutcome
  workflow : WorkflowExecutionRecord
deriving DecidableEq

namespace SignalDelivery

variable (delivery : SignalDelivery)

def digest : Digest :=
  .text delivery.payload.text

/-- What a first delivery of its key meets. -/
def verdict (workflow : WorkflowExecutionRecord) : SignalOutcome :=
  if workflow.status = .cancelled then .cancelled
  else if delivery.expectedRevision ≠ workflow.checkpointRevision then .staleRevision
  else if workflow.status ≠ .waiting ∨ workflow.waitKind ≠ some .signal ∨
      workflow.signalKey ≠ some delivery.signalKey then .notWaiting
  else .accepted

def signal (id : Nat) : WorkflowSignalRecord where
  id := id
  workflowId := delivery.workflowId
  ownerUserId := delivery.ownerUserId
  signalKey := delivery.signalKey
  payloadDigest := delivery.digest
  signalJson := delivery.payload.text
  expectedRevision := delivery.expectedRevision
  outcome := .accepted
  receivedAt := delivery.now
  acceptedAt := some delivery.now

end SignalDelivery

def WorkflowExecutionRecord.wake (now : Instant) (row : WorkflowExecutionRecord) :
    WorkflowExecutionRecord :=
  { row with
    status := .runnable
    waitKind := none
    wakeupAt := none
    signalKey := none
    updatedAt := now }

def deliverSignal (delivery : SignalDelivery) : WorkflowConnection WorkflowSignalOutcome := do
  let workflow ← ownedExecution delivery.ownerUserId delivery.workflowId
  let prior ← Tx.query fun db => db.own.signals.rows.find? fun signal =>
    signal.workflowId = delivery.workflowId ∧ signal.signalKey = delivery.signalKey
  match prior with
  | some prior => do
    Tx.require (prior.payloadDigest = delivery.digest)
      (.workflowConflict "signal identity already used with different content")
    pure ⟨decide (prior.outcome = .accepted),
      if prior.outcome = .accepted then .replayed else prior.outcome, workflow⟩
  | none =>
    if delivery.verdict workflow ≠ .accepted then
      pure ⟨false, delivery.verdict workflow, workflow⟩
    else do
      let _ ← Tx.insert delivery.signal
      let _ ← Tx.update (fun row : WorkflowExecutionRecord => row.id = delivery.workflowId)
        (WorkflowExecutionRecord.wake delivery.now)
      let workflow ← reloadExecution delivery.workflowId
      pure ⟨true, .accepted, workflow⟩

structure Verdict where
  ownerUserId : Nat
  workflowId : Nat
  decisionId : Nat
  approve : Bool
  expectedRevision : Nat
  now : Instant
deriving DecidableEq

/-- The pinned package and configuration behind a decision have changed since. -/
def WorkflowTables.IdentityMoved (own : WorkflowTables) (workflowId : Nat)
    (decision : WorkflowDecisionRecord) : Prop :=
  ∀ workflow ∈ own.executions.find workflowId,
    workflow.identity.executable.packageContentDigest ≠ decision.packageContentDigest ∨
      workflow.identity.executable.effectiveConfigDigest ≠ decision.effectiveConfigDigest

instance (own : WorkflowTables) (workflowId : Nat) :
    DecidablePred (own.IdentityMoved workflowId) := fun _ =>
  inferInstanceAs (Decidable (∀ workflow ∈ own.executions.find workflowId, _))

namespace Verdict

variable (verdict : Verdict)

def state : WorkflowDecisionState :=
  if verdict.approve then .approved else .denied

def Awaited (row : WorkflowExecutionRecord) : Prop :=
  row.id = verdict.workflowId ∧ row.status = .waiting ∧ row.waitKind = some .ownerDecision ∧
    row.checkpointRevision = verdict.expectedRevision + 1

instance : DecidablePred verdict.Awaited := fun _ => inferInstanceAs (Decidable (_ ∧ _ ∧ _ ∧ _))

end Verdict

def WorkflowExecutionRecord.decide (verdict : Verdict) (row : WorkflowExecutionRecord) :
    WorkflowExecutionRecord :=
  { row with
    status := if verdict.approve then .runnable else .cancelled
    waitKind := none
    wakeupAt := none
    decisionKey := none
    finishedAt := if verdict.approve then none else some verdict.now
    updatedAt := verdict.now }

def decideWorkflow (verdict : Verdict) : WorkflowConnection WorkflowDecisionRecord := do
  let _ ← ownedExecution verdict.ownerUserId verdict.workflowId
  let row ← Tx.query fun db => (db.own.decisions.find verdict.decisionId).filter fun row =>
    row.workflowId = verdict.workflowId ∧ row.ownerUserId = verdict.ownerUserId
  let decision ← Tx.ofExcept (row.elim (.error .workflowNotFound) .ok)
  Tx.require (decision.state = .pending) (.workflowConflict "decision is no longer pending")
  Tx.require (decision.checkpointRevision = verdict.expectedRevision)
    (.workflowConflict "decision is bound to a different checkpoint revision")
  let moved ← Tx.query fun db => Decidable.decide (db.own.IdentityMoved verdict.workflowId decision)
  Tx.require (moved = false)
    (.workflowConflict "pinned package or configuration identity changed")
  if decision.expiresAt ≤ verdict.now then do
    let _ ← Tx.update (fun row : WorkflowDecisionRecord => row.id = verdict.decisionId)
      (WorkflowDecisionRecord.close .expired verdict.now)
    Tx.raise (.workflowConflict "decision expired")
  else do
    Tx.updateOne (.workflowConflict "decision is no longer pending")
      (fun row : WorkflowDecisionRecord => row.id = verdict.decisionId ∧ row.state = .pending)
      (WorkflowDecisionRecord.close verdict.state verdict.now)
    let _ ← Tx.update verdict.Awaited (WorkflowExecutionRecord.decide verdict)
    let refreshed ← Tx.query fun db => db.own.decisions.find verdict.decisionId
    Tx.ofExcept (refreshed.elim (.error .multipleRows) .ok)

end NervOS
