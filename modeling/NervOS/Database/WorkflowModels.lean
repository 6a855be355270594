/-
The workflow tables, which extend the engine's database: executions, steps,
checkpoints, signals and owner decisions.
-/
import NervOS.Relational.Extension
import NervOS.Domain.Workflows
import NervOS.Database.Schema

namespace NervOS

open Relational

structure ExecutableSnapshot where
  packageContentDigest : Option Digest := none
  packageEnvironmentDigest : Option Digest := none
  effectiveConfigDigest : Option Digest := none
  agentInstanceConfigRevision : Option Nat := none
deriving DecidableEq

structure PinnedIdentity where
  agentKey : String
  agentDefinitionVersion : String
  modelProvider : String
  modelName : String
  executable : ExecutableSnapshot
deriving DecidableEq

def RunRecord.identity (run : RunRecord) (executable : ExecutableSnapshot) : PinnedIdentity where
  agentKey := run.agentKey
  agentDefinitionVersion := run.agentDefinitionVersion
  modelProvider := run.modelProvider
  modelName := run.modelName
  executable := executable

structure WorkflowExecutionRecord where
  id : Nat
  ownerUserId : Nat
  agentInstanceId : Nat
  workflowKind : String
  submissionKey : String
  submissionDigest : Digest
  status : WorkflowStatus
  paused : Bool := false
  checkpointRevision : Nat := 0
  stepCount : Nat := 0
  budget : WorkflowBudget
  reservations : WorkflowReservations := {}
  deadlineAt : Instant
  waitKind : Option WorkflowWaitKind := none
  wakeupAt : Option Instant := none
  signalKey : Option String := none
  decisionKey : Option DecisionKey := none
  reviewReason : Option ReviewReason := none
  identity : PinnedIdentity
  createdAt : Instant
  updatedAt : Instant
  finishedAt : Option Instant := none
deriving DecidableEq

/-- The characters of a submission key: `[a-z0-9_-]`. -/
def KeyCharacters (key : String) : Prop :=
  key.toList.all (fun c => ('a' ≤ c && c ≤ 'z') || ('0' ≤ c && c ≤ '9') || c == '_' || c == '-')
    = true

instance : DecidablePred KeyCharacters := fun _ => inferInstanceAs (Decidable (_ = _))

structure WorkflowExecutionRecord.Check (execution : WorkflowExecutionRecord) : Prop where
  waitShape : if execution.status = .waiting then
      execution.waitKind ≠ none ∧
        (execution.waitKind = some .time → execution.wakeupAt ≠ none)
    else execution.waitKind = none ∧ execution.wakeupAt = none
  reservedWithinBudget : execution.reservations.Within execution.budget
  submissionKeyBound : LengthBetween 1 64 execution.submissionKey ∧
    KeyCharacters execution.submissionKey
  workflowKindBound : LengthBetween 1 64 execution.workflowKind
  agentKeyBound : LengthBetween 1 128 execution.identity.agentKey
  definitionVersionBound : LengthBetween 1 64 execution.identity.agentDefinitionVersion
  terminalShape : execution.status.IsTerminal ↔ execution.finishedAt ≠ none
  deadlineAfterCreation : execution.createdAt ≤ execution.deadlineAt

instance (execution : WorkflowExecutionRecord) : Decidable execution.Check :=
  decidable_of_iff (_ ∧ _ ∧ _ ∧ _ ∧ _ ∧ _ ∧ _ ∧ _)
    ⟨fun h => ⟨h.1, h.2.1, h.2.2.1, h.2.2.2.1, h.2.2.2.2.1, h.2.2.2.2.2.1, h.2.2.2.2.2.2.1,
      h.2.2.2.2.2.2.2⟩,
    fun h => ⟨h.1, h.2, h.3, h.4, h.5, h.6, h.7, h.8⟩⟩

instance : Record WorkflowExecutionRecord where
  key := WorkflowExecutionRecord.id
  Check := WorkflowExecutionRecord.Check
  Clash left right := left.ownerUserId = right.ownerUserId ∧
    left.submissionKey = right.submissionKey
  decCheck _ := inferInstance
  decClash _ _ := inferInstance

structure WorkflowStepRecord where
  id : Nat
  workflowId : Nat
  stepNumber : Nat
  runId : Option Nat
  expectedCheckpointRevision : Nat
  stateSchemaVersion : Nat := workflowStateSchemaVersion
  stateJson : String
  stateDigest : Digest
  status : WorkflowStepStatus
  summary : Option String := none
  createdAt : Instant
  finishedAt : Option Instant := none
deriving DecidableEq

structure WorkflowStepRecord.Check (step : WorkflowStepRecord) : Prop where
  stepNumberPositive : 0 < step.stepNumber
  stateSchemaVersionValue : step.stateSchemaVersion = 1
  stateByteBound : utf8Length step.stateJson ≤ 65536
  summaryBound : ∀ summary ∈ step.summary, sqlLength summary ≤ 512
  terminalShape : step.status.IsTerminal ↔ step.finishedAt ≠ none

instance (step : WorkflowStepRecord) : Decidable step.Check :=
  decidable_of_iff (_ ∧ _ ∧ _ ∧ _ ∧ _)
    ⟨fun h => ⟨h.1, h.2.1, h.2.2.1, h.2.2.2.1, h.2.2.2.2⟩,
    fun h => ⟨h.1, h.2, h.3, h.4, h.5⟩⟩

instance : Record WorkflowStepRecord where
  key := WorkflowStepRecord.id
  Check := WorkflowStepRecord.Check
  Clash left right :=
    (left.workflowId = right.workflowId ∧ left.stepNumber = right.stepNumber) ∨
      (left.runId ≠ none ∧ left.runId = right.runId)
  decCheck _ := inferInstance
  decClash _ _ := inferInstance

structure WorkflowCheckpointRecord where
  id : Nat
  workflowId : Nat
  revision : Nat
  stepNumber : Nat
  stateSchemaVersion : Nat := workflowStateSchemaVersion
  stateJson : String
  stateDigest : Digest
  createdAt : Instant
deriving DecidableEq

structure WorkflowCheckpointRecord.Check (checkpoint : WorkflowCheckpointRecord) : Prop where
  stepNumberPositive : 0 < checkpoint.stepNumber
  stateSchemaVersionValue : checkpoint.stateSchemaVersion = 1
  stateByteBound : utf8Length checkpoint.stateJson ≤ 65536

instance (checkpoint : WorkflowCheckpointRecord) : Decidable checkpoint.Check :=
  decidable_of_iff (_ ∧ _ ∧ _) ⟨fun h => ⟨h.1, h.2.1, h.2.2⟩, fun h => ⟨h.1, h.2, h.3⟩⟩

instance : Record WorkflowCheckpointRecord where
  key := WorkflowCheckpointRecord.id
  Check := WorkflowCheckpointRecord.Check
  Clash left right := left.workflowId = right.workflowId ∧ left.revision = right.revision
  decCheck _ := inferInstance
  decClash _ _ := inferInstance

inductive SignalOutcome where
  | accepted
  | replayed
  | staleRevision
  | notWaiting
  | payloadConflict
  | cancelled
deriving DecidableEq, Repr

structure WorkflowSignalRecord where
  id : Nat
  workflowId : Nat
  ownerUserId : Nat
  signalKey : String
  payloadDigest : Digest
  signalJson : String
  expectedRevision : Nat
  outcome : SignalOutcome
  receivedAt : Instant
  acceptedAt : Option Instant := none
deriving DecidableEq

structure WorkflowSignalRecord.Check (signal : WorkflowSignalRecord) : Prop where
  signalByteBound : utf8Length signal.signalJson ≤ 8192
  signalKeyBound : LengthBetween 1 64 signal.signalKey
  acceptedOrder : ∀ accepted ∈ signal.acceptedAt, signal.receivedAt ≤ accepted

instance (signal : WorkflowSignalRecord) : Decidable signal.Check :=
  decidable_of_iff (_ ∧ _ ∧ _) ⟨fun h => ⟨h.1, h.2.1, h.2.2⟩, fun h => ⟨h.1, h.2, h.3⟩⟩

/-- The identity of a delivery is its key: a duplicate is a replay. -/
instance : Record WorkflowSignalRecord where
  key := WorkflowSignalRecord.id
  Check := WorkflowSignalRecord.Check
  Clash left right := left.workflowId = right.workflowId ∧ left.signalKey = right.signalKey
  decCheck _ := inferInstance
  decClash _ _ := inferInstance

structure WorkflowDecisionRecord where
  id : Nat
  workflowId : Nat
  ownerUserId : Nat
  checkpointRevision : Nat
  toolDefinitionId : Nat
  upstreamName : String
  actionFingerprint : Digest
  argumentsDigest : Digest
  previewJson : String
  packageContentDigest : Option Digest
  effectiveConfigDigest : Option Digest
  state : WorkflowDecisionState
  requestedAt : Instant
  expiresAt : Instant
  decidedAt : Option Instant := none
  consumedAt : Option Instant := none
deriving DecidableEq

structure WorkflowDecisionRecord.Check (decision : WorkflowDecisionRecord) : Prop where
  previewByteBound : utf8Length decision.previewJson ≤ 65536
  expiryAfterRequest : decision.requestedAt < decision.expiresAt
  lifecycleShape : match decision.state with
    | .pending => decision.decidedAt = none ∧ decision.consumedAt = none
    | .approved => decision.decidedAt ≠ none ∧ decision.consumedAt = none
    | .consumed => decision.decidedAt ≠ none ∧ decision.consumedAt ≠ none
    | .denied | .expired | .cancelled => decision.consumedAt = none

instance (decision : WorkflowDecisionRecord) : Decidable decision.Check :=
  have : Decidable (match decision.state with
      | .pending => decision.decidedAt = none ∧ decision.consumedAt = none
      | .approved => decision.decidedAt ≠ none ∧ decision.consumedAt = none
      | .consumed => decision.decidedAt ≠ none ∧ decision.consumedAt ≠ none
      | .denied | .expired | .cancelled => decision.consumedAt = none) := by
    cases decision.state <;> infer_instance
  decidable_of_iff (_ ∧ _ ∧ _) ⟨fun h => ⟨h.1, h.2.1, h.2.2⟩, fun h => ⟨h.1, h.2, h.3⟩⟩

instance : Record WorkflowDecisionRecord where
  key := WorkflowDecisionRecord.id
  Check := WorkflowDecisionRecord.Check
  Clash left right := left.workflowId = right.workflowId ∧
    left.checkpointRevision = right.checkpointRevision ∧
    left.toolDefinitionId = right.toolDefinitionId
  decCheck _ := inferInstance
  decClash _ _ := inferInstance

structure WorkflowTables where
  executions : Table WorkflowExecutionRecord := .empty
  steps : Table WorkflowStepRecord := .empty
  checkpoints : Table WorkflowCheckpointRecord := .empty
  signals : Table WorkflowSignalRecord := .empty
  decisions : Table WorkflowDecisionRecord := .empty

section HasTable

instance : HasTable WorkflowTables WorkflowExecutionRecord where
  table := WorkflowTables.executions
  setTable t own := { own with executions := t }
  table_setTable _ _ := rfl

instance : HasTable WorkflowTables WorkflowStepRecord where
  table := WorkflowTables.steps
  setTable t own := { own with steps := t }
  table_setTable _ _ := rfl

instance : HasTable WorkflowTables WorkflowCheckpointRecord where
  table := WorkflowTables.checkpoints
  setTable t own := { own with checkpoints := t }
  table_setTable _ _ := rfl

instance : HasTable WorkflowTables WorkflowSignalRecord where
  table := WorkflowTables.signals
  setTable t own := { own with signals := t }
  table_setTable _ _ := rfl

instance : HasTable WorkflowTables WorkflowDecisionRecord where
  table := WorkflowTables.decisions
  setTable t own := { own with decisions := t }
  table_setTable _ _ := rfl

variable (own : WorkflowTables)

@[simp] theorem table_execution : table own = own.executions := rfl

@[simp] theorem setTable_execution (t : Table WorkflowExecutionRecord) :
    setTable t own = { own with executions := t } := rfl

end HasTable

/-- Foreign keys, all of them `RESTRICT`. -/
structure WorkflowTables.References (core : Tables) (own : WorkflowTables) : Prop where
  executionAgent : ∀ execution ∈ own.executions.rows,
    (core.configuration.agentInstance? execution.agentInstanceId).isSome
  stepWorkflow : ∀ step ∈ own.steps.rows, (own.executions.find step.workflowId).isSome
  stepRun : ∀ step ∈ own.steps.rows, ∀ id ∈ step.runId, (core.runs.find id).isSome
  checkpointWorkflow : ∀ checkpoint ∈ own.checkpoints.rows,
    (own.executions.find checkpoint.workflowId).isSome
  signalWorkflow : ∀ signal ∈ own.signals.rows,
    (own.executions.find signal.workflowId).isSome
  decisionWorkflow : ∀ decision ∈ own.decisions.rows,
    (own.executions.find decision.workflowId).isSome
  decisionDefinition : ∀ decision ∈ own.decisions.rows,
    (core.configuration.toolDefinition? decision.toolDefinitionId).isSome

instance (core : Tables) (own : WorkflowTables) : Decidable (own.References core) :=
  decidable_of_iff (_ ∧ _ ∧ _ ∧ _ ∧ _ ∧ _ ∧ _)
    ⟨fun h => ⟨h.1, h.2.1, h.2.2.1, h.2.2.2.1, h.2.2.2.2.1, h.2.2.2.2.2.1, h.2.2.2.2.2.2⟩,
    fun h => ⟨h.1, h.2, h.3, h.4, h.5, h.6, h.7⟩⟩

instance : Extension Tables WorkflowTables where
  References core own := own.References core
  decReferences _ _ := inferInstance

abbrev WorkflowDatabase := Consistent (Extended Tables WorkflowTables)

def WorkflowDatabase.empty : WorkflowDatabase :=
  ⟨⟨{}, {}⟩, by decide⟩

/-- The conflicts of a continuation that the tick itself reconciles. -/
inductive Uncertainty where
  | revisionMoved
  | stepUnlinked
  | reservationExhausted
  | stepBudgetExhausted
  | identityChanged
  | pauseMoved
deriving DecidableEq, Repr

/-- The exceptions that a workflow transaction raises. -/
inductive WorkflowError where
  | persistence (error : PersistenceError)
  | invalidWorkflow
  | workflowNotFound
  | workflowTransition
  | workflowConflict (detail : String)
  | workflowCapacityExceeded
  | workflowNotLinked
  | multipleRows
  | uncertain (reason : Uncertainty)
deriving DecidableEq, Repr

abbrev WorkflowConnection := Tx (Extended Tables WorkflowTables) WorkflowError

def onEngine {α : Type} (x : Connection α) : WorkflowConnection α :=
  Tx.onCore .persistence x

end NervOS
