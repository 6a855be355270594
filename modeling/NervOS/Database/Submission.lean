/-
Durable submission: one Run, its Job and the two opening events, inserted on
the caller's connection.
-/
import NervOS.Database.Schema

namespace NervOS

open Relational

def Tables.timeline (db : Tables) (runId : Nat) : List RunEventRecord :=
  db.runEvents.rows.filter (·.runId = runId)

/-- `COALESCE(MAX(sequence), 0)`. -/
def lastSequence (timeline : List RunEventRecord) : Nat :=
  (timeline.map (·.sequence)).max?.getD 0

/-- Read the per-Run event high-water mark. -/
def sequenceBase (runId : Nat) : Connection Nat :=
  Tx.query fun db => lastSequence (db.timeline runId)

def InvocationOwnership (db : Tables) (event : RunEventRecord) : Prop :=
  ∀ invocationId ∈ event.toolInvocationId, ∃ attemptId ∈ event.attemptId,
    ∃ invocation ∈ db.toolInvocations.find invocationId,
      invocation.runId = event.runId ∧ invocation.jobId = event.jobId ∧
        invocation.attemptId = attemptId

instance (db : Tables) (event : RunEventRecord) :
    Decidable (InvocationOwnership db event) :=
  inferInstanceAs (Decidable (∀ invocationId ∈ event.toolInvocationId, _))

def verifyInvocationOwnership (event : RunEventRecord) : Connection Unit := do
  let owned ← Tx.query fun db => decide (InvocationOwnership db event)
  Tx.require (owned = true) .eventOwnershipViolation

def appendEventOnConnection (event : RunEventRecord) : Connection Unit := do
  verifyInvocationOwnership event
  let _ ← Tx.insert event.withId
  pure ()

theorem commits_appendEvent {event : RunEventRecord} {db db' : Database} {value : Unit} :
    (appendEventOnConnection event).Commits db value db' ↔
      InvocationOwnership db.1 event ∧ Tx.Inserts event.withId db db' := by
  simp only [appendEventOnConnection, verifyInvocationOwnership, Tx.commits_bind,
    Tx.commits_query, Tx.commits_require, Tx.commits_insert, Tx.commits_pure]
  constructor
  · rintro ⟨_, _, ⟨_, _, ⟨rfl, rfl⟩, howned, rfl⟩, _, _, ⟨rfl, hinserts⟩, -, rfl⟩
    exact ⟨of_decide_eq_true howned, hinserts⟩
  · rintro ⟨howned, hinserts⟩
    exact ⟨(), _, ⟨_, _, ⟨rfl, rfl⟩, decide_eq_true howned, rfl⟩, _, _, ⟨rfl, hinserts⟩,
      trivial, rfl⟩

/-- A Job that occupies durable queue capacity. -/
def JobRecord.Occupying (job : JobRecord) : Prop :=
  ¬ job.status.IsTerminal

instance : DecidablePred JobRecord.Occupying := fun _ =>
  inferInstanceAs (Decidable (¬ _))

/-- Count the occupying Jobs that also meet `p`. -/
def Tables.pending (db : Tables) (p : JobRecord → Prop) [DecidablePred p] : Nat :=
  db.jobs.rows.countP fun job => job.Occupying ∧ p job

/-- The highest grant id that the Run may ever honour; a Run without tools
snapshots nothing. -/
def Tables.grantCutoff (db : Tables) (agentInstanceId : Nat) (limits : RunLimits) : Nat :=
  if limits.maxToolCalls = 0 then 0
  else
    (((db.configuration.agentToolGrants.filter (·.agentInstanceId = agentInstanceId)).map
      (·.id)).max?).getD 0

structure AgentDefinitionId where
  agentKey : String
  agentDefinitionVersion : String
deriving DecidableEq, Repr

/-- The arguments of one insertion.  `accepted` is what the context, package and
integration subsystems make of it: the text that is stored, or their failure. -/
structure Submission where
  ownerUserId : Nat
  agentInstanceId : Nat
  accepted : Except PersistenceError String
  limits : RunLimits
  definitionId : Option AgentDefinitionId
  now : Instant
  maxAttempts : Nat
  capacity : Nat
  agentCapacity : Nat
  providerCapacity : Nat

def Submission.Names (submission : Submission) (instanceRow : AgentInstanceRecord) :
    Prop :=
  instanceRow.id = submission.agentInstanceId ∧
    instanceRow.ownerUserId = submission.ownerUserId ∧ instanceRow.enabled = true ∧
    ∀ definition ∈ submission.definitionId,
      instanceRow.agentKey = definition.agentKey ∧
        instanceRow.agentDefinitionVersion = definition.agentDefinitionVersion

instance (submission : Submission) : DecidablePred submission.Names := fun _ =>
  inferInstanceAs (Decidable (_ ∧ _ ∧ _ ∧ ∀ definition ∈ submission.definitionId, _))

def Submission.run (submission : Submission) (instanceRow : AgentInstanceRecord)
    (inputText : String) (toolGrantCutoffId id : Nat) : RunRecord where
  id := id
  agentInstanceId := submission.agentInstanceId
  status := .created
  agentKey := instanceRow.agentKey
  agentDefinitionVersion := instanceRow.agentDefinitionVersion
  modelProvider := instanceRow.modelProvider
  modelName := instanceRow.modelName
  inputText := inputText
  limits := submission.limits
  toolGrantCutoffId := toolGrantCutoffId
  createdAt := submission.now

def Submission.job (submission : Submission) (instanceRow : AgentInstanceRecord)
    (runId id : Nat) : JobRecord where
  id := id
  runId := runId
  agentInstanceId := submission.agentInstanceId
  modelProvider := instanceRow.modelProvider
  status := .queued
  availableAt := submission.now
  maxAttempts := submission.maxAttempts
  createdAt := submission.now
  updatedAt := submission.now

def Submission.created (submission : Submission) (runId jobId : Nat) : RunEventRecord where
  runId := runId
  jobId := jobId
  sequence := 1
  eventType := .runCreated
  createdAt := submission.now

def Submission.queued (submission : Submission) (runId jobId : Nat) : RunEventRecord where
  runId := runId
  jobId := jobId
  sequence := 2
  eventType := .runQueued
  availableAt := some submission.now
  createdAt := submission.now

/-- The only implementation of the insertion; it owns no transaction. -/
def insertRunAndJobOnConnection (submission : Submission) : Connection Nat := do
  let named ← Tx.query fun db =>
    db.configuration.agentInstances.find? fun row => submission.Names row
  let instanceRow ← Tx.ofExcept (named.elim (.error .durableSubmissionRejected) .ok)
  let pending ← Tx.query (Tables.pending · fun _ => True)
  Tx.require (pending < submission.capacity) .queueCapacityExceeded
  let agentPending ← Tx.query
    (Tables.pending · (·.agentInstanceId = submission.agentInstanceId))
  Tx.require (agentPending < submission.agentCapacity) .queueCapacityExceeded
  let providerPending ← Tx.query
    (Tables.pending · (·.modelProvider = instanceRow.modelProvider))
  Tx.require (providerPending < submission.providerCapacity) .queueCapacityExceeded
  let cutoff ← Tx.query
    (Tables.grantCutoff · submission.agentInstanceId submission.limits)
  let inputText ← Tx.ofExcept submission.accepted
  let runId ← Tx.insert (submission.run instanceRow inputText cutoff)
  let jobId ← Tx.insert (submission.job instanceRow runId)
  appendEventOnConnection (submission.created runId jobId)
  appendEventOnConnection (submission.queued runId jobId)
  pure runId

def maxPendingCap : Nat := 100000

def ValidPendingCap (value : Nat) : Prop :=
  1 ≤ value ∧ value ≤ maxPendingCap

instance (value : Nat) : Decidable (ValidPendingCap value) :=
  inferInstanceAs (Decidable (_ ∧ _))

def submit (inputText : String) (submission : Submission) : Connection Nat := do
  Tx.require (validateInputText inputText submission.limits = true) .invalidArgument
  Tx.require (1 ≤ submission.maxAttempts ∧ submission.maxAttempts ≤ 10)
    .invalidArgument
  Tx.require (ValidPendingCap submission.capacity ∧ ValidPendingCap submission.agentCapacity ∧
    ValidPendingCap submission.providerCapacity) .invalidArgument
  insertRunAndJobOnConnection submission

theorem commits_insertRunAndJob {submission : Submission} {db db' : Database} {runId : Nat}
    (h : (insertRunAndJobOnConnection submission).Commits db runId db') :
    ∃ instanceRow inputText cutoff db₁ db₂ db₃,
      runId = db.1.runs.next ∧
      Tx.Inserts (submission.run instanceRow inputText cutoff) db db₁ ∧
      Tx.Inserts (submission.job instanceRow db.1.runs.next) db₁ db₂ ∧
      Tx.Inserts (submission.created db.1.runs.next db₁.1.jobs.next).withId db₂ db₃ ∧
      Tx.Inserts (submission.queued db.1.runs.next db₁.1.jobs.next).withId db₃ db' := by
  simp only [insertRunAndJobOnConnection, Tx.commits_bind, Tx.commits_query,
    Tx.commits_ofExcept, Tx.commits_require, Tx.commits_insert, Tx.commits_pure,
    commits_appendEvent] at h
  obtain ⟨named, _, ⟨-, rfl⟩, instanceRow, _, ⟨-, rfl⟩, _, _, ⟨-, rfl⟩, -, _, ⟨-, rfl⟩,
    _, _, ⟨-, rfl⟩, -, _, ⟨-, rfl⟩, _, _, ⟨-, rfl⟩, -, _, ⟨-, rfl⟩, cutoff, _, ⟨-, rfl⟩,
    inputText, _, ⟨-, rfl⟩, _, db₁, ⟨rfl, hrun⟩, _, db₂, ⟨rfl, hjob⟩, -, db₃,
    ⟨-, hcreated⟩, -, _, ⟨-, hqueued⟩, rfl, rfl⟩ := h
  exact ⟨instanceRow, inputText, cutoff, db₁, db₂, db₃, rfl, hrun, hjob, hcreated, hqueued⟩

end NervOS
