/-
The database: its tables, the foreign keys between them, and the transactions
that run on it.
-/
import NervOS.Relational.Transaction
import NervOS.Database.Models

namespace NervOS

open Relational

/-- The owner's configuration, which the execution engine only reads. -/
structure Configuration where
  agentInstances : List AgentInstanceRecord := []
  agentToolGrants : List AgentToolGrantRecord := []
  toolDefinitions : List ToolDefinitionRecord := []
  mcpConnections : List McpConnectionRecord := []
deriving DecidableEq

namespace Configuration

variable (configuration : Configuration)

def agentInstance? (id : Nat) : Option AgentInstanceRecord :=
  configuration.agentInstances.find? (·.id = id)

def toolDefinition? (id : Nat) : Option ToolDefinitionRecord :=
  configuration.toolDefinitions.find? (·.id = id)

def mcpConnection? (id : Nat) : Option McpConnectionRecord :=
  configuration.mcpConnections.find? (·.id = id)

def agentToolGrant? (agentInstanceId toolDefinitionId : Nat) :
    Option AgentToolGrantRecord :=
  configuration.agentToolGrants.find? fun grant =>
    grant.agentInstanceId = agentInstanceId ∧ grant.toolDefinitionId = toolDefinitionId

end Configuration

structure Tables where
  configuration : Configuration := {}
  runs : Table RunRecord := .empty
  jobs : Table JobRecord := .empty
  jobAttempts : Table JobAttemptRecord := .empty
  runEvents : Table RunEventRecord := .empty
  toolInvocations : Table ToolInvocationRecord := .empty
  actionApprovals : Table ActionApprovalRecord := .empty
  queuePartitions : List QueuePartitionRecord := []

section HasTable

instance : HasTable Tables RunRecord where
  table := Tables.runs
  setTable t db := { db with runs := t }
  table_setTable _ _ := rfl

instance : HasTable Tables JobRecord where
  table := Tables.jobs
  setTable t db := { db with jobs := t }
  table_setTable _ _ := rfl

instance : HasTable Tables JobAttemptRecord where
  table := Tables.jobAttempts
  setTable t db := { db with jobAttempts := t }
  table_setTable _ _ := rfl

instance : HasTable Tables RunEventRecord where
  table := Tables.runEvents
  setTable t db := { db with runEvents := t }
  table_setTable _ _ := rfl

instance : HasTable Tables ToolInvocationRecord where
  table := Tables.toolInvocations
  setTable t db := { db with toolInvocations := t }
  table_setTable _ _ := rfl

instance : HasTable Tables ActionApprovalRecord where
  table := Tables.actionApprovals
  setTable t db := { db with actionApprovals := t }
  table_setTable _ _ := rfl

variable (db : Tables)

@[simp] theorem table_run : table db = db.runs := rfl
@[simp] theorem table_job : table db = db.jobs := rfl
@[simp] theorem table_jobAttempt : table db = db.jobAttempts := rfl
@[simp] theorem table_runEvent : table db = db.runEvents := rfl
@[simp] theorem table_toolInvocation : table db = db.toolInvocations := rfl
@[simp] theorem table_actionApproval : table db = db.actionApprovals := rfl

@[simp] theorem setTable_run (t : Table RunRecord) :
    setTable t db = { db with runs := t } := rfl
@[simp] theorem setTable_job (t : Table JobRecord) :
    setTable t db = { db with jobs := t } := rfl
@[simp] theorem setTable_jobAttempt (t : Table JobAttemptRecord) :
    setTable t db = { db with jobAttempts := t } := rfl
@[simp] theorem setTable_runEvent (t : Table RunEventRecord) :
    setTable t db = { db with runEvents := t } := rfl
@[simp] theorem setTable_toolInvocation (t : Table ToolInvocationRecord) :
    setTable t db = { db with toolInvocations := t } := rfl

end HasTable

/-- Foreign keys, all of them `RESTRICT`, and the primary key of the queue
partitions. -/
structure Tables.References (db : Tables) : Prop where
  runAgent : ∀ run ∈ db.runs.rows,
    (db.configuration.agentInstance? run.agentInstanceId).isSome
  jobRun : ∀ job ∈ db.jobs.rows, (db.runs.find job.runId).isSome
  jobAgent : ∀ job ∈ db.jobs.rows,
    (db.configuration.agentInstance? job.agentInstanceId).isSome
  attemptJob : ∀ attempt ∈ db.jobAttempts.rows, (db.jobs.find attempt.jobId).isSome
  eventRun : ∀ event ∈ db.runEvents.rows, (db.runs.find event.runId).isSome
  eventJob : ∀ event ∈ db.runEvents.rows, (db.jobs.find event.jobId).isSome
  eventAttempt : ∀ event ∈ db.runEvents.rows, ∀ id ∈ event.attemptId,
    (db.jobAttempts.find id).isSome
  eventInvocation : ∀ event ∈ db.runEvents.rows, ∀ id ∈ event.toolInvocationId,
    (db.toolInvocations.find id).isSome
  invocationRun : ∀ invocation ∈ db.toolInvocations.rows,
    (db.runs.find invocation.runId).isSome
  invocationJob : ∀ invocation ∈ db.toolInvocations.rows,
    (db.jobs.find invocation.jobId).isSome
  invocationAttempt : ∀ invocation ∈ db.toolInvocations.rows,
    (db.jobAttempts.find invocation.attemptId).isSome
  invocationDefinition : ∀ invocation ∈ db.toolInvocations.rows,
    (db.configuration.toolDefinition? invocation.toolDefinitionId).isSome
  approvalAgent : ∀ approval ∈ db.actionApprovals.rows,
    (db.configuration.agentInstance? approval.agentInstanceId).isSome
  approvalRun : ∀ approval ∈ db.actionApprovals.rows,
    (db.runs.find approval.runId).isSome
  approvalJob : ∀ approval ∈ db.actionApprovals.rows,
    (db.jobs.find approval.jobId).isSome
  approvalAttempt : ∀ approval ∈ db.actionApprovals.rows,
    (db.jobAttempts.find approval.attemptId).isSome
  approvalDefinition : ∀ approval ∈ db.actionApprovals.rows,
    (db.configuration.toolDefinition? approval.toolDefinitionId).isSome
  partitionAgent : ∀ partition ∈ db.queuePartitions,
    (db.configuration.agentInstance? partition.agentInstanceId).isSome
  partitionKey : (db.queuePartitions.map (·.agentInstanceId)).Nodup

instance (db : Tables) : Decidable db.References :=
  decidable_of_iff
    (_ ∧ _ ∧ _ ∧ _ ∧ _ ∧ _ ∧ _ ∧ _ ∧ _ ∧ _ ∧ _ ∧ _ ∧ _ ∧ _ ∧ _ ∧ _ ∧ _ ∧ _ ∧ _)
    ⟨fun ⟨h1, h2, h3, h4, h5, h6, h7, h8, h9, h10, h11, h12, h13, h14, h15, h16, h17,
        h18, h19⟩ =>
      ⟨h1, h2, h3, h4, h5, h6, h7, h8, h9, h10, h11, h12, h13, h14, h15, h16, h17, h18,
        h19⟩,
    fun ⟨h1, h2, h3, h4, h5, h6, h7, h8, h9, h10, h11, h12, h13, h14, h15, h16, h17,
        h18, h19⟩ =>
      ⟨h1, h2, h3, h4, h5, h6, h7, h8, h9, h10, h11, h12, h13, h14, h15, h16, h17, h18,
        h19⟩⟩

instance : Schema Tables where
  References := Tables.References
  decReferences _ := inferInstance

abbrev Database := Consistent Tables

def Database.empty : Database :=
  ⟨{}, by decide⟩

/-- The exceptions that a transaction body raises. -/
inductive PersistenceError where
  | fenced
  | persistenceUnavailable
  | durableSubmissionRejected
  | queueCapacityExceeded
  | eventOwnershipViolation
  | approvalNotFound
  | approvalConflict
  | contextRejected
  | packageNotExecutable
  | invalidArgument
deriving DecidableEq, Repr

/-- A body that runs inside one `BEGIN IMMEDIATE` transaction. -/
abbrev Connection := Tx Tables PersistenceError

end NervOS
