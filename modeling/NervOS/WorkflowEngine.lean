/-
The workflow engine as a machine over the execution engine: owners, the Scheduler
and the Worker write the same workflows, each operation in one transaction.
-/
import NervOS.Engine
import NervOS.Database.WorkflowControl
import NervOS.Worker.PackageExecution

namespace NervOS

open Relational

inductive WorkflowOp where
  | engine (op : Op)
  | succeed (claim : ClaimedAttempt) (completion : Completion)
      (workflowStep : Option WorkflowStepResult) (now : Instant)
  | create (request : WorkflowCreationRequest) (preparation : Preparation)
  | readStep (runId : Nat)
  | tick (request : TickRequest)
  | deliverSignal (delivery : SignalDelivery)
  | decide (verdict : Verdict)
  | setPaused (ownerUserId workflowId : Nat) (paused : Bool) (now : Instant)
  | cancel (ownerUserId workflowId : Nat) (now : Instant)

/-- The database, the handles that claims returned, and the snapshots that were handed
to packages, each with the Run that it was read for. -/
structure WorkflowSystem where
  db : WorkflowDatabase
  issued : List ClaimedAttempt
  handed : List (Nat × WorkflowStepSnapshot)

namespace WorkflowSystem

/-- The execution engine that the workflows run on. -/
def core (system : WorkflowSystem) : System :=
  ⟨system.db.core, system.issued⟩

/-- The engine moved, unless that would break a foreign key of a workflow table. -/
def onEngine (next : System) (system : WorkflowSystem) : WorkflowSystem :=
  if hrefs : system.db.1.own.References next.db.1 then
    { system with db := ⟨⟨next.db.1, system.db.1.own⟩, next.db.2, hrefs⟩, issued := next.issued }
  else system

/-- Run a body in its own transaction and keep what it committed. -/
def commit {α : Type} (x : WorkflowConnection α) (system : WorkflowSystem) : WorkflowSystem :=
  { system with db := (x.run system.db).2 }

/-- A Worker settles a success under a handle that a claim returned. -/
def settle (claim : ClaimedAttempt) (completion : Completion)
    (workflowStep : Option WorkflowStepResult) (now : Instant) (system : WorkflowSystem) :
    WorkflowSystem :=
  if claim ∈ system.issued then
    system.commit (succeedWithStep claim completion workflowStep now)
  else system

/-- The Worker reads the step that a Run executes, before it starts the package. -/
def readStep (runId : Nat) (system : WorkflowSystem) : WorkflowSystem :=
  match snapshotForRun system.db.1.own runId with
  | .ok (some snapshot) => { system with handed := system.handed ++ [(runId, snapshot)] }
  | .ok none | .error _ => system

/-- Execute one operation.  Every success of a Run goes through the workflow's fence. -/
def exec (policy : QueuePolicy) (op : WorkflowOp) (system : WorkflowSystem) : WorkflowSystem :=
  match op with
  | .engine (.worker claim (.succeed completion) now) =>
    system.settle claim completion none now
  | .engine op => system.onEngine (System.exec policy op system.core)
  | .succeed claim completion workflowStep now =>
    system.settle claim completion workflowStep now
  | .create request preparation =>
    system.commit (createWorkflowWithStep request preparation)
  | .readStep runId => system.readStep runId
  | .tick request => system.commit (tickOne request)
  | .deliverSignal delivery => system.commit (deliverSignal delivery)
  | .decide verdict => system.commit (decideWorkflow verdict)
  | .setPaused ownerUserId workflowId paused now =>
    system.commit (NervOS.setPaused ownerUserId workflowId paused now)
  | .cancel ownerUserId workflowId now =>
    system.commit (cancelWorkflow ownerUserId workflowId now)

end WorkflowSystem

def workflowEngine (policy : QueuePolicy) : Relational.Machine WorkflowSystem WorkflowOp where
  init := { db := .empty, issued := [], handed := [] }
  exec := WorkflowSystem.exec policy

section Commit

variable {α : Type} {system : WorkflowSystem}

theorem WorkflowSystem.commit_cases (x : WorkflowConnection α) (system : WorkflowSystem) :
    (∃ value, x.Commits system.db value (system.commit x).db) ∨ system.commit x = system := by
  rcases Tx.run_cases x system.db with ⟨value, db', hcommits, hrun⟩ | ⟨abort, hrun⟩
  · left
    refine ⟨value, ?_⟩
    rwa [WorkflowSystem.commit, hrun]
  · right
    rw [WorkflowSystem.commit, hrun]

end Commit

def sampleCreation : WorkflowCreationRequest where
  ownerUserId := 1
  agentInstanceId := 1
  workflowKind := "report"
  submissionKey := "daily"
  inputText := "hello"
  limits := toolEnabledLimits
  definitionId := none
  budget := {}
  now := 0

def samplePreparation : Preparation where
  assemble := .ok
  executable := {}

def sampleTick (now : Instant) : TickRequest where
  now := now
  limitsResolver := fun _ => some toolEnabledLimits
  prepare := fun _ => samplePreparation

def nextDirective : WorkflowDirective where
  kind := .next
  valid := by decide

def sampleNext : WorkflowStepResult where
  directive := nextDirective
  state := emptyState
  summary := none
  decisionRequest := none
  summaryValid := noSummary_valid
  requested hkind := nomatch hkind
  waited hrequest := absurd rfl hrequest

def sampleWorkflowStart : List WorkflowOp :=
  [.engine (.configure sampleConfiguration 0), .create sampleCreation samplePreparation,
    .engine (.claimNext (samplePoll 1 0)), .engine (.worker (sampleClaim 1 0) .startAttempt 1)]

def sampleWorkflowRun (ops : List WorkflowOp) : WorkflowSystem :=
  (workflowEngine productionQueuePolicy).run ops (workflowEngine productionQueuePolicy).init

theorem sampleWorkflowRun_reachable (ops : List WorkflowOp) :
    (workflowEngine productionQueuePolicy).Reachable (sampleWorkflowRun ops) :=
  ⟨ops, rfl⟩

end NervOS
