/-
The execution engine as a machine.  Every operation is one serialized
transaction of some Worker, owner or operator; the inputs of a run choose who
acts next, with which arguments and at which clock reading.
-/
import NervOS.Relational.Machine
import NervOS.Database.Cancellation
import NervOS.Database.ToolInvocations

namespace NervOS

open Relational

/-- What a Worker may do with a claim handle. -/
inductive WorkerAction where
  | startAttempt
  | renewLease (leaseDuration : Duration)
  | succeed (completion : Completion)
  | fail (failure : Failure)
  | recordFailure (failure : Failure) (anchorAt : Instant) (policy : RetryPolicy)
  | persistAttemptUsage (usage : ModelUsage)
  | recordRequested (request : InvocationRequest)
  | markStarted (invocationId : Nat) (approval : Option ApprovalRequest)
  | markDenied (invocationId : Nat) (decision : PermissionDecision)
  | markCancelled (invocationId : Nat)
  | markSucceeded (invocationId : Nat) (envelope : ResultEnvelope)
  | markFailed (invocationId : Nat) (errorCode errorMessage : String)
  | markAmbiguous (invocationId : Nat) (errorCode errorMessage : String)
  | recordPreDispatchRefusal

inductive ApprovalAction where
  | request (request : ApprovalRequest)
  | approve (owner approvalId : Nat)
  | deny (owner approvalId : Nat)
  | cancel (owner approvalId : Nat)
  | listPending (owner : Nat)
  | gateAdmit (request : ApprovalRequest)
  | abandon (request : ApprovalRequest)
  | consume (request : ApprovalRequest) (consumingAttemptId : Nat)

inductive Op where
  | submit (inputText : String) (submission : Submission)
  | insertRunAndJob (submission : Submission)
  | claimNext (request : ClaimRequest)
  | worker (claim : ClaimedAttempt) (action : WorkerAction) (now : Instant)
  | reclaim (now : Instant) (backoff : Duration)
  | cancelRun (userId runId : Nat) (now : Instant)
  | approval (action : ApprovalAction) (now : Instant)
  | closeLegacy (now : Instant)
  | configure (configuration : Configuration) (now : Instant)

/-- The clock reading of an operation. -/
def Op.now : Op → Instant
  | .submit _ submission | .insertRunAndJob submission => submission.now
  | .claimNext request => request.now
  | .worker _ _ now | .reclaim now _ | .cancelRun _ _ now | .approval _ now
  | .closeLegacy now | .configure _ now => now

/-- The database, and the handles that claims returned. -/
structure System where
  db : Database
  issued : List ClaimedAttempt

/-- Run a body in its own transaction and keep what it committed. -/
def commit {α : Type} (x : Connection α) (db : Database) : Database :=
  (x.run db).2

theorem commit_cases {α : Type} (x : Connection α) (db : Database) :
    (∃ value, x.Commits db value (commit x db)) ∨ commit x db = db := by
  rcases Tx.run_cases x db with ⟨value, db', hcommits, hrun⟩ | ⟨abort, hrun⟩
  · refine Or.inl ⟨value, ?_⟩
    rwa [commit, hrun]
  · exact Or.inr (by rw [commit, hrun])

def runWorkerAction (claim : ClaimedAttempt) (now : Instant) :
    WorkerAction → Database → Database
  | .startAttempt => commit (startOnce claim now)
  | .renewLease leaseDuration => commit (renewLease claim now leaseDuration)
  | .succeed completion => commit (succeed claim completion now)
  | .fail failure => commit (fail claim failure now)
  | .recordFailure failure anchorAt policy =>
    commit (recordFailure claim failure anchorAt policy now)
  | .persistAttemptUsage usage => commit (persistAttemptUsage claim usage now)
  | .recordRequested request => commit (recordRequested claim request now)
  | .markStarted invocationId approval => commit (markStarted claim invocationId approval now)
  | .markDenied invocationId decision => commit (markDenied claim invocationId decision now)
  | .markCancelled invocationId => commit (markCancelled claim invocationId now)
  | .markSucceeded invocationId envelope =>
    commit (markSucceeded claim invocationId envelope now)
  | .markFailed invocationId errorCode errorMessage =>
    commit (markFailed claim invocationId errorCode errorMessage now)
  | .markAmbiguous invocationId errorCode errorMessage =>
    commit (markAmbiguous claim invocationId errorCode errorMessage now)
  | .recordPreDispatchRefusal => commit (recordPreDispatchRefusal claim now)

def runApprovalAction (now : Instant) : ApprovalAction → Database → Database
  | .request request => commit (requestApproval request now)
  | .approve owner approvalId => commit (approve owner approvalId now)
  | .deny owner approvalId => commit (deny owner approvalId now)
  | .cancel owner approvalId => commit (cancelApproval owner approvalId now)
  | .listPending owner => commit (listPending owner now)
  | .gateAdmit request => commit (gateAdmit request now)
  | .abandon request => commit (abandon request now)
  | .consume request consumingAttemptId =>
    commit (consume request consumingAttemptId now)

/-- Replace the owner's configuration, whatever the owner's own operations made of
it; only the foreign keys bind them. -/
def configure (configuration : Configuration) : Connection Unit :=
  Tx.write fun db => some { db with configuration := configuration }

def claimedHandle : Except (Abort PersistenceError) (Option ClaimedAttempt) →
    List ClaimedAttempt
  | .ok (some claim) => [claim]
  | .ok none | .error _ => []

def System.exec (policy : QueuePolicy) (op : Op) (system : System) : System :=
  match op with
  | .submit inputText submission =>
    { system with db := commit (submit inputText submission) system.db }
  | .insertRunAndJob submission =>
    { system with db := commit (insertRunAndJobOnConnection submission) system.db }
  | .claimNext request =>
    { db := commit (claimNext policy request) system.db
      issued :=
        system.issued ++ claimedHandle ((claimNext policy request).run system.db).1 }
  | .worker claim action now =>
    if claim ∈ system.issued then
      { system with db := runWorkerAction claim now action system.db }
    else system
  | .reclaim now backoff =>
    { system with db := commit (reclaimNextExpiredClaim now backoff) system.db }
  | .cancelRun userId runId now =>
    { system with db := commit (cancelRun userId runId now) system.db }
  | .approval action now =>
    { system with db := runApprovalAction now action system.db }
  | .closeLegacy now =>
    { system with db := commit (closeLegacyNonterminalRuns now) system.db }
  | .configure configuration _ =>
    { system with db := commit (configure configuration) system.db }

def engine (policy : QueuePolicy) : Machine System Op where
  init := { db := .empty, issued := [] }
  exec := System.exec policy

def sampleConfiguration : Configuration where
  agentInstances := [
    { id := 1, ownerUserId := 1, agentKey := "assistant", agentDefinitionVersion := "1"
      enabled := true, modelProvider := "provider", modelName := "model" }]
  agentToolGrants := [
    { id := 1, agentInstanceId := 1, toolDefinitionId := 1, reviewedFingerprint := .text "" }]
  toolDefinitions := [
    { id := 1, sourceKind := .builtin, sourceId := none, status := .available
      fingerprint := .text "" }]

def sampleSubmission (maxAttempts : Nat) : Submission where
  ownerUserId := 1
  agentInstanceId := 1
  accepted := .ok "hello"
  limits := toolEnabledLimits
  definitionId := none
  now := 0
  maxAttempts := maxAttempts
  capacity := 8
  agentCapacity := 8
  providerCapacity := 8

/-- A poll for the `number`-th Attempt of the only Job. -/
def samplePoll (number : Nat) (now : Instant) : ClaimRequest where
  workerId := "worker"
  providerIds := ["provider"]
  maxActive := 1
  now := now
  leaseDuration := seconds 60
  token := number

def sampleClaim (number : Nat) (now : Instant) : ClaimedAttempt where
  jobId := 1
  runId := 1
  attemptId := number
  attemptNumber := number
  workerId := "worker"
  claimToken := number
  leaseExpiresAt := now + seconds 60

def sampleCompletion : Completion where
  outputText := "done"
  finishReason := none
  usage := {}
  elapsedMs := 0
  committed := .ok ()

/-- The provider refused the request before executing it. -/
def sampleRateLimit : Failure where
  errorCode := modelRateLimited
  errorMessage := "later"
  retryDisposition := .safeToRetry
  usage := {}
  elapsedMs := 0

def sampleStart (maxAttempts : Nat) : List Op :=
  [.configure sampleConfiguration 0, .submit "hello" (sampleSubmission maxAttempts),
    .claimNext (samplePoll 1 0), .worker (sampleClaim 1 0) .startAttempt 1]

def sampleRun (ops : List Op) : System :=
  (engine productionQueuePolicy).run ops (engine productionQueuePolicy).init

theorem sampleRun_reachable (ops : List Op) :
    (engine productionQueuePolicy).Reachable (sampleRun ops) :=
  ⟨ops, rfl⟩

end NervOS
