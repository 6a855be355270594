/-
Action approvals: the owner's decisions, the mediator's gate, and the audit event
of each transition.
-/
import NervOS.Database.Submission

namespace NervOS

open Relational

def Tables.approvedCall (db : Tables) (approval : ActionApprovalRecord) : Option Nat :=
  (db.toolInvocations.rows.find? fun invocation =>
    invocation.runId = approval.runId ∧ invocation.attemptId = approval.attemptId ∧
      invocation.toolSequence = approval.toolSequence).map (·.id)

def ActionApprovalRecord.event (approval : ActionApprovalRecord) (invocationId : Option Nat)
    (eventType : RunEventType) (sequence : Nat) (now : Instant) : RunEventRecord where
  runId := approval.runId
  jobId := approval.jobId
  attemptId := some approval.attemptId
  toolInvocationId := invocationId
  sequence := sequence
  eventType := eventType
  createdAt := now

def approvalEvent (approval : ActionApprovalRecord) (eventType : RunEventType)
    (now : Instant) : Connection Unit := do
  let invocationId ← Tx.query (Tables.approvedCall · approval)
  let base ← sequenceBase approval.runId
  appendEventOnConnection (approval.event invocationId eventType (base + 1) now)

def Tables.resolvedOwner (db : Tables) (request : ApprovalRequest) : Option Nat :=
  if (∃ run ∈ db.runs.find request.runId, run.agentInstanceId = request.agentInstanceId) ∧
      (∃ job ∈ db.jobs.find request.jobId, job.runId = request.runId) then
    (db.configuration.agentInstance? request.agentInstanceId).map (·.ownerUserId)
  else none

def LiveAuthority (db : Tables) (runId jobId attemptId : Nat) (now : Instant) : Prop :=
  ∃ attempt ∈ db.jobAttempts.find attemptId, attempt.jobId = jobId ∧
    attempt.status = .running ∧ attempt.executionStartedAt ≠ none ∧
    now < attempt.leaseExpiresAt ∧
    ∃ job ∈ db.jobs.find jobId, job.runId = runId ∧ job.status = .running ∧
      job.cancelRequestedAt = none ∧ job.claimToken = some attempt.claimToken

instance (db : Tables) (runId jobId attemptId : Nat) (now : Instant) :
    Decidable (LiveAuthority db runId jobId attemptId now) :=
  inferInstanceAs (Decidable (∃ attempt ∈ db.jobAttempts.find attemptId, _ ∧ _ ∧ _ ∧ _ ∧
    ∃ job ∈ db.jobs.find jobId, _))

def LiveRequest (db : Tables) (request : ApprovalRequest) (now : Instant) : Prop :=
  LiveAuthority db request.runId request.jobId request.attemptId now

instance (db : Tables) (request : ApprovalRequest) (now : Instant) :
    Decidable (LiveRequest db request now) :=
  inferInstanceAs (Decidable (LiveAuthority ..))

def ActionApprovalRecord.decide (state : ApprovalState) (now : Instant)
    (approval : ActionApprovalRecord) : ActionApprovalRecord :=
  { approval with state := state, decidedAt := some now }

def approvalById (approvalId : Nat) : Connection ActionApprovalRecord := do
  let row ← Tx.query fun db => db.actionApprovals.find approvalId
  Tx.ofExcept (row.elim (.error .approvalNotFound) .ok)

def setStateOnConnection (approvalId : Nat) (state : ApprovalState) (now : Instant) :
    Connection Unit := do
  let old ← approvalById approvalId
  let _ ← Tx.update (fun row : ActionApprovalRecord => row.id = approvalId)
    (ActionApprovalRecord.decide state now)
  if old.state ≠ state then approvalEvent old .toolApprovalDecided now else pure ()

def staleState (db : Tables) (approval : ActionApprovalRecord) (now : Instant) :
    Option ApprovalState :=
  if approval.expiresAt ≤ now then some .expired
  else if LiveAuthority db approval.runId approval.jobId approval.attemptId now then none
  else some .cancelled

def reconcileRows (now : Instant) : List ActionApprovalRecord → Connection Unit
  | [] => pure ()
  | row :: rest => do
    let state ← Tx.query (staleState · row now)
    state.elim (pure ()) (setStateOnConnection row.id · now)
    reconcileRows now rest

def Tables.openApprovals (db : Tables) (owner : Nat) : List ActionApprovalRecord :=
  db.actionApprovals.rows.filter fun approval =>
    approval.ownerUserId = owner ∧ approval.state.IsOpen

def reconcilePending (owner : Nat) (now : Instant) : Connection Unit := do
  let rows ← Tx.query (Tables.openApprovals · owner)
  reconcileRows now rows

def ownedApproval (owner approvalId : Nat) : Connection ActionApprovalRecord := do
  let row ← approvalById approvalId
  Tx.require (row.ownerUserId = owner) .approvalNotFound
  pure row

def freshApproval (owner approvalId : Nat) (now : Instant) :
    Connection ActionApprovalRecord := do
  let row ← ownedApproval owner approvalId
  if row.state.IsOpen then do
    reconcilePending owner now
    ownedApproval owner approvalId
  else pure row

def approve (owner approvalId : Nat) (now : Instant) : Connection ActionApprovalRecord := do
  let row ← freshApproval owner approvalId now
  match row.state with
  | .expired | .cancelled | .approved => pure row
  | .pending =>
    if row.expiresAt ≤ now then do
      setStateOnConnection approvalId .expired now
      ownedApproval owner approvalId
    else do
      setStateOnConnection approvalId .approved now
      ownedApproval owner approvalId
  | .consumed | .denied | .revoked => Tx.raise .approvalConflict

/-- Deny and cancel are one transition of a pending approval to `target`,
idempotent once it is there. -/
def closePending (target : ApprovalState) (owner approvalId : Nat) (now : Instant) :
    Connection ActionApprovalRecord := do
  let row ← ownedApproval owner approvalId
  if row.state = target then pure row
  else do
    Tx.require (row.state = .pending) .approvalConflict
    setStateOnConnection approvalId target now
    ownedApproval owner approvalId

def deny (owner approvalId : Nat) (now : Instant) : Connection ActionApprovalRecord :=
  closePending .denied owner approvalId now

def cancelApproval (owner approvalId : Nat) (now : Instant) :
    Connection ActionApprovalRecord :=
  closePending .cancelled owner approvalId now

/-- The write half of listing: reconcile before the rows are read. -/
def listPending (owner : Nat) (now : Instant) : Connection Unit :=
  reconcilePending owner now

def ApprovalRequest.row (request : ApprovalRequest) (owner : Nat) (now : Instant)
    (id : Nat) : ActionApprovalRecord where
  id := id
  ownerUserId := owner
  agentInstanceId := request.agentInstanceId
  runId := request.runId
  jobId := request.jobId
  attemptId := request.attemptId
  toolSequence := request.toolSequence
  toolDefinitionId := request.toolDefinitionId
  upstreamName := request.upstreamName
  fingerprint :=
    actionFingerprint request.toolDefinitionId request.upstreamName request.fingerprint
  inputDigest := inputDigest request.arguments
  state := .pending
  requestedAt := now
  expiresAt := now + seconds request.expiresInSeconds

def insertPending (request : ApprovalRequest) (owner : Nat) (now : Instant) :
    Connection Nat := do
  let approvalId ← Tx.insert (request.row owner now)
  approvalEvent (request.row owner now approvalId) .toolApprovalRequested now
  pure approvalId

def requestApproval (request : ApprovalRequest) (now : Instant) : Connection Nat := do
  let owner ← Tx.query (Tables.resolvedOwner · request)
  let owner ← Tx.ofExcept (owner.elim (.error .approvalNotFound) .ok)
  insertPending request owner now

def Matches (request : ApprovalRequest) (owner : Nat) (approval : ActionApprovalRecord) :
    Prop :=
  approval.ownerUserId = owner ∧ approval.runId = request.runId ∧
    approval.jobId = request.jobId ∧ approval.attemptId = request.attemptId ∧
    approval.toolSequence = request.toolSequence ∧
    approval.toolDefinitionId = request.toolDefinitionId ∧
    approval.upstreamName = request.upstreamName ∧
    approval.fingerprint =
      actionFingerprint request.toolDefinitionId request.upstreamName request.fingerprint ∧
    approval.inputDigest = inputDigest request.arguments

instance (request : ApprovalRequest) (owner : Nat) :
    DecidablePred (Matches request owner) := fun _ =>
  inferInstanceAs (Decidable (_ ∧ _ ∧ _ ∧ _ ∧ _ ∧ _ ∧ _ ∧ _ ∧ _))

def Tables.matching (db : Tables) (request : ApprovalRequest) (owner : Nat)
    (p : ApprovalState → Prop) [DecidablePred p] : Option ActionApprovalRecord :=
  (db.actionApprovals.rows.filter fun approval =>
    Matches request owner approval ∧ p approval.state).getLast?

/-- Close an approval whose time is over. -/
def expireApproval (approvalId : Nat) (now : Instant) : Connection Unit := do
  let row ← approvalById approvalId
  if row.state.IsOpen then setStateOnConnection approvalId .expired now else pure ()

/-- The pre-dispatch check of one action. -/
def gateAdmit (request : ApprovalRequest) (now : Instant) : Connection ApprovalAdmission := do
  let owner ← Tx.query (Tables.resolvedOwner · request)
  match owner with
  | none => pure .unavailable
  | some owner => do
    reconcilePending owner now
    let live ← Tx.query fun db => decide (LiveRequest db request now)
    let row ← Tx.query (Tables.matching · request owner fun _ => True)
    if live = false then pure .refused
    else
      match row with
      | none => do
        let _ ← insertPending request owner now
        pure .requested
      | some row =>
        if row.state = .approved ∧ now < row.expiresAt then pure .approved
        else if row.state = .pending ∧ now < row.expiresAt then pure .requested
        else if row.state.IsOpen then do
          expireApproval row.id now
          pure .refused
        else pure .refused

/-- Close every open approval of one call. -/
def abandonRows (now : Instant) : List ActionApprovalRecord → Connection Unit
  | [] => pure ()
  | row :: rest => do
    setStateOnConnection row.id .cancelled now
    abandonRows now rest

def Tables.openApprovalsOf (db : Tables) (request : ApprovalRequest) :
    List ActionApprovalRecord :=
  db.actionApprovals.rows.filter fun approval =>
    approval.runId = request.runId ∧ approval.attemptId = request.attemptId ∧
      approval.toolSequence = request.toolSequence ∧ approval.state.IsOpen

def abandon (request : ApprovalRequest) (now : Instant) : Connection Unit := do
  let rows ← Tx.query (Tables.openApprovalsOf · request)
  abandonRows now rows

def ActionApprovalRecord.consume (now : Instant) (approval : ActionApprovalRecord) :
    ActionApprovalRecord :=
  { approval with state := .consumed, consumedAt := some now }

def ConsumeFence (approvalId : Nat) (approval : ActionApprovalRecord) : Prop :=
  approval.id = approvalId ∧ approval.state = .approved ∧ approval.consumedAt = none

instance (approvalId : Nat) : DecidablePred (ConsumeFence approvalId) := fun _ =>
  inferInstanceAs (Decidable (_ ∧ _ ∧ _))

/-- Consume within the live invocation-start transaction; true when exactly one
approval was consumed. -/
def consumeOnConnection (request : ApprovalRequest) (now : Instant) : Connection Bool := do
  let owner ← Tx.query (Tables.resolvedOwner · request)
  let owner ← Tx.ofExcept (owner.elim (.error .approvalNotFound) .ok)
  let row ← Tx.query fun db =>
    (db.matching request owner (· = .approved)).filter fun row =>
      now < row.expiresAt ∧ LiveRequest db request now
  match row with
  | none => pure false
  | some row => do
    let count ← Tx.update (ConsumeFence row.id) (ActionApprovalRecord.consume now)
    pure (count == 1)

/-- The gate's stand-alone consumption. -/
def consume (request : ApprovalRequest) (consumingAttemptId : Nat) (now : Instant) :
    Connection ConsumeOutcome := do
  let live ← Tx.query fun db => decide (LiveRequest db request now)
  let owner ← Tx.query (Tables.resolvedOwner · request)
  let row ← Tx.query fun db =>
    owner.bind fun owner => db.matching request owner (· = .approved)
  if consumingAttemptId ≠ request.attemptId ∨ live = false then pure .unavailable
  else
    match row with
    | none => pure .unavailable
    | some row =>
      if row.expiresAt ≤ now then do
        expireApproval row.id now
        pure .unavailable
      else do
        let count ← Tx.update (ConsumeFence row.id) (ActionApprovalRecord.consume now)
        pure (if count = 1 then .consumed else .unavailable)

end NervOS
