/-
Fenced writes of one tool call's lifecycle, and the live permission predicate
that the start boundary re-checks.
-/
import NervOS.Database.Approvals
import NervOS.Database.Execution

namespace NervOS

open Relational

/-- The fail-closed call-time predicate, over durable rows only. -/
def evaluatePermission (db : Tables) (runId toolDefinitionId : Nat) : PermissionDecision :=
  match db.runs.find runId with
  | none => .denied .notGranted
  | some run =>
    match db.configuration.agentToolGrant? run.agentInstanceId toolDefinitionId with
    | none => .denied .notGranted
    | some grant =>
      if run.toolGrantCutoffId < grant.id then .denied .grantAfterRunCutoff
      else
        match db.configuration.toolDefinition? toolDefinitionId with
        | none => .denied .definitionUnavailable
        | some definition =>
          if definition.status ≠ .available then .denied .definitionUnavailable
          else if grant.reviewedFingerprint ≠ definition.fingerprint then
            .denied .definitionChanged
          else sourcePermission db run definition
where
  /-- An MCP source must be connected, enabled and of the same owner. -/
  sourcePermission (db : Tables) (run : RunRecord) (definition : ToolDefinitionRecord) :
      PermissionDecision :=
    match definition.sourceKind, definition.sourceId with
    | .builtin, _ => .allowed
    | .mcp, none => .denied .definitionUnavailable
    | .mcp, some sourceId =>
      match db.configuration.mcpConnection? sourceId with
      | none => .denied .connectionDisabled
      | some connection =>
        if connection.enabled = false then .denied .connectionDisabled
        else
          match db.configuration.agentInstance? run.agentInstanceId with
          | none => .denied .notGranted
          | some agent =>
            if connection.ownerUserId ≠ agent.ownerUserId then .denied .ownerMismatch
            else .allowed

section Authority

variable (db : Tables) (claim : ClaimedAttempt)

def Tables.authorityRows : Option (JobAttemptRecord × JobRecord) :=
  (db.jobAttempts.find claim.attemptId).bind fun attempt =>
    (db.jobs.find attempt.jobId).bind fun job =>
      if attempt.jobId = claim.jobId ∧ attempt.workerId = claim.workerId ∧
          attempt.claimToken = claim.claimToken ∧ job.runId = claim.runId ∧
          claim.HoldsJob .running job then some (attempt, job)
      else none

def Live (now : Instant) : Prop :=
  ∃ rows ∈ db.authorityRows claim, rows.1.status = .running ∧
    rows.1.executionStartedAt ≠ none ∧ now < rows.1.leaseExpiresAt

instance (now : Instant) : Decidable (Live db claim now) :=
  inferInstanceAs (Decidable (∃ rows ∈ db.authorityRows claim, _))

def Cancelled : Prop :=
  ∃ rows ∈ db.authorityRows claim, rows.2.cancelRequestedAt ≠ none

instance : Decidable (Cancelled db claim) :=
  inferInstanceAs (Decidable (∃ rows ∈ db.authorityRows claim, _))

/-- The claim may write and may say that a call was dispatched. -/
def Authorized (now : Instant) : Prop :=
  Live db claim now ∧ ¬ Cancelled db claim

instance (now : Instant) : Decidable (Authorized db claim now) :=
  inferInstanceAs (Decidable (_ ∧ ¬ _))

end Authority

def ClaimedAttempt.HoldsCall (claim : ClaimedAttempt) (invocationId : Nat)
    (status : InvocationStatus) (invocation : ToolInvocationRecord) : Prop :=
  invocation.id = invocationId ∧ invocation.attemptId = claim.attemptId ∧
    invocation.status = status

instance (claim : ClaimedAttempt) (invocationId : Nat) (status : InvocationStatus) :
    DecidablePred (claim.HoldsCall invocationId status) := fun _ =>
  inferInstanceAs (Decidable (_ ∧ _ ∧ _))

def InvocationRequest.row (request : InvocationRequest) (now : Instant) (id : Nat) :
    ToolInvocationRecord where
  id := id
  runId := request.runId
  jobId := request.jobId
  attemptId := request.attemptId
  toolSequence := request.toolSequence
  toolDefinitionId := request.toolDefinitionId
  sourceKind := request.sourceKind
  sourceId := request.sourceId
  upstreamName := request.upstreamName
  modelName := request.modelName
  definitionFingerprint := request.definitionFingerprint
  status := .requested
  permissionDecision := request.permissionDecision
  providerCallId := some request.providerCallId
  requestedAt := now
  argumentsDigest := argumentsDigest request.arguments

/-- Close a call that never crossed the start boundary. -/
def ToolInvocationRecord.closeNonDispatched (status : InvocationStatus)
    (decision : Option PermissionDecision) (now : Instant)
    (invocation : ToolInvocationRecord) : ToolInvocationRecord :=
  { invocation with
    status := status
    finishedAt := some now
    permissionDecision := decision.getD invocation.permissionDecision }

def ToolInvocationRecord.start (now : Instant) (invocation : ToolInvocationRecord) :
    ToolInvocationRecord :=
  { invocation with status := .started, startedAt := some now }

def ToolInvocationRecord.succeed (envelope : ResultEnvelope) (now : Instant)
    (invocation : ToolInvocationRecord) : ToolInvocationRecord :=
  { invocation with
    status := .succeeded
    finishedAt := some now
    resultDigest := some envelope.digest
    resultBytes := some envelope.bytes
    resultTruncated := some false }

/-- Close a dispatched call with a safe error pair. -/
def ToolInvocationRecord.conclude (status : InvocationStatus) (errorCode errorMessage : String)
    (now : Instant) (invocation : ToolInvocationRecord) : ToolInvocationRecord :=
  { invocation with
    status := status
    finishedAt := some now
    errorCode := some errorCode
    errorMessage := some errorMessage }

def ClaimedAttempt.toolEvent (claim : ClaimedAttempt) (invocationId : Option Nat)
    (eventType : RunEventType) (sequence : Nat) (now : Instant)
    (code message : Option String) : RunEventRecord :=
  { claim.event eventType sequence now code message with toolInvocationId := invocationId }

section Writes

variable (claim : ClaimedAttempt)

def appendToolEvent (invocationId : Option Nat) (eventType : RunEventType) (now : Instant)
    (code message : Option String) : Connection Unit := do
  let base ← sequenceBase claim.runId
  appendEventOnConnection
    (claim.toolEvent invocationId eventType (base + 1) now code message)

/-- Every refusal carries the one public code. -/
def appendDenied (invocationId : Option Nat) (now : Instant) : Connection Unit :=
  appendToolEvent claim invocationId .toolDenied now (some toolDenied)
    (some (safeErrorMessage toolDenied))

/-- Persist the intent to call a tool, or refuse and insert nothing. -/
def recordRequested (request : InvocationRequest) (now : Instant) :
    Connection RecordOutcome := do
  let authorized ← Tx.query fun db => decide (Authorized db claim now)
  if authorized = false ∨ request.runId ≠ claim.runId ∨ request.jobId ≠ claim.jobId ∨
      request.attemptId ≠ claim.attemptId then pure .fenced
  else do
    let invocationId ← Tx.insert (request.row now)
    appendToolEvent claim (some invocationId) .toolRequested now none none
    pure (.requested invocationId)

def ApprovesCall (approval : ApprovalRequest) (invocation : ToolInvocationRecord) : Prop :=
  approval.runId = invocation.runId ∧ approval.jobId = invocation.jobId ∧
    approval.attemptId = claim.attemptId ∧
    approval.toolSequence = invocation.toolSequence ∧
    approval.toolDefinitionId = invocation.toolDefinitionId ∧
    approval.upstreamName = invocation.upstreamName ∧
    approval.fingerprint = invocation.definitionFingerprint ∧
    inputDigest approval.arguments = invocation.argumentsDigest

instance (approval : ApprovalRequest) : DecidablePred (ApprovesCall claim approval) :=
  fun _ => inferInstanceAs (Decidable (_ ∧ _ ∧ _ ∧ _ ∧ _ ∧ _ ∧ _ ∧ _))

def consumeDecision (decision : PermissionDecision) (approval : Option ApprovalRequest)
    (now : Instant) : Connection PermissionDecision :=
  match decision, approval with
  | .allowed, some approval => do
    let consumed ← consumeOnConnection approval now
    pure (if consumed then .allowed else .denied .hardPolicyDenied)
  | decision, _ => pure decision

/-- Commit the one branch that the decision takes. -/
def startDecided (invocationId : Nat) (decision : PermissionDecision) (now : Instant) :
    Connection StartOutcome :=
  match decision with
  | .denied _ => do
    Tx.updateOne .fenced (claim.HoldsCall invocationId .requested)
      (ToolInvocationRecord.closeNonDispatched .denied (some decision) now)
    appendDenied claim (some invocationId) now
    pure (.denied invocationId decision)
  | .allowed => do
    Tx.updateOne .fenced (claim.HoldsCall invocationId .requested)
      (ToolInvocationRecord.start now)
    appendToolEvent claim (some invocationId) .toolStarted now none none
    pure (.started invocationId)

/-- Re-check authority and the live permission predicate, then commit exactly one
branch: this is the ambiguity boundary. -/
def markStarted (invocationId : Nat) (approval : Option ApprovalRequest) (now : Instant) :
    Connection StartOutcome := do
  let live ← Tx.query fun db => decide (Live db claim now)
  let cancelled ← Tx.query fun db => decide (Cancelled db claim)
  let row ← Tx.query fun db =>
    (db.toolInvocations.find invocationId).filter fun row =>
      row.attemptId = claim.attemptId ∧ row.status = .requested
  if live = false then pure .fenced
  else if cancelled = true then do
    Tx.updateOne .fenced (claim.HoldsCall invocationId .requested)
      (ToolInvocationRecord.closeNonDispatched .cancelled none now)
    pure (.cancelled invocationId)
  else
    match row with
    | none => pure .fenced
    | some row =>
      if ∀ request ∈ approval, ApprovesCall claim request row then do
        let decision ← Tx.query fun db =>
          evaluatePermission db row.runId row.toolDefinitionId
        let decision ← consumeDecision decision approval now
        startDecided claim invocationId decision now
      else pure .fenced

/-- Every other transition of a call is one fenced update of the claim's own row
in the state `source`, with at most one event. -/
def moveCall (invocationId : Nat) (source : InvocationStatus)
    (move : ToolInvocationRecord → ToolInvocationRecord) (append : Connection Unit)
    (now : Instant) : Connection Bool := do
  let authorized ← Tx.query fun db => decide (Authorized db claim now)
  if authorized = false then pure false
  else do
    Tx.updateOne .fenced (claim.HoldsCall invocationId source) move
    append
    pure true

def markDenied (invocationId : Nat) (decision : PermissionDecision) (now : Instant) :
    Connection Bool :=
  moveCall claim invocationId .requested
    (ToolInvocationRecord.closeNonDispatched .denied (some decision) now)
    (appendDenied claim (some invocationId) now) now

def markCancelled (invocationId : Nat) (now : Instant) : Connection Bool :=
  moveCall claim invocationId .requested
    (ToolInvocationRecord.closeNonDispatched .cancelled none now) (pure ()) now

def markSucceeded (invocationId : Nat) (envelope : ResultEnvelope) (now : Instant) :
    Connection Bool :=
  moveCall claim invocationId .started (ToolInvocationRecord.succeed envelope now)
    (appendToolEvent claim (some invocationId) .toolSucceeded now none none) now

def markFailed (invocationId : Nat) (errorCode errorMessage : String) (now : Instant) :
    Connection Bool :=
  moveCall claim invocationId .started
    (ToolInvocationRecord.conclude .failed errorCode errorMessage now)
    (appendToolEvent claim (some invocationId) .toolFailed now (some errorCode)
      (some errorMessage)) now

def markAmbiguous (invocationId : Nat) (errorCode errorMessage : String) (now : Instant) :
    Connection Bool :=
  moveCall claim invocationId .started
    (ToolInvocationRecord.conclude .ambiguous errorCode errorMessage now)
    (appendToolEvent claim (some invocationId) .toolAmbiguous now (some errorCode)
      (some errorMessage)) now

/-- Record a refused call that never became a row. -/
def recordPreDispatchRefusal (now : Instant) : Connection RefusalOutcome := do
  let live ← Tx.query fun db => decide (Live db claim now)
  let cancelled ← Tx.query fun db => decide (Cancelled db claim)
  if live = false then pure .fenced
  else if cancelled = true then pure .cancelled
  else do
    appendDenied claim none now
    pure .recorded

end Writes

variable {claim : ClaimedAttempt} {now : Instant} {db db' : Database}

/-- One event about a call of the claim, committed from a fresh high-water read. -/
def ToolEventInserted (claim : ClaimedAttempt) (eventType : RunEventType) (now : Instant)
    (db db' : Database) : Prop :=
  ∃ invocationId code message, Tx.Inserts (claim.toolEvent invocationId eventType
    (lastSequence (db.1.timeline claim.runId) + 1) now code message).withId db db'

theorem commits_appendToolEvent {invocationId : Option Nat} {eventType : RunEventType}
    {code message : Option String} {value : Unit}
    (h : (appendToolEvent claim invocationId eventType now code message).Commits
      db value db') : ToolEventInserted claim eventType now db db' := by
  simp only [appendToolEvent, sequenceBase, Tx.commits_bind, Tx.commits_query,
    commits_appendEvent] at h
  obtain ⟨_, db, ⟨rfl, rfl⟩, -, hevent⟩ := h
  exact ⟨invocationId, code, message, hevent⟩

theorem commits_recordRequested {request : InvocationRequest} {outcome : RecordOutcome}
    (h : (recordRequested claim request now).Commits db outcome db') :
    db' = db ∨
      ∃ db₁, Authorized db.1 claim now ∧ request.runId = claim.runId ∧
        request.jobId = claim.jobId ∧ request.attemptId = claim.attemptId ∧
        Tx.Inserts (request.row now) db db₁ ∧
        ToolEventInserted claim .toolRequested now db₁ db' := by
  simp only [recordRequested, Tx.commits_bind, Tx.commits_query, Tx.commits_ite,
    Tx.commits_pure, Tx.commits_insert] at h
  obtain ⟨_, db, ⟨rfl, rfl⟩, ⟨-, -, rfl⟩ | ⟨hguard, _, db₁, ⟨-, hinsert⟩, _, _, hevent, -,
    rfl⟩⟩ := h
  · exact Or.inl rfl
  · simp only [decide_eq_false_iff_not, not_or, not_not] at hguard
    obtain ⟨hauthorized, hrun, hjob, hattempt⟩ := hguard
    exact Or.inr ⟨db₁, hauthorized, hrun, hjob, hattempt, hinsert,
      commits_appendToolEvent hevent⟩

def ConsumesApproval (db db' : Database) : Prop :=
  db' = db ∨ ∃ approvalId now, Tx.Updates (ConsumeFence approvalId)
    (ActionApprovalRecord.consume now) db db'

variable {approval : Option ApprovalRequest}

theorem commits_consumeDecision {decision outcome : PermissionDecision}
    (h : (consumeDecision decision approval now).Commits db outcome db') :
    ConsumesApproval db db' := by
  cases decision with
  | denied reason => exact Or.inl (Tx.commits_pure.mp h).2
  | allowed =>
    cases approval with
    | none => exact Or.inl (Tx.commits_pure.mp h).2
    | some request =>
      simp only [consumeDecision, consumeOnConnection, Tx.commits_bind,
        Tx.commits_query, Tx.commits_ofExcept, Tx.commits_pure] at h
      obtain ⟨consumed, db', ⟨owner, db, ⟨-, rfl⟩, _, db, ⟨-, rfl⟩, row, db, ⟨-, rfl⟩,
        hbranch⟩, -, rfl⟩ := h
      cases row with
      | none => exact Or.inl (Tx.commits_pure.mp hbranch).2
      | some row =>
        simp only [Tx.commits_bind, Tx.commits_update, Tx.commits_pure] at hbranch
        obtain ⟨_, db', ⟨-, hupdates⟩, -, rfl⟩ := hbranch
        exact Or.inr ⟨row.id, now, hupdates⟩

def CallMoved (claim : ClaimedAttempt) (now : Instant) (db db' : Database) : Prop :=
  ∃ invocationId source move db₁, source.IsOpen ∧
    (∀ call : ToolInvocationRecord, (move call).id = call.id ∧
      (move call).runId = call.runId ∧ (move call).jobId = call.jobId ∧
      (move call).attemptId = call.attemptId) ∧
    Tx.Updates (claim.HoldsCall invocationId source) move db db₁ ∧
    (db' = db₁ ∨ ∃ eventType, ¬ eventType.IsTerminal ∧
      ToolEventInserted claim eventType now db₁ db')

variable {invocationId : Nat} {decision : PermissionDecision}

theorem commits_startDecided {outcome : StartOutcome}
    (h : (startDecided claim invocationId decision now).Commits db outcome db') :
    CallMoved claim now db db' := by
  cases decision with
  | denied reason =>
    simp only [startDecided, appendDenied, Tx.commits_bind, Tx.commits_updateOne,
      Tx.commits_pure] at h
    obtain ⟨_, db₁, ⟨-, hupdates⟩, _, _, hevent, -, rfl⟩ := h
    exact ⟨invocationId, .requested,
      ToolInvocationRecord.closeNonDispatched .denied (some (.denied reason)) now, db₁,
      trivial, fun _ => ⟨rfl, rfl, rfl, rfl⟩, hupdates,
      Or.inr ⟨.toolDenied, by decide, commits_appendToolEvent hevent⟩⟩
  | allowed =>
    simp only [startDecided, Tx.commits_bind, Tx.commits_updateOne, Tx.commits_pure] at h
    obtain ⟨_, db₁, ⟨-, hupdates⟩, _, _, hevent, -, rfl⟩ := h
    exact ⟨invocationId, .requested, ToolInvocationRecord.start now, db₁, trivial,
      fun _ => ⟨rfl, rfl, rfl, rfl⟩, hupdates,
      Or.inr ⟨.toolStarted, by decide, commits_appendToolEvent hevent⟩⟩

theorem commits_markStarted {outcome : StartOutcome}
    (h : (markStarted claim invocationId approval now).Commits db outcome db') :
    db' = db ∨ (Live db.1 claim now ∧
      ∃ db₁, ConsumesApproval db db₁ ∧ CallMoved claim now db₁ db') := by
  simp only [markStarted, Tx.commits_bind, Tx.commits_query, Tx.commits_ite,
    Tx.commits_pure, Tx.commits_updateOne] at h
  obtain ⟨_, db, ⟨rfl, rfl⟩, _, db, ⟨rfl, rfl⟩, row, db, ⟨-, rfl⟩, h⟩ := h
  rcases h with ⟨-, -, rfl⟩ | ⟨hlive, ⟨-, -, db₁, ⟨-, hupdates⟩, -, rfl⟩ | ⟨-, h⟩⟩
  · exact Or.inl rfl
  · refine Or.inr ⟨by simpa using hlive, db, Or.inl rfl, ?_⟩
    exact ⟨invocationId, .requested,
      ToolInvocationRecord.closeNonDispatched .cancelled none now, db', trivial,
      fun _ => ⟨rfl, rfl, rfl, rfl⟩, hupdates, Or.inl rfl⟩
  · cases row with
    | none => exact Or.inl (Tx.commits_pure.mp h).2
    | some row =>
      simp only [Tx.commits_ite, Tx.commits_bind, Tx.commits_query, Tx.commits_pure] at h
      rcases h with ⟨-, _, db, ⟨rfl, rfl⟩, _, db₁, hconsume, hstart⟩ | ⟨-, -, rfl⟩
      · exact Or.inr ⟨by simpa using hlive, db₁, commits_consumeDecision hconsume,
          commits_startDecided hstart⟩
      · exact Or.inl rfl

variable {outcome : Bool}

theorem commits_moveCall {source : InvocationStatus}
    {move : ToolInvocationRecord → ToolInvocationRecord} {append : Connection Unit}
    (hopen : source.IsOpen)
    (hmove : ∀ call : ToolInvocationRecord, (move call).id = call.id ∧
      (move call).runId = call.runId ∧ (move call).jobId = call.jobId ∧
      (move call).attemptId = call.attemptId)
    (happend : ∀ {middle final}, append.Commits middle () final →
      final = middle ∨ ∃ eventType, ¬ eventType.IsTerminal ∧
        ToolEventInserted claim eventType now middle final)
    (h : (moveCall claim invocationId source move append now).Commits db outcome db') :
    db' = db ∨ (Live db.1 claim now ∧ CallMoved claim now db db') := by
  simp only [moveCall, Tx.commits_bind, Tx.commits_query, Tx.commits_ite, Tx.commits_pure,
    Tx.commits_updateOne] at h
  obtain ⟨_, db, ⟨rfl, rfl⟩, ⟨-, -, rfl⟩ | ⟨hauthorized, _, db₁, ⟨-, hupdates⟩, _, _, hevent,
    -, rfl⟩⟩ := h
  · exact Or.inl rfl
  · have hlive : Authorized db.1 claim now := by simpa using hauthorized
    exact Or.inr ⟨hlive.1, invocationId, source, move, db₁, hopen, hmove, hupdates,
      happend hevent⟩

theorem commits_markDenied (h : (markDenied claim invocationId decision now).Commits db outcome db')
    :
    db' = db ∨ (Live db.1 claim now ∧ CallMoved claim now db db') := by
  refine commits_moveCall ?_ ?_ ?_ h
  · trivial
  · exact fun _ => ⟨rfl, rfl, rfl, rfl⟩
  · exact fun happend => Or.inr ⟨.toolDenied, by decide, commits_appendToolEvent happend⟩

theorem commits_markCancelled (h : (markCancelled claim invocationId now).Commits db outcome db') :
    db' = db ∨ (Live db.1 claim now ∧ CallMoved claim now db db') := by
  refine commits_moveCall ?_ ?_ ?_ h
  · trivial
  · exact fun _ => ⟨rfl, rfl, rfl, rfl⟩
  · exact fun happend => Or.inl (Tx.commits_pure.mp happend).2

theorem commits_markSucceeded {envelope : ResultEnvelope}
    (h : (markSucceeded claim invocationId envelope now).Commits db outcome db') :
    db' = db ∨ (Live db.1 claim now ∧ CallMoved claim now db db') := by
  refine commits_moveCall ?_ ?_ ?_ h
  · trivial
  · exact fun _ => ⟨rfl, rfl, rfl, rfl⟩
  · exact fun happend => Or.inr ⟨.toolSucceeded, by decide, commits_appendToolEvent happend⟩

variable {errorCode errorMessage : String}

theorem commits_markFailed
    (h : (markFailed claim invocationId errorCode errorMessage now).Commits db outcome db') :
    db' = db ∨ (Live db.1 claim now ∧ CallMoved claim now db db') := by
  refine commits_moveCall ?_ ?_ ?_ h
  · trivial
  · exact fun _ => ⟨rfl, rfl, rfl, rfl⟩
  · exact fun happend => Or.inr ⟨.toolFailed, by decide, commits_appendToolEvent happend⟩

theorem commits_markAmbiguous
    (h : (markAmbiguous claim invocationId errorCode errorMessage now).Commits db outcome db') :
    db' = db ∨ (Live db.1 claim now ∧ CallMoved claim now db db') := by
  refine commits_moveCall ?_ ?_ ?_ h
  · trivial
  · exact fun _ => ⟨rfl, rfl, rfl, rfl⟩
  · exact fun happend => Or.inr ⟨.toolAmbiguous, by decide, commits_appendToolEvent happend⟩

theorem commits_recordPreDispatchRefusal {outcome : RefusalOutcome}
    (h : (recordPreDispatchRefusal claim now).Commits db outcome db') :
    db' = db ∨ (Live db.1 claim now ∧ ToolEventInserted claim .toolDenied now db db') := by
  simp only [recordPreDispatchRefusal, appendDenied, Tx.commits_bind, Tx.commits_query,
    Tx.commits_ite, Tx.commits_pure] at h
  obtain ⟨_, db, ⟨rfl, rfl⟩, _, db, ⟨rfl, rfl⟩, h⟩ := h
  rcases h with ⟨-, -, rfl⟩ | ⟨hlive, ⟨-, -, rfl⟩ | ⟨-, _, _, hevent, -, rfl⟩⟩
  · exact Or.inl rfl
  · exact Or.inl rfl
  · exact Or.inr ⟨by simpa using hlive, commits_appendToolEvent hevent⟩

end NervOS
