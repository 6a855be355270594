/-
The persisted rows and the constraints that their tables declare.  An
enumeration column is an inductive type, so its `IN (…)` CHECK holds by typing;
a CHECK passes unless it is false, so a comparison with NULL passes.
-/
import Mathlib.Data.List.TakeWhile
import NervOS.Relational.Table
import NervOS.Application.Tools

namespace NervOS

open Relational

section Text

/-- SQLite's `length` of a text: the characters before the first NUL. -/
def sqlLength (text : String) : Nat :=
  (text.toList.takeWhile (· != '\x00')).length

def LengthBetween (low high : Nat) (text : String) : Prop :=
  low ≤ sqlLength text ∧ sqlLength text ≤ high

instance (low high : Nat) (text : String) : Decidable (LengthBetween low high text) :=
  inferInstanceAs (Decidable (_ ∧ _))

/-- `length(trim(text, blank characters)) > 0`. -/
def HasText (text : String) : Prop :=
  (text.toList.dropWhile isBlankCharacter).head?.any (· != '\x00') = true

instance : DecidablePred HasText := fun _ =>
  inferInstanceAs (Decidable (_ = true))

/-- `(code IS NULL) = (message IS NULL)`. -/
def Paired (code message : Option String) : Prop :=
  code.isSome = message.isSome

instance (code message : Option String) : Decidable (Paired code message) :=
  inferInstanceAs (Decidable (_ = _))

/-- `code IS NULL OR (length(code) BETWEEN 1 AND 64 AND length(message) BETWEEN
1 AND 512)`. -/
def ErrorBounds (code message : Option String) : Prop :=
  ∀ text ∈ code, LengthBetween 1 64 text ∧ ∀ detail ∈ message, LengthBetween 1 512 detail

instance (code message : Option String) : Decidable (ErrorBounds code message) :=
  inferInstanceAs (Decidable (∀ text ∈ code, _))

variable {text : String}

theorem sqlLength_of_hasNul (hnul : hasNul text = false) :
    sqlLength text = text.toList.length := by
  unfold sqlLength
  rw [List.takeWhile_eq_self_iff.mpr]
  intro character hcharacter
  have hne : character ≠ '\x00' := by
    rintro rfl
    simp [hasNul, hcharacter] at hnul
  simpa using hne

theorem validateErrorMessage_bounds (hvalid : validateErrorMessage text = true) :
    LengthBetween 1 512 text := by
  simp only [validateErrorMessage, Bool.and_eq_true, Bool.not_eq_true',
    decide_eq_true_eq] at hvalid
  obtain ⟨⟨⟨hblank, hnul⟩, hlength⟩, -⟩ := hvalid
  rw [LengthBetween, sqlLength_of_hasNul hnul]
  refine ⟨?_, hlength⟩
  by_contra hempty
  have hnil : text.toList = [] := List.length_eq_zero_iff.mp (by omega)
  simp [isBlankText, hnil] at hblank

theorem validateErrorMessage_hasText (hvalid : validateErrorMessage text = true) :
    HasText text := by
  simp only [validateErrorMessage, Bool.and_eq_true, Bool.not_eq_true',
    decide_eq_true_eq] at hvalid
  obtain ⟨⟨⟨hblank, hnul⟩, -⟩, -⟩ := hvalid
  unfold HasText
  cases hrest : text.toList.dropWhile isBlankCharacter with
  | nil =>
    rw [List.dropWhile_eq_nil_iff] at hrest
    simp only [isBlankText, List.all_eq_false] at hblank
    obtain ⟨character, hmem, hnot⟩ := hblank
    exact absurd (hrest character hmem) hnot
  | cons character rest =>
    have hmem : character ∈ text.toList :=
      (List.dropWhile_sublist isBlankCharacter).subset (by rw [hrest]; simp)
    have hne : character ≠ '\x00' := by
      rintro rfl
      simp [hasNul, hmem] at hnul
    simpa using hne

end Text

structure RunRecord where
  id : Nat
  agentInstanceId : Nat
  status : RunStatus
  agentKey : String
  agentDefinitionVersion : String
  modelProvider : String
  modelName : String
  inputText : String
  limits : RunLimits
  toolGrantCutoffId : Nat
  outputText : Option String := none
  finishReason : Option String := none
  errorCode : Option String := none
  errorMessage : Option String := none
  usage : ModelUsage := {}
  elapsedMs : Option Int := none
  createdAt : Instant
  startedAt : Option Instant := none
  finishedAt : Option Instant := none
deriving DecidableEq

/-- The columns that each lifecycle state fills and leaves empty. -/
def RunRecord.LifecycleShape (run : RunRecord) : Prop :=
  match run.status with
  | .created =>
    run.startedAt = none ∧ run.finishedAt = none ∧ run.outputText = none ∧
      run.finishReason = none ∧ run.errorCode = none ∧ run.errorMessage = none ∧
      run.usage = {} ∧ run.elapsedMs = none
  | .running =>
    run.startedAt ≠ none ∧ run.finishedAt = none ∧ run.outputText = none ∧
      run.finishReason = none ∧ run.errorCode = none ∧ run.errorMessage = none ∧
      run.usage = {} ∧ run.elapsedMs = none
  | .succeeded =>
    run.startedAt ≠ none ∧ run.finishedAt ≠ none ∧
      run.outputText.any (HasText ·) = true ∧
      run.errorCode = none ∧ run.errorMessage = none ∧ run.elapsedMs ≠ none
  | .failed =>
    (run.startedAt ≠ none ∧ run.finishedAt ≠ none ∧ run.outputText = none ∧
      run.finishReason = none ∧
      run.errorCode.any (· ≠ workerRecoveryExhausted) = true ∧
      run.errorMessage.any (HasText ·) = true ∧ run.elapsedMs ≠ none) ∨
    (run.startedAt = none ∧ run.finishedAt ≠ none ∧ run.outputText = none ∧
      run.finishReason = none ∧
      (∀ code ∈ run.errorCode, code = workerRecoveryExhausted) ∧
      run.errorMessage.any (HasText ·) = true ∧ run.usage = {} ∧
      run.elapsedMs = none)
  | .cancelled =>
    run.finishedAt ≠ none ∧ run.outputText = none ∧ run.finishReason = none ∧
      run.errorCode = none ∧ run.errorMessage = none ∧ run.usage = {} ∧
      run.startedAt.isSome = run.elapsedMs.isSome

instance (run : RunRecord) : Decidable run.LifecycleShape := by
  unfold RunRecord.LifecycleShape
  cases run.status <;> infer_instance

structure RunRecord.Check (run : RunRecord) : Prop where
  agentInstancePositive : 0 < run.agentInstanceId
  inputBounds : LengthBetween 1 run.limits.inputMaxCodePoints run.inputText ∧
    utf8Length run.inputText ≤ run.limits.inputMaxBytes ∧
    hasNul run.inputText = false ∧ HasText run.inputText
  outputBounds : ∀ output ∈ run.outputText,
    LengthBetween 1 run.limits.outputMaxCodePoints output ∧
      utf8Length output ≤ run.limits.outputMaxBytes ∧ hasNul output = false
  elapsedNonnegative : ∀ elapsed ∈ run.elapsedMs, 0 ≤ elapsed
  startedOrder : ∀ started ∈ run.startedAt, run.createdAt ≤ started
  finishedOrder : ∀ finished ∈ run.finishedAt,
    (∃ started ∈ run.startedAt, started ≤ finished) ∨
      (run.startedAt = none ∧ run.createdAt ≤ finished ∧
        ((∀ code ∈ run.errorCode, code = workerRecoveryExhausted) ∨
          run.status = .cancelled))
  lifecycleShape : run.LifecycleShape

instance (run : RunRecord) : Decidable run.Check :=
  decidable_of_iff (_ ∧ _ ∧ _ ∧ _ ∧ _ ∧ _ ∧ _)
    ⟨fun h => ⟨h.1, h.2.1, h.2.2.1, h.2.2.2.1, h.2.2.2.2.1, h.2.2.2.2.2.1,
      h.2.2.2.2.2.2⟩,
    fun h => ⟨h.1, h.2, h.3, h.4, h.5, h.6, h.7⟩⟩

instance : Record RunRecord where
  key := RunRecord.id
  Check := RunRecord.Check
  Clash _ _ := False
  decCheck _ := inferInstance
  decClash _ _ := inferInstance

structure JobRecord where
  id : Nat
  runId : Nat
  agentInstanceId : Nat
  modelProvider : String
  status : JobStatus
  availableAt : Instant
  attemptCount : Nat := 0
  maxAttempts : Nat := 3
  cancelRequestedAt : Option Instant := none
  claimedBy : Option String := none
  claimToken : Option ClaimToken := none
  leaseExpiresAt : Option Instant := none
  lastHeartbeatAt : Option Instant := none
  errorCode : Option String := none
  errorMessage : Option String := none
  createdAt : Instant
  updatedAt : Instant
  finishedAt : Option Instant := none
deriving DecidableEq

def JobRecord.Claimless (job : JobRecord) : Prop :=
  job.claimedBy = none ∧ job.claimToken = none ∧ job.leaseExpiresAt = none ∧
    job.lastHeartbeatAt = none

instance : DecidablePred JobRecord.Claimless := fun _ =>
  inferInstanceAs (Decidable (_ ∧ _ ∧ _ ∧ _))

def JobRecord.Claimed (job : JobRecord) : Prop :=
  (∃ worker ∈ job.claimedBy, LengthBetween 1 128 worker) ∧ job.claimToken ≠ none ∧
    job.leaseExpiresAt ≠ none ∧ job.lastHeartbeatAt ≠ none

instance : DecidablePred JobRecord.Claimed := fun _ =>
  inferInstanceAs (Decidable (_ ∧ _ ∧ _ ∧ _))

structure JobRecord.Check (job : JobRecord) : Prop where
  attemptBounds : job.attemptCount ≤ job.maxAttempts ∧ 1 ≤ job.maxAttempts ∧
    job.maxAttempts ≤ 10
  modelProviderShape : LengthBetween 1 64 job.modelProvider
  claimShape : job.Claimless ∨ job.Claimed
  errorPair : Paired job.errorCode job.errorMessage
  errorBounds : ErrorBounds job.errorCode job.errorMessage
  timestampOrder : job.createdAt ≤ job.updatedAt ∧ job.createdAt ≤ job.availableAt ∧
    (∀ finished ∈ job.finishedAt, job.createdAt ≤ finished) ∧
    ∀ requested ∈ job.cancelRequestedAt, job.createdAt ≤ requested
  terminalFinish : job.status.IsTerminal ↔ job.finishedAt ≠ none
  terminalError : (job.status = .failed ∨ job.status = .cancelled) ↔ job.errorCode ≠ none
  cancelledRequest : job.status = .cancelled → job.cancelRequestedAt ≠ none

instance (job : JobRecord) : Decidable job.Check :=
  decidable_of_iff (_ ∧ _ ∧ _ ∧ _ ∧ _ ∧ _ ∧ _ ∧ _ ∧ _)
    ⟨fun h => ⟨h.1, h.2.1, h.2.2.1, h.2.2.2.1, h.2.2.2.2.1, h.2.2.2.2.2.1,
      h.2.2.2.2.2.2.1, h.2.2.2.2.2.2.2.1, h.2.2.2.2.2.2.2.2⟩,
    fun h => ⟨h.1, h.2, h.3, h.4, h.5, h.6, h.7, h.8, h.9⟩⟩

/-- One Job for each Run. -/
instance : Record JobRecord where
  key := JobRecord.id
  Check := JobRecord.Check
  Clash left right := left.runId = right.runId
  decCheck _ := inferInstance
  decClash _ _ := inferInstance

structure JobAttemptRecord where
  id : Nat
  jobId : Nat
  attemptNumber : Nat
  status : AttemptStatus
  workerId : String
  claimToken : ClaimToken
  claimedAt : Instant
  executionStartedAt : Option Instant := none
  leaseExpiresAt : Instant
  lastHeartbeatAt : Instant
  finishedAt : Option Instant := none
  retryDisposition : Option RetryDisposition := none
  errorCode : Option String := none
  errorMessage : Option String := none
  usage : ModelUsage := {}
  createdAt : Instant
deriving DecidableEq

structure JobAttemptRecord.Check (attempt : JobAttemptRecord) : Prop where
  attemptNumberPositive : 0 < attempt.attemptNumber
  ownerShape : LengthBetween 1 128 attempt.workerId
  leaseOrder : attempt.claimedAt < attempt.leaseExpiresAt ∧
    attempt.claimedAt ≤ attempt.lastHeartbeatAt ∧ attempt.claimedAt ≤ attempt.createdAt
  startOrder : ∀ started ∈ attempt.executionStartedAt, attempt.claimedAt ≤ started
  finishOrder : ∀ finished ∈ attempt.finishedAt,
    attempt.executionStartedAt.getD attempt.claimedAt ≤ finished
  errorPair : Paired attempt.errorCode attempt.errorMessage
  errorBounds : ErrorBounds attempt.errorCode attempt.errorMessage
  terminalFinish : ¬ attempt.status.IsActive ↔ attempt.finishedAt ≠ none
  activeShape : attempt.status.IsActive → attempt.finishedAt = none ∧
    attempt.retryDisposition = none ∧ attempt.errorCode = none
  claimedShape : attempt.status = .claimed → attempt.executionStartedAt = none
  runningShape : attempt.status = .running → attempt.executionStartedAt ≠ none
  failureDisposition : attempt.status = .failed ∨ attempt.status = .expired →
    attempt.retryDisposition ≠ none
  successShape : attempt.status = .succeeded →
    attempt.retryDisposition = none ∧ attempt.errorCode = none

instance (attempt : JobAttemptRecord) : Decidable attempt.Check :=
  decidable_of_iff (_ ∧ _ ∧ _ ∧ _ ∧ _ ∧ _ ∧ _ ∧ _ ∧ _ ∧ _ ∧ _ ∧ _ ∧ _)
    ⟨fun h => ⟨h.1, h.2.1, h.2.2.1, h.2.2.2.1, h.2.2.2.2.1, h.2.2.2.2.2.1,
      h.2.2.2.2.2.2.1, h.2.2.2.2.2.2.2.1, h.2.2.2.2.2.2.2.2.1,
      h.2.2.2.2.2.2.2.2.2.1, h.2.2.2.2.2.2.2.2.2.2.1, h.2.2.2.2.2.2.2.2.2.2.2.1,
      h.2.2.2.2.2.2.2.2.2.2.2.2⟩,
    fun h => ⟨h.1, h.2, h.3, h.4, h.5, h.6, h.7, h.8, h.9, h.10, h.11, h.12, h.13⟩⟩

instance : Record JobAttemptRecord where
  key := JobAttemptRecord.id
  Check := JobAttemptRecord.Check
  Clash left right := left.jobId = right.jobId ∧
    (left.attemptNumber = right.attemptNumber ∨
      (left.status.IsActive ∧ right.status.IsActive))
  decCheck _ := inferInstance
  decClash _ _ := inferInstance

/-- The store assigns the id when the event is inserted. -/
structure RunEventRecord where
  id : Nat := 0
  runId : Nat
  jobId : Nat
  attemptId : Option Nat := none
  toolInvocationId : Option Nat := none
  sequence : Nat
  eventType : RunEventType
  code : Option String := none
  message : Option String := none
  attemptNumber : Option Nat := none
  availableAt : Option Instant := none
  createdAt : Instant
deriving DecidableEq

def RunEventRecord.withId (event : RunEventRecord) (id : Nat) : RunEventRecord :=
  { event with id := id }

structure RunEventRecord.Check (event : RunEventRecord) : Prop where
  sequencePositive : 0 < event.sequence
  messagePair : Paired event.code event.message
  messageBounds : ErrorBounds event.code event.message
  attemptNumberPositive : ∀ number ∈ event.attemptNumber, 0 < number
  retryAvailable : event.eventType = .retryScheduled → event.availableAt ≠ none

instance (event : RunEventRecord) : Decidable event.Check :=
  decidable_of_iff (_ ∧ _ ∧ _ ∧ _ ∧ _)
    ⟨fun h => ⟨h.1, h.2.1, h.2.2.1, h.2.2.2.1, h.2.2.2.2⟩,
    fun h => ⟨h.1, h.2, h.3, h.4, h.5⟩⟩

instance : Record RunEventRecord where
  key := RunEventRecord.id
  Check := RunEventRecord.Check
  Clash left right := left.runId = right.runId ∧ left.sequence = right.sequence
  decCheck _ := inferInstance
  decClash _ _ := inferInstance

structure ToolInvocationRecord where
  id : Nat
  runId : Nat
  jobId : Nat
  attemptId : Nat
  toolSequence : Nat
  toolDefinitionId : Nat
  sourceKind : ToolSourceKind
  sourceId : Option Nat
  upstreamName : String
  modelName : String
  definitionFingerprint : Digest
  status : InvocationStatus
  permissionDecision : PermissionDecision
  providerCallId : Option String
  requestedAt : Instant
  startedAt : Option Instant := none
  finishedAt : Option Instant := none
  argumentsDigest : Digest
  resultDigest : Option Digest := none
  resultBytes : Option Nat := none
  resultTruncated : Option Bool := none
  errorCode : Option String := none
  errorMessage : Option String := none
deriving DecidableEq

/-- Lowercase letters, digits, `_` and `-`, beginning with a letter or digit. -/
def ModelNameShape (name : String) : Prop :=
  let isWord (c : Char) : Bool := ('a' ≤ c && c ≤ 'z') || ('0' ≤ c && c ≤ '9')
  LengthBetween 1 64 name ∧ name.toList.all (fun c => isWord c || c == '_' || c == '-') = true ∧
    name.toList.head?.any isWord = true

instance (name : String) : Decidable (ModelNameShape name) :=
  inferInstanceAs (Decidable (_ ∧ _ ∧ _))

structure ToolInvocationRecord.Check (invocation : ToolInvocationRecord) : Prop where
  toolSequencePositive : 0 < invocation.toolSequence
  sourceShape : (invocation.sourceKind = .builtin) ↔ invocation.sourceId = none
  upstreamNameShape : LengthBetween 1 128 invocation.upstreamName
  modelNameShape : ModelNameShape invocation.modelName
  providerCallIdBounds : ∀ id ∈ invocation.providerCallId, LengthBetween 1 128 id
  dispatchedShape : invocation.status.IsDispatched ↔ invocation.startedAt ≠ none
  lifecycleShape : invocation.status.IsOpen ↔ invocation.finishedAt = none
  startOrder : ∀ started ∈ invocation.startedAt, invocation.requestedAt ≤ started
  finishOrder : ∀ finished ∈ invocation.finishedAt,
    invocation.startedAt.getD invocation.requestedAt ≤ finished
  resultShape : if invocation.status = .succeeded then
      invocation.resultDigest ≠ none ∧ invocation.resultBytes ≠ none ∧
        invocation.resultTruncated ≠ none
    else invocation.resultDigest = none ∧ invocation.resultBytes = none ∧
      invocation.resultTruncated = none
  successShape : invocation.status = .succeeded → invocation.errorCode = none
  failureError : invocation.status = .failed ∨ invocation.status = .ambiguous →
    invocation.errorCode ≠ none
  errorPair : Paired invocation.errorCode invocation.errorMessage
  errorBounds : ErrorBounds invocation.errorCode invocation.errorMessage

instance (invocation : ToolInvocationRecord) : Decidable invocation.Check :=
  decidable_of_iff (_ ∧ _ ∧ _ ∧ _ ∧ _ ∧ _ ∧ _ ∧ _ ∧ _ ∧ _ ∧ _ ∧ _ ∧ _ ∧ _)
    ⟨fun h => ⟨h.1, h.2.1, h.2.2.1, h.2.2.2.1, h.2.2.2.2.1, h.2.2.2.2.2.1,
      h.2.2.2.2.2.2.1, h.2.2.2.2.2.2.2.1, h.2.2.2.2.2.2.2.2.1,
      h.2.2.2.2.2.2.2.2.2.1, h.2.2.2.2.2.2.2.2.2.2.1, h.2.2.2.2.2.2.2.2.2.2.2.1,
      h.2.2.2.2.2.2.2.2.2.2.2.2.1, h.2.2.2.2.2.2.2.2.2.2.2.2.2⟩,
    fun h => ⟨h.1, h.2, h.3, h.4, h.5, h.6, h.7, h.8, h.9, h.10, h.11, h.12, h.13,
      h.14⟩⟩

instance : Record ToolInvocationRecord where
  key := ToolInvocationRecord.id
  Check := ToolInvocationRecord.Check
  Clash left right := left.attemptId = right.attemptId ∧
    left.toolSequence = right.toolSequence
  decCheck _ := inferInstance
  decClash _ _ := inferInstance

structure ActionApprovalRecord where
  id : Nat
  ownerUserId : Nat
  agentInstanceId : Nat
  runId : Nat
  jobId : Nat
  attemptId : Nat
  toolSequence : Nat
  toolDefinitionId : Nat
  upstreamName : String
  fingerprint : Digest
  inputDigest : Digest
  state : ApprovalState
  requestedAt : Instant
  expiresAt : Instant
  decidedAt : Option Instant := none
  consumedAt : Option Instant := none
deriving DecidableEq

structure ActionApprovalRecord.Check (approval : ActionApprovalRecord) : Prop where
  expiryAfterRequest : approval.requestedAt < approval.expiresAt
  lifecycleShape : (approval.consumedAt ≠ none ↔ approval.state = .consumed) ∧
    (approval.state = .pending → approval.decidedAt = none) ∧
    (approval.state = .approved ∨ approval.state = .consumed → approval.decidedAt ≠ none)

instance (approval : ActionApprovalRecord) : Decidable approval.Check :=
  decidable_of_iff (_ ∧ _) ⟨fun h => ⟨h.1, h.2⟩, fun h => ⟨h.1, h.2⟩⟩

instance : Record ActionApprovalRecord where
  key := ActionApprovalRecord.id
  Check := ActionApprovalRecord.Check
  Clash left right := left.attemptId = right.attemptId ∧
    left.toolSequence = right.toolSequence
  decCheck _ := inferInstance
  decClash _ _ := inferInstance

structure QueuePartitionRecord where
  agentInstanceId : Nat
  lastServedAttemptId : Option Nat
deriving DecidableEq, Repr

structure AgentInstanceRecord where
  id : Nat
  ownerUserId : Nat
  agentKey : String
  agentDefinitionVersion : String
  enabled : Bool
  modelProvider : String
  modelName : String
deriving DecidableEq, Repr

structure AgentToolGrantRecord where
  id : Nat
  agentInstanceId : Nat
  toolDefinitionId : Nat
  reviewedFingerprint : Digest
deriving DecidableEq

structure ToolDefinitionRecord where
  id : Nat
  sourceKind : ToolSourceKind
  sourceId : Option Nat
  status : DefinitionStatus
  fingerprint : Digest
deriving DecidableEq

structure McpConnectionRecord where
  id : Nat
  ownerUserId : Nat
  enabled : Bool
deriving DecidableEq, Repr

end NervOS
