/-
What is delivered to a trigger from outside, what a submission makes of its input before the Run
is inserted, and atomic materialization: one transaction re-reads the trigger, applies its
authority in the order its kind requires, submits a Run, and writes the occurrence that explains
it.
-/
import NervOS.Json.Text
import NervOS.Application.ContextBuilder
import NervOS.Database.Triggers

namespace NervOS

def ValidEventId (value : String) : Prop :=
  1 ≤ value.toList.length ∧ value.toList.length ≤ 128 ∧ hasNul value = false

instance : DecidablePred ValidEventId := fun _ => inferInstanceAs (Decidable (_ ∧ _ ∧ _))

abbrev EventId := { value : String // ValidEventId value }

def maxEventPayloadCanonicalBytes : Nat := 65536

structure EventPayload where
  value : Json.Value
  canonicalBound : utf8Length (Json.canonicalText value) ≤ maxEventPayloadCanonicalBytes

def EventPayload.digest (payload : EventPayload) : Digest :=
  .text (Json.canonicalText payload.value)

def EventPayload.byteCount (payload : EventPayload) : Nat :=
  utf8Length (Json.canonicalText payload.value)

structure EventEnvelope where
  eventId : EventId
  ownerUserId : Nat
  eventType : EventType
  payload : EventPayload
  occurredAt : Instant

def composeEventRunInput (instruction : String) (eventType : EventType) (payload : Json.Value) :
    String :=
  Json.canonicalText (.obj [("instruction", .str instruction),
    ("untrusted_event", .obj [("payload", payload), ("type", .str eventType.1)])])

inductive RawBody where
  | utf8 (text : String)
  | undecodable (bytes : List UInt8)
deriving DecidableEq

inductive WebhookPayloadRejection where
  | emptyBody
  | notUtf8
  | malformed
  | notAnObject
  | duplicateKey
  | notAJsonValue
  | nonFiniteNumber
  | depthExceeded
deriving DecidableEq, Repr

structure WebhookPayload where
  value : Json.Value
  digest : Digest
  byteCount : Nat

/-- Classify a body.  `loads` is the JSON library together with the JSON value contract. -/
def parseWebhookPayload (loads : String → Except WebhookPayloadRejection Json.Value) :
    RawBody → Except WebhookPayloadRejection WebhookPayload
  | .undecodable bytes => if bytes.isEmpty then .error .emptyBody else .error .notUtf8
  | .utf8 text =>
    if text = "" then .error .emptyBody
    else (loads text).map fun value => ⟨value, .text text, utf8Length text⟩

def composeRunInput (instruction : String) (payload : WebhookPayload) : String :=
  Json.canonicalText (.obj [("instruction", .str instruction),
    ("untrusted_webhook_payload", payload.value)])

/-- `[!#-~]{1,128}` -/
def IsWellFormedIdempotencyKey (key : String) : Prop :=
  1 ≤ key.toList.length ∧ key.toList.length ≤ 128 ∧
    key.toList.all (fun character => character == '!' || ('#' ≤ character && character ≤ '~')) =
      true

instance : DecidablePred IsWellFormedIdempotencyKey := fun _ =>
  inferInstanceAs (Decidable (_ ∧ _ ∧ _))

/-- `[A-Za-z0-9_-]{43}` -/
def IsWellFormedSecret (candidate : String) : Prop :=
  candidate.toList.length = 43 ∧ candidate.toList.all isUrlSafe = true

instance : DecidablePred IsWellFormedSecret := fun _ => inferInstanceAs (Decidable (_ ∧ _))

def digestSecret (secret : String) : Digest :=
  .text secret

/-- Stands for the digest of a credential that is not well formed; no secret has it. -/
def dummyDigest : Digest :=
  .text ""

def secretDigestFor (candidate : Option String) : Digest :=
  match candidate.filter fun secret => IsWellFormedSecret secret with
  | some secret => digestSecret secret
  | none => dummyDigest

def SecretMatches (candidate : Option String) (stored : Option Digest) : Prop :=
  stored = some (secretDigestFor candidate) ∧ ∃ secret ∈ candidate, IsWellFormedSecret secret

instance (candidate : Option String) (stored : Option Digest) :
    Decidable (SecretMatches candidate stored) :=
  inferInstanceAs (Decidable (_ ∧ ∃ secret ∈ candidate, IsWellFormedSecret secret))

structure ResolvedAgentDefinition where
  definitionId : AgentDefinitionId
  limits : RunLimits
deriving DecidableEq

/-- The admission capacities of one process. -/
structure PendingCaps where
  capacity : Nat
  agentCapacity : Nat
  providerCapacity : Nat
  valid : ValidPendingCap capacity ∧ ValidPendingCap agentCapacity ∧
    ValidPendingCap providerCapacity

/-- The package that an Agent Instance is bound to, joined with its environment. -/
structure PackageBindingRow where
  packageId : String
  packageVersion : String
  packageStatus : PackageInstallStatus
  environmentStatus : PackageEnvironmentStatus
deriving DecidableEq

def PackageBindingRow.Executable (row : PackageBindingRow) (definitionId : AgentDefinitionId) :
    Prop :=
  row.packageId = definitionId.agentKey ∧
    row.packageVersion = definitionId.agentDefinitionVersion ∧
    row.packageStatus = .active ∧ row.environmentStatus = .ready

instance (row : PackageBindingRow) (definitionId : AgentDefinitionId) :
    Decidable (row.Executable definitionId) :=
  inferInstanceAs (Decidable (_ ∧ _ ∧ _ ∧ _))

/-- What a transaction finds in the memory and package tables for an Agent Instance. -/
structure Surroundings where
  memories : Nat → Nat → List RetrievedMemoryItem
  binding : Nat → Option PackageBindingRow

def resolveRunExecutionSnapshot (binding : Option PackageBindingRow)
    (definitionId : AgentDefinitionId) : Except PersistenceError RunExecutionKind :=
  match binding with
  | none => .ok .builtin
  | some row =>
    if row.Executable definitionId then .ok .package else .error .packageNotExecutable

variable (surroundings : Surroundings) (ownerUserId agentInstanceId : Nat)
  (definitionId : AgentDefinitionId) (inputText : String) (limits : RunLimits)

/-- Independent context first, then the executable. -/
def acceptedInput : Except PersistenceError String := do
  let context ← (ContextBuilder.assemble ⟨limits.inputMaxBytes, limits.inputMaxCodePoints⟩
    inputText [] none (surroundings.memories ownerUserId agentInstanceId)).elim
      (.error .contextRejected) .ok
  let _ ← resolveRunExecutionSnapshot (surroundings.binding agentInstanceId) definitionId
  pure context.renderedContext

/-- An input within the target's limits, for a target that may execute. -/
def Acceptable : Prop :=
  (utf8Length inputText ≤ limits.inputMaxBytes ∧
      inputText.toList.length ≤ limits.inputMaxCodePoints) ∧
    ∀ row ∈ surroundings.binding agentInstanceId, row.Executable definitionId

instance : Decidable (Acceptable surroundings agentInstanceId definitionId inputText limits) :=
  inferInstanceAs (Decidable (_ ∧ ∀ row ∈ surroundings.binding agentInstanceId, _))

theorem resolveRunExecutionSnapshot_isOk {binding : Option PackageBindingRow} :
    (∃ kind, resolveRunExecutionSnapshot binding definitionId = .ok kind) ↔
      ∀ row ∈ binding, row.Executable definitionId := by
  cases binding with
  | none => simp [resolveRunExecutionSnapshot]
  | some row =>
    by_cases hexecutable : row.Executable definitionId
    · simp [resolveRunExecutionSnapshot, hexecutable]
    · simp [resolveRunExecutionSnapshot, hexecutable]

theorem assemble_isSome (budget : ContextBudget) (turns : List CandidateTurn)
    (compaction : Option CompactionData) (memories : List RetrievedMemoryItem) :
    (ContextBuilder.assemble budget inputText turns compaction memories).isSome ↔
      budget.Fits inputText := by
  by_cases hfits : budget.Fits inputText
  · simp [ContextBuilder.assemble, hfits]
  · simp [ContextBuilder.assemble, hfits]

theorem acceptedInput_isOk :
    (∃ text, acceptedInput surroundings ownerUserId agentInstanceId definitionId inputText limits =
        .ok text) ↔
      Acceptable surroundings agentInstanceId definitionId inputText limits := by
  have hcontext := assemble_isSome inputText ⟨limits.inputMaxBytes, limits.inputMaxCodePoints⟩ []
    none (surroundings.memories ownerUserId agentInstanceId)
  have hbinding := @resolveRunExecutionSnapshot_isOk definitionId
    (surroundings.binding agentInstanceId)
  rw [Acceptable, ← hbinding]
  change _ ↔ ContextBudget.Fits ⟨limits.inputMaxBytes, limits.inputMaxCodePoints⟩ inputText ∧ _
  rw [← hcontext, acceptedInput]
  cases ContextBuilder.assemble ⟨limits.inputMaxBytes, limits.inputMaxCodePoints⟩ inputText []
    none (surroundings.memories ownerUserId agentInstanceId) with
  | none => simp [bind, Except.bind]
  | some context =>
    cases resolveRunExecutionSnapshot (surroundings.binding agentInstanceId) definitionId with
    | error error => simp [bind, Except.bind]
    | ok kind => simp [bind, Except.bind, pure, Except.pure]

end NervOS

namespace NervOS

open Relational

def triggerMaxAttempts : Nat := 3

def TriggerDefinitionRecord.submission (trigger : TriggerDefinitionRecord) (caps : PendingCaps)
    (surroundings : Surroundings) (definition : ResolvedAgentDefinition) (inputText : String)
    (now : Instant) : Submission where
  ownerUserId := trigger.ownerUserId
  agentInstanceId := trigger.agentInstanceId
  accepted := acceptedInput surroundings trigger.ownerUserId trigger.agentInstanceId
    definition.definitionId inputText definition.limits
  limits := definition.limits
  definitionId := some definition.definitionId
  now := now
  maxAttempts := triggerMaxAttempts
  capacity := caps.capacity
  agentCapacity := caps.agentCapacity
  providerCapacity := caps.providerCapacity

/-- Insert the Run, or learn that the Agent Instance may not create one. -/
def submitTriggered (submission : Submission) : TriggerConnection (Option Nat) := do
  let outcome ← Tx.savepoint
    (Tx.onCore TriggerError.persistence (insertRunAndJobOnConnection submission))
  match outcome with
  | .ok runId => pure (some runId)
  | .error (.persistence .durableSubmissionRejected) => pure none
  | .error error => Tx.raise error

/-- Whether the target still resolves to the definition that was resolved. -/
def TriggerStore.AgentDefinitionMatches (db : TriggerStore) (trigger : TriggerDefinitionRecord)
    (expected : AgentDefinitionId) : Prop :=
  (db.core.configuration.agentInstance? trigger.agentInstanceId).map (·.definitionId) =
    some expected

instance (db : TriggerStore) (trigger : TriggerDefinitionRecord) (expected : AgentDefinitionId) :
    Decidable (db.AgentDefinitionMatches trigger expected) :=
  inferInstanceAs (Decidable (_ = _))

inductive OccurrenceIdentity where
  | nominal (at_ : Instant)
  | event (eventId : String)
  | idempotency (key : String)
deriving DecidableEq

def TriggerOccurrenceRecord.HasIdentity (occurrence : TriggerOccurrenceRecord) :
    OccurrenceIdentity → Prop
  | .nominal instant => occurrence.nominalAt = some instant
  | .event eventId => occurrence.eventId = some eventId
  | .idempotency key => occurrence.idempotencyKey = some key

instance (occurrence : TriggerOccurrenceRecord) :
    DecidablePred occurrence.HasIdentity
  | .nominal _ | .event _ | .idempotency _ => inferInstanceAs (Decidable (_ = _))

def TriggerStore.findExisting (db : TriggerStore) (triggerId : Nat)
    (identity : Option OccurrenceIdentity) : Option TriggerOccurrenceRecord :=
  identity.bind fun identity =>
    db.own.triggerOccurrences.rows.find? fun occurrence =>
      occurrence.triggerDefinitionId = triggerId ∧ occurrence.HasIdentity identity

inductive OccurrenceResult where
  | runCreated (runId : Nat)
  | skipped (reason : SkipReason)

namespace OccurrenceResult

def status : OccurrenceResult → OccurrenceStatus
  | runCreated _ => .runCreated
  | skipped _ => .skipped

def runId : OccurrenceResult → Option Nat
  | runCreated runId => some runId
  | skipped _ => none

def skipReason : OccurrenceResult → Option SkipReason
  | runCreated _ => none
  | skipped reason => some reason

def ofSubmitted : Option Nat → OccurrenceResult
  | some runId => runCreated runId
  | none => skipped .agentDisabled

end OccurrenceResult

structure OccurrenceFacts where
  identity : Option OccurrenceIdentity
  payload : Option (Digest × Nat) := none
  occurredAt : Instant
  createdAt : Instant

def OccurrenceFacts.row (facts : OccurrenceFacts) (trigger : TriggerDefinitionRecord)
    (result : OccurrenceResult) (id : Nat) : TriggerOccurrenceRecord where
  id := id
  triggerDefinitionId := trigger.id
  ownerUserId := trigger.ownerUserId
  agentInstanceId := trigger.agentInstanceId
  triggerRevision := trigger.configRevision
  status := result.status
  runId := result.runId
  skipCode := result.skipReason.map (·.code)
  skipMessage := result.skipReason.map skipMessages
  nominalAt := match facts.identity with | some (.nominal instant) => some instant | _ => none
  eventId := match facts.identity with | some (.event eventId) => some eventId | _ => none
  idempotencyKey := match facts.identity with | some (.idempotency key) => some key | _ => none
  payloadDigest := facts.payload.map (·.1)
  payloadBytes := facts.payload.map (·.2)
  occurredAt := facts.occurredAt
  createdAt := facts.createdAt

def writeOccurrence (trigger : TriggerDefinitionRecord) (facts : OccurrenceFacts)
    (result : OccurrenceResult) : TriggerConnection TriggerOccurrenceRecord := do
  Tx.require (facts.row trigger result 0).Check .invalidTrigger
  let id ← Tx.insert (facts.row trigger result)
  let row ← Tx.query fun db => db.own.triggerOccurrences.find id
  Tx.ofExcept (row.elim (.error .triggerNotFound) .ok)

inductive StaleReason where
  | revisionChanged
  | nextFireChanged
  | disabled
  | deleted
  | notSchedule
  | notDue
  | agentDefinitionChanged
deriving DecidableEq, Repr

/-- What one scheduler materialization produced. -/
inductive ScheduleOutcome where
  | materialized (occurrence : TriggerOccurrenceRecord)
  | skipped (occurrence : TriggerOccurrenceRecord)
  | duplicated (occurrence : TriggerOccurrenceRecord)
  | stale (reason : StaleReason)
  | deferredCapacity
deriving DecidableEq

/-- One due schedule's decision: preconditions to verify, and a state to write. -/
structure ScheduleMaterializationCommand where
  triggerDefinitionId : Nat
  definition : ResolvedAgentDefinition
  now : Instant
  expectedConfigRevision : Nat
  expectedNextFireAt : Instant
  nominalAt : Instant
  nextFireAtAfter : Option Instant
  terminalSkip : Option SkipReason := none
  nominalPast : nominalAt ≤ now
  nextFuture : ∀ next ∈ nextFireAtAfter, now < next

/-- Why a decision no longer applies. -/
def TriggerStore.scheduleStaleReason (db : TriggerStore) (trigger : TriggerDefinitionRecord)
    (command : ScheduleMaterializationCommand) : Option StaleReason :=
  if ¬ trigger.kind.IsSchedule then some .notSchedule
  else if trigger.configRevision ≠ command.expectedConfigRevision then some .revisionChanged
  else if trigger.enabled ≠ true then some .disabled
  else if trigger.nextFireAt ≠ some command.expectedNextFireAt then some .nextFireChanged
  else if command.now < command.expectedNextFireAt then some .notDue
  else if ¬ db.AgentDefinitionMatches trigger command.definition.definitionId then
    some .agentDefinitionChanged
  else none

def ScheduleMaterializationCommand.facts (command : ScheduleMaterializationCommand) :
    OccurrenceFacts where
  identity := some (.nominal command.nominalAt)
  occurredAt := command.now
  createdAt := command.now

/-- Create the Run and the occurrence for an identity that does not yet exist. -/
def materializeNew (caps : PendingCaps) (surroundings : Surroundings)
    (trigger : TriggerDefinitionRecord) (command : ScheduleMaterializationCommand) :
    TriggerConnection TriggerOccurrenceRecord :=
  match command.terminalSkip with
  | some reason => writeOccurrence trigger command.facts (.skipped reason)
  | none => do
    let current ← Tx.query fun db =>
      decide (db.AgentDefinitionMatches trigger command.definition.definitionId)
    Tx.require (current = true)
      (.triggerNotEditable "the target agent instance changed definition")
    let submitted ← submitTriggered
      (trigger.submission caps surroundings command.definition trigger.inputText.1 command.now)
    writeOccurrence trigger command.facts (.ofSubmitted submitted)

def TriggerDefinitionRecord.advanced (next : Option Instant) (now : Instant)
    (trigger : TriggerDefinitionRecord) : TriggerDefinitionRecord :=
  match next with
  | none => { trigger with enabled := false, nextFireAt := none, updatedAt := now }
  | some next => { trigger with nextFireAt := some next, updatedAt := now }

/-- Identity first, then the preconditions, then the occurrence and the transition. -/
def materializeSchedule (caps : PendingCaps) (surroundings : Surroundings)
    (command : ScheduleMaterializationCommand) : TriggerConnection ScheduleOutcome := do
  let trigger ← loadDefinition command.triggerDefinitionId
  let existing ← Tx.query fun db =>
    db.findExisting trigger.id (some (.nominal command.nominalAt))
  match existing with
  | some occurrence => pure (.duplicated occurrence)
  | none => do
    let stale ← Tx.query fun db => db.scheduleStaleReason trigger command
    match stale with
    | some reason => pure (.stale reason)
    | none => do
      let occurrence ← materializeNew caps surroundings trigger command
      let _ ← Tx.update (fun row : TriggerDefinitionRecord => row.id = trigger.id)
        (TriggerDefinitionRecord.advanced command.nextFireAtAfter command.now)
      pure (if occurrence.status = .skipped then .skipped occurrence
        else .materialized occurrence)

inductive EventOutcome where
  | runCreated (occurrence : TriggerOccurrenceRecord)
  | skipped (occurrence : TriggerOccurrenceRecord)
  | duplicate (occurrence : TriggerOccurrenceRecord)
  | stale
  | capacityDeferred
  | eventIdConflict
deriving DecidableEq

structure EventMaterializationCommand where
  triggerDefinitionId : Nat
  envelope : EventEnvelope
  definition : ResolvedAgentDefinition
  now : Instant

def EventMaterializationCommand.facts (command : EventMaterializationCommand) :
    OccurrenceFacts where
  identity := some (.event command.envelope.eventId.1)
  payload := some (command.envelope.payload.digest, command.envelope.payload.byteCount)
  occurredAt := command.envelope.occurredAt
  createdAt := command.now

def applyEventOccurrence (caps : PendingCaps) (surroundings : Surroundings)
    (trigger : TriggerDefinitionRecord) (command : EventMaterializationCommand) :
    TriggerConnection EventOutcome := do
  let composed := composeEventRunInput trigger.inputText.1 command.envelope.eventType
    command.envelope.payload.value
  if validateInputText composed command.definition.limits = false then do
    let occurrence ← writeOccurrence trigger command.facts (.skipped .inputTooLarge)
    pure (.skipped occurrence)
  else do
    let submitted ← submitTriggered
      (trigger.submission caps surroundings command.definition composed command.now)
    let occurrence ← writeOccurrence trigger command.facts (.ofSubmitted submitted)
    pure (if submitted = none then .skipped occurrence else .runCreated occurrence)

/-- Re-read, identity, authority, then act. -/
def materializeEvent (caps : PendingCaps) (surroundings : Surroundings)
    (command : EventMaterializationCommand) : TriggerConnection EventOutcome := do
  let envelope := command.envelope
  let trigger ← loadDefinition command.triggerDefinitionId
  Tx.require (trigger.ownerUserId = envelope.ownerUserId ∧ trigger.kind = .event)
    (.eventDefinitionStale "the discovered trigger no longer matches the event")
  let existing ← Tx.query fun db => db.findExisting trigger.id (some (.event envelope.eventId.1))
  match existing with
  | some occurrence =>
    pure (if occurrence.payloadDigest ≠ some envelope.payload.digest then .eventIdConflict
      else .duplicate occurrence)
  | none => do
    Tx.require (trigger.enabled = true)
      (.eventDefinitionStale "the trigger was disabled before this identity committed")
    Tx.require (trigger.eventType = some envelope.eventType)
      (.eventDefinitionStale "the trigger's event type changed before this identity")
    let current ← Tx.query fun db =>
      decide (db.AgentDefinitionMatches trigger command.definition.definitionId)
    Tx.require (current = true)
      (.eventDefinitionStale "the target agent definition changed before this identity")
    applyEventOccurrence caps surroundings trigger command

/-- What one delivery attempt produced. -/
inductive WebhookDeliveryResult where
  | materialized (occurrence : TriggerOccurrenceRecord)
  | skipped (occurrence : TriggerOccurrenceRecord)
  | duplicate (occurrence : TriggerOccurrenceRecord)
  | conflict
  | unauthenticated
  | disabled
  | unsupportedMediaType
  | malformedPayload
  | invalidIdempotencyKey
  | capacityExceeded
  | temporarilyUnavailable
deriving DecidableEq

structure WebhookDeliveryCommand where
  triggerDefinitionId : Nat
  candidateSecretDigest : Digest
  idempotencyKey : Option String
  payload : WebhookPayload
  definition : ResolvedAgentDefinition
  occurredAt : Instant

def WebhookDeliveryCommand.facts (command : WebhookDeliveryCommand) : OccurrenceFacts where
  identity := command.idempotencyKey.map .idempotency
  payload := some (command.payload.digest, command.payload.byteCount)
  occurredAt := command.occurredAt
  createdAt := command.occurredAt

/-- A fresh delivery to an enabled trigger whose target has not drifted. -/
def applyWebhookDelivery (caps : PendingCaps) (surroundings : Surroundings)
    (trigger : TriggerDefinitionRecord) (command : WebhookDeliveryCommand) :
    TriggerConnection WebhookDeliveryResult := do
  let composed := composeRunInput trigger.inputText.1 command.payload
  if validateInputText composed command.definition.limits = false then do
    let occurrence ← writeOccurrence trigger command.facts (.skipped .inputTooLarge)
    pure (.skipped occurrence)
  else do
    let submitted ← submitTriggered
      (trigger.submission caps surroundings command.definition composed command.occurredAt)
    let occurrence ← writeOccurrence trigger command.facts (.ofSubmitted submitted)
    pure (if submitted = none then .skipped occurrence else .materialized occurrence)

/-- Authenticate, look up, then apply: no occurrence is read for a credential that is not
the current one. -/
def materializeWebhook (caps : PendingCaps) (surroundings : Surroundings)
    (command : WebhookDeliveryCommand) : TriggerConnection WebhookDeliveryResult := do
  let trigger ← loadDefinition command.triggerDefinitionId
  if trigger.kind ≠ .webhook then pure .unauthenticated
  else if trigger.secretDigest ≠ some command.candidateSecretDigest then pure .unauthenticated
  else do
    let existing ← Tx.query fun db => db.findExisting trigger.id command.facts.identity
    match existing with
    | some occurrence =>
      pure (if occurrence.payloadDigest ≠ some command.payload.digest then .conflict
        else .duplicate occurrence)
    | none => do
      if trigger.enabled = false then pure .disabled
      else do
        let current ← Tx.query fun db =>
          decide (db.AgentDefinitionMatches trigger command.definition.definitionId)
        Tx.require (current = true) .webhookDefinitionDrifted
        applyWebhookDelivery caps surroundings trigger command

end NervOS
