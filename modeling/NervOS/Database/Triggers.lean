/-
The trigger tables, which extend the engine's database, and trigger configuration: creation,
edits, enablement, deletion and credential rotation, each in one transaction that reads the row
it writes.
-/
import NervOS.Relational.Extension
import NervOS.Domain.Scheduling
import NervOS.Database.Submission

namespace NervOS

open Relational

structure TriggerDefinitionRecord where
  id : Nat
  ownerUserId : Nat
  agentInstanceId : Nat
  kind : TriggerKind
  displayName : DisplayName
  enabled : Bool
  inputText : TriggerInput
  configRevision : Nat
  nextFireAt : Option Instant
  runAt : Option Instant
  intervalSeconds : Option IntervalSeconds
  cronExpression : Option CronExpression
  timezone : Option TimezoneName
  publicId : Option PublicId
  secretDigest : Option Digest
  secretCreatedAt : Option Instant
  eventType : Option EventType
  createdAt : Instant
  updatedAt : Instant
deriving DecidableEq

/-- Which of the eight kind-specific columns are set. -/
def TriggerDefinitionRecord.shape (trigger : TriggerDefinitionRecord) : List Bool :=
  [trigger.runAt.isSome, trigger.intervalSeconds.isSome, trigger.cronExpression.isSome,
    trigger.timezone.isSome, trigger.publicId.isSome, trigger.secretDigest.isSome,
    trigger.secretCreatedAt.isSome, trigger.eventType.isSome]

/-- Which of the eight kind-specific columns each kind requires. -/
def TriggerKind.shape : TriggerKind → List Bool
  | .oneTime => [true, false, false, false, false, false, false, false]
  | .interval => [false, true, false, false, false, false, false, false]
  | .cron => [false, false, true, true, false, false, false, false]
  | .webhook => [false, false, false, false, true, true, true, false]
  | .event => [false, false, false, false, false, false, false, true]

/-- The CHECKs of the table, which the domain value repeats. -/
structure TriggerDefinitionRecord.Check (trigger : TriggerDefinitionRecord) : Prop where
  revisionPositive : 0 < trigger.configRevision
  kindShape : trigger.shape = trigger.kind.shape
  nextFireAlignment :
    trigger.nextFireAt.isSome ↔ trigger.kind.IsSchedule ∧ trigger.enabled = true
  timestampOrder : trigger.createdAt ≤ trigger.updatedAt

instance TriggerDefinitionRecord.decidableCheck (trigger : TriggerDefinitionRecord) :
    Decidable trigger.Check :=
  decidable_of_iff (_ ∧ _ ∧ _ ∧ _)
    ⟨fun h => ⟨h.1, h.2.1, h.2.2.1, h.2.2.2⟩, fun h => ⟨h.1, h.2, h.3, h.4⟩⟩

instance : Record TriggerDefinitionRecord where
  key := TriggerDefinitionRecord.id
  Check := TriggerDefinitionRecord.Check
  Clash left right := left.publicId ≠ none ∧ left.publicId = right.publicId
  decCheck _ := inferInstance
  decClash _ _ := inferInstance

/-- The columns whose change makes an edit defining. -/
structure DefiningFields where
  inputText : TriggerInput
  runAt : Option Instant
  intervalSeconds : Option IntervalSeconds
  cronExpression : Option CronExpression
  timezone : Option TimezoneName
  eventType : Option EventType
deriving DecidableEq

def TriggerDefinitionRecord.defining (trigger : TriggerDefinitionRecord) : DefiningFields :=
  ⟨trigger.inputText, trigger.runAt, trigger.intervalSeconds, trigger.cronExpression,
    trigger.timezone, trigger.eventType⟩

def TriggerDefinitionRecord.spec (trigger : TriggerDefinitionRecord) : Option ScheduleSpec :=
  match trigger.kind with
  | .oneTime => trigger.runAt.map .oneTime
  | .interval => trigger.intervalSeconds.map .interval
  | .cron => do
    let expression ← trigger.cronExpression
    let timezone ← trigger.timezone
    pure (.cron expression timezone)
  | .webhook | .event => none

def scheduleOf (calendar : Calendar) (trigger : TriggerDefinitionRecord) :
    Except ScheduleError (Option ScheduleSpec) :=
  match trigger.spec with
  | some (.cron expression timezone) => do
    let _ ← zoneFor calendar timezone.1
    pure (some (.cron expression timezone))
  | schedule => pure schedule

structure TriggerOccurrenceRecord where
  id : Nat
  triggerDefinitionId : Nat
  ownerUserId : Nat
  agentInstanceId : Nat
  triggerRevision : Nat
  status : OccurrenceStatus
  runId : Option Nat
  skipCode : Option String
  skipMessage : Option String
  nominalAt : Option Instant
  eventId : Option String
  idempotencyKey : Option String
  payloadDigest : Option Digest
  payloadBytes : Option Nat
  occurredAt : Instant
  createdAt : Instant
deriving DecidableEq

/-- At most one dedupe identity. -/
def TriggerOccurrenceRecord.identities (occurrence : TriggerOccurrenceRecord) : Nat :=
  [occurrence.nominalAt.isSome, occurrence.eventId.isSome,
    occurrence.idempotencyKey.isSome].count true

structure TriggerOccurrenceRecord.Check (occurrence : TriggerOccurrenceRecord) : Prop where
  revisionPositive : 0 < occurrence.triggerRevision
  statusShape : match occurrence.status with
    | .runCreated => occurrence.runId ≠ none ∧ occurrence.skipCode = none ∧
        occurrence.skipMessage = none
    | .skipped => occurrence.runId = none ∧ occurrence.skipCode ≠ none ∧
        occurrence.skipMessage ≠ none
  skipBounds : ∀ code ∈ occurrence.skipCode, LengthBetween 1 64 code ∧
    ∀ message ∈ occurrence.skipMessage, LengthBetween 1 512 message ∧ HasText message
  payloadPair : occurrence.payloadDigest.isSome = occurrence.payloadBytes.isSome
  eventIdShape : ∀ event ∈ occurrence.eventId, LengthBetween 1 128 event ∧ hasNul event = false
  idempotencyKeyShape : ∀ key ∈ occurrence.idempotencyKey,
    LengthBetween 1 128 key ∧ hasNul key = false
  identityShape : occurrence.identities ≤ 1
  occurredOrder : occurrence.occurredAt ≤ occurrence.createdAt

instance TriggerOccurrenceRecord.decidableCheck (occurrence : TriggerOccurrenceRecord) :
    Decidable occurrence.Check :=
  have : Decidable (match occurrence.status with
      | .runCreated => occurrence.runId ≠ none ∧ occurrence.skipCode = none ∧
          occurrence.skipMessage = none
      | .skipped => occurrence.runId = none ∧ occurrence.skipCode ≠ none ∧
          occurrence.skipMessage ≠ none) := by
    cases occurrence.status
    · exact inferInstanceAs (Decidable (_ ∧ _ ∧ _))
    · exact inferInstanceAs (Decidable (_ ∧ _ ∧ _))
  decidable_of_iff (_ ∧ _ ∧ _ ∧ _ ∧ _ ∧ _ ∧ _ ∧ _)
    ⟨fun ⟨h1, h2, h3, h4, h5, h6, h7, h8⟩ => ⟨h1, h2, h3, h4, h5, h6, h7, h8⟩,
    fun ⟨h1, h2, h3, h4, h5, h6, h7, h8⟩ => ⟨h1, h2, h3, h4, h5, h6, h7, h8⟩⟩

/-- Two columns that are set and equal. -/
def SameValue {α : Type} (left right : Option α) : Prop :=
  left ≠ none ∧ left = right

instance {α : Type} [DecidableEq α] (left right : Option α) : Decidable (SameValue left right) :=
  inferInstanceAs (Decidable (_ ∧ _))

instance : Record TriggerOccurrenceRecord where
  key := TriggerOccurrenceRecord.id
  Check := TriggerOccurrenceRecord.Check
  Clash left right := SameValue left.runId right.runId ∨
    left.triggerDefinitionId = right.triggerDefinitionId ∧
      (SameValue left.nominalAt right.nominalAt ∨ SameValue left.eventId right.eventId ∨
        SameValue left.idempotencyKey right.idempotencyKey)
  decCheck _ := inferInstance
  decClash _ _ := inferInstance

structure TriggerTables where
  triggerDefinitions : Table TriggerDefinitionRecord := .empty
  triggerOccurrences : Table TriggerOccurrenceRecord := .empty

instance : HasTable TriggerTables TriggerDefinitionRecord where
  table := TriggerTables.triggerDefinitions
  setTable t db := { db with triggerDefinitions := t }
  table_setTable _ _ := rfl

instance : HasTable TriggerTables TriggerOccurrenceRecord where
  table := TriggerTables.triggerOccurrences
  setTable t db := { db with triggerOccurrences := t }
  table_setTable _ _ := rfl

@[simp] theorem table_triggerDefinition (db : TriggerTables) :
    table db = db.triggerDefinitions := rfl
@[simp] theorem table_triggerOccurrence (db : TriggerTables) :
    table db = db.triggerOccurrences := rfl

/-- The foreign keys of the trigger tables, all of them `RESTRICT`. -/
structure TriggerTables.References (core : Tables) (own : TriggerTables) : Prop where
  definitionAgent : ∀ trigger ∈ own.triggerDefinitions.rows,
    (core.configuration.agentInstance? trigger.agentInstanceId).isSome
  occurrenceTrigger : ∀ occurrence ∈ own.triggerOccurrences.rows,
    (own.triggerDefinitions.find occurrence.triggerDefinitionId).isSome
  occurrenceAgent : ∀ occurrence ∈ own.triggerOccurrences.rows,
    (core.configuration.agentInstance? occurrence.agentInstanceId).isSome
  occurrenceRun : ∀ occurrence ∈ own.triggerOccurrences.rows, ∀ id ∈ occurrence.runId,
    (core.runs.find id).isSome

instance TriggerTables.decidableReferences (core : Tables) (own : TriggerTables) :
    Decidable (own.References core) :=
  decidable_of_iff (_ ∧ _ ∧ _ ∧ _)
    ⟨fun h => ⟨h.1, h.2.1, h.2.2.1, h.2.2.2⟩, fun h => ⟨h.1, h.2, h.3, h.4⟩⟩

instance : Extension Tables TriggerTables where
  References core own := own.References core
  decReferences _ _ := inferInstance

abbrev TriggerStore := Extended Tables TriggerTables

abbrev TriggerDatabase := Consistent TriggerStore

def TriggerDatabase.empty : TriggerDatabase :=
  ⟨⟨{}, {}⟩, by decide⟩

inductive TriggerError where
  | persistence (error : PersistenceError)
  | schedule (error : ScheduleError)
  | invalidTrigger
  | triggerNotFound
  | triggerNotEditable (detail : String)
  | triggerHasHistory
  | triggerConfigConflict
  | webhookPublicIdConflict
  | webhookDefinitionDrifted
  | eventDefinitionStale (detail : String)
deriving DecidableEq, Repr

abbrev TriggerConnection := Tx TriggerStore TriggerError

structure JoinedTrigger where
  trigger : TriggerDefinitionRecord
  agentDefinitionId : AgentDefinitionId
deriving DecidableEq

def AgentInstanceRecord.definitionId (instanceRow : AgentInstanceRecord) : AgentDefinitionId :=
  ⟨instanceRow.agentKey, instanceRow.agentDefinitionVersion⟩

def TriggerStore.joined (db : TriggerStore) (trigger : TriggerDefinitionRecord) :
    Option JoinedTrigger :=
  (db.core.configuration.agentInstance? trigger.agentInstanceId).map fun instanceRow =>
    ⟨trigger, instanceRow.definitionId⟩

def TriggerStore.owned (db : TriggerStore) (ownerUserId triggerId : Nat) :
    Option JoinedTrigger :=
  ((db.own.triggerDefinitions.find triggerId).filter (·.ownerUserId = ownerUserId)).bind db.joined

def TriggerStore.HasOccurrence (db : TriggerStore) (triggerId : Nat) : Prop :=
  ∃ occurrence ∈ db.own.triggerOccurrences.rows, occurrence.triggerDefinitionId = triggerId

instance (db : TriggerStore) (triggerId : Nat) : Decidable (db.HasOccurrence triggerId) :=
  inferInstanceAs (Decidable (∃ occurrence ∈ _, _))

def loadDefinition (triggerId : Nat) : TriggerConnection TriggerDefinitionRecord := do
  let row ← Tx.query fun db => db.own.triggerDefinitions.find triggerId
  Tx.ofExcept (row.elim (.error .triggerNotFound) .ok)

def readDefinition (ownerUserId triggerId : Nat) : TriggerConnection JoinedTrigger := do
  let row ← Tx.query fun db => db.owned ownerUserId triggerId
  Tx.ofExcept (row.elim (.error .triggerNotFound) .ok)

/-- A proposed trigger, before it has an identity. -/
structure TriggerDraft where
  agentInstanceId : Nat
  displayName : DisplayName
  inputText : TriggerInput
  kind : TriggerKind
  schedule : Option ScheduleSpec := none
  eventType : Option EventType := none
  publicId : Option PublicId := none
  secretDigest : Option Digest := none
  secretCreatedAt : Option Instant := none
  enabled : Bool := true
  nextFireAt : Option Instant := none

def TriggerDraft.candidate (draft : TriggerDraft) (ownerUserId : Nat) (now : Instant)
    (id : Nat) : TriggerDefinitionRecord where
  id := id
  ownerUserId := ownerUserId
  agentInstanceId := draft.agentInstanceId
  kind := draft.kind
  displayName := draft.displayName
  enabled := draft.enabled
  inputText := draft.inputText
  configRevision := 1
  nextFireAt := draft.nextFireAt
  runAt := draft.schedule.bind (·.runAt)
  intervalSeconds := draft.schedule.bind (·.intervalSeconds)
  cronExpression := draft.schedule.bind (·.cronExpression)
  timezone := draft.schedule.bind (·.timezone)
  publicId := draft.publicId
  secretDigest := draft.secretDigest
  secretCreatedAt := draft.secretCreatedAt
  eventType := draft.eventType
  createdAt := now
  updatedAt := now

def insertDefinition (ownerUserId : Nat) (draft : TriggerDraft) (now : Instant) :
    TriggerConnection JoinedTrigger := do
  let ownedInstance ← Tx.query fun db =>
    (db.core.configuration.agentInstance? draft.agentInstanceId).filter
      (·.ownerUserId = ownerUserId)
  Tx.require (ownedInstance ≠ none) .triggerNotFound
  Tx.require (draft.candidate ownerUserId now 0).Check .invalidTrigger
  let id ← Tx.insert (draft.candidate ownerUserId now)
  readDefinition ownerUserId id

def createTrigger (ownerUserId : Nat) (draft : TriggerDraft) (now : Instant) :
    TriggerConnection JoinedTrigger :=
  insertDefinition ownerUserId draft now

/-- A webhook draft must name a locator that is not taken. -/
def createWebhookTrigger (ownerUserId : Nat) (draft : TriggerDraft) (now : Instant) :
    TriggerConnection JoinedTrigger := do
  Tx.require (draft.publicId ≠ none) .invalidTrigger
  let existing ← Tx.query fun db =>
    db.own.triggerDefinitions.rows.find? fun row => row.publicId = draft.publicId
  Tx.require (existing = none) .webhookPublicIdConflict
  insertDefinition ownerUserId draft now

/-- The WHERE clause of an owner-scoped statement. -/
def TriggerDefinitionRecord.Names (ownerUserId triggerId : Nat) (row : TriggerDefinitionRecord) :
    Prop :=
  row.id = triggerId ∧ row.ownerUserId = ownerUserId

instance (ownerUserId triggerId : Nat) :
    DecidablePred (TriggerDefinitionRecord.Names ownerUserId triggerId) := fun _ =>
  inferInstanceAs (Decidable (_ ∧ _))

structure TriggerEdit where
  displayName : DisplayName
  inputText : TriggerInput
  nextFireAt : Option Instant := none
  schedule : Option ScheduleSpec := none
  eventType : Option EventType := none
deriving DecidableEq

/-- The row that an edit proposes, before the revision is considered. -/
def TriggerEdit.candidate (edit : TriggerEdit) (schedule : Option ScheduleSpec) (now : Instant)
    (current : TriggerDefinitionRecord) : TriggerDefinitionRecord :=
  { current with
    displayName := edit.displayName
    inputText := edit.inputText
    nextFireAt := edit.nextFireAt.or current.nextFireAt
    runAt := schedule.bind (·.runAt)
    intervalSeconds := schedule.bind (·.intervalSeconds)
    cronExpression := schedule.bind (·.cronExpression)
    timezone := schedule.bind (·.timezone)
    eventType := if current.kind = .event then edit.eventType else current.eventType
    updatedAt := now }

def TriggerEdit.apply (edit : TriggerEdit) (schedule : Option ScheduleSpec) (now : Instant)
    (current : TriggerDefinitionRecord) : TriggerDefinitionRecord :=
  let candidate := edit.candidate schedule now current
  if candidate.defining = current.defining then candidate
  else { candidate with configRevision := current.configRevision + 1 }

/-- An edit that does not restate the schedule keeps the stored one. -/
def TriggerEdit.scheduleFor (calendar : Calendar) (edit : TriggerEdit)
    (current : TriggerDefinitionRecord) : Except TriggerError (Option ScheduleSpec) :=
  match edit.schedule with
  | some schedule => .ok (some schedule)
  | none => (scheduleOf calendar current).mapError .schedule

def updateTrigger (calendar : Calendar) (ownerUserId triggerId : Nat) (edit : TriggerEdit)
    (now : Instant) (expectedConfigRevision : Option Nat) : TriggerConnection JoinedTrigger := do
  let current ← readDefinition ownerUserId triggerId
  Tx.require (∀ revision ∈ expectedConfigRevision, current.trigger.configRevision = revision)
    .triggerConfigConflict
  let fired ← Tx.query fun db => decide (db.HasOccurrence triggerId)
  Tx.require (¬ (current.trigger.kind = .oneTime ∧ fired = true))
    (.triggerNotEditable "a completed one-time trigger cannot be edited")
  Tx.require (¬ (edit.schedule ≠ none ∧ edit.nextFireAt = none ∧ current.trigger.enabled = true))
    (.triggerNotEditable "an enabled schedule edit must carry the next fire time")
  let schedule ← Tx.ofExcept (edit.scheduleFor calendar current.trigger)
  Tx.require (edit.candidate schedule now current.trigger).Check .invalidTrigger
  let _ ← Tx.update (TriggerDefinitionRecord.Names ownerUserId triggerId)
    fun row => { edit.apply schedule now current.trigger with id := row.id }
  readDefinition ownerUserId triggerId

def setEnabled (ownerUserId triggerId : Nat) (enabled : Bool) (now : Instant)
    (nextFireAt : Option Instant) : TriggerConnection JoinedTrigger := do
  let current ← readDefinition ownerUserId triggerId
  let fired ← Tx.query fun db => decide (db.HasOccurrence triggerId)
  Tx.require (enabled = true → current.trigger.kind.IsSchedule → nextFireAt ≠ none)
    (.triggerNotEditable "enabling a schedule requires its next fire time")
  Tx.require (enabled = true → ¬ current.trigger.kind.IsSchedule → nextFireAt = none)
    (.triggerNotEditable "a delivery-driven trigger has no next fire time")
  Tx.require (enabled = true → ¬ (current.trigger.kind = .oneTime ∧ fired = true))
    (.triggerNotEditable "a completed one-time trigger cannot be re-enabled")
  let _ ← Tx.update (TriggerDefinitionRecord.Names ownerUserId triggerId) fun row => { row with
      enabled := enabled
      nextFireAt := if enabled = true then nextFireAt else none
      updatedAt := now }
  readDefinition ownerUserId triggerId

def deleteTrigger (ownerUserId triggerId : Nat) : TriggerConnection Unit := do
  let _ ← readDefinition ownerUserId triggerId
  let fired ← Tx.query fun db => decide (db.HasOccurrence triggerId)
  Tx.require (fired = false) .triggerHasHistory
  Tx.delete (TriggerDefinitionRecord.Names ownerUserId triggerId)

/-- Replace a webhook's credential; a rotation is not a defining change. -/
def rotateWebhookSecret (ownerUserId triggerId : Nat) (secretDigest : Digest) (now : Instant) :
    TriggerConnection JoinedTrigger := do
  let current ← readDefinition ownerUserId triggerId
  Tx.require (current.trigger.kind = .webhook)
    (.triggerNotEditable "only a webhook trigger carries a secret")
  let _ ← Tx.update (TriggerDefinitionRecord.Names ownerUserId triggerId) fun row => { row with
      secretDigest := some secretDigest
      secretCreatedAt := some now
      updatedAt := now }
  readDefinition ownerUserId triggerId

end NervOS
