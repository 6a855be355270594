/-
Trigger management, what an owner's request reads and computes before the transaction that
stores it, and the scheduler: a bounded page of due schedules, and for each of them the decision
that is handed to the transaction that verifies it.
-/
import Mathlib.Data.List.Sort
import NervOS.Database.TriggerMaterialization
import NervOS.Relational.Sweep

namespace NervOS

section Instants

variable (calendar : Calendar)

def initialNextFireFor (schedule : Option ScheduleSpec) (enabled : Bool) (now : Instant) :
    Except ScheduleError (Option Instant) :=
  match schedule with
  | none => .ok none
  | some schedule =>
    if enabled = true then (initialNextFire calendar schedule now).map some else .ok none

def enableNextFire (current : TriggerDefinitionRecord) (now : Instant) :
    Except ScheduleError (Option ScheduleSpec × Option Instant) := do
  let schedule ← scheduleOf calendar current
  let next ← initialNextFireFor calendar schedule true now
  pure (schedule, next)

end Instants

structure TriggerCreation where
  ownerUserId : Nat
  agentInstanceId : Nat
  displayName : DisplayName
  inputText : TriggerInput
  kind : TriggerKind
  schedule : Option ScheduleSpec := none
  eventType : Option EventType := none
  enabled : Bool := true
  now : Instant

def TriggerCreation.draft (creation : TriggerCreation) (next : Option Instant) :
    TriggerDraft where
  agentInstanceId := creation.agentInstanceId
  displayName := creation.displayName
  inputText := creation.inputText
  kind := creation.kind
  schedule := creation.schedule
  eventType := creation.eventType
  enabled := creation.enabled
  nextFireAt := next

/-- A webhook trigger, with the locator and the credential that were generated for it. -/
structure WebhookCreation where
  ownerUserId : Nat
  agentInstanceId : Nat
  displayName : DisplayName
  inputText : TriggerInput
  publicId : PublicId
  secret : { secret : String // IsWellFormedSecret secret }
  enabled : Bool := true
  now : Instant

def WebhookCreation.draft (creation : WebhookCreation) : TriggerDraft where
  agentInstanceId := creation.agentInstanceId
  displayName := creation.displayName
  inputText := creation.inputText
  kind := .webhook
  publicId := some creation.publicId
  secretDigest := some (digestSecret creation.secret.1)
  secretCreatedAt := some creation.now
  enabled := creation.enabled

section Requests

/-- An edit whose read phase is over: its instant was computed for the enablement it read. -/
structure UpdateRequest where
  ownerUserId : Nat
  triggerId : Nat
  expectedConfigRevision : Nat
  edit : TriggerEdit
  now : Instant
deriving DecidableEq

structure EnableRequest where
  ownerUserId : Nat
  triggerId : Nat
  schedule : Option ScheduleSpec
  nextFireAt : Option Instant
  now : Instant
deriving DecidableEq

/-- The fields that an edit changes; an absent field keeps its stored value. -/
structure TriggerChanges where
  displayName : Option DisplayName := none
  inputText : Option TriggerInput := none
  schedule : Option ScheduleSpec := none
  eventType : Option EventType := none

def TriggerChanges.edit (changes : TriggerChanges) (current : TriggerDefinitionRecord)
    (next : Option Instant) : TriggerEdit where
  displayName := changes.displayName.getD current.displayName
  inputText := changes.inputText.getD current.inputText
  nextFireAt := next
  schedule := changes.schedule
  eventType := changes.eventType.or current.eventType

variable (calendar : Calendar) (db : TriggerStore) (ownerUserId triggerId : Nat)

/-- Read a trigger outside of any transaction. -/
def getTrigger : Except TriggerError TriggerDefinitionRecord :=
  (db.owned ownerUserId triggerId).elim (.error .triggerNotFound) fun row => .ok row.trigger

def prepareUpdate (expectedConfigRevision : Nat) (changes : TriggerChanges) (now : Instant) :
    Except TriggerError UpdateRequest := do
  let current ← getTrigger db ownerUserId triggerId
  let next ← (initialNextFireFor calendar changes.schedule current.enabled now).mapError .schedule
  pure ⟨ownerUserId, triggerId, expectedConfigRevision, changes.edit current next, now⟩

def prepareEnable (now : Instant) : Except TriggerError EnableRequest := do
  let current ← getTrigger db ownerUserId triggerId
  let computed ← (enableNextFire calendar current now).mapError .schedule
  pure ⟨ownerUserId, triggerId, computed.1, computed.2, now⟩

end Requests

section Commits

variable (calendar : Calendar)

def UpdateRequest.commit (request : UpdateRequest) : TriggerConnection JoinedTrigger :=
  updateTrigger calendar request.ownerUserId request.triggerId request.edit request.now
    (some request.expectedConfigRevision)

def EnableRequest.commit (request : EnableRequest) : TriggerConnection JoinedTrigger :=
  setEnabled request.ownerUserId request.triggerId true request.now request.nextFireAt

/-- Disabling reads nothing first. -/
def disable (ownerUserId triggerId : Nat) (now : Instant) : TriggerConnection JoinedTrigger :=
  setEnabled ownerUserId triggerId false now none

end Commits

open Relational

/-- One due schedule, with the durable facts that its decision is computed from. -/
structure DueScheduleCandidate where
  row : JoinedTrigger
  expectedConfigRevision : Nat
  expectedNextFireAt : Instant
deriving DecidableEq

def schedulerDueBatch : Nat := 32

/-- A candidate's place in the scan order. -/
def DueScheduleCandidate.position (candidate : DueScheduleCandidate) : Instant × Nat :=
  (candidate.expectedNextFireAt, candidate.row.trigger.id)

/-- The strict order of the scan: the fire time, then the id. -/
def ScanBefore (left right : Instant × Nat) : Prop :=
  left.1 < right.1 ∨ (left.1 = right.1 ∧ left.2 < right.2)

instance (left right : Instant × Nat) : Decidable (ScanBefore left right) :=
  inferInstanceAs (Decidable (_ ∨ _))

def TriggerStore.dueCandidate (db : TriggerStore) (now : Instant)
    (trigger : TriggerDefinitionRecord) : Option DueScheduleCandidate := do
  let next ← trigger.nextFireAt
  let row ← db.joined trigger
  if trigger.enabled = true ∧ next ≤ now ∧ trigger.kind.IsSchedule then
    some ⟨row, trigger.configRevision, next⟩
  else none

def dueScheduleCandidates (db : TriggerStore) (now : Instant) (limit : Nat)
    (after : Option (Instant × Nat)) : List DueScheduleCandidate :=
  (((db.own.triggerDefinitions.rows.filterMap (db.dueCandidate now)).filter fun (candidate : DueScheduleCandidate) =>
      ∀ cursor ∈ after, ScanBefore cursor candidate.position).insertionSort fun left right =>
        ¬ ScanBefore right.position left.position).take limit

abbrev AgentDefinitionResolver := AgentDefinitionId → Option ResolvedAgentDefinition

/-- How the store treats one transaction: it runs, it is refused, or it commits and the
acknowledgement is lost. -/
inductive Persistence where
  | available
  | refused
  | unacknowledged
deriving DecidableEq, Repr

def Persistence.run {α : Type} (persistence : Persistence) (body : TriggerConnection α)
    (db : TriggerDatabase) : Except (Abort TriggerError) α × TriggerDatabase :=
  match persistence with
  | .available => body.run db
  | .refused => (.error .integrity, db)
  | .unacknowledged =>
    match body.run db with
    | (.ok _, db') => (.error .integrity, db')
    | (.error abort, db') => (.error abort, db')

/-- What one materialization meets outside of the trigger tables. -/
structure Environment where
  caps : PendingCaps
  surroundings : Surroundings
  persistence : Persistence := .available

/-- What an exception that is not classified was. -/
inductive Unclassified where
  | unknownAgentDefinition
  | trigger (error : TriggerError)
deriving DecidableEq

abbrev ScheduleVerdict := ItemVerdict ScheduleOutcome Unclassified

/-- The decision for a candidate; a schedule that cannot be evaluated answers the instant
that the row names, and is finished. -/
def ScheduleMaterializationCommand.decided (candidate : DueScheduleCandidate)
    (definition : ResolvedAgentDefinition) (now : Instant) (nominalAt : Instant)
    (nextFireAtAfter : Option Instant) (terminalSkip : Option SkipReason) :
    Except TriggerError ScheduleMaterializationCommand :=
  if hpast : nominalAt ≤ now then
    if hfuture : ∀ next ∈ nextFireAtAfter, now < next then
      .ok
        { triggerDefinitionId := candidate.row.trigger.id
          definition := definition
          now := now
          expectedConfigRevision := candidate.expectedConfigRevision
          expectedNextFireAt := candidate.expectedNextFireAt
          nominalAt := nominalAt
          nextFireAtAfter := nextFireAtAfter
          terminalSkip := terminalSkip
          nominalPast := hpast
          nextFuture := hfuture }
    else .error .invalidTrigger
  else .error .invalidTrigger

def ScheduleFailure.skipReason : ScheduleFailure → SkipReason
  | .timezone => .scheduleTimezoneInvalid
  | .invalid => .scheduleInvalid

def evaluate (calendar : Calendar) (candidate : DueScheduleCandidate) (now : Instant) :
    Except ScheduleError (Option ScheduleDecision) := do
  let schedule ← scheduleOf calendar candidate.row.trigger
  match schedule with
  | none => pure none
  | some schedule => (decideDue calendar schedule candidate.expectedNextFireAt now).map some

def commandFor (calendar : Calendar) (candidate : DueScheduleCandidate)
    (definition : ResolvedAgentDefinition) (now : Instant) :
    Except TriggerError (Option ScheduleMaterializationCommand) :=
  match evaluate calendar candidate now with
  | .ok none => .ok none
  | .ok (some decision) =>
    (ScheduleMaterializationCommand.decided candidate definition now decision.nominalAt
      decision.nextFireAt none).map some
  | .error (.calculation failure) =>
    (ScheduleMaterializationCommand.decided candidate definition now candidate.expectedNextFireAt
      none (some failure.skipReason)).map some
  | .error .invalidTrigger => .error .invalidTrigger

def ScheduleMaterializationCommand.apply (environment : Environment)
    (command : ScheduleMaterializationCommand) (db : TriggerDatabase) :
    ScheduleVerdict × TriggerDatabase :=
  match environment.persistence.run
      (materializeSchedule environment.caps environment.surroundings command) db with
  | (.ok outcome, db') => (.settled outcome, db')
  | (.error .integrity, db') | (.error (.raised (.persistence .persistenceUnavailable)), db') =>
    (.stopped, db')
  | (.error (.raised .triggerNotFound), db') => (.settled (.stale .deleted), db')
  | (.error (.raised (.persistence .queueCapacityExceeded)), db') =>
    (.settled .deferredCapacity, db')
  | (.error (.raised error), db') => (.raised (.trigger error), db')

/-- Evaluate one due schedule and apply the result, or report why nothing was applied. -/
def resolve (definitions : AgentDefinitionResolver) (calendar : Calendar)
    (environment : Environment) (candidate : DueScheduleCandidate) (now : Instant)
    (db : TriggerDatabase) : ScheduleVerdict × TriggerDatabase :=
  match definitions candidate.row.agentDefinitionId with
  | none => (.raised .unknownAgentDefinition, db)
  | some definition =>
    match commandFor calendar candidate definition now with
    | .error error => (.raised (.trigger error), db)
    | .ok none => (.settled (.stale .notSchedule), db)
    | .ok (some command) => command.apply environment db

structure Tick where
  now : Instant
  sweep : Sweep DueScheduleCandidate ScheduleOutcome Unclassified

def Tick.record (verdict : ScheduleVerdict) (tick : Tick) : Tick :=
  { tick with sweep := tick.sweep.record verdict }

/-- The process-local state of one scheduler: its page size, and where its last scan stopped. -/
structure SchedulerService where
  batch : Nat
  positive : 0 < batch
  cursor : Option (Instant × Nat) := none

structure TickInput where
  store : TriggerStore
  now : Instant
  verdict : DueScheduleCandidate → ScheduleVerdict

namespace SchedulerService

variable (service : SchedulerService) (input : TickInput)

/-- The candidates of a tick, taken up in their order. -/
def pass : Sweep DueScheduleCandidate ScheduleOutcome Unclassified :=
  Sweep.through input.verdict
    (dueScheduleCandidates input.store input.now service.batch service.cursor)

/-- `_advance_cursor` -/
def advanceCursor (candidates : List DueScheduleCandidate) (examined : Nat) :
    Option (Instant × Nat) :=
  if examined < candidates.length then service.cursor
  else if candidates.length = service.batch then candidates.getLast?.map (·.position)
  else none

/-- The cursor after a tick; an exception leaves the tick before it is moved. -/
def cursorAfter (sweep : Sweep DueScheduleCandidate ScheduleOutcome Unclassified) :
    Option (Instant × Nat) :=
  match sweep.ending with
  | .running | .stopped => service.advanceCursor sweep.items sweep.examined
  | .raised _ => service.cursor

def tick : SchedulerService :=
  { service with cursor := service.cursorAfter (service.pass input) }

def passes (service : SchedulerService) :
    List TickInput → List (Sweep DueScheduleCandidate ScheduleOutcome Unclassified)
  | [] => []
  | input :: rest => service.pass input :: (service.tick input).passes rest

end SchedulerService

end NervOS
