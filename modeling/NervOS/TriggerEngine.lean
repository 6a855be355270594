/-
The trigger engine as a machine over the execution engine: owners, schedulers, webhook
senders and event publishers, with every read that precedes a transaction as a step of
its own.
-/
import NervOS.Engine
import NervOS.Application.Ingress

namespace NervOS

open Relational

inductive TriggerOp where
  | engine (op : Op)
  | create (creation : TriggerCreation) (calendar : Calendar)
  | createWebhook (creation : WebhookCreation)
  | prepareUpdate (ownerUserId triggerId expectedConfigRevision : Nat) (changes : TriggerChanges)
      (calendar : Calendar) (now : Instant)
  | commitUpdate (request : UpdateRequest) (calendar : Calendar)
  | prepareEnable (ownerUserId triggerId : Nat) (calendar : Calendar) (now : Instant)
  | commitEnable (request : EnableRequest)
  | disable (ownerUserId triggerId : Nat) (now : Instant)
  | delete (ownerUserId triggerId : Nat)
  | rotateSecret (ownerUserId triggerId : Nat)
      (secret : { secret : String // IsWellFormedSecret secret }) (now : Instant)
  | beginTick (now : Instant) (batch : Nat) (cursor : Option (Instant × Nat))
  | resolveNext (tick : Nat) (definitions : AgentDefinitionResolver) (calendar : Calendar)
      (environment : Environment)
  | locate (delivery : WebhookDelivery)
      (loads : String → Except WebhookPayloadRejection Json.Value)
      (definitions : AgentDefinitionResolver)
  | materialize (delivery : Nat) (environment : Environment)
  | beginPublication (envelope : EventEnvelope) (now : Instant)
  | publishNext (publication : Nat) (resolver : EventResolver) (environment : Environment)

structure TriggerSystem where
  db : TriggerDatabase
  issued : List ClaimedAttempt := []
  updates : List UpdateRequest := []
  enables : List EnableRequest := []
  ticks : List Tick := []
  deliveries : List WebhookDeliveryCommand := []
  publications : List Publication := []
  computed : List (ScheduleSpec × Instant) := []

namespace TriggerSystem

/-- The execution engine that the triggers submit to. -/
def core (system : TriggerSystem) : System :=
  ⟨system.db.core, system.issued⟩

/-- The engine moved, unless that would break a foreign key of a trigger table. -/
def onEngine (next : System) (system : TriggerSystem) : TriggerSystem :=
  if hrefs : system.db.1.own.References next.db.1 then
    { system with db := ⟨⟨next.db.1, system.db.1.own⟩, next.db.2, hrefs⟩, issued := next.issued }
  else system

/-- Run a body in its own transaction and keep what it committed. -/
def commit {α : Type} (x : TriggerConnection α) (system : TriggerSystem) : TriggerSystem :=
  { system with db := (x.run system.db).2 }

def create (creation : TriggerCreation) (calendar : Calendar) (system : TriggerSystem) :
    TriggerSystem :=
  match initialNextFireFor calendar creation.schedule creation.enabled creation.now with
  | .ok next =>
    system.commit (createTrigger creation.ownerUserId (creation.draft next) creation.now)
  | .error _ => system

def requestUpdate (request : Except TriggerError UpdateRequest) (system : TriggerSystem) :
    TriggerSystem :=
  match request with
  | .ok request => { system with updates := system.updates ++ [request] }
  | .error _ => system

def requestEnable (request : Except TriggerError EnableRequest) (system : TriggerSystem) :
    TriggerSystem :=
  match request with
  | .ok request => { system with enables := system.enables ++ [request] }
  | .error _ => system

def tickAt (system : TriggerSystem) (index : Nat) : Option (Tick × DueScheduleCandidate) := do
  let tick ← system.ticks[index]?
  let candidate ← tick.sweep.next
  pure (tick, candidate)

def resolveNext (index : Nat) (definitions : AgentDefinitionResolver) (calendar : Calendar)
    (environment : Environment) (system : TriggerSystem) : TriggerSystem :=
  match system.tickAt index with
  | none => system
  | some (tick, candidate) =>
    let (verdict, db) := resolve definitions calendar environment candidate tick.now system.db
    { system with db := db, ticks := system.ticks.set index (tick.record verdict) }

def locate (result : Except WebhookDeliveryResult WebhookDeliveryCommand) (system : TriggerSystem) :
    TriggerSystem :=
  match result with
  | .ok command => { system with deliveries := system.deliveries ++ [command] }
  | .error _ => system

def materialize (index : Nat) (environment : Environment) (system : TriggerSystem) :
    TriggerSystem :=
  match system.deliveries[index]? with
  | none => system
  | some command => { system with db := (command.materialize environment system.db).2 }

def beginPublication (publication : Option Publication) (system : TriggerSystem) : TriggerSystem :=
  { system with publications := system.publications ++ publication.toList }

def publicationAt (system : TriggerSystem) (index : Nat) :
    Option (Publication × JoinedTrigger) := do
  let publication ← system.publications[index]?
  let candidate ← publication.sweep.next
  pure (publication, candidate)

def publishNext (index : Nat) (resolver : EventResolver) (environment : Environment)
    (system : TriggerSystem) : TriggerSystem :=
  match system.publicationAt index with
  | none => system
  | some (publication, candidate) =>
    let (verdict, db) := publishTo resolver environment publication candidate system.db
    { system with
      db := db
      publications := system.publications.set index (publication.record verdict) }

/-- Execute one operation.  A process can only present what it read or computed before. -/
def step (policy : QueuePolicy) (op : TriggerOp) (system : TriggerSystem) : TriggerSystem :=
  match op with
  | .engine op => system.onEngine (System.exec policy op system.core)
  | .create creation calendar => system.create creation calendar
  | .createWebhook creation =>
    system.commit (createWebhookTrigger creation.ownerUserId creation.draft creation.now)
  | .prepareUpdate ownerUserId triggerId revision changes calendar now =>
    system.requestUpdate
      (prepareUpdate calendar system.db.1 ownerUserId triggerId revision changes now)
  | .commitUpdate request calendar =>
    if request ∈ system.updates then system.commit (request.commit calendar) else system
  | .prepareEnable ownerUserId triggerId calendar now =>
    system.requestEnable (prepareEnable calendar system.db.1 ownerUserId triggerId now)
  | .commitEnable request =>
    if request ∈ system.enables then system.commit request.commit else system
  | .disable ownerUserId triggerId now =>
    system.commit (NervOS.disable ownerUserId triggerId now)
  | .delete ownerUserId triggerId => system.commit (deleteTrigger ownerUserId triggerId)
  | .rotateSecret ownerUserId triggerId secret now =>
    system.commit (rotateWebhookSecret ownerUserId triggerId (digestSecret secret.1) now)
  | .beginTick now batch cursor =>
    { system with
      ticks := system.ticks ++
        [⟨now, ⟨dueScheduleCandidates system.db.1 now batch cursor, [], .running⟩⟩] }
  | .resolveNext index definitions calendar environment =>
    system.resolveNext index definitions calendar environment
  | .locate delivery loads definitions =>
    system.locate (NervOS.locate loads definitions delivery system.db.1)
  | .materialize index environment => system.materialize index environment
  | .beginPublication envelope now =>
    system.beginPublication (discover system.db.1 envelope now)
  | .publishNext index resolver environment => system.publishNext index resolver environment

end TriggerSystem

def logged (schedule : Option ScheduleSpec) (next : Option Instant) :
    List (ScheduleSpec × Instant) :=
  match schedule, next with
  | some schedule, some next => [(schedule, next)]
  | _, _ => []

def TriggerOp.computes (system : TriggerSystem) : TriggerOp → List (ScheduleSpec × Instant)
  | .create creation calendar =>
    match initialNextFireFor calendar creation.schedule creation.enabled creation.now with
    | .ok next => logged creation.schedule next
    | .error _ => []
  | .prepareUpdate ownerUserId triggerId revision changes calendar now =>
    match NervOS.prepareUpdate calendar system.db.1 ownerUserId triggerId revision changes now with
    | .ok request => logged request.edit.schedule request.edit.nextFireAt
    | .error _ => []
  | .prepareEnable ownerUserId triggerId calendar now =>
    match NervOS.prepareEnable calendar system.db.1 ownerUserId triggerId now with
    | .ok request => logged request.schedule request.nextFireAt
    | .error _ => []
  | .resolveNext index _ calendar _ =>
    match system.tickAt index with
    | none => []
    | some (tick, candidate) =>
      match evaluate calendar candidate tick.now with
      | .ok (some decision) => logged candidate.row.trigger.spec decision.nextFireAt
      | .ok none | .error _ => []
  | _ => []

def triggerEngine (policy : QueuePolicy) : Relational.Machine TriggerSystem TriggerOp where
  init := { db := .empty }
  exec op system :=
    { system.step policy op with computed := system.computed ++ op.computes system }

/-- A host that knows UTC only. -/
def sampleCalendar : Calendar where
  zoneInfo name := if name = "UTC" then some ⟨0, []⟩ else none
  nextAfter _ _ := .ok none
  previousBefore _ _ := .ok none

def sampleResolver : AgentDefinitionResolver := fun definitionId =>
  some ⟨definitionId, toolEnabledLimits⟩

def sampleCaps : PendingCaps where
  capacity := 8
  agentCapacity := 8
  providerCapacity := 8
  valid := by decide

def sampleEnvironment : Environment where
  caps := sampleCaps
  surroundings := { memories := fun _ _ => [], binding := fun _ => none }

def sampleOneTime (runAt : Instant) (enabled : Bool) : TriggerCreation where
  ownerUserId := 1
  agentInstanceId := 1
  displayName := ⟨"daily", by decide⟩
  inputText := ⟨"hello", by decide⟩
  kind := .oneTime
  schedule := some (.oneTime runAt)
  enabled := enabled
  now := 0

def sampleFiring : List TriggerOp :=
  [.engine (.configure sampleConfiguration 0), .create (sampleOneTime 10 true) sampleCalendar,
    .beginTick 20 schedulerDueBatch none,
    .resolveNext 0 sampleResolver sampleCalendar sampleEnvironment]

def sampleTriggerRun (ops : List TriggerOp) : TriggerSystem :=
  (triggerEngine productionQueuePolicy).run ops (triggerEngine productionQueuePolicy).init

theorem sampleTriggerRun_reachable (ops : List TriggerOp) :
    (triggerEngine productionQueuePolicy).Reachable (sampleTriggerRun ops) :=
  ⟨ops, rfl⟩

end NervOS
