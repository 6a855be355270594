/-
Ingress: a webhook delivery's checks before its transaction, in their order, and what the
transaction's exceptions are answered with; and the publication of one event to its exact-match
triggers, one transaction each.
-/
import NervOS.Application.Scheduler

namespace NervOS

open Relational

section Webhooks

/-- One delivery's transport-neutral facts. -/
structure WebhookDelivery where
  publicId : String
  candidateSecret : Option String
  idempotencyKey : Option String
  hasConflictingIdempotencyKeys : Bool
  isJsonContentType : Bool
  occurredAt : Instant
  rawBody : RawBody

def TriggerStore.findWebhookByPublicId (db : TriggerStore) (publicId : String) :
    Option JoinedTrigger :=
  (db.own.triggerDefinitions.rows.find? fun row =>
    row.publicId.map (·.1) = some publicId ∧ row.kind = .webhook).bind db.joined

/-- A key that the ingress accepts: at most one value, and of the accepted alphabet. -/
def WebhookDelivery.HasValidKey (delivery : WebhookDelivery) : Prop :=
  delivery.hasConflictingIdempotencyKeys = false ∧
    ∀ key ∈ delivery.idempotencyKey, IsWellFormedIdempotencyKey key

instance (delivery : WebhookDelivery) : Decidable delivery.HasValidKey :=
  inferInstanceAs (Decidable (_ ∧ ∀ key ∈ delivery.idempotencyKey, _))

variable (loads : String → Except WebhookPayloadRejection Json.Value)
  (definitions : AgentDefinitionResolver)

def admitDelivery (delivery : WebhookDelivery) (row : JoinedTrigger) :
    Except WebhookDeliveryResult WebhookDeliveryCommand :=
  if delivery.isJsonContentType = false then .error .unsupportedMediaType
  else
    match parseWebhookPayload loads delivery.rawBody with
    | .error _ => .error .malformedPayload
    | .ok payload =>
      if ¬ delivery.HasValidKey then .error .invalidIdempotencyKey
      else
        match definitions row.agentDefinitionId with
        | none => .error .temporarilyUnavailable
        | some definition =>
          .ok
            { triggerDefinitionId := row.trigger.id
              candidateSecretDigest := secretDigestFor delivery.candidateSecret
              idempotencyKey := delivery.idempotencyKey
              payload := payload
              definition := definition
              occurredAt := delivery.occurredAt }

/-- The phase before the transaction: an answer, or a command. -/
def locate (delivery : WebhookDelivery) (db : TriggerStore) :
    Except WebhookDeliveryResult WebhookDeliveryCommand :=
  match db.findWebhookByPublicId delivery.publicId with
  | none => .error .unauthenticated
  | some row =>
    if SecretMatches delivery.candidateSecret row.trigger.secretDigest then
      admitDelivery loads definitions delivery row
    else .error .unauthenticated

/-- The answer to one exception of the transaction; any other one leaves the ingress. -/
def deliveryAnswer : Abort TriggerError → Option WebhookDeliveryResult
  | .integrity | .raised (.persistence .persistenceUnavailable) => some .temporarilyUnavailable
  | .raised .triggerNotFound => some .unauthenticated
  | .raised (.persistence .queueCapacityExceeded) => some .capacityExceeded
  | .raised .webhookDefinitionDrifted => some .temporarilyUnavailable
  | .raised _ => none

def WebhookDeliveryCommand.materialize (environment : Environment)
    (command : WebhookDeliveryCommand) (db : TriggerDatabase) :
    Option WebhookDeliveryResult × TriggerDatabase :=
  match environment.persistence.run
      (materializeWebhook environment.caps environment.surroundings command) db with
  | (.ok result, db') => (some result, db')
  | (.error abort, db') => (deliveryAnswer abort, db')

def receive (environment : Environment) (delivery : WebhookDelivery) (located : TriggerStore)
    (db : TriggerDatabase) : Option WebhookDeliveryResult × TriggerDatabase :=
  match locate loads definitions delivery located with
  | .error answer => (some answer, db)
  | .ok command => command.materialize environment db

end Webhooks

def maxEventFanout : Nat := 32

def listEventMatches (db : TriggerStore) (ownerUserId : Nat) (eventType : EventType)
    (limit : Nat) : List JoinedTrigger :=
  ((db.own.triggerDefinitions.rows.filter fun row =>
    row.ownerUserId = ownerUserId ∧ row.kind = .event ∧ row.enabled = true ∧
      row.eventType = some eventType).filterMap db.joined).take limit

/-- The resolver of a publication: a registry of built-in definitions knows that a target
it does not have drifted, any other resolver's exception is handed on. -/
structure EventResolver where
  definitions : AgentDefinitionResolver
  builtIn : Bool

/-- What became of one trigger's publication, with the trigger it is about. -/
structure EventOccurrenceOutcome where
  triggerId : Nat
  outcome : EventOutcome
deriving DecidableEq

abbrev EventVerdict := ItemVerdict EventOccurrenceOutcome Unclassified

structure Publication where
  envelope : EventEnvelope
  now : Instant
  sweep : Sweep JoinedTrigger EventOccurrenceOutcome Unclassified

def Publication.record (verdict : EventVerdict) (publication : Publication) : Publication :=
  { publication with sweep := publication.sweep.record verdict }

/-- The discovery of a publication; a fan-out that is too wide publishes nothing. -/
def discover (db : TriggerStore) (envelope : EventEnvelope) (now : Instant) : Option Publication :=
  let candidates := listEventMatches db envelope.ownerUserId envelope.eventType (maxEventFanout + 1)
  if maxEventFanout < candidates.length then none
  else some ⟨envelope, now, ⟨candidates, [], .running⟩⟩

/-- One candidate's transaction, and the outcome that its exception is. -/
def EventMaterializationCommand.apply (environment : Environment)
    (command : EventMaterializationCommand) (db : TriggerDatabase) :
    EventVerdict × TriggerDatabase :=
  match environment.persistence.run
      (materializeEvent environment.caps environment.surroundings command) db with
  | (.ok outcome, db') => (.settled ⟨command.triggerDefinitionId, outcome⟩, db')
  | (.error .integrity, db') | (.error (.raised (.persistence .persistenceUnavailable)), db') =>
    (.stopped, db')
  | (.error (.raised (.persistence .queueCapacityExceeded)), db') =>
    (.settled ⟨command.triggerDefinitionId, .capacityDeferred⟩, db')
  | (.error (.raised (.eventDefinitionStale _)), db') =>
    (.settled ⟨command.triggerDefinitionId, .stale⟩, db')
  | (.error (.raised error), db') => (.raised (.trigger error), db')

def publishTo (resolver : EventResolver) (environment : Environment) (publication : Publication)
    (candidate : JoinedTrigger) (db : TriggerDatabase) : EventVerdict × TriggerDatabase :=
  match resolver.definitions candidate.agentDefinitionId with
  | none =>
    if resolver.builtIn = true then (.settled ⟨candidate.trigger.id, .stale⟩, db)
    else (.raised .unknownAgentDefinition, db)
  | some definition =>
    EventMaterializationCommand.apply environment
      ⟨candidate.trigger.id, publication.envelope, definition, publication.now⟩ db

end NervOS
