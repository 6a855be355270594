/-
Webhook deliveries: what is written for one, what a repeated one is answered, and what a
caller without the current secret can learn.
-/
import NervOS.Refinement.TriggerOutcomes

namespace NervOS

open Relational

def TriggerStore.IsCurrent (db : TriggerStore) (triggerId : Nat) (digest : Digest) : Prop :=
  ∃ trigger ∈ db.own.triggerDefinitions.find triggerId,
    trigger.kind = .webhook ∧ trigger.secretDigest = some digest

instance (db : TriggerStore) (triggerId : Nat) (digest : Digest) :
    Decidable (db.IsCurrent triggerId digest) :=
  inferInstanceAs (Decidable (∃ trigger ∈ _, _ ∧ _))

def RawBody.digest : RawBody → Option Digest
  | .utf8 text => some (.text text)
  | .undecodable _ => none

section Ingress

variable {loads : String → Except WebhookPayloadRejection Json.Value}
  {definitions : AgentDefinitionResolver} {delivery : WebhookDelivery}
  {located : TriggerStore} {command : WebhookDeliveryCommand}

end Ingress

section Materialization

variable {environment : Environment} {command : WebhookDeliveryCommand} {db : TriggerDatabase}

end Materialization

section Runs

variable {policy : QueuePolicy} {system : TriggerSystem}

end Runs

theorem sampleSecret_wellFormed :
    IsWellFormedSecret "AAAAAAAAAAAAAAAAAAAAAAAAAAAAAAAAAAAAAAAAAAA" := by decide

theorem samplePublicId_valid : ValidPublicId "AAAAAAAAAAAAAAAAAAAAAA" := by decide

def sampleWebhook : WebhookCreation where
  ownerUserId := 1
  agentInstanceId := 1
  displayName := (sampleOneTime 0 true).displayName
  inputText := (sampleOneTime 0 true).inputText
  publicId := ⟨"AAAAAAAAAAAAAAAAAAAAAA", samplePublicId_valid⟩
  secret := ⟨"AAAAAAAAAAAAAAAAAAAAAAAAAAAAAAAAAAAAAAAAAAA", sampleSecret_wellFormed⟩
  now := 0

def signedDelivery : WebhookDelivery where
  publicId := "AAAAAAAAAAAAAAAAAAAAAA"
  candidateSecret := some sampleWebhook.secret.1
  idempotencyKey := some "k"
  hasConflictingIdempotencyKeys := false
  isJsonContentType := true
  occurredAt := 5
  rawBody := .utf8 "{}"

end NervOS
