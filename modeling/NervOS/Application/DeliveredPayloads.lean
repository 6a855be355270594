/-
Delivered payloads as Python reads them: what is accepted of a webhook's bytes and of an event's
value, the Run input that it is composed into, and the ingress over any body.
-/
import NervOS.Application.Ingress
import NervOS.Domain.StateCodec
import NervOS.Package.Archive
import NervOS.Python.Reading

namespace NervOS

namespace Payloads

open PackageFormat (Bytes decodeUtf8?)
open Python Relational StateCodec

section Bodies

def webhookBodyMaxBytes : Nat := 65536

def readBounded (body : Bytes) : Option Bytes :=
  if webhookBodyMaxBytes < body.length then none else some body

def payloadRejection : JsonValueReason → WebhookPayloadRejection
  | .nonFiniteNumber => .nonFiniteNumber
  | .depthExceeded => .depthExceeded
  | .notAJsonType | .nonStringKey => .notAJsonValue

variable (py : Interpreter)

/-- `parse_webhook_payload` -/
def parseWebhookPayload (raw : Bytes) : Except WebhookPayloadRejection (Value Text) :=
  if raw = [] then .error .emptyBody
  else
    match decodeUtf8? raw with
    | none => .error .notUtf8
    | some source =>
      match loads py source with
      | .error .duplicateKey => .error .duplicateKey
      | .error .recursion | .error .longInteger | .error .malformed => .error .malformed
      | .ok (.scalar _) | .ok (.sequence _ _) => .error .notAnObject
      | .ok (.mapping kind members) =>
        match validateJsonValue some StateCodec.jsonValueMaxDepth (.mapping kind members)
          (text "$") 0 with
        | some rejection => .error (payloadRejection rejection.reason)
        | none => .ok (.mapping kind members)

def webhookEnvelope (instruction : String) (payload : Value Text) : Value Text :=
  .mapping .plain [(text "instruction", .scalar (.str (text instruction))),
    (text "untrusted_webhook_payload", payload)]

/-- `compose_run_input` as UTF-8; nothing where the text has no encoding. -/
def composeRunInput (instruction : String) (payload : Value Text) : Option String :=
  (json? (webhookEnvelope instruction payload)).map Json.canonicalText

end Bodies

section Events

/-- What `parse_event_payload` raises: its refusal, or the exception of an encoder. -/
inductive EventPayloadFailure where
  | invalidEventPayload
  | raised
deriving DecidableEq

variable {κ : Type}

def withStringKeys (value : Value (Key κ)) : Value Text :=
  value.rebuilt (fun key => key.string?.getD []) id

/-- `parse_event_payload` -/
def parseEventPayload (value : Value (Key κ)) : Except EventPayloadFailure (Value Text) :=
  match validateJsonValue Key.string? StateCodec.jsonValueMaxDepth value (text "$") 0 with
  | some _ => .error .invalidEventPayload
  | none =>
    match json? (withStringKeys value) with
    | none => .error .raised
    | some json =>
      if maxEventPayloadCanonicalBytes < utf8Length (Json.canonicalText json) then
        .error .invalidEventPayload
      else .ok (withStringKeys value)

def eventEnvelope (instruction : String) (eventType : EventType) (payload : Value Text) :
    Value Text :=
  .mapping .plain [(text "instruction", .scalar (.str (text instruction))),
    (text "untrusted_event", .mapping .plain [(text "type", .scalar (.str (text eventType.1))),
      (text "payload", payload)])]

def composeEventRunInput (instruction : String) (eventType : EventType) (payload : Value Text) :
    Option String :=
  (json? (eventEnvelope instruction eventType payload)).map Json.canonicalText

end Events

def stringLength (source : Text) : Nat :=
  source.foldl (fun length point => length + match point with
    | .inl character => (Json.escape character).length
    | .inr _ => 1) 2

mutual

/-- How many code points the canonical text has, a lone surrogate being one. -/
def textLength : Value Text → Nat
  | .scalar (.str source) => stringLength source
  | .scalar .none | .scalar (.bool true) => 4
  | .scalar (.bool false) => 5
  | .scalar (.int value) => (Json.intText value).length
  | .scalar (.float value) => value.text.length
  | .scalar .nonFinite | .scalar .foreign => 0
  | .sequence _ items => textLengthItems items + 1
  | .mapping _ members => textLengthMembers members + 1

/-- With the bracket or the comma before each. -/
def textLengthItems : List (Value Text) → Nat
  | [] => 1
  | [item] => textLength item + 1
  | item :: rest => textLength item + 1 + textLengthItems rest

def textLengthMembers : List (Text × Value Text) → Nat
  | [] => 1
  | [(key, value)] => stringLength key + 1 + textLength value + 1
  | (key, value) :: rest =>
    stringLength key + 1 + textLength value + 1 + textLengthMembers rest

end

variable (py : Interpreter) (definitions : AgentDefinitionResolver)

def materializeWebhookWith {α : Type} (command : WebhookDeliveryCommand)
    (answer : WebhookDeliveryResult → α)
    (apply : TriggerDefinitionRecord → TriggerConnection α) : TriggerConnection α := do
  let trigger ← loadDefinition command.triggerDefinitionId
  if trigger.kind ≠ .webhook then pure (answer .unauthenticated)
  else if trigger.secretDigest ≠ some command.candidateSecretDigest then
    pure (answer .unauthenticated)
  else do
    let existing ← Tx.query fun db => db.findExisting trigger.id command.facts.identity
    match existing with
    | some occurrence =>
      pure (answer (if occurrence.payloadDigest ≠ some command.payload.digest then .conflict
        else .duplicate occurrence))
    | none => do
      if trigger.enabled = false then pure (answer .disabled)
      else do
        let current ← Tx.query fun db =>
          decide (db.AgentDefinitionMatches trigger command.definition.definitionId)
        Tx.require (current = true) .webhookDefinitionDrifted
        apply trigger

def applyUnencodable (payload : Value Text) (command : WebhookDeliveryCommand)
    (trigger : TriggerDefinitionRecord) : TriggerConnection (Option WebhookDeliveryResult) :=
  if command.definition.limits.inputMaxCodePoints <
      textLength (webhookEnvelope trigger.inputText.1 payload) then do
    let occurrence ← writeOccurrence trigger command.facts (.skipped .inputTooLarge)
    pure (some (.skipped occurrence))
  else pure none

def rawBody (raw : Bytes) : RawBody :=
  match decodeUtf8? raw with
  | some source => .utf8 source
  | none => .undecodable raw

/-- `WebhookService.receive` of a body; no answer where an exception escapes. -/
def receiveBody (environment : Environment) (delivery : WebhookDelivery) (raw : Bytes)
    (located : TriggerStore) (db : TriggerDatabase) :
    Option WebhookDeliveryResult × TriggerDatabase :=
  let delivered : WebhookDelivery :=
    { delivery with
      rawBody := rawBody raw }
  match parseWebhookPayload py raw with
  | .error rejection =>
    receive (fun _ => .error rejection) definitions environment delivered located db
  | .ok payload =>
    match json? payload with
    | some json => receive (fun _ => .ok json) definitions environment delivered located db
    | none =>
      match locate (fun _ => .ok .null) definitions delivered located with
      | .error answer => (some answer, db)
      | .ok command =>
        match environment.persistence.run
            (materializeWebhookWith command some (applyUnencodable payload command)) db with
        | (.ok result, db') => (result, db')
        | (.error abort, db') => (deliveryAnswer abort, db')

end Payloads

end NervOS
