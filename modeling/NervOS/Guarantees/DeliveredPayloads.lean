/-
Delivered payloads: which bodies and which event values are accepted, that the Run input composed
from one can be stored and read back, and when a delivery is answered.
-/
import NervOS.Application.DeliveredPayloads
import NervOS.Guarantees.EventPublication
import NervOS.Guarantees.HostFrames
import NervOS.Guarantees.WebhookDeliveries

namespace NervOS

namespace Payloads

open CanonicalJson (Same HasShortIntegers)
open PackageFormat (Bytes decodeUtf8?)
open Python Python.Value Relational StateCodec

/-- No string and no key holds a lone surrogate. -/
def HasNoSurrogates (value : Value Text) : Prop :=
  value.All (fun s => ∀ source, s = .str source → (encode? source).isSome) (fun _ => True)
    fun keys => ∀ key ∈ keys, (encode? key).isSome

def IsJsonText (py : Interpreter) (source : String) (value : Value Text) : Prop :=
  ∃ maxDigits stack, loads ⟨py.float, maxDigits, stack⟩ source = .ok value

structure IsAcceptableBody (py : Interpreter) (raw : Bytes) (value : Value Text) : Prop where
  size : raw.length ≤ webhookBodyMaxBytes
  decoded : ∃ source, decodeUtf8? raw = some source ∧ IsJsonText py source value
  object : ∃ members, value = .mapping .plain members
  finite : value.All (· ≠ .nonFinite) (fun _ => True) (fun _ => True)
  depth : value.nesting ≤ StateCodec.jsonValueMaxDepth

def ReadsBack (py : Interpreter) (composed : Option String) (envelope : Value Text) : Prop :=
  ∃ source document, composed = some source ∧ loads py source = .ok document ∧
    Same envelope document

section Composition

variable {py : Interpreter}

theorem nesting_json? {value : Value Text} {json : Json.Value} (h : json? value = some json) :
    Python.nesting json ≤ value.nesting := by
  have hitems : ∀ {items : List Json.Value} {bound : Nat},
      (∀ item ∈ items, Python.nesting item ≤ bound) → Python.nestingItems items ≤ bound := by
    intro items bound hle
    induction items with
    | nil => exact Nat.zero_le _
    | cons item rest ih =>
      rw [List.forall_mem_cons] at hle
      rw [Python.nestingItems, Nat.max_le]
      exact ⟨hle.1, ih hle.2⟩
  have hmembers : ∀ {members : List (String × Json.Value)} {bound : Nat},
      (∀ member ∈ members, Python.nesting member.2 ≤ bound) →
        Python.nestingMembers members ≤ bound := by
    intro members bound hle
    induction members with
    | nil => exact Nat.zero_le _
    | cons member rest ih =>
      rw [List.forall_mem_cons] at hle
      rw [Python.nestingMembers, Nat.max_le]
      exact ⟨hle.1, ih hle.2⟩
  induction value generalizing json with
  | scalar s =>
    rw [json?] at h
    obtain ⟨hnoItems, hnoMembers⟩ := CanonicalJson.scalarJson?_leaf h
    cases json with
    | arr items => exact absurd rfl (hnoItems items)
    | obj members => exact absurd rfl (hnoMembers members)
    | _ => exact Nat.zero_le _
  | sequence kind items ih =>
    rw [json?] at h
    obtain ⟨read, hread, rfl⟩ := Option.map_eq_some_iff.mp h
    have hforall := CanonicalJson.jsonItems?_eq_some.mp hread
    have hle := Value.nestingItems_le.mp (Nat.le_refl (Value.nestingItems items))
    rw [Python.nesting, Value.nesting]
    apply Nat.succ_le_succ
    apply hitems
    intro item hitem
    obtain ⟨source, hsource, hjson⟩ := CanonicalJson.forall₂_of_mem_right hforall hitem
    exact (ih source hsource hjson).trans (hle source hsource)
  | mapping kind members ih =>
    rw [json?] at h
    obtain ⟨read, hread, rfl⟩ := Option.map_eq_some_iff.mp h
    have hforall := CanonicalJson.jsonMembers?_eq_some.mp hread
    have hle := Value.nestingMembers_le.mp (Nat.le_refl (Value.nestingMembers members))
    rw [Python.nesting, Value.nesting]
    apply Nat.succ_le_succ
    apply hmembers
    intro member hmember
    obtain ⟨source, hsource, -, hjson⟩ :=
      CanonicalJson.forall₂_of_mem_right hforall (Json.Value.mem_of_mem_ofMembers hmember)
    exact (ih source hsource hjson).trans (hle source hsource)

def HasFloats (py : Interpreter) (value : Value Text) : Prop :=
  value.All (fun s => ∀ float, s = .float float → py.IsFloat float) (fun _ => True) (fun _ => True)

theorem readsBack_json? (hdigits : maxIntDigits ≤ py.maxDigits) {value : Value Text}
    {json : Json.Value} (hdistinct : value.Distinct) (hfloats : HasFloats py value)
    (hnesting : value.nesting ≤ py.stack) (h : json? value = some json) :
    ReadsBack py (some (Json.canonicalText json)) value := by
  have hdumps := @HostWire.dumps_keyed (fun _ _ => false) value
  rw [h] at hdumps
  have hkeyed : HostWire.HasFloatsOf py value.keyed := by
    rw [HostWire.HasFloatsOf, keyed, all_rebuilt]
    exact hfloats
  have hreadable :=
    HostWire.readable_dumps hdigits hkeyed (distinct_keyed.mpr hdistinct) hdumps
  have hloads := loads_canonicalText hreadable ((nesting_json? h).trans hnesting)
  exact ⟨_, _, rfl, hloads, HostWire.same_ofJson hdistinct h⟩

theorem json?_string (source : String) :
    json? (.scalar (.str (text source))) = some (.str source) := by
  rw [json?, scalarJson?, encode?_text]
  rfl

theorem json?_pair {first second : String} {left right : Value Text} :
    (json? (.mapping .plain [(text first, left), (text second, right)])).isSome ↔
      (json? left).isSome ∧ (json? right).isSome := by
  rw [json?, Option.isSome_map, jsonMembers?, jsonMembers?, jsonMembers?, encode?_text,
    encode?_text]
  cases json? left <;> cases json? right <;> simp

theorem webhookEnvelope_isSome {instruction : String} {payload : Value Text} :
    (json? (webhookEnvelope instruction payload)).isSome ↔ (json? payload).isSome := by
  rw [webhookEnvelope, json?_pair, json?_string]
  simp

theorem eventEnvelope_isSome {instruction : String} {eventType : EventType}
    {payload : Value Text} :
    (json? (eventEnvelope instruction eventType payload)).isSome ↔ (json? payload).isSome := by
  rw [eventEnvelope, json?_pair, json?_pair, json?_string, json?_string]
  simp

theorem composeRunInput_readsBack (hdigits : maxIntDigits ≤ py.maxDigits) {payload : Value Text}
    (hdistinct : payload.Distinct) (hfloats : HasFloats py payload)
    (hnesting : payload.nesting + 1 ≤ py.stack) (hwritten : (json? payload).isSome)
    (instruction : String) :
    ReadsBack py (composeRunInput instruction payload) (webhookEnvelope instruction payload) := by
  obtain ⟨json, hjson⟩ :=
    Option.isSome_iff_exists.mp ((@webhookEnvelope_isSome instruction payload).mpr hwritten)
  rw [composeRunInput, hjson, Option.map_some]
  refine readsBack_json? hdigits ?_ ?_ ?_ hjson
  · refine all_mapping.mpr ⟨trivial, ?_, ?_⟩
    · change [text "instruction", text "untrusted_webhook_payload"].Nodup
      decide +kernel
    · rw [List.forall_mem_cons, List.forall_mem_singleton]
      exact ⟨all_scalar.mpr trivial, hdistinct⟩
  · refine all_mapping.mpr ⟨trivial, trivial, ?_⟩
    rw [List.forall_mem_cons, List.forall_mem_singleton]
    exact ⟨all_scalar.mpr (by simp), hfloats⟩
  · rw [webhookEnvelope, Value.nesting, Value.nestingMembers, Value.nestingMembers,
      Value.nestingMembers, Value.nesting]
    omega

theorem composeEventRunInput_readsBack (hdigits : maxIntDigits ≤ py.maxDigits)
    {payload : Value Text} (hdistinct : payload.Distinct) (hfloats : HasFloats py payload)
    (hnesting : payload.nesting + 2 ≤ py.stack) (hwritten : (json? payload).isSome)
    (instruction : String) (eventType : EventType) :
    ReadsBack py (composeEventRunInput instruction eventType payload)
      (eventEnvelope instruction eventType payload) := by
  obtain ⟨json, hjson⟩ := Option.isSome_iff_exists.mp
    ((@eventEnvelope_isSome instruction eventType payload).mpr hwritten)
  rw [composeEventRunInput, hjson, Option.map_some]
  refine readsBack_json? hdigits ?_ ?_ ?_ hjson
  · refine all_mapping.mpr ⟨trivial, ?_, ?_⟩
    · change [text "instruction", text "untrusted_event"].Nodup
      decide +kernel
    · rw [List.forall_mem_cons, List.forall_mem_singleton]
      refine ⟨all_scalar.mpr trivial, all_mapping.mpr ⟨trivial, ?_, ?_⟩⟩
      · change [text "type", text "payload"].Nodup
        decide +kernel
      · rw [List.forall_mem_cons, List.forall_mem_singleton]
        exact ⟨all_scalar.mpr trivial, hdistinct⟩
  · refine all_mapping.mpr ⟨trivial, trivial, ?_⟩
    rw [List.forall_mem_cons, List.forall_mem_singleton]
    refine ⟨all_scalar.mpr (by simp), all_mapping.mpr ⟨trivial, trivial, ?_⟩⟩
    rw [List.forall_mem_cons, List.forall_mem_singleton]
    exact ⟨all_scalar.mpr (by simp), hfloats⟩
  · rw [eventEnvelope, Value.nesting, Value.nestingMembers, Value.nestingMembers,
      Value.nestingMembers, Value.nesting, Value.nesting, Value.nestingMembers,
      Value.nestingMembers, Value.nestingMembers, Value.nesting]
    omega

end Composition

section Acceptance

variable {py : Interpreter}

def HasConvertibleIntegers (py : Interpreter) (value : Value Text) : Prop :=
  value.All (fun s => ∀ integer, s = .int integer → integer.natAbs < 10 ^ py.maxDigits)
    (fun _ => True) (fun _ => True)

variable {value : Value Text} {stack : Nat}

section

variable (h : Loaded py stack value)

include h

theorem isJson_of_loaded (hfinite : value.All (· ≠ .nonFinite) (fun _ => True) (fun _ => True)) :
    IsJson some value := by
  refine all_imp ?_ (fun _ hkind => hkind.1) (fun _ _ _ _ => rfl) value
    (all_and h.parts hfinite)
  rintro s ⟨hread, hne⟩
  refine ⟨hne, ?_⟩
  rintro rfl
  exact hread

theorem integers_of_loaded :
    HasConvertibleIntegers py value := by
  refine all_imp ?_ (fun _ _ => trivial) (fun _ _ => trivial) value h.parts
  rintro s hread integer rfl
  exact hread

theorem floats_of_loaded :
    HasFloats py value := by
  refine all_imp ?_ (fun _ _ => trivial) (fun _ _ => trivial) value h.parts
  rintro s hread float rfl
  exact hread

theorem distinct_of_loaded :
    value.Distinct :=
  all_imp (fun _ _ => trivial) (fun _ _ => trivial) (fun _ hkeys => hkeys) value h.parts

end

theorem loads_empty : loads py "" = .error .malformed := by
  have hread : readValue py uniqueMembers 3 py.stack [] = .error .malformed := by
    rw [readValue]
    simp [readScalar, readLiteral, literals, List.isPrefixOf, Interpreter.readNumber, numberKind,
      unsignedKind, isWhole, Except.map]
  rw [loads, loadsWith]
  change (readValue py uniqueMembers 3 py.stack [] >>= _) = _
  rw [hread]
  rfl

theorem parseWebhookPayload_eq_ok {raw : Bytes} :
    parseWebhookPayload py raw = .ok value ↔
      raw ≠ [] ∧ ∃ source, decodeUtf8? raw = some source ∧ loads py source = .ok value ∧
        (∃ kind members, value = .mapping kind members) ∧
        validateJsonValue some StateCodec.jsonValueMaxDepth value (text "$") 0 = none := by
  rw [parseWebhookPayload]
  by_cases hempty : raw = []
  · simp [hempty]
  · rw [if_neg hempty]
    cases decodeUtf8? raw with
    | none => simp
    | some source =>
      dsimp only
      cases hloads : loads py source with
      | error failure => cases failure <;> simp [hloads]
      | ok read =>
        cases read with
        | scalar | sequence kind items =>
          constructor
          · intro h
            cases h
          · rintro ⟨-, _, hsource, hread, ⟨kind, members, rfl⟩, -⟩
            cases hsource
            rw [hloads] at hread
            cases hread
        | mapping kind members =>
          dsimp only
          constructor
          · intro h
            cases hvalid : validateJsonValue some StateCodec.jsonValueMaxDepth
                (.mapping kind members) (text "$") 0 with
            | some rejection =>
              rw [hvalid] at h
              cases h
            | none =>
              rw [hvalid] at h
              obtain rfl := Except.ok.inj h
              exact ⟨hempty, source, rfl, hloads, ⟨kind, members, rfl⟩, hvalid⟩
          · rintro ⟨-, _, hsource, hread, -, hvalid⟩
            cases hsource
            rw [hloads] at hread
            obtain rfl := Except.ok.inj hread
            rw [hvalid]

theorem parseWebhookPayload_iff (hpy : py.Lawful) (hstack : StateCodec.jsonValueMaxDepth ≤ py.stack)
    {raw : Bytes} (hsize : raw.length ≤ webhookBodyMaxBytes) :
    parseWebhookPayload py raw = .ok value ↔
      IsAcceptableBody py raw value ∧ HasConvertibleIntegers py value := by
  rw [parseWebhookPayload_eq_ok]
  constructor
  · rintro ⟨-, source, hsource, hloads, ⟨kind, members, rfl⟩, hvalid⟩
    have hloaded := loaded_loads hpy hloads
    obtain ⟨hjson, hdepth⟩ := (validateJsonValue_none_iff (Nat.zero_le _) _).mp hvalid
    have hkind := (all_mapping.mp hjson).1
    refine ⟨⟨hsize, ⟨source, hsource, py.maxDigits, py.stack, hloads⟩, ⟨members, ?_⟩, ?_, ?_⟩,
      integers_of_loaded hloaded⟩
    · rw [hkind]
    · exact all_imp (fun _ hs => hs.1) (fun _ _ => trivial) (fun _ _ => trivial) _ hjson
    · omega
  · rintro ⟨⟨-, ⟨source, hsource, maxDigits, stack, hread⟩, ⟨members, rfl⟩, hfinite, hdepth⟩,
      hintegers⟩
    have hfloat : py.float = (⟨py.float, maxDigits, stack⟩ : Interpreter).float := rfl
    have hloads := loads_within hfloat hread ⟨hintegers, hdepth.trans hstack⟩
    have hjson := isJson_of_loaded (loaded_loads hpy hloads) hfinite
    refine ⟨?_, source, hsource, hloads, ⟨_, members, rfl⟩, ?_⟩
    · rintro rfl
      obtain rfl := Option.some.inj (hsource.symm.trans (PackageFormat.decodeUtf8?_utf8 ""))
      rw [loads_empty] at hloads
      cases hloads
    · exact (validateJsonValue_none_iff (Nat.zero_le _) _).mpr ⟨hjson, by omega⟩

theorem writable_parts (hdigits : py.maxDigits = maxIntDigits) (h : (json? value).isSome) :
    HasNoSurrogates value ∧ HasConvertibleIntegers py value := by
  have hwritable := json?_isSome.mp h
  constructor
  · refine all_imp ?_ (fun _ _ => trivial) (fun _ hkeys => hkeys) value hwritable
    rintro s hs source rfl
    rwa [scalarJson?, Option.isSome_map] at hs
  · refine all_imp ?_ (fun _ _ => trivial) (fun _ _ => trivial) value hwritable
    rintro s hs integer rfl
    rw [hdigits]
    by_contra hlong
    rw [scalarJson?, if_neg hlong] at hs
    cases hs

theorem json?_isSome_iff (hdigits : py.maxDigits = maxIntDigits) (hjson : IsJson some value)
    (hintegers : HasConvertibleIntegers py value) :
    (json? value).isSome ↔ HasNoSurrogates value := by
  constructor
  · exact fun h => (writable_parts hdigits h).1
  · intro hsurrogates
    rw [HasConvertibleIntegers, hdigits] at hintegers
    rw [json?_isSome]
    refine all_imp ?_ (fun _ _ => trivial) (fun _ hkeys => hkeys.2) value
      (all_and (all_and hjson hintegers) hsurrogates)
    rintro s ⟨⟨hs, hinteger⟩, hstring⟩
    cases s with
    | none | bool | float => rfl
    | int integer => rw [scalarJson?, if_pos (hinteger integer rfl)]; rfl
    | str source => rw [scalarJson?, Option.isSome_map]; exact hstring source rfl
    | nonFinite => exact absurd rfl hs.1
    | foreign => exact absurd rfl hs.2

end Acceptance

section Events

variable {py : Interpreter} {κ : Type}

structure IsAcceptableEvent (value : Value (Key κ)) : Prop where
  json : IsJson Key.string? value
  depth : value.nesting ≤ StateCodec.jsonValueMaxDepth
  size : ∀ json ∈ json? (withStringKeys value),
    utf8Length (Json.canonicalText json) ≤ maxEventPayloadCanonicalBytes

structure EventIsAnswered (py : Interpreter) (value : Value (Key κ)) : Prop where
  answered : parseEventPayload value ≠ .error .raised
  accepted : ∀ payload, parseEventPayload value = .ok payload ↔
    IsAcceptableEvent value ∧ payload = withStringKeys value
  readsBack : ∀ payload, parseEventPayload value = .ok payload → ∀ instruction eventType,
    ReadsBack py (composeEventRunInput instruction eventType payload)
      (eventEnvelope instruction eventType payload)

variable {value : Value (Key κ)}

theorem isJson_withStringKeys (h : IsJson Key.string? value) :
    IsJson some (withStringKeys value) := by
  rw [IsJson, withStringKeys, all_rebuilt]
  exact all_imp (fun _ hs => hs) (fun _ hk => hk) (fun _ _ _ _ => rfl) value h

theorem distinct_withStringKeys (hjson : IsJson Key.string? value) (hdistinct : value.Distinct) :
    (withStringKeys value).Distinct := by
  rw [Distinct, withStringKeys, all_rebuilt]
  refine all_imp (fun _ _ => trivial) (fun _ _ => trivial) ?_ value (all_and hjson hdistinct)
  rintro keys ⟨hstrings, hkeys⟩
  refine List.Nodup.map_on ?_ hkeys
  intro left hleft right hright heq
  cases left with
  | other object => exact absurd (hstrings _ hleft) Bool.false_ne_true
  | str source =>
    cases right with
    | other object => exact absurd (hstrings _ hright) Bool.false_ne_true
    | str other => exact congrArg Key.str heq

theorem parseEventPayload_of_json (hjson : IsJson Key.string? value)
    (hdepth : value.nesting ≤ StateCodec.jsonValueMaxDepth) :
    parseEventPayload value = (json? (withStringKeys value)).elim (.error .raised) fun json =>
      if maxEventPayloadCanonicalBytes < utf8Length (Json.canonicalText json) then
        .error .invalidEventPayload
      else .ok (withStringKeys value) := by
  have hvalid := (validateJsonValue_none_iff (Nat.zero_le _) (text "$")).mpr
    ⟨hjson, (Nat.zero_add _).trans_le hdepth⟩
  simp only [parseEventPayload, hvalid]
  cases json? (withStringKeys value) <;> rfl

theorem parseEventPayload_of_refused
    (h : ¬ (IsJson Key.string? value ∧ value.nesting ≤ StateCodec.jsonValueMaxDepth)) :
    parseEventPayload value = .error .invalidEventPayload := by
  rw [parseEventPayload]
  cases hvalid : validateJsonValue Key.string? StateCodec.jsonValueMaxDepth value (text "$") 0 with
  | some rejection => rfl
  | none =>
    obtain ⟨hjson, hdepth⟩ := (validateJsonValue_none_iff (Nat.zero_le _) _).mp hvalid
    exact absurd ⟨hjson, (Nat.zero_add value.nesting) ▸ hdepth⟩ h

theorem eventIsAnswered_iff (hdigits : py.maxDigits = maxIntDigits)
    (hstack : StateCodec.jsonValueMaxDepth + 2 ≤ py.stack) (hdistinct : value.Distinct)
    (hfloats : HasFloats py (withStringKeys value)) :
    EventIsAnswered py value ↔
      (IsJson Key.string? value → value.nesting ≤ StateCodec.jsonValueMaxDepth →
        HasNoSurrogates (withStringKeys value) ∧
          HasConvertibleIntegers py (withStringKeys value)) := by
  by_cases hcontract : IsJson Key.string? value ∧
      value.nesting ≤ StateCodec.jsonValueMaxDepth
  · obtain ⟨hjson, hdepth⟩ := hcontract
    have hparse := parseEventPayload_of_json hjson hdepth
    have hplain := isJson_withStringKeys hjson
    cases hwritten : json? (withStringKeys value) with
    | none =>
      rw [hwritten] at hparse
      refine iff_of_false (fun h => h.answered hparse) fun h => ?_
      obtain ⟨hsurrogates, hintegers⟩ := h hjson hdepth
      have hsome := (json?_isSome_iff hdigits hplain hintegers).mpr hsurrogates
      rw [hwritten] at hsome
      cases hsome
    | some json =>
      rw [hwritten, Option.elim_some] at hparse
      have hsome : (json? (withStringKeys value)).isSome := by
        rw [hwritten]
        rfl
      refine iff_of_true ⟨?_, ?_, ?_⟩ fun _ _ => writable_parts hdigits hsome
      · rw [hparse]
        split_ifs <;> simp
      · intro payload
        rw [hparse]
        split_ifs with hlong
        · refine iff_of_false (by simp) ?_
          rintro ⟨hacceptable, -⟩
          have hsize := hacceptable.size json hwritten
          omega
        · constructor
          · intro h
            refine ⟨⟨hjson, hdepth, ?_⟩, (Except.ok.inj h).symm⟩
            intro other hother
            obtain rfl := Option.some.inj (hwritten.symm.trans hother)
            omega
          · rintro ⟨-, rfl⟩
            rfl
      · intro payload hpayload instruction eventType
        have heq : payload = withStringKeys value := by
          rw [hparse] at hpayload
          split_ifs at hpayload
          exact (Except.ok.inj hpayload).symm
        subst heq
        refine composeEventRunInput_readsBack hdigits.ge (distinct_withStringKeys hjson hdistinct)
          hfloats ?_ hsome instruction eventType
        rw [withStringKeys, nesting_rebuilt]
        omega
  · have hparse := parseEventPayload_of_refused hcontract
    refine iff_of_true ⟨?_, ?_, ?_⟩ fun hjson hdepth => absurd ⟨hjson, hdepth⟩ hcontract
    · rw [hparse]
      simp
    · intro payload
      rw [hparse]
      refine iff_of_false (by simp) ?_
      rintro ⟨hacceptable, -⟩
      exact hcontract ⟨hacceptable.json, hacceptable.depth⟩
    · intro payload hpayload
      rw [hparse] at hpayload
      cases hpayload

end Events

section Exceptions

variable {caps : PendingCaps} {surroundings : Surroundings} {environment : Environment}
  {command : WebhookDeliveryCommand} {db : TriggerDatabase} {error : TriggerError}

def composedFor (command : WebhookDeliveryCommand) (trigger : TriggerDefinitionRecord) : String :=
  NervOS.composeRunInput trigger.inputText.1 command.payload

def submissionFor (environment : Environment) (command : WebhookDeliveryCommand)
    (trigger : TriggerDefinitionRecord) : Submission :=
  trigger.submission environment.caps environment.surroundings command.definition
    (composedFor command trigger) command.occurredAt

def Deliverable (environment : Environment) (command : WebhookDeliveryCommand)
    (db : TriggerDatabase) : Prop :=
  environment.persistence ≠ .refused →
  ∀ trigger ∈ db.1.own.triggerDefinitions.find command.triggerDefinitionId,
    trigger.kind = .webhook → trigger.secretDigest = some command.candidateSecretDigest →
    db.1.findExisting trigger.id command.facts.identity = none → trigger.enabled = true →
    db.1.AgentDefinitionMatches trigger command.definition.definitionId →
    validateInputText (composedFor command trigger) command.definition.limits = true →
    ∀ instanceRow ∈ (submissionFor environment command trigger).instance? db.core.1,
      (submissionFor environment command trigger).HasRoom instanceRow db.core.1 →
      ∀ row ∈ environment.surroundings.binding trigger.agentInstanceId,
        row.Executable command.definition.definitionId

/-- A key that the ingress accepts fits its column. -/
def HasColumnKey (command : WebhookDeliveryCommand) : Prop :=
  ∀ identity ∈ command.facts.identity, identity.Valid

theorem valid_of_wellFormed {key : String} (h : IsWellFormedIdempotencyKey key) :
    (OccurrenceIdentity.idempotency key).Valid := by
  obtain ⟨hlow, hhigh, hvisible⟩ := h
  have hnul : hasNul key = false := by
    rw [hasNul]
    by_contra hnul
    rw [Bool.not_eq_false, List.contains_iff_mem] at hnul
    have hcharacter := List.all_eq_true.mp hvisible _ hnul
    revert hcharacter
    decide
  refine ⟨?_, hnul⟩
  rw [LengthBetween, sqlLength_of_hasNul hnul]
  exact ⟨hlow, hhigh⟩

variable {trigger : TriggerDefinitionRecord}

theorem not_raises_writeOccurrence {result : OccurrenceResult} (htrigger : trigger.Check)
    (hkey : HasColumnKey command) :
    ¬ (writeOccurrence trigger command.facts result).Raises db error := by
  rw [raises_writeOccurrence]
  rintro ⟨hcheck, -⟩
  exact hcheck ((row_check_iff htrigger hkey).mpr (le_refl command.occurredAt))

theorem raises_applyWebhookDelivery (htrigger : trigger.Check) (hkey : HasColumnKey command) :
    (applyWebhookDelivery caps surroundings trigger command).Raises db error ↔
      validateInputText (composedFor command trigger) command.definition.limits = true ∧
        (submitTriggered (trigger.submission caps surroundings command.definition
          (composedFor command trigger) command.occurredAt)).Raises db error := by
  have hwrite : ∀ (result : OccurrenceResult) (db' : TriggerDatabase),
      ¬ (writeOccurrence trigger command.facts result).Raises db' error :=
    fun result db' => not_raises_writeOccurrence htrigger hkey
  unfold applyWebhookDelivery composedFor
  dsimp only
  cases validateInputText (NervOS.composeRunInput trigger.inputText.1 command.payload)
    command.definition.limits with
  | false | true => simp [hwrite]

theorem raises_materializeWebhook (hunanswered : deliveryAnswer (.raised error) = none) :
    (materializeWebhook caps surroundings command).Raises db error ↔
      ∃ trigger, db.1.own.triggerDefinitions.find command.triggerDefinitionId = some trigger ∧
        trigger.kind = .webhook ∧ trigger.secretDigest = some command.candidateSecretDigest ∧
        db.1.findExisting trigger.id command.facts.identity = none ∧ trigger.enabled = true ∧
        db.1.AgentDefinitionMatches trigger command.definition.definitionId ∧
        (applyWebhookDelivery caps surroundings trigger command).Raises db error := by
  have hgone : error ≠ .triggerNotFound := by
    rintro rfl
    cases hunanswered
  have hdrifted : error ≠ .webhookDefinitionDrifted := by
    rintro rfl
    cases hunanswered
  rw [materializeWebhook, raises_loadDefinition_bind]
  simp only [hgone, and_false, false_or]
  apply exists_congr
  intro trigger
  apply and_congr_right
  intro hfind
  by_cases hkind : trigger.kind = .webhook
  · by_cases hsecret : trigger.secretDigest = some command.candidateSecretDigest
    · simp only [hkind, hsecret, ne_eq, not_true_eq_false, if_false, Tx.raises_query_bind,
        true_and]
      cases db.1.findExisting trigger.id command.facts.identity with
      | some occurrence => simp
      | none =>
        by_cases henabled : trigger.enabled = true
        · simp [henabled, hdrifted]
        · simp [henabled]
    · simp [hkind, hsecret]
  · simp [hkind]

theorem materialize_answered (hkey : HasColumnKey command) :
    (command.materialize environment db).1 ≠ none ↔ Deliverable environment command db := by
  have hescapes : (command.materialize environment db).1 = none ↔
      ∃ error, deliveryAnswer (.raised error) = none ∧ environment.persistence ≠ .refused ∧
        (materializeWebhook environment.caps environment.surroundings command).Raises db error := by
    simp only [← persistence_raised]
    unfold WebhookDeliveryCommand.materialize
    cases environment.persistence.run (materializeWebhook environment.caps
      environment.surroundings command) db with
    | mk outcome db' =>
      cases outcome with
      | ok result => simp
      | error abort => cases abort <;> simp [deliveryAnswer]
  rw [ne_eq, hescapes]
  constructor
  · intro hanswered hrefused trigger hfind hkind hsecret hnew henabled hmatches hvalid
      instanceRow hinstance hroom
    by_contra hexecutable
    have hunacceptable : ¬ Acceptable environment.surroundings trigger.agentInstanceId
        command.definition.definitionId (composedFor command trigger) command.definition.limits :=
      fun hacceptable => hexecutable hacceptable.2
    obtain ⟨refusal, hrefusal⟩ := refused_iff.mpr hunacceptable
    have hunanswered : deliveryAnswer (.raised (.persistence refusal)) = none := by
      rcases acceptedInput_error hrefusal with rfl | rfl <;> rfl
    have hcheck := db.1.own.triggerDefinitions.lawful.checked _ (Table.find_eq_some.mp hfind).1
    refine hanswered ⟨.persistence refusal, hunanswered, hrefused, ?_⟩
    refine (raises_materializeWebhook hunanswered).mpr
      ⟨trigger, hfind, hkind, hsecret, hnew, henabled, hmatches, ?_⟩
    refine (raises_applyWebhookDelivery hcheck hkey).mpr ⟨hvalid, raises_submission.mpr ?_⟩
    exact ⟨instanceRow, hinstance, Or.inr ⟨hroom, refusal, rfl, hrefusal⟩⟩
  · rintro hdeliverable ⟨error, hunanswered, hrefused, hraises⟩
    obtain ⟨trigger, hfind, hkind, hsecret, hnew, henabled, hmatches, happly⟩ :=
      (raises_materializeWebhook hunanswered).mp hraises
    have hcheck := db.1.own.triggerDefinitions.lawful.checked _ (Table.find_eq_some.mp hfind).1
    obtain ⟨hvalid, hsubmission⟩ := (raises_applyWebhookDelivery hcheck hkey).mp happly
    obtain ⟨instanceRow, hinstance, ⟨-, rfl⟩ | ⟨hroom, refusal, -, hrefusal⟩⟩ :=
      raises_submission.mp hsubmission
    · cases hunanswered
    · have hexecutable := hdeliverable hrefused trigger hfind hkind hsecret hnew henabled hmatches
        hvalid instanceRow hinstance hroom
      exact refused_iff.mp ⟨refusal, hrefusal⟩ (acceptable_of_valid hvalid hexecutable)

end Exceptions

section Ingress

variable {py : Interpreter} {definitions : AgentDefinitionResolver} {environment : Environment}
  {delivery : WebhookDelivery} {raw : Bytes} {located : TriggerStore} {db : TriggerDatabase}
  {command : WebhookDeliveryCommand} {json : Json.Value}

def delivered (delivery : WebhookDelivery) (raw : Bytes) : WebhookDelivery :=
  { delivery with
    rawBody := rawBody raw }

def IsAdmitted (definitions : AgentDefinitionResolver) (delivery : WebhookDelivery)
    (located : TriggerStore) (json : Json.Value) (command : WebhookDeliveryCommand) : Prop :=
  ∃ row payload definition, located.findWebhookByPublicId delivery.publicId = some row ∧
    SecretMatches delivery.candidateSecret row.trigger.secretDigest ∧
    delivery.isJsonContentType = true ∧ delivery.HasValidKey ∧
    NervOS.parseWebhookPayload (fun _ => .ok json) delivery.rawBody = .ok payload ∧
    definitions row.agentDefinitionId = some definition ∧
    command =
      { triggerDefinitionId := row.trigger.id
        candidateSecretDigest := secretDigestFor delivery.candidateSecret
        idempotencyKey := delivery.idempotencyKey
        payload := payload
        definition := definition
        occurredAt := delivery.occurredAt }

structure BodyIsAnswered (py : Interpreter) (definitions : AgentDefinitionResolver)
    (environment : Environment) (delivery : WebhookDelivery) (raw : Bytes)
    (located : TriggerStore) (db : TriggerDatabase) : Prop where
  answered : (receiveBody py definitions environment delivery raw located db).1 ≠ none
  accepted : ∀ value, parseWebhookPayload py raw = .ok value ↔ IsAcceptableBody py raw value
  readsBack : ∀ value, parseWebhookPayload py raw = .ok value → ∀ instruction,
    ReadsBack py (composeRunInput instruction value) (webhookEnvelope instruction value)

theorem locate_iff : locate (fun _ => .ok json) definitions delivery located = .ok command ↔
    IsAdmitted definitions delivery located json command := by
  rw [locate, IsAdmitted]
  cases located.findWebhookByPublicId delivery.publicId with
  | none => simp
  | some row =>
    by_cases hsecret : SecretMatches delivery.candidateSecret row.trigger.secretDigest
    · simp only [hsecret, if_true, Option.some.injEq, exists_and_left, exists_eq_left',
        true_and]
      rw [admitDelivery]
      cases delivery.isJsonContentType with
      | false => simp
      | true =>
        cases NervOS.parseWebhookPayload (fun _ => .ok json) delivery.rawBody with
        | error rejection => simp
        | ok payload =>
          by_cases hkey : delivery.HasValidKey
          · cases definitions row.agentDefinitionId with
            | none => simp [hkey]
            | some definition => simp [hkey, eq_comm]
          · simp [hkey]
    · simp [hsecret]

theorem IsAdmitted.hasColumnKey (h : IsAdmitted definitions delivery located json command) :
    HasColumnKey command := by
  obtain ⟨row, payload, definition, -, -, -, ⟨-, hkey⟩, -, -, rfl⟩ := h
  intro identity hidentity
  obtain ⟨key, hnamed, rfl⟩ := Option.map_eq_some_iff.mp hidentity
  exact valid_of_wellFormed (hkey key hnamed)

variable {rejection : WebhookPayloadRejection}

theorem parse_of_refused (body : RawBody) (payload : WebhookPayload) :
    NervOS.parseWebhookPayload (fun _ => .error rejection) body ≠ .ok payload := by
  intro h
  cases body with
  | undecodable bytes =>
    rw [NervOS.parseWebhookPayload] at h
    split_ifs at h
  | utf8 source =>
    rw [NervOS.parseWebhookPayload] at h
    split_ifs at h
    cases h

theorem receive_of_refused :
    (receive (fun _ => .error rejection) definitions environment delivery located db).1 ≠ none := by
  rw [receive]
  cases hlocate : locate (fun _ => .error rejection) definitions delivery located with
  | error answer => simp
  | ok command =>
    rw [locate] at hlocate
    cases hrow : located.findWebhookByPublicId delivery.publicId with
    | none => simp [hrow] at hlocate
    | some row =>
      simp only [hrow] at hlocate
      split_ifs at hlocate
      unfold admitDelivery at hlocate
      split at hlocate
      · cases hlocate
      · split at hlocate
        · cases hlocate
        · rename_i payload hparse
          exact absurd hparse (parse_of_refused delivery.rawBody payload)

theorem receive_of_written :
    (receive (fun _ => .ok json) definitions environment delivery located db).1 ≠ none ↔
      ∀ command, IsAdmitted definitions delivery located json command →
        Deliverable environment command db := by
  rw [receive]
  cases hlocate : locate (fun _ => .ok json) definitions delivery located with
  | error answer =>
    refine iff_of_true (by simp) fun command hadmitted => ?_
    rw [locate_iff.mpr hadmitted] at hlocate
    cases hlocate
  | ok command =>
    have hadmitted := locate_iff.mp hlocate
    rw [materialize_answered hadmitted.hasColumnKey]
    constructor
    · intro hdeliverable other hother
      rw [← locate_iff, hlocate] at hother
      exact Except.ok.inj hother ▸ hdeliverable
    · exact fun h => h command hadmitted

theorem parsed_parts (hpy : py.Lawful) {value : Value Text}
    (h : parseWebhookPayload py raw = .ok value) :
    Loaded py py.stack value ∧ IsJson some value := by
  obtain ⟨-, source, -, hloads, -, hvalid⟩ := parseWebhookPayload_eq_ok.mp h
  exact ⟨loaded_loads hpy hloads, ((validateJsonValue_none_iff (Nat.zero_le _) _).mp hvalid).1⟩

theorem receiveBody_of_written {value : Value Text}
    (hparse : parseWebhookPayload py raw = .ok value) (hjson : json? value = some json) :
    receiveBody py definitions environment delivery raw located db =
      receive (fun _ => .ok json) definitions environment (delivered delivery raw) located db := by
  rw [receiveBody]
  simp only [hparse, hjson]
  rfl

theorem bodyIsAnswered_iff (hpy : py.Lawful) (hdigits : py.maxDigits = maxIntDigits)
    (hstack : StateCodec.jsonValueMaxDepth + 2 ≤ py.stack)
    (hsize : raw.length ≤ webhookBodyMaxBytes) :
    BodyIsAnswered py definitions environment delivery raw located db ↔
      ∀ value, IsAcceptableBody py raw value →
        HasNoSurrogates value ∧ HasConvertibleIntegers py value ∧
          ∀ json, json? value = some json → ∀ command,
            IsAdmitted definitions (delivered delivery raw) located json command →
              Deliverable environment command db := by
  have hstack' : StateCodec.jsonValueMaxDepth ≤ py.stack := by omega
  have hiff : ∀ value, parseWebhookPayload py raw = .ok value ↔
      IsAcceptableBody py raw value ∧ HasConvertibleIntegers py value :=
    fun _ => parseWebhookPayload_iff hpy hstack' hsize
  constructor
  · intro h value hacceptable
    have hparse := (h.accepted value).mpr hacceptable
    have hintegers := ((hiff value).mp hparse).2
    obtain ⟨source, document, hcomposed, -, -⟩ := h.readsBack value hparse ""
    obtain ⟨envelope, henvelope, -⟩ := Option.map_eq_some_iff.mp hcomposed
    have hwritten : (json? value).isSome :=
      webhookEnvelope_isSome.mp (Option.isSome_iff_exists.mpr ⟨envelope, henvelope⟩)
    refine ⟨(writable_parts hdigits hwritten).1, hintegers, fun json hjson => ?_⟩
    have hanswered := h.answered
    rw [receiveBody_of_written hparse hjson] at hanswered
    exact receive_of_written.mp hanswered
  · intro h
    have haccepted : ∀ value, parseWebhookPayload py raw = .ok value ↔
        IsAcceptableBody py raw value := fun value =>
      (hiff value).trans ⟨And.left, fun hacceptable => ⟨hacceptable, (h value hacceptable).2.1⟩⟩
    have hwritten : ∀ value, parseWebhookPayload py raw = .ok value → (json? value).isSome := by
      intro value hparse
      obtain ⟨hacceptable, hintegers⟩ := (hiff value).mp hparse
      exact (json?_isSome_iff hdigits (parsed_parts hpy hparse).2 hintegers).mpr
        (h value hacceptable).1
    refine ⟨?_, haccepted, ?_⟩
    · cases hparse : parseWebhookPayload py raw with
      | error rejection =>
        rw [receiveBody]
        simp only [hparse]
        exact receive_of_refused
      | ok value =>
        obtain ⟨json, hjson⟩ := Option.isSome_iff_exists.mp (hwritten value hparse)
        rw [receiveBody_of_written hparse hjson]
        exact receive_of_written.mpr
          ((h value ((haccepted value).mp hparse)).2.2 json hjson)
    · intro value hparse instruction
      have hloaded := (parsed_parts hpy hparse).1
      have hdepth := ((haccepted value).mp hparse).depth
      exact composeRunInput_readsBack hdigits.ge (distinct_of_loaded hloaded)
        (floats_of_loaded hloaded) (by omega) (hwritten value hparse) instruction

/-- Delivered bodies and published values are answered, and what they compose is read back,
exactly when what is acceptable can be written and its target may run. -/
theorem payloads_are_answered {κ : Type} (hpy : py.Lawful) (hdigits : py.maxDigits = maxIntDigits)
    (hstack : StateCodec.jsonValueMaxDepth + 2 ≤ py.stack) :
    (∀ definitions environment delivery raw located db, raw.length ≤ webhookBodyMaxBytes →
      (BodyIsAnswered py definitions environment delivery raw located db ↔
        ∀ value, IsAcceptableBody py raw value →
          HasNoSurrogates value ∧ HasConvertibleIntegers py value ∧
            ∀ json, json? value = some json → ∀ command,
              IsAdmitted definitions (delivered delivery raw) located json command →
                Deliverable environment command db)) ∧
    ∀ value : Value (Key κ), value.Distinct → HasFloats py (withStringKeys value) →
      (EventIsAnswered py value ↔
        (IsJson Key.string? value → value.nesting ≤ StateCodec.jsonValueMaxDepth →
          HasNoSurrogates (withStringKeys value) ∧
            HasConvertibleIntegers py (withStringKeys value))) :=
  ⟨fun _ _ _ _ _ _ hsize => bodyIsAnswered_iff hpy hdigits hstack hsize,
    fun _ hdistinct hfloats => eventIsAnswered_iff hdigits hstack hdistinct hfloats⟩

end Ingress

open HostWire (samplePy)

def sampleTarget : TriggerSystem :=
  sampleTriggerRun [.engine (.configure sampleConfiguration 0), .createWebhook sampleWebhook]

def surrogateBody : Bytes :=
  PackageFormat.utf8 "\x7b\"a\":\"\\ud800\"\x7d"

set_option maxRecDepth 100000 in
/-- The body is accepted, and its delivery is not answered. -/
theorem surrogate_is_not_answered :
    (receiveBody samplePy sampleResolver sampleEnvironment signedDelivery surrogateBody
        sampleTarget.db.1 sampleTarget.db).1 = none ∧
      ¬ BodyIsAnswered samplePy sampleResolver sampleEnvironment signedDelivery surrogateBody
        sampleTarget.db.1 sampleTarget.db := by
  have hnone : (receiveBody samplePy sampleResolver sampleEnvironment signedDelivery surrogateBody
      sampleTarget.db.1 sampleTarget.db).1 = none := by
    decide +kernel
  exact ⟨hnone, fun h => h.answered hnone⟩

theorem value_of_emptyObject {value : Value Text}
    (h : IsAcceptableBody samplePy (PackageFormat.utf8 "\x7b\x7d") value) :
    value = .mapping .plain [] := by
  obtain ⟨source, hsource, maxDigits, stack, hloads⟩ := h.decoded
  rw [PackageFormat.decodeUtf8?_utf8] at hsource
  obtain rfl := Option.some.inj hsource
  rw [loads, loadsWith] at hloads
  change (readValue _ uniqueMembers 9 stack ['{', '}'] >>= _) = _ at hloads
  cases stack with
  | zero =>
    rw [readValue] at hloads
    cases hloads
  | succ stack =>
    have hread : readValue ⟨samplePy.float, maxDigits,
        stack + 1⟩ uniqueMembers 9 (stack + 1) ['{', '}'] =
        .ok (.mapping .plain [], []) := by
      simp [readValue, readMembers, skip, isBlank]
    rw [hread] at hloads
    exact (Except.ok.inj hloads).symm

/-- An empty object is answered, as a body and as an event. -/
theorem payloads_are_answered_empty :
    BodyIsAnswered samplePy sampleResolver sampleEnvironment signedDelivery
        (PackageFormat.utf8 "\x7b\x7d") sampleTarget.db.1 sampleTarget.db ∧
      EventIsAnswered samplePy (.mapping .plain [] : Value (Key Unit)) := by
  have hpy : samplePy.Lawful := fun _ => Or.inl rfl
  have hempty : ∀ (scalar : Scalar → Prop) (key : List Text → Prop), key [] →
      (Value.mapping Kind.plain []).All scalar (fun _ => True) key :=
    fun _ _ hkeys => all_mapping.mpr ⟨trivial, hkeys, by simp⟩
  have hanswered := @payloads_are_answered samplePy Unit hpy rfl (by decide)
  constructor
  · refine (hanswered.1 sampleResolver sampleEnvironment signedDelivery _ sampleTarget.db.1
      sampleTarget.db (by decide +kernel)).mpr fun value hacceptable => ?_
    obtain rfl := value_of_emptyObject hacceptable
    refine ⟨hempty _ _ (by simp), hempty _ _ trivial, ?_⟩
    rintro json - command -
    rintro - trigger - - - - - - - instanceRow - - row hrow
    cases hrow
  · refine (hanswered.2 _ (all_mapping.mpr ⟨trivial, by simp, by simp⟩) ?_).mpr fun _ _ => ⟨?_, ?_⟩
    · exact hempty _ _ trivial
    · exact hempty _ _ (by simp)
    · exact hempty _ _ trivial

end Payloads

end NervOS
