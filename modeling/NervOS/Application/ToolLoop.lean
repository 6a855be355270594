/-
The tool loop of one Attempt over a provider's adapter: model turns, the calls that they ask
for, and an observation for every call.
-/
import NervOS.Application.ModelCompletion
import NervOS.Relational.Machine

namespace NervOS

open Relational

/-- A provider's adapter: what it keeps between calls, what it receives and what it sends. -/
structure Adapter where
  State : Type
  Response : Type
  Wire : Type
  init : State
  render : State → ModelRequest → Except ModelProviderError Wire
  received : State → ModelRequest → Response → Except ModelProviderError ModelResponse × State

abbrev ToolCatalog := List ToolSchema

/-- What one Attempt of the loop is started with. -/
structure LoopInput where
  systemInstruction : String
  userText : String
  modelName : String
  limits : RunLimits
  catalog : ToolCatalog
  history : List HistoricalMessage
  compactionContext : Option String
  userMemoryContext : Option String
  agentMemoryContext : Option String

/-- `lastUsage` is what a rate-limited turn leaves, with the aggregate before it. -/
structure LoopState where
  usage : ModelUsage := {}
  lastUsage : ModelUsage := {}
  modelCalls : Nat := 0
  toolCalls : Nat := 0
  toolSequence : Nat := 0
  consecutiveFailures : Nat := 0
  turns : List ConversationTurn := []
  seenCallIds : List String := []

namespace ToolLoop

def maxInAttemptModelRetries : Nat := 3

def maxProviderCallIdBytes : Nat := 128

def unknownToolNote : String := "The requested tool is not available to this agent."
def invalidArgumentsNote : String := "The tool call arguments were not valid for this tool."
def deniedNote : String := "The tool call was denied."

def isValidProviderCallId (value : String) : Bool :=
  1 ≤ value.toList.length && value.toList.length ≤ maxProviderCallIdBytes &&
    value.toList.all fun character => 0x20 ≤ character.toNat && character.toNat < 0x7F

/-- `_validate_turn_shape`: a tool termination exactly when there are tool calls. -/
def validateTurnShape (response : ModelResponse) : Except ModelProviderError Unit :=
  if response.finishReason = .toolUse ↔ response.toolCalls ≠ [] then .ok ()
  else .error (responseInvalid none)

/-- `_register_call_ids`: every id is usable and new in this Attempt. -/
def registerCallIds (calls : List ToolCall) (state : LoopState) :
    Except ModelProviderError LoopState :=
  if (∀ call ∈ calls, isValidProviderCallId call.callId = true ∧
      call.callId ∉ state.seenCallIds) ∧ (calls.map (·.callId)).Nodup then
    .ok { state with seenCallIds := state.seenCallIds ++ calls.map (·.callId) }
  else .error (responseInvalid none)

def addTokens (left right : Option Nat) : Option Nat :=
  match left, right with
  | none, right => right
  | left, none => left
  | some left, some right => some (left + right)

def mergeUsage (total : ModelUsage) (reported : Option ModelUsage) : ModelUsage :=
  match reported with
  | none => total
  | some reported =>
    { inputTokens := addTokens total.inputTokens reported.inputTokens
      outputTokens := addTokens total.outputTokens reported.outputTokens
      totalTokens := addTokens total.totalTokens reported.totalTokens }

def request (input : LoopInput) (state : LoopState) : ModelRequest where
  systemInstruction := input.systemInstruction
  userText := input.userText
  modelName := input.modelName
  maxOutputTokens := input.limits.maxOutputTokens
  timeoutMs := input.limits.providerTimeoutMs
  tools := input.catalog
  turns := state.turns
  history := input.history
  compactionContext := input.compactionContext
  userMemoryContext := input.userMemoryContext
  agentMemoryContext := input.agentMemoryContext

/-- How the loop ended: with a concluding turn, or with a failure. -/
inductive Ending where
  | concluded (response : ModelResponse) (usage : ModelUsage)
  | failed (error : ModelProviderError)

inductive Phase where
  | modelTurn (retries : Nat)
  | dispatch (calls : List ToolCall)
  | ended (ending : Ending)

/-- What the mediator makes of one admitted call. -/
inductive MediatedOutcome where
  | denied
  | invalidArguments
  | failed (text : String)
  | succeeded (text : String) (structured : Option Json.Value)
  | fatal (error : ModelProviderError)

def acceptTurn (input : LoopInput) (state : LoopState) (response : ModelResponse)
    (persisted : Bool) : LoopState × Phase :=
  match validateTurnShape response with
  | .error error => (state, .ended (.failed error))
  | .ok () =>
    match registerCallIds response.toolCalls state with
    | .error error => (state, .ended (.failed error))
    | .ok state =>
      let state := { state with usage := mergeUsage state.usage response.usage }
      if persisted = false then
        (state, .ended (.failed ⟨internalExecutionError, state.usage⟩))
      else if response.toolCalls = [] then
        (state, .ended (.concluded response state.usage))
      else if input.limits.maxToolCalls < state.toolCalls + response.toolCalls.length then
        (state, .ended (.failed ⟨toolLoopLimit, state.usage⟩))
      else
        ({ state with turns :=
            state.turns ++ [.assistant ⟨response.text, response.toolCalls⟩] },
          .dispatch response.toolCalls)

def afterFailure (state : LoopState) (retries : Nat) (error : ModelProviderError) : Phase :=
  if error.code ≠ modelRateLimited then .ended (.failed error)
  else if maxInAttemptModelRetries ≤ retries then
    .ended (.failed ⟨modelRateLimited, mergeUsage state.usage (some error.usage)⟩)
  else .modelTurn (retries + 1)

/-- The usage of the aggregate and of the failed call, for the end of the retries. -/
def rememberUsage (state : LoopState) (error : ModelProviderError) : LoopState :=
  { state with lastUsage := mergeUsage state.usage (some error.usage) }

def budgetError (state : LoopState) (retries : Nat) : ModelProviderError :=
  if retries = 0 then ⟨toolLoopLimit, state.usage⟩ else ⟨modelRateLimited, state.lastUsage⟩

/-- `_observe_failure`, at the place of the next call. -/
def observeFailure (input : LoopInput) (state : LoopState) (callId note : String) (next : Phase) :
    LoopState × Phase :=
  let state := { state with consecutiveFailures := state.consecutiveFailures + 1 }
  if input.limits.maxConsecutiveToolFailures ≤ state.consecutiveFailures then
    (state, .ended (.failed ⟨toolLoopLimit, state.usage⟩))
  else
    ({ state with turns := state.turns ++ [.toolResult ⟨callId, note, none, true⟩] }, next)

/-- `parse_arguments`: an object, or nothing. -/
def parseArguments (reader : JsonReader) (argumentsJson : String) :
    Option (List (String × Json.Value)) :=
  match reader.loads argumentsJson with
  | some (.obj members) => some members
  | _ => none

def nextPhase : List ToolCall → Phase
  | [] => .modelTurn 0
  | calls => .dispatch calls

/-- `_dispatch` of one call. -/
def dispatch (reader : JsonReader) (input : LoopInput) (state : LoopState) (call : ToolCall)
    (outcome : MediatedOutcome) (next : Phase) : LoopState × Phase :=
  let state := { state with toolCalls := state.toolCalls + 1 }
  if ∀ schema ∈ input.catalog, schema.name ≠ call.name then
    observeFailure input state call.callId unknownToolNote next
  else if parseArguments reader call.argumentsJson = none then
    observeFailure input state call.callId invalidArgumentsNote next
  else
    let state := { state with toolSequence := state.toolSequence + 1 }
    match outcome with
    | .denied => observeFailure input state call.callId deniedNote next
    | .invalidArguments => observeFailure input state call.callId invalidArgumentsNote next
    | .failed text => observeFailure input state call.callId text next
    | .fatal error => (state, .ended (.failed error))
    | .succeeded text structured =>
      ({ state with
          consecutiveFailures := 0
          turns := state.turns ++ [.toolResult ⟨call.callId, text, structured, false⟩] },
        next)

def callFailed (reader : JsonReader) (input : LoopInput) (call : ToolCall)
    (outcome : MediatedOutcome) : Option Bool :=
  if (∀ schema ∈ input.catalog, schema.name ≠ call.name) ∨
      parseArguments reader call.argumentsJson = none then some true
  else
    match outcome with
    | .denied | .invalidArguments | .failed _ => some true
    | .succeeded _ _ => some false
    | .fatal _ => none

structure ChatOutcome where
  outputText : String
  finishReason : String
  usage : ModelUsage

/-- `final_chat_outcome`, for the provider and the limits of the Run. -/
def finalChatOutcome (modelProvider : String) (limits : RunLimits) (response : ModelResponse)
    (usage : ModelUsage) : Except ModelProviderError ChatOutcome :=
  if response.modelProvider ≠ modelProvider ∨ isBlankText response.modelName = true then
    .error (responseInvalid none)
  else if response.toolCalls ≠ [] then .error (responseInvalid none)
  else
    match response.finishReason with
    | .incomplete => .error ⟨modelOutputIncomplete, usage⟩
    | .refused => .error ⟨modelRefused, usage⟩
    | .invalid => .error ⟨modelResponseInvalid, usage⟩
    | .toolUse => .error (responseInvalid none)
    | .stop =>
      if isBlankText response.text = true ∨ hasNul response.text = true then
        .error (responseInvalid none)
      else if limits.outputMaxCodePoints < response.text.length ∨
          limits.outputMaxBytes < utf8Length response.text then
        .error ⟨modelOutputTooLarge, {}⟩
      else .ok ⟨response.text, "stop", usage⟩

/-- What `run` returns or raises at the end of the loop. -/
def Ending.outcome (modelProvider : String) (limits : RunLimits) :
    Ending → Except ModelProviderError ChatOutcome
  | .concluded response usage => finalChatOutcome modelProvider limits response usage
  | .failed error => .error error

end ToolLoop

/-- One step of an Attempt: a provider call returned, or one call was dispatched.  Whether a
write of usage or of an audit row held is the environment's to say. -/
inductive LoopOp (ρ : Type) where
  | answered (outcome : Except ModelProviderError ρ) (persisted : Bool)
  | dispatched (outcome : ToolLoop.MediatedOutcome)
  | authorityLost (error : ModelProviderError)

/-- The loop with its adapter.  `requests`, `dispatched` and `outcomes` are history variables:
the requests that went to the adapter, the calls that were dispatched, and which of those
failed. -/
structure LoopSystem (adapter : Adapter) where
  adapterState : adapter.State
  state : LoopState
  phase : ToolLoop.Phase
  requests : List ModelRequest
  dispatched : List ToolCall
  outcomes : List Bool

namespace LoopSystem

variable {adapter : Adapter}

/-- A loop without a tool budget is a routing defect, and fails closed. -/
def init (adapter : Adapter) (input : LoopInput) : LoopSystem adapter where
  adapterState := adapter.init
  state := {}
  phase :=
    if input.limits.maxToolCalls = 0 then .ended (.failed (responseInvalid none))
    else .modelTurn 0
  requests := []
  dispatched := []
  outcomes := []

variable (reader : JsonReader) (input : LoopInput)

def answer (system : LoopSystem adapter) (retries : Nat)
    (outcome : Except ModelProviderError adapter.Response) (persisted : Bool) :
    LoopSystem adapter :=
  let request := ToolLoop.request input system.state
  let state := { system.state with modelCalls := system.state.modelCalls + 1 }
  let system := { system with state, requests := system.requests ++ [request] }
  match adapter.render system.adapterState request with
  | .error error =>
    { system with
      state := ToolLoop.rememberUsage state error
      phase := ToolLoop.afterFailure state retries error }
  | .ok _ =>
    match outcome with
    | .error error =>
      { system with
        state := ToolLoop.rememberUsage state error
        phase := ToolLoop.afterFailure state retries error }
    | .ok response =>
      match adapter.received system.adapterState request response with
      | (.error error, adapterState) =>
        { system with
          adapterState
          state := ToolLoop.rememberUsage state error
          phase := ToolLoop.afterFailure state retries error }
      | (.ok response, adapterState) =>
        let accepted := ToolLoop.acceptTurn input state response persisted
        { system with adapterState, state := accepted.1, phase := accepted.2 }

def exec (op : LoopOp adapter.Response) (system : LoopSystem adapter) : LoopSystem adapter :=
  match op, system.phase with
  | .answered outcome persisted, .modelTurn retries =>
    if input.limits.maxModelCalls ≤ system.state.modelCalls then
      { system with phase := .ended (.failed (ToolLoop.budgetError system.state retries)) }
    else system.answer input retries outcome persisted
  | .dispatched outcome, .dispatch (call :: calls) =>
    let dispatched := ToolLoop.dispatch reader input system.state call outcome
      (ToolLoop.nextPhase calls)
    { system with
      state := dispatched.1
      phase := dispatched.2
      dispatched := system.dispatched ++ [call]
      outcomes := system.outcomes ++ (ToolLoop.callFailed reader input call outcome).toList }
  | .authorityLost error, .dispatch _ => { system with phase := .ended (.failed error) }
  | _, _ => system

end LoopSystem

def toolLoop (adapter : Adapter) (reader : JsonReader) (input : LoopInput) :
    Machine (LoopSystem adapter) (LoopOp adapter.Response) where
  init := .init adapter input
  exec := LoopSystem.exec reader input

end NervOS
