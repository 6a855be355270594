/-
The OpenAI Responses adapter and the Anthropic Messages adapter: the messages of a request, and
the normalization of a response.  An attribute that is not of the type that an adapter checks for
is `none`.  Then the three adapters as the tool loop uses them, and what is to be read off their
wires.
-/
import NervOS.Application.ToolLoop
import NervOS.Models.Gemini

namespace NervOS.OpenAI

def providerId : String := "openai"

inductive InputItem where
  | user (text : String)
  | assistant (text : String)
  | functionCall (callId name arguments : String)
  | functionCallOutput (callId output : String)
deriving DecidableEq, Repr

inductive Input where
  | text (text : String)
  | items (items : List InputItem)
deriving DecidableEq, Repr

/-- `_json_text`: compact JSON text of what the arguments say, or an unusable response. -/
def jsonText (reader : JsonReader) (argumentsJson : String) :
    Except ModelProviderError String :=
  match reader.loads argumentsJson with
  | some value => .ok (Json.canonicalText value)
  | none => .error (responseInvalid none)

def toolOutput (turn : ToolResultTurn) : String :=
  match turn.structured with
  | none => turn.text
  | some structured => turn.text ++ "\n" ++ Json.canonicalText structured

def messageItem : MessageRole × String → InputItem
  | (.user, text) => .user text
  | (.assistant, text) => .assistant text

def callItems (reader : JsonReader) : List ToolCall → Except ModelProviderError (List InputItem)
  | [] => .ok []
  | call :: calls => do
    let arguments ← jsonText reader call.argumentsJson
    let items ← callItems reader calls
    return .functionCall call.callId call.name arguments :: items

def turnItems (reader : JsonReader) : List ConversationTurn →
    Except ModelProviderError (List InputItem)
  | [] => .ok []
  | .assistant turn :: turns => do
    let calls ← callItems reader turn.toolCalls
    let items ← turnItems reader turns
    return (if turn.text = "" then [] else [.assistant turn.text]) ++ calls ++ items
  | .toolResult turn :: turns => do
    let items ← turnItems reader turns
    return .functionCallOutput turn.callId (toolOutput turn) :: items

/-- `_input_items`: a bare request keeps its plain string. -/
def inputItems (reader : JsonReader) (request : ModelRequest) :
    Except ModelProviderError Input :=
  if request.turns.isEmpty ∧ request.history = [] ∧ request.compactionContext = none ∧
      request.userMemoryContext = none ∧ request.agentMemoryContext = none then
    .ok (.text request.userText)
  else do
    let items ← turnItems reader request.turns
    return .items (request.openingMessages.map messageItem ++ items)

structure Part where
  type : Option String
  text : Option String := none
deriving DecidableEq, Repr

structure Item where
  type : Option String
  callId : Option String := none
  name : Option String := none
  arguments : Option String := none
  role : Option String := none
  content : Option (List Part) := none
deriving DecidableEq, Repr

structure Response where
  failed : Bool := false
  status : Option String
  incompleteReason : Option String := none
  output : Option (List Item)
  usage : Option UsageReport := none
deriving DecidableEq, Repr

def usage (response : Response) : Option ModelUsage :=
  response.usage.map fun report =>
    { inputTokens := tokenCount report.inputTokens
      outputTokens := tokenCount report.outputTokens
      totalTokens := tokenCount report.totalTokens }

/-- `_outcome`. -/
def outcome (response : Response) : Except ModelProviderError StopOutcome :=
  if response.status = some "completed" then .ok .stop
  else if response.status = some "failed" then .error { code := modelUnavailable }
  else if response.status = some "incomplete" then
    if response.incompleteReason = some "max_output_tokens" then .ok .incomplete
    else if response.incompleteReason = some "content_filter" then .ok .refused
    else .error (responseInvalid none)
  else .error (responseInvalid none)

/-- `_tool_call`: the arguments are carried across unchanged. -/
def toolCall (item : Item) : Except ModelProviderError ToolCall :=
  match item.callId, item.name, item.arguments with
  | some callId, some name, some arguments => .ok ⟨callId, name, arguments⟩
  | _, _, _ => .error (responseInvalid none)

def inspectItems (toolsEnabled : Bool) :
    List Item → Except ModelProviderError (List Item × List ToolCall)
  | [] => .ok ([], [])
  | item :: items =>
    if item.type = some "reasoning" then inspectItems toolsEnabled items
    else if item.type = some "function_call" ∧ toolsEnabled = true then do
      let call ← toolCall item
      let (messages, calls) ← inspectItems toolsEnabled items
      return (messages, call :: calls)
    else if item.type = some "message" then do
      let (messages, calls) ← inspectItems toolsEnabled items
      return (item :: messages, calls)
    else .error (responseInvalid none)

def inspectParts : List Part → Except ModelProviderError (Bool × String)
  | [] => .ok (false, "")
  | part :: parts =>
    if part.type = some "refusal" then do
      let (_, text) ← inspectParts parts
      return (true, text)
    else if part.type = some "output_text" then
      match part.text with
      | none => .error (responseInvalid none)
      | some text => do
        let (refused, rest) ← inspectParts parts
        return (refused, text ++ rest)
    else .error (responseInvalid none)

/-- `_inspected_output`. -/
def inspectedOutput (response : Response) (toolsEnabled : Bool) :
    Except ModelProviderError (Bool × String × List ToolCall) :=
  match response.output with
  | none => .error (responseInvalid none)
  | some output => do
    let (messages, calls) ← inspectItems toolsEnabled output
    match messages with
    | [] => return (false, "", calls)
    | [message] =>
      match message.role, message.content with
      | some "assistant", some parts => do
        let (refused, text) ← inspectParts parts
        return if refused then (true, "", []) else (false, text, calls)
      | _, _ => .error (responseInvalid none)
    | _ :: _ :: _ => .error (responseInvalid none)

def normalizedResponse (response : Response) (modelName : String) (toolsEnabled : Bool) :
    Except ModelProviderError ModelResponse :=
  if response.failed then .error ⟨modelUnavailable, (usage response).getD {}⟩
  else do
    let outcome ← outcome response
    let (refused, text, toolCalls) ← inspectedOutput response toolsEnabled
    if refused then .error ⟨modelRefused, (usage response).getD {}⟩
    else if toolCalls ≠ [] then
      .ok ⟨text, providerId, modelName, outcome, usage response, toolCalls⟩
    else if outcome = .stop then
      if text.toList.all isPythonSpace then .error (responseInvalid (usage response))
      else .ok ⟨text, providerId, modelName, outcome, usage response, []⟩
    else .ok ⟨"", providerId, modelName, outcome, usage response, []⟩

def withUsage (usage : Option ModelUsage) (result : Except ModelProviderError ModelResponse) :
    Except ModelProviderError ModelResponse :=
  result.mapError fun error =>
    if error.usage = {} then { error with usage := usage.getD {} } else error

/-- What `complete` makes of a received response. -/
def received (request : ModelRequest) (response : Response) :
    Except ModelProviderError ModelResponse :=
  withUsage (usage response)
    (normalizedResponse response request.modelName (! request.tools.isEmpty))

end NervOS.OpenAI

namespace NervOS.Anthropic

def providerId : String := "anthropic"

inductive WireBlock where
  | text (text : String)
  | toolUse (id name : String) (input : Json.Value)
  | toolResult (toolUseId : String) (content : List String) (isError : Bool)

inductive WireMessage where
  | text (role : MessageRole) (text : String)
  | blocks (role : MessageRole) (blocks : List WireBlock)

def decodeArguments (reader : JsonReader) (argumentsJson : String) :
    Except ModelProviderError Json.Value :=
  match reader.loads argumentsJson with
  | some value => .ok value
  | none => .error (responseInvalid none)

def toolUseBlocks (reader : JsonReader) : List ToolCall →
    Except ModelProviderError (List WireBlock)
  | [] => .ok []
  | call :: calls => do
    let input ← decodeArguments reader call.argumentsJson
    let blocks ← toolUseBlocks reader calls
    return .toolUse call.callId call.name input :: blocks

def assistantContent (reader : JsonReader) (turn : AssistantTurn) :
    Except ModelProviderError (List WireBlock) := do
  let blocks ← toolUseBlocks reader turn.toolCalls
  return (if turn.text = "" then [] else [.text turn.text]) ++ blocks

def toolResultBlock (turn : ToolResultTurn) : WireBlock :=
  .toolResult turn.callId
    (turn.text :: (turn.structured.map Json.canonicalText).toList) turn.isError

/-- The results that wait for the next assistant turn, as one user message. -/
def flush (pending : List WireBlock) : List WireMessage :=
  if pending.isEmpty then [] else [.blocks .user pending]

def turnMessages (reader : JsonReader) : List WireBlock → List ConversationTurn →
    Except ModelProviderError (List WireMessage)
  | pending, [] => .ok (flush pending)
  | pending, .assistant turn :: turns => do
    let content ← assistantContent reader turn
    let messages ← turnMessages reader [] turns
    return flush pending ++ .blocks .assistant content :: messages
  | pending, .toolResult turn :: turns =>
    turnMessages reader (pending ++ [toolResultBlock turn]) turns

def openingMessage : MessageRole × String → WireMessage
  | (.user, text) => .text .user text
  | (.assistant, text) => .blocks .assistant [.text text]

/-- `_messages`. -/
def messages (reader : JsonReader) (request : ModelRequest) :
    Except ModelProviderError (List WireMessage) := do
  let turns ← turnMessages reader [] request.turns
  return request.openingMessages.map openingMessage ++ turns

structure Block where
  type : Option String
  text : Option String := none
  id : Option String := none
  name : Option String := none
  input : Option JsonObject := none

structure Message where
  content : Option (List Block)
  stopReason : Option String
  model : Option String
  usage : Option UsageReport := none

def stopOutcomes : List (String × StopOutcome) :=
  [("end_turn", .stop), ("max_tokens", .incomplete),
    ("model_context_window_exceeded", .incomplete), ("refusal", .refused),
    ("tool_use", .toolUse)]

def usage (message : Message) : Option ModelUsage :=
  message.usage.map fun report =>
    { inputTokens := tokenCount report.inputTokens
      outputTokens := tokenCount report.outputTokens }

def finishOutcome (message : Message) : Except ModelProviderError StopOutcome :=
  match message.stopReason.bind fun reason => stopOutcomes.lookup reason with
  | some outcome => .ok outcome
  | none => .error (responseInvalid none)

def opaqueModelName (message : Message) : Except ModelProviderError String :=
  match message.model with
  | some name => if name.toList.all isPythonSpace then .error (responseInvalid none) else .ok name
  | none => .error (responseInvalid none)

/-- `_tool_call`: the input is normalized to canonical text. -/
def toolCall (block : Block) : Except ModelProviderError ToolCall :=
  match block.id, block.name, block.input with
  | some callId, some name, some payload => .ok ⟨callId, name, payload.text⟩
  | _, _, _ => .error (responseInvalid none)

def inspectBlocks (toolsEnabled : Bool) :
    List Block → Except ModelProviderError (List String × List ToolCall)
  | [] => .ok ([], [])
  | block :: blocks =>
    if block.type = some "text" then
      match block.text with
      | none => .error (responseInvalid none)
      | some text => do
        let (texts, calls) ← inspectBlocks toolsEnabled blocks
        return (text :: texts, calls)
    else if block.type = some "thinking" ∨ block.type = some "redacted_thinking" then
      inspectBlocks toolsEnabled blocks
    else if block.type = some "tool_use" ∧ toolsEnabled = true then do
      let call ← toolCall block
      let (texts, calls) ← inspectBlocks toolsEnabled blocks
      return (texts, call :: calls)
    else .error (responseInvalid none)

/-- `_content_blocks`: a turn without a text block and without a call is unusable. -/
def contentBlocks (message : Message) (toolsEnabled : Bool) :
    Except ModelProviderError (String × List ToolCall) :=
  match message.content with
  | none => .error (responseInvalid none)
  | some content => do
    let (texts, calls) ← inspectBlocks toolsEnabled content
    if texts = [] ∧ calls = [] then .error (responseInvalid none)
    else return ("".intercalate texts, calls)

def normalizedResponse (message : Message) (toolsEnabled : Bool) :
    Except ModelProviderError ModelResponse := do
  let (text, toolCalls) ← contentBlocks message toolsEnabled
  let outcome ← finishOutcome message
  if outcome = .toolUse ∧ toolsEnabled = false then .error (responseInvalid none)
  else do
    let modelName ← opaqueModelName message
    return ⟨text, providerId, modelName, outcome, usage message, toolCalls⟩

/-- What `complete` makes of a received response. -/
def received (request : ModelRequest) (message : Message) :
    Except ModelProviderError ModelResponse :=
  OpenAI.withUsage (usage message) (normalizedResponse message (! request.tools.isEmpty))

end NervOS.Anthropic

namespace NervOS

/-- What a rendered conversation says, in the order in which it says it. -/
inductive WireEvent (ρ : Type) where
  | text (role : MessageRole) (text : String)
  | call (role : MessageRole) (callId : Option String) (name : String)
      (arguments : Option Json.Value)
  | result (role : MessageRole) (callId name : Option String) (payload : ρ)

structure WireFormat (adapter : Adapter) (ρ : Type) where
  events : adapter.Wire → List (WireEvent ρ)
  payload : ToolResultTurn → ρ
  resultName : ToolCall → Option String
  Original : String → Option String → Prop

namespace OpenAI

def adapter (reader : JsonReader) : Adapter where
  State := Unit
  Response := Response
  Wire := Input
  init := ()
  render _ request := inputItems reader request
  received _ request response := (received request response, ())

def itemEvent (reader : JsonReader) : InputItem → WireEvent String
  | .user text => .text .user text
  | .assistant text => .text .assistant text
  | .functionCall callId name arguments =>
    .call .assistant (some callId) name (reader.loads arguments)
  | .functionCallOutput callId output => .result .user (some callId) none output

def format (reader : JsonReader) : WireFormat (adapter reader) String where
  events
    | .text text => [.text .user text]
    | .items items => items.map (itemEvent reader)
  payload := toolOutput
  resultName _ := none
  Original callId original := original = some callId

end OpenAI

namespace Anthropic

def adapter (reader : JsonReader) : Adapter where
  State := Unit
  Response := Message
  Wire := List WireMessage
  init := ()
  render _ request := messages reader request
  received _ request message := (received request message, ())

def blockEvent (role : MessageRole) : WireBlock → WireEvent (List String × Bool)
  | .text text => .text role text
  | .toolUse id name input => .call role (some id) name (some input)
  | .toolResult toolUseId content isError =>
    .result role (some toolUseId) none (content, isError)

def messageEvents : WireMessage → List (WireEvent (List String × Bool))
  | .text role text => [.text role text]
  | .blocks role blocks => blocks.map (blockEvent role)

def format (reader : JsonReader) : WireFormat (adapter reader) (List String × Bool) where
  events messages := messages.flatMap messageEvents
  payload turn := (turn.text :: (turn.structured.map Json.canonicalText).toList, turn.isError)
  resultName _ := none
  Original callId original := original = some callId

end Anthropic

namespace Gemini

variable (reader : JsonReader) (sha256Hex : String → String)

/-- The instance may keep what earlier Attempts left. -/
def adapter (signatures : Signatures) : Adapter where
  State := Signatures
  Response := Response
  Wire := List Content
  init := signatures
  render signatures request := contents reader signatures request
  received signatures request response := received sha256Hex response request signatures

def partEvent (role : MessageRole) : WirePart → Option (WireEvent Json.Value)
  | .text text => some (.text role text)
  | .thought _ => none
  | .functionCall id name args _ => some (.call role id name (some args))
  | .functionResponse id name response => some (.result role id (some name) response)

def contentEvents (content : Content) : List (WireEvent Json.Value) :=
  content.parts.filterMap (partEvent content.role)

/-- The provider's own id, or none where the adapter had to make one up. -/
def Original (callId : String) (original : Option String) : Prop :=
  original = some callId ∨
    original = none ∧ ∃ response index name argumentsJson,
      callId = generatedCallId sha256Hex response index name argumentsJson

def format (signatures : Signatures) :
    WireFormat (adapter reader sha256Hex signatures) Json.Value where
  events contents := contents.flatMap contentEvents
  payload := responsePayload
  resultName call := some call.name
  Original := Original sha256Hex

end Gemini

end NervOS
