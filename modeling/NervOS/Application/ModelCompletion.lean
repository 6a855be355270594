/-
The provider-neutral model boundary: a request with its turns, a response with its tool
calls, and the failure that an adapter raises instead.
-/
import NervOS.Application.ContextBuilder
import NervOS.Json.Text

namespace NervOS

inductive StopOutcome where
  | stop
  | incomplete
  | refused
  | invalid
  | toolUse
deriving DecidableEq, Repr

structure ToolSchema where
  name : String
  description : String
  inputSchema : Json.Value

structure ToolCall where
  callId : String
  name : String
  argumentsJson : String
deriving DecidableEq, Repr

structure AssistantTurn where
  text : String
  toolCalls : List ToolCall := []
deriving DecidableEq, Repr

structure ToolResultTurn where
  callId : String
  text : String
  structured : Option Json.Value := none
  isError : Bool := false

inductive ConversationTurn where
  | assistant (turn : AssistantTurn)
  | toolResult (turn : ToolResultTurn)

structure ModelRequest where
  systemInstruction : String
  userText : String
  modelName : String
  maxOutputTokens : Nat
  timeoutMs : Nat
  tools : List ToolSchema := []
  turns : List ConversationTurn := []
  history : List HistoricalMessage := []
  compactionContext : Option String := none
  userMemoryContext : Option String := none
  agentMemoryContext : Option String := none

structure ModelResponse where
  text : String
  modelProvider : String
  modelName : String
  finishReason : StopOutcome
  usage : Option ModelUsage
  toolCalls : List ToolCall := []
deriving DecidableEq, Repr

structure ModelProviderError where
  code : String
  usage : ModelUsage := {}
deriving DecidableEq, Repr

/-- `raise ModelProviderError(MODEL_RESPONSE_INVALID, usage=usage)`. -/
def responseInvalid (usage : Option ModelUsage) : ModelProviderError where
  code := modelResponseInvalid
  usage := usage.getD {}

structure UsageReport where
  inputTokens : Option Int := none
  outputTokens : Option Int := none
  totalTokens : Option Int := none
deriving DecidableEq, Repr

def tokenCount (value : Option Int) : Option Nat :=
  (value.filter (0 ≤ ·)).map Int.toNat

/-- `json.loads`, which reads every text that `canonical_json_text` writes. -/
structure JsonReader where
  loads : String → Option Json.Value
  loads_canonicalText : ∀ {value : Json.Value}, value.WellFormed →
    loads (Json.canonicalText value) = some value

def canonicalReader : JsonReader where
  loads := Json.loads
  loads_canonicalText := Json.loads_canonicalText

/-- A context that is there and not empty. -/
def presentText (text : Option String) : List String :=
  text.toList.filter (· ≠ "")

def ModelRequest.contextPrefix (request : ModelRequest) : Option String :=
  let parts := presentText request.userMemoryContext ++ presentText request.agentMemoryContext ++
    (presentText request.compactionContext).map (compactionWrapperPrefix ++ ·)
  if parts.isEmpty then none else some ("\n\n".intercalate parts)

def prefixed (contextPrefix : Option String) (text : String) : String :=
  match contextPrefix with
  | none => text
  | some contextPrefix => contextPrefix ++ "\n\n" ++ text

def ModelRequest.openingMessages (request : ModelRequest) : List (MessageRole × String) :=
  match request.history with
  | ⟨_, _, _, .user, content⟩ :: rest =>
    (.user, prefixed request.contextPrefix content) ::
      rest.map (fun message => (message.role, message.content)) ++ [(.user, request.userText)]
  | history =>
    history.map (fun message => (message.role, message.content)) ++
      [(.user, prefixed request.contextPrefix request.userText)]

mutual

/-- How deep containers nest; a scalar is not nested. -/
def nesting : Json.Value → Nat
  | .arr items => nestingItems items + 1
  | .obj members => nestingMembers members + 1
  | .null | .bool _ | .int _ | .float _ | .str _ => 0

def nestingItems : List Json.Value → Nat
  | [] => 0
  | item :: rest => max (nesting item) (nestingItems rest)

def nestingMembers : List (String × Json.Value) → Nat
  | [] => 0
  | (_, value) :: rest => max (nesting value) (nestingMembers rest)

end

def jsonValueMaxDepth : Nat := 16

/-- `validate_json_value(value) is None` of a value that was read from JSON. -/
def ValidJsonValue (value : Json.Value) : Prop :=
  nesting value ≤ jsonValueMaxDepth

instance : DecidablePred ValidJsonValue := fun _ => inferInstanceAs (Decidable (_ ≤ _))

/-- A Python dict of JSON values: its keys are distinct, and sorted when it is written. -/
structure JsonObject where
  members : List (String × Json.Value)
  wellFormed : (Json.Value.obj members).WellFormed

theorem wellFormed_emptyObject : (Json.Value.obj []).WellFormed :=
  ⟨List.Pairwise.nil, trivial⟩

def JsonObject.empty : JsonObject := ⟨[], wellFormed_emptyObject⟩

def JsonObject.value (object : JsonObject) : Json.Value :=
  .obj object.members

/-- `canonical_json_text` of a dict. -/
def JsonObject.text (object : JsonObject) : String :=
  Json.canonicalText object.value

theorem JsonReader.loads_text (reader : JsonReader) (object : JsonObject) :
    reader.loads object.text = some object.value :=
  reader.loads_canonicalText object.wellFormed

end NervOS
