/-
The Gemini adapter: the contents of a request and the normalization of a response, with the
signatures that one instance keeps between calls.  The entries of an `AList` stand newest
first, so the oldest are its last.
-/
import Mathlib.Data.List.AList
import NervOS.Application.ModelCompletion

namespace NervOS.Gemini

def providerId : String := "gemini"

def maxPendingSignatures : Nat := 2048

structure FunctionCall where
  id : Option String
  name : Option String
  args : Option JsonObject

/-- A part of a candidate; `unsupported` is a part of another kind, or one with a field that
the adapter does not accept. -/
structure Part where
  unsupported : Bool := false
  thought : Bool := false
  text : Option String := none
  functionCall : Option FunctionCall := none
  thoughtSignature : Option String := none

/-- What the adapter keeps of a call until its result was sent. -/
structure SignatureEntry where
  providerCallId : Option String
  signature : Option String
  functionName : String
  thoughts : List Part

/-- `OrderedDict[str, …]`. -/
abbrev Signatures := AList fun _ : String => SignatureEntry

/-- Assign a key and move it to the end. -/
def remember (staged : String × SignatureEntry) (signatures : Signatures) : Signatures :=
  signatures.insert staged.1 staged.2

/-- Drop the oldest entries beyond the bound. -/
def evict (signatures : Signatures) : Signatures where
  entries := signatures.entries.take maxPendingSignatures
  nodupKeys := signatures.nodupKeys.sublist (List.take_sublist _ _)

inductive WirePart where
  | text (text : String)
  | thought (part : Part)
  | functionCall (id : Option String) (name : String) (args : Json.Value)
      (thoughtSignature : Option String)
  | functionResponse (id : Option String) (name : String) (response : Json.Value)

structure Content where
  role : MessageRole
  parts : List WirePart

def decodeArguments (reader : JsonReader) (argumentsJson : String) :
    Except ModelProviderError Json.Value :=
  match reader.loads argumentsJson with
  | some (.obj members) =>
    if ValidJsonValue (.obj members) then .ok (.obj members)
    else .error (responseInvalid none)
  | _ => .error (responseInvalid none)

def responsePayload (turn : ToolResultTurn) : Json.Value :=
  if turn.isError then .obj [("error", .str turn.text)]
  else
    match turn.structured with
    | some (.obj members) => .obj members
    | _ => .obj [("result", .str turn.text)]

def resultPart (signatures : Signatures) (turn : ToolResultTurn) :
    Except ModelProviderError WirePart :=
  match signatures.lookup turn.callId with
  | none => .error (responseInvalid none)
  | some entry =>
    if entry.functionName = "" then .error (responseInvalid none)
    else .ok (.functionResponse entry.providerCallId entry.functionName (responsePayload turn))

def callParts (reader : JsonReader) (signatures : Signatures) (call : ToolCall) :
    Except ModelProviderError (List WirePart) := do
  let entry := (signatures.lookup call.callId).getD ⟨some call.callId, none, call.name, []⟩
  let args ← decodeArguments reader call.argumentsJson
  return entry.thoughts.map .thought ++
    [.functionCall entry.providerCallId call.name args entry.signature]

def callsParts (reader : JsonReader) (signatures : Signatures) :
    List ToolCall → Except ModelProviderError (List WirePart)
  | [] => .ok []
  | call :: calls => do
    let parts ← callParts reader signatures call
    let rest ← callsParts reader signatures calls
    return parts ++ rest

def assistantParts (reader : JsonReader) (signatures : Signatures) (turn : AssistantTurn) :
    Except ModelProviderError (List WirePart) := do
  let calls ← callsParts reader signatures turn.toolCalls
  let parts := (if turn.text = "" then [] else [.text turn.text]) ++ calls
  if parts.isEmpty then .error (responseInvalid none) else return parts

/-- The results that wait for the next assistant turn, as one user content. -/
def flush (pending : List WirePart) : List Content :=
  if pending.isEmpty then [] else [⟨.user, pending⟩]

def turnContents (reader : JsonReader) (signatures : Signatures) : List WirePart →
    List ConversationTurn → Except ModelProviderError (List Content)
  | pending, [] => .ok (flush pending)
  | pending, .assistant turn :: turns => do
    let parts ← assistantParts reader signatures turn
    let contents ← turnContents reader signatures [] turns
    return flush pending ++ ⟨.assistant, parts⟩ :: contents
  | pending, .toolResult turn :: turns => do
    let part ← resultPart signatures turn
    turnContents reader signatures (pending ++ [part]) turns

def openingContent (message : MessageRole × String) : Content :=
  ⟨message.1, [.text message.2]⟩

/-- `_contents`. -/
def contents (reader : JsonReader) (signatures : Signatures) (request : ModelRequest) :
    Except ModelProviderError (List Content) := do
  let turns ← turnContents reader signatures [] request.turns
  return request.openingMessages.map openingContent ++ turns

structure Candidate where
  finishReason : Option String
  role : Option String
  parts : Option (List Part)

structure Response where
  responseId : Option String := none
  blockReason : Option String := none
  candidates : Option (List Candidate)
  usage : Option UsageReport := none

def stopReasons : List (String × StopOutcome) :=
  [("STOP", .stop), ("MAX_TOKENS", .incomplete), ("SAFETY", .refused), ("RECITATION", .refused),
    ("LANGUAGE", .refused), ("BLOCKLIST", .refused), ("PROHIBITED_CONTENT", .refused),
    ("SPII", .refused), ("IMAGE_SAFETY", .refused), ("IMAGE_PROHIBITED_CONTENT", .refused),
    ("IMAGE_RECITATION", .refused), ("IMAGE_OTHER", .refused),
    ("MALFORMED_FUNCTION_CALL", .invalid), ("UNEXPECTED_TOOL_CALL", .invalid),
    ("NO_IMAGE", .invalid), ("OTHER", .invalid)]

def usage (response : Response) : Option ModelUsage :=
  response.usage.map fun report =>
    { inputTokens := tokenCount report.inputTokens
      outputTokens := tokenCount report.outputTokens
      totalTokens := tokenCount report.totalTokens }

def finishReason (raw : Option String) : Except ModelProviderError StopOutcome :=
  match raw.bind fun reason => stopReasons.lookup reason with
  | some outcome => .ok outcome
  | none => .error (responseInvalid none)

def generatedCallId (sha256Hex : String → String) (response : Response) (index : Nat)
    (name argumentsJson : String) : String :=
  "gemini-" ++ String.ofList ((sha256Hex (response.responseId.getD "" ++ "\x00" ++
    toString index ++ "\x00" ++ name ++ "\x00" ++ argumentsJson)).toList.take 48)

structure Inspected where
  texts : List String := []
  calls : List ToolCall := []
  staged : List (String × SignatureEntry) := []

variable (sha256Hex : String → String) (response : Response)

def stageCall (index : Nat) (part : Part) (call : FunctionCall) (thoughts : List Part) :
    Except ModelProviderError (String × SignatureEntry × ToolCall) :=
  match call.name, call.args with
  | some name, some args =>
    if name = "" ∨ ¬ ValidJsonValue args.value then .error (responseInvalid (usage response))
    else
      let providerCallId := call.id.filter (· ≠ "")
      let correlationId :=
        providerCallId.getD (generatedCallId sha256Hex response index name args.text)
      .ok (correlationId, ⟨providerCallId, part.thoughtSignature, name, thoughts⟩,
        ⟨correlationId, name, args.text⟩)
  | _, _ => .error (responseInvalid (usage response))

def inspectParts (toolsEnabled : Bool) (signatures : Signatures) :
    Nat → List Part → List Part → Inspected → Except ModelProviderError Inspected
  | _, _, [], inspected => .ok inspected
  | index, thoughts, part :: parts, inspected =>
    if part.unsupported then .error (responseInvalid (usage response))
    else
      match part.functionCall, part.text with
      | none, some text =>
        if part.thought then
          inspectParts toolsEnabled signatures (index + 1) (thoughts ++ [part]) parts inspected
        else
          inspectParts toolsEnabled signatures (index + 1) thoughts parts
            { inspected with texts := inspected.texts ++ [text] }
      | some call, none =>
        if toolsEnabled = false then .error (responseInvalid (usage response))
        else do
          let (correlationId, entry, toolCall) ←
            stageCall sha256Hex response index part call thoughts
          if correlationId ∈ signatures ∨ correlationId ∈ inspected.staged.map Prod.fst then
            .error (responseInvalid (usage response))
          else
            inspectParts toolsEnabled signatures (index + 1) [] parts
              { inspected with
                calls := inspected.calls ++ [toolCall]
                staged := inspected.staged ++ [(correlationId, entry)] }
      | some _, some _ | none, none => .error (responseInvalid (usage response))

/-- The end of `_normalized_response`: the signatures are kept for a tool turn only. -/
def concluded (modelName : String) (signatures : Signatures) (outcome : StopOutcome)
    (inspected : Inspected) : Except ModelProviderError ModelResponse × Signatures :=
  if outcome = .refused then (.error ⟨modelRefused, (usage response).getD {}⟩, signatures)
  else if outcome = .invalid then (.error (responseInvalid (usage response)), signatures)
  else if outcome = .incomplete then
    (.ok ⟨"", providerId, modelName, outcome, usage response, []⟩, signatures)
  else if inspected.calls ≠ [] then
    (.ok ⟨"".intercalate inspected.texts, providerId, modelName, .toolUse, usage response,
      inspected.calls⟩,
      evict (inspected.staged.foldl (fun signatures staged => remember staged signatures)
        signatures))
  else if ("".intercalate inspected.texts).toList.all isPythonSpace then
    (.error (responseInvalid (usage response)), signatures)
  else
    (.ok ⟨"".intercalate inspected.texts, providerId, modelName, .stop, usage response, []⟩,
      signatures)

def soleCandidate : Except ModelProviderError (StopOutcome × Option (List Part)) :=
  if response.blockReason.any fun reason =>
      reason ≠ "BLOCK_REASON_UNSPECIFIED" ∧ reason ≠ "UNSPECIFIED" then
    .error ⟨modelRefused, (usage response).getD {}⟩
  else
    match response.candidates with
    | some [candidate] => do
      let outcome ← finishReason candidate.finishReason
      if candidate.role ≠ some "model" then .error (responseInvalid (usage response))
      else return (outcome, candidate.parts)
    | _ => .error (responseInvalid (usage response))

/-- `_normalized_response`. -/
def normalizedResponse (modelName : String) (toolsEnabled : Bool) (signatures : Signatures) :
    Except ModelProviderError ModelResponse × Signatures :=
  match soleCandidate response with
  | .error error => (.error error, signatures)
  | .ok (outcome, none) =>
    if outcome = .refused then
      (.ok ⟨"", providerId, modelName, outcome, usage response, []⟩, signatures)
    else (.error (responseInvalid (usage response)), signatures)
  | .ok (outcome, some parts) =>
    match inspectParts sha256Hex response toolsEnabled signatures 0 [] parts {} with
    | .error error => (.error error, signatures)
    | .ok inspected => concluded response modelName signatures outcome inspected

/-- `_release_signatures`: the entries of the results that a request carried. -/
def releaseSignatures (turns : List ConversationTurn) (signatures : Signatures) : Signatures :=
  turns.foldl (fun signatures turn =>
    match turn with
    | .assistant _ => signatures
    | .toolResult turn => signatures.erase turn.callId) signatures

/-- What `complete` makes of a received response. -/
def received (request : ModelRequest) (signatures : Signatures) :
    Except ModelProviderError ModelResponse × Signatures :=
  normalizedResponse sha256Hex response request.modelName (! request.tools.isEmpty)
    (releaseSignatures request.turns signatures)

end NervOS.Gemini
