/-
The tool turns of the three providers: how each spells a completed turn on its own wire, what its
adapter makes of that turn, and which completed turns reach the tool loop.
-/
import NervOS.Models.Adapters
import NervOS.Relational.Fallible

namespace NervOS

open Relational

/-- One local function call, whoever made it. -/
structure LogicalCall where
  callId : String
  name : String
  arguments : JsonObject

structure LogicalTurn where
  calls : List LogicalCall
  identified : ∀ call ∈ calls, call.callId ≠ ""
  distinct : (calls.map (·.callId)).Nodup
  bounded : ∀ call ∈ calls, ValidJsonValue call.arguments.value

structure LogicalCall.Neutral (reader : JsonReader) (call : LogicalCall) (neutral : ToolCall) :
    Prop where
  callId : neutral.callId = call.callId
  name : neutral.name = call.name
  arguments : reader.loads neutral.argumentsJson = some call.arguments.value

def LogicalCall.canonical (call : LogicalCall) : ToolCall :=
  ⟨call.callId, call.name, call.arguments.text⟩

theorem LogicalCall.neutral_canonical (reader : JsonReader) (call : LogicalCall) :
    call.Neutral reader call.canonical :=
  ⟨rfl, rfl, reader.loads_text call.arguments⟩

theorem forall₂_canonical (reader : JsonReader) (calls : List LogicalCall) :
    List.Forall₂ (LogicalCall.Neutral reader) calls (calls.map (·.canonical)) := by
  induction calls with
  | nil => exact .nil
  | cons call calls ih => exact .cons (call.neutral_canonical reader) ih

def ReachesLoop (reader : JsonReader) (calls : List LogicalCall)
    (result : Except ModelProviderError ModelResponse) : Prop :=
  if calls = [] then ∀ response, result = .ok response → response.finishReason = .stop
  else
    ∃ response, result = .ok response ∧ ToolLoop.validateTurnShape response = .ok () ∧
      List.Forall₂ (LogicalCall.Neutral reader) calls response.toolCalls

theorem ToolLoop.validateTurnShape_eq_ok {response : ModelResponse} :
    ToolLoop.validateTurnShape response = .ok () ↔
      (response.finishReason = .toolUse ↔ response.toolCalls ≠ []) := by
  rw [ToolLoop.validateTurnShape]
  split_ifs with hshape
  · exact iff_of_true rfl hshape
  · exact iff_of_false nofun hshape

theorem ToolLoop.registerCallIds_congr {left right : List ToolCall}
    (h : left.map (·.callId) = right.map (·.callId)) (state : LoopState) :
    ToolLoop.registerCallIds left state = ToolLoop.registerCallIds right state := by
  have hmap (calls : List ToolCall) :
      (∀ call ∈ calls, isValidProviderCallId call.callId = true ∧
        call.callId ∉ state.seenCallIds) ↔
      ∀ callId ∈ calls.map (·.callId), isValidProviderCallId callId = true ∧
        callId ∉ state.seenCallIds := by
    simp
  simp only [ToolLoop.registerCallIds, hmap, h]

theorem LogicalCall.map_callId {reader : JsonReader} {calls : List LogicalCall}
    {neutral : List ToolCall} (h : List.Forall₂ (LogicalCall.Neutral reader) calls neutral) :
    neutral.map (·.callId) = calls.map (·.callId) := by
  induction h with
  | nil => rfl
  | cons hcall _ ih => rw [List.map_cons, List.map_cons, hcall.callId, ih]

namespace OpenAI

variable (reader : JsonReader)

inductive Spells : List Item → List LogicalCall → Prop
  | nil : Spells [] []
  | reasoning (item : Item) {items : List Item} {calls : List LogicalCall}
      (hitem : item.type = some "reasoning") (h : Spells items calls) :
      Spells (item :: items) calls
  | message (item : Item) (parts : List Part) {items : List Item} {calls : List LogicalCall}
      (hitem : item.type = some "message" ∧ item.role = some "assistant" ∧
        item.content = some parts)
      (hparts : ∀ part ∈ parts, part.type = some "output_text" ∧ part.text.isSome)
      (h : Spells items calls) : Spells (item :: items) calls
  | call (item : Item) (call : LogicalCall) (arguments : String) {items : List Item}
      {calls : List LogicalCall} (hitem : item.type = some "function_call" ∧
        item.callId = some call.callId ∧ item.name = some call.name ∧
        item.arguments = some arguments)
      (harguments : reader.loads arguments = some call.arguments.value)
      (h : Spells items calls) : Spells (item :: items) (call :: calls)

structure Completed (calls : List LogicalCall) (response : Response) : Prop where
  failed : response.failed = false
  status : response.status = some "completed"
  output : ∃ items, response.output = some items ∧ Spells reader items calls

variable {request : ModelRequest} {response : Response} {result : ModelResponse}

theorem received_outcome (h : received request response = .ok result) :
    outcome response = .ok result.finishReason := by
  rw [received, withUsage, mapError_eq_ok, normalizedResponse] at h
  split_ifs at h
  obtain ⟨stopOutcome, houtcome, h⟩ := bind_eq_ok.mp h
  obtain ⟨⟨refused, text, calls⟩, -, h⟩ := bind_eq_ok.mp h
  dsimp only at h
  split_ifs at h
  all_goals
    obtain rfl := Except.ok.inj h
    exact houtcome

theorem received_finishReason (hstatus : response.status = some "completed")
    (h : received request response = .ok result) : result.finishReason = .stop := by
  have houtcome := received_outcome h
  rw [outcome, if_pos hstatus] at houtcome
  exact (Except.ok.inj houtcome).symm

theorem received_finishReason_ne (h : received request response = .ok result) :
    result.finishReason ≠ .toolUse := by
  have houtcome := received_outcome h
  rw [outcome] at houtcome
  split_ifs at houtcome
  all_goals
    rw [← Except.ok.inj houtcome]
    decide

theorem reachesLoop_iff {calls : List LogicalCall} (hcompleted : Completed reader calls response) :
    ReachesLoop reader calls (received request response) ↔ calls = [] := by
  have hstop : ∀ result, received request response = .ok result →
      result.finishReason = .stop :=
    fun result h => received_finishReason hcompleted.status h
  rw [ReachesLoop]
  split_ifs with hcalls
  · exact iff_of_true hstop hcalls
  · refine iff_of_false ?_ hcalls
    rintro ⟨result, hresult, hshape, hneutral⟩
    -- The calls are there, but the finish reason is that of an answer.
    have hnone : ¬ result.toolCalls ≠ [] := by
      intro htool
      have h := (ToolLoop.validateTurnShape_eq_ok.mp hshape).mpr htool
      rw [hstop result hresult] at h
      cases h
    rw [not_not.mp hnone] at hneutral
    exact hcalls (List.forall₂_nil_right_iff.mp hneutral)

end OpenAI

namespace Anthropic

inductive Spells : List Block → List LogicalCall → Prop
  | nil : Spells [] []
  | text (block : Block) (text : String) {blocks : List Block} {calls : List LogicalCall}
      (hblock : block.type = some "text" ∧ block.text = some text) (h : Spells blocks calls) :
      Spells (block :: blocks) calls
  | thinking (block : Block) {blocks : List Block} {calls : List LogicalCall}
      (hblock : block.type = some "thinking" ∨ block.type = some "redacted_thinking")
      (h : Spells blocks calls) : Spells (block :: blocks) calls
  | call (block : Block) (call : LogicalCall) {blocks : List Block} {calls : List LogicalCall}
      (hblock : block.type = some "tool_use" ∧ block.id = some call.callId ∧
        block.name = some call.name ∧ block.input = some call.arguments)
      (h : Spells blocks calls) : Spells (block :: blocks) (call :: calls)

structure Completed (calls : List LogicalCall) (message : Message) : Prop where
  stopReason : message.stopReason = some "end_turn" ∨ message.stopReason = some "tool_use"
  content : ∃ blocks, message.content = some blocks ∧ Spells blocks calls
  model : ∃ name, message.model = some name ∧ name.toList.all isPythonSpace = false

def AgreesWith (calls : List LogicalCall) (message : Message) : Prop :=
  if calls = [] then
    message.stopReason = some "end_turn" ∨
      ∀ block ∈ message.content.getD [], block.type ≠ some "text"
  else message.stopReason = some "tool_use"

variable {calls : List LogicalCall}

theorem inspectBlocks_of_spells {blocks : List Block} (h : Spells blocks calls) :
    ∃ texts, inspectBlocks true blocks = .ok (texts, calls.map (·.canonical)) ∧
      (texts = [] ↔ ∀ block ∈ blocks, block.type ≠ some "text") := by
  induction h with
  | nil => exact ⟨[], rfl, by simp⟩
  | text block text hblock h ih =>
    obtain ⟨texts, hinspect, -⟩ := ih
    refine ⟨text :: texts, ?_, by simp [hblock.1]⟩
    rw [inspectBlocks, if_pos hblock.1, hblock.2]
    simp [hinspect, bind, Except.bind, pure, Except.pure]
  | thinking block hblock h ih =>
    obtain ⟨texts, hinspect, htexts⟩ := ih
    have htype : block.type ≠ some "text" := by
      rcases hblock with hblock | hblock <;> simp [hblock]
    refine ⟨texts, ?_, by simp [htexts, htype]⟩
    rw [inspectBlocks, if_neg htype, if_pos hblock]
    exact hinspect
  | call block call hblock h ih =>
    obtain ⟨texts, hinspect, htexts⟩ := ih
    obtain ⟨htype, hid, hname, hinput⟩ := hblock
    refine ⟨texts, ?_, by simp [htexts, htype]⟩
    have hcall : toolCall block = .ok call.canonical := by
      simp [toolCall, hid, hname, hinput, LogicalCall.canonical]
    rw [inspectBlocks, if_neg (by simp [htype]), if_neg (by simp [htype]),
      if_pos ⟨htype, rfl⟩]
    simp [hcall, hinspect, bind, Except.bind, pure, Except.pure]

theorem received_of_completed {request : ModelRequest} {message : Message}
    (hcompleted : Completed calls message) (htools : request.tools ≠ []) :
    (calls = [] ∧ (∀ block ∈ message.content.getD [], block.type ≠ some "text") ∧
        ∀ result, received request message ≠ .ok result) ∨
      ∃ result, received request message = .ok result ∧
        result.toolCalls = calls.map (·.canonical) ∧
        (calls = [] → ¬ ∀ block ∈ message.content.getD [], block.type ≠ some "text") ∧
        result.finishReason =
          if message.stopReason = some "end_turn" then .stop else .toolUse := by
  obtain ⟨blocks, hblocks, hspells⟩ := hcompleted.content
  obtain ⟨name, hmodel, hname⟩ := hcompleted.model
  obtain ⟨texts, hinspect, htexts⟩ := inspectBlocks_of_spells hspells
  have henabled : (! request.tools.isEmpty) = true := by simp [htools]
  by_cases hempty : texts = [] ∧ calls = []
  · left
    rw [hblocks]
    refine ⟨hempty.2, htexts.mp hempty.1, fun result h => ?_⟩
    rw [received, OpenAI.withUsage, mapError_eq_ok, normalizedResponse, henabled,
      contentBlocks, hblocks] at h
    simp [hinspect, hempty, bind, Except.bind] at h
  · right
    have hcontent : contentBlocks message true =
        .ok ("".intercalate texts, calls.map (·.canonical)) := by
      simp [contentBlocks, hblocks, hinspect, hempty, bind, Except.bind, pure, Except.pure]
    have houtcome : finishOutcome message =
        .ok (if message.stopReason = some "end_turn" then .stop else .toolUse) := by
      have hend : stopOutcomes.lookup "end_turn" = some .stop := rfl
      have htool : stopOutcomes.lookup "tool_use" = some .toolUse := rfl
      rcases hcompleted.stopReason with hstop | hstop <;>
        simp [finishOutcome, hstop, hend, htool]
    have hopaque : opaqueModelName message = .ok name := by
      simp [opaqueModelName, hmodel, hname]
    refine ⟨⟨"".intercalate texts, providerId, name,
      if message.stopReason = some "end_turn" then .stop else .toolUse, usage message,
      calls.map (·.canonical)⟩, ?_, rfl, ?_, rfl⟩
    · rw [received, OpenAI.withUsage, mapError_eq_ok, normalizedResponse, henabled]
      simp [hcontent, houtcome, hopaque, bind, Except.bind, pure, Except.pure]
    · rw [hblocks]
      exact fun hcalls htext => hempty ⟨htexts.mpr htext, hcalls⟩

theorem reachesLoop_iff (reader : JsonReader) {request : ModelRequest} {message : Message}
    (hcompleted : Completed calls message) (htools : request.tools ≠ []) :
    ReachesLoop reader calls (received request message) ↔ AgreesWith calls message := by
  obtain ⟨hcalls, htext, herror⟩ | ⟨result, hresult, htool, htext, hreason⟩ :=
    received_of_completed hcompleted htools
  · simp only [ReachesLoop, AgreesWith, if_pos hcalls]
    exact iff_of_true (fun result h => absurd h (herror result)) (Or.inr htext)
  · have hend : message.stopReason = some "end_turn" ↔
        ¬ message.stopReason = some "tool_use" := by
      rcases hcompleted.stopReason with h | h <;> simp [h]
    by_cases hcalls : calls = []
    · simp only [ReachesLoop, AgreesWith, if_pos hcalls, hresult, Except.ok.injEq,
        forall_eq', hreason, or_iff_left (htext hcalls)]
      split_ifs with hstop <;> simp [hstop]
    · simp only [ReachesLoop, AgreesWith, if_neg hcalls, hresult, Except.ok.injEq,
        exists_eq_left', ToolLoop.validateTurnShape_eq_ok, htool, hreason]
      constructor
      · rintro ⟨hshape, -⟩
        by_contra htool
        rw [if_pos (hend.mpr htool)] at hshape
        simpa using hshape.mpr (by simpa using hcalls)
      · intro htool
        rw [if_neg fun h => hend.mp h htool]
        exact ⟨iff_of_true rfl (by simpa using hcalls), forall₂_canonical reader calls⟩

end Anthropic

namespace Gemini

inductive Spells : List Part → List LogicalCall → Prop
  | nil : Spells [] []
  | thought (part : Part) (text : String) {parts : List Part} {calls : List LogicalCall}
      (hpart : part.unsupported = false ∧ part.thought = true ∧ part.functionCall = none ∧
        part.text = some text)
      (h : Spells parts calls) : Spells (part :: parts) calls
  | text (part : Part) (text : String) {parts : List Part} {calls : List LogicalCall}
      (hpart : part.unsupported = false ∧ part.thought = false ∧ part.functionCall = none ∧
        part.text = some text)
      (h : Spells parts calls) : Spells (part :: parts) calls
  | call (part : Part) (call : LogicalCall) {parts : List Part} {calls : List LogicalCall}
      (hpart : part.unsupported = false ∧ part.text = none ∧
        part.functionCall = some ⟨some call.callId, some call.name, some call.arguments⟩)
      (h : Spells parts calls) : Spells (part :: parts) (call :: calls)

structure Completed (calls : List LogicalCall) (response : Response) : Prop where
  blockReason : response.blockReason = none
  candidate : ∃ parts, response.candidates = some [⟨some "STOP", some "model", some parts⟩] ∧
    Spells parts calls

/-- The adapter can keep a call apart from those that it still waits to hear of. -/
def Admits (signatures : Signatures) (call : LogicalCall) : Prop :=
  call.name ≠ "" ∧ call.callId ∉ signatures

instance (signatures : Signatures) : DecidablePred (Admits signatures) :=
  fun _ => inferInstanceAs (Decidable (_ ∧ _))

variable {sha256Hex : String → String} {response : Response} {signatures : Signatures}

theorem stageCall_eq {index : Nat} {part : Part} {thoughts : List Part} {call : LogicalCall}
    (hid : call.callId ≠ "") (hbounded : ValidJsonValue call.arguments.value) :
    stageCall sha256Hex response index part
        ⟨some call.callId, some call.name, some call.arguments⟩ thoughts =
      if call.name = "" then .error (responseInvalid (usage response))
      else
        .ok (call.callId, ⟨some call.callId, part.thoughtSignature, call.name, thoughts⟩,
          call.canonical) := by
  by_cases hname : call.name = ""
  · simp [stageCall, hname]
  · simp [stageCall, hname, hbounded, Option.filter, hid, LogicalCall.canonical]

theorem inspectParts_of_spells {parts : List Part} {calls : List LogicalCall}
    (h : Spells parts calls) (hid : ∀ call ∈ calls, call.callId ≠ "")
    (hbounded : ∀ call ∈ calls, ValidJsonValue call.arguments.value) {index : Nat}
    {thoughts : List Part} {inspected : Inspected}
    (hnodup : (inspected.staged.map Prod.fst ++ calls.map (·.callId)).Nodup) :
    if ∀ call ∈ calls, Admits signatures call then
      ∃ result,
        inspectParts sha256Hex response true signatures index thoughts parts inspected =
          .ok result ∧
        result.calls = inspected.calls ++ calls.map (·.canonical)
    else
      inspectParts sha256Hex response true signatures index thoughts parts inspected =
        .error (responseInvalid (usage response)) := by
  induction h generalizing index thoughts inspected with
  | nil => simp [inspectParts]
  | thought part text hpart h ih | text part text hpart h ih =>
    obtain ⟨hsupported, hthought, hcall, htext⟩ := hpart
    simp only [inspectParts, hsupported, hthought, hcall, htext]
    exact ih hid hbounded hnodup
  | @call part call parts calls hpart h ih =>
    obtain ⟨hsupported, htext, hcall⟩ := hpart
    obtain ⟨hid₁, hid⟩ := List.forall_mem_cons.mp hid
    obtain ⟨hbounded₁, hbounded⟩ := List.forall_mem_cons.mp hbounded
    have hstaged : call.callId ∉ inspected.staged.map Prod.fst := by
      intro hmem
      exact (List.nodup_append.mp hnodup).2.2 _ hmem _ List.mem_cons_self rfl
    simp only [inspectParts, hsupported, hcall, htext, stageCall_eq hid₁ hbounded₁,
      List.forall_mem_cons]
    by_cases hname : call.name = ""
    · simp [Admits, hname, bind, Except.bind]
    by_cases hpending : call.callId ∈ signatures
    · simp [Admits, hname, hpending, bind, Except.bind]
    have hnodup' : ((inspected.staged ++ [(call.callId, (⟨some call.callId,
        part.thoughtSignature, call.name, thoughts⟩ : SignatureEntry))]).map Prod.fst ++
          calls.map (·.callId)).Nodup := by
      simpa using hnodup
    have hrest := @ih hid hbounded (index + 1) [] { inspected with
      calls := inspected.calls ++ [call.canonical]
      staged := inspected.staged ++ [(call.callId, ⟨some call.callId,
        part.thoughtSignature, call.name, thoughts⟩)] } hnodup'
    by_cases hadmits : ∀ call ∈ calls, Admits signatures call
    · rw [if_pos hadmits] at hrest
      obtain ⟨result, hresult, hcalls⟩ := hrest
      rw [if_pos ⟨⟨hname, hpending⟩, hadmits⟩]
      refine ⟨result, ?_, by simpa using hcalls⟩
      simpa [hname, hpending, hstaged, bind, Except.bind] using hresult
    · rw [if_neg hadmits] at hrest
      rw [if_neg fun h => hadmits h.2]
      simpa [hname, hpending, hstaged, bind, Except.bind] using hrest

theorem concluded_finishReason {modelName : String} {inspected : Inspected}
    {result : ModelResponse} (hcalls : inspected.calls = [])
    (h : (concluded response modelName signatures .stop inspected).1 = .ok result) :
    result.finishReason = .stop := by
  rw [concluded, if_neg (by decide), if_neg (by decide), if_neg (by decide),
    if_neg (not_not.mpr hcalls)] at h
  split_ifs at h
  obtain rfl := Except.ok.inj h
  rfl

theorem reachesLoop_iff (reader : JsonReader) (turn : LogicalTurn) {request : ModelRequest}
    (hcompleted : Completed turn.calls response) (htools : request.tools ≠ []) :
    ReachesLoop reader turn.calls (received sha256Hex response request signatures).1 ↔
      ∀ call ∈ turn.calls, Admits (releaseSignatures request.turns signatures) call := by
  obtain ⟨parts, hcandidate, hspells⟩ := hcompleted.candidate
  have hsole : soleCandidate response = .ok (.stop, some parts) := by
    have hreason : finishReason (some "STOP") = .ok .stop := rfl
    simp [soleCandidate, hcompleted.blockReason, hcandidate, hreason, bind, Except.bind, pure,
      Except.pure]
  have henabled : (! request.tools.isEmpty) = true := by simp [htools]
  have hinspect := @inspectParts_of_spells sha256Hex response
    (releaseSignatures request.turns signatures) parts turn.calls hspells turn.identified
    turn.bounded 0 [] {} (by simpa using turn.distinct)
  by_cases hadmits : ∀ call ∈ turn.calls,
      Admits (releaseSignatures request.turns signatures) call
  · rw [if_pos hadmits] at hinspect
    obtain ⟨inspected, hinspected, hcalls⟩ := hinspect
    rw [List.nil_append] at hcalls
    simp only [received, normalizedResponse, hsole, henabled, hinspected]
    refine iff_of_true ?_ hadmits
    by_cases hnone : turn.calls = []
    · rw [ReachesLoop, if_pos hnone]
      intro result hresult
      exact concluded_finishReason (by simpa [hnone] using hcalls) hresult
    · rw [ReachesLoop, if_neg hnone]
      have htool : inspected.calls ≠ [] := by simpa [hcalls] using hnone
      simp only [concluded, reduceCtorEq, if_false, if_pos htool, Except.ok.injEq,
        exists_eq_left', ToolLoop.validateTurnShape_eq_ok]
      refine ⟨by simpa using htool, ?_⟩
      rw [hcalls]
      exact forall₂_canonical reader turn.calls
  · rw [if_neg hadmits] at hinspect
    simp only [received, normalizedResponse, hsole, henabled, hinspect]
    have hsome : turn.calls ≠ [] := by
      rintro hnone
      simp [hnone] at hadmits
    rw [ReachesLoop, if_neg hsome]
    refine iff_of_false ?_ hadmits
    rintro ⟨result, hresult, -⟩
    cases hresult

end Gemini

def sampleArguments : JsonObject where
  members := []
  wellFormed := ⟨List.Pairwise.nil, trivial⟩

def sampleCall : LogicalCall :=
  ⟨"a", "read", sampleArguments⟩

theorem sampleCall_usable :
    sampleCall.callId ≠ "" ∧ ValidJsonValue sampleCall.arguments.value := by
  decide

def sampleTurn : LogicalTurn where
  calls := [sampleCall]
  identified := List.forall_mem_singleton.mpr sampleCall_usable.1
  distinct := List.nodup_singleton _
  bounded := List.forall_mem_singleton.mpr sampleCall_usable.2

def sampleToolRequest : ModelRequest where
  systemInstruction := ""
  userText := "u"
  modelName := "m"
  maxOutputTokens := 1
  timeoutMs := 1
  tools := [⟨"read", "", .obj []⟩]

def sampleOpenAIResponse : OpenAI.Response where
  status := some "completed"
  output := some [
    { type := some "function_call", callId := some "a", name := some "read",
      arguments := some (sampleArguments.text) }]

def sampleAnthropicMessage : Anthropic.Message where
  content := some [
    { type := some "tool_use", id := some "a", name := some "read",
      input := some sampleArguments }]
  stopReason := some "tool_use"
  model := some "m"

def sampleGeminiResponse : Gemini.Response where
  candidates := some [⟨some "STOP", some "model",
    some [{ functionCall := some ⟨some "a", some "read", some sampleArguments⟩ }]⟩]

theorem sampleOpenAIResponse_completed :
    OpenAI.Completed canonicalReader sampleTurn.calls sampleOpenAIResponse :=
  ⟨rfl, rfl, _, rfl, .call _ _ _ ⟨rfl, rfl, rfl, rfl⟩
    (canonicalReader.loads_text sampleArguments) .nil⟩

/-- A completed turn, answering a request that offered tools, reaches the loop from OpenAI
exactly when it carries no call, from Anthropic when its stop reason agrees with its calls, and
from Gemini when every call is named and not of the id of one that the adapter still keeps.
Turns that reach it lead it to register the same calls. -/
theorem completed_turns_reachesLoop (reader : JsonReader) (sha256Hex : String → String)
    (signatures : Gemini.Signatures) (turn : LogicalTurn) (request : ModelRequest)
    (htools : request.tools ≠ []) :
    (∀ response, OpenAI.Completed reader turn.calls response →
      (ReachesLoop reader turn.calls (OpenAI.received request response) ↔ turn.calls = [])) ∧
    (∀ message, Anthropic.Completed turn.calls message →
      (ReachesLoop reader turn.calls (Anthropic.received request message) ↔
        Anthropic.AgreesWith turn.calls message)) ∧
    (∀ response, Gemini.Completed turn.calls response →
      (ReachesLoop reader turn.calls
          (Gemini.received sha256Hex response request signatures).1 ↔
        ∀ call ∈ turn.calls,
          Gemini.Admits (Gemini.releaseSignatures request.turns signatures) call)) ∧
    (turn.calls ≠ [] → ∀ left right : ModelResponse, ReachesLoop reader turn.calls (.ok left) →
      ReachesLoop reader turn.calls (.ok right) → ∀ state,
        ToolLoop.registerCallIds left.toolCalls state =
          ToolLoop.registerCallIds right.toolCalls state) := by
  refine ⟨fun response => OpenAI.reachesLoop_iff reader,
    fun message hcompleted => Anthropic.reachesLoop_iff reader hcompleted htools,
    fun response hcompleted => Gemini.reachesLoop_iff reader turn hcompleted htools, ?_⟩
  intro hcalls left right hleft hright state
  rw [ReachesLoop, if_neg hcalls] at hleft hright
  simp only [Except.ok.injEq, exists_eq_left'] at hleft hright
  exact ToolLoop.registerCallIds_congr
    ((LogicalCall.map_callId hleft.2).trans (LogicalCall.map_callId hright.2).symm) state

/-- One call, from each of the three: only two of the turns reach the loop. -/
theorem completed_turns_reachesLoop_sampleTurn :
    ¬ ReachesLoop canonicalReader sampleTurn.calls
      (OpenAI.received sampleToolRequest sampleOpenAIResponse) ∧
    ReachesLoop canonicalReader sampleTurn.calls
      (Anthropic.received sampleToolRequest sampleAnthropicMessage) ∧
    ReachesLoop canonicalReader sampleTurn.calls
      (Gemini.received id sampleGeminiResponse sampleToolRequest ∅).1 := by
  obtain ⟨hopenai, hanthropic, hgemini, -⟩ := completed_turns_reachesLoop canonicalReader id ∅
    sampleTurn sampleToolRequest (List.cons_ne_nil _ _)
  refine ⟨?_, ?_, ?_⟩
  · rw [hopenai _ sampleOpenAIResponse_completed]
    exact List.cons_ne_nil _ _
  · rw [hanthropic _ ⟨Or.inr rfl, ⟨_, rfl, .call _ _ ⟨rfl, rfl, rfl, rfl⟩ .nil⟩,
      ⟨"m", rfl, by decide⟩⟩]
    exact rfl
  · rw [hgemini _ ⟨rfl, _, rfl, .call _ _ ⟨rfl, rfl, rfl⟩ .nil⟩]
    intro call hcall
    rw [List.mem_singleton.mp hcall]
    exact ⟨by decide, AList.notMem_empty _⟩

/-- A completed OpenAI turn with one call is normalized as a turn that stopped, and the loop
refuses it. -/
theorem completed_turns_reachesLoop_refused :
    ¬ ∀ response, OpenAI.Completed canonicalReader sampleTurn.calls response →
      ReachesLoop canonicalReader sampleTurn.calls
        (OpenAI.received sampleToolRequest response) := by
  intro h
  obtain ⟨result, hresult, hshape, -⟩ := h sampleOpenAIResponse sampleOpenAIResponse_completed
  obtain rfl := Except.ok.inj hresult
  cases hshape

end NervOS
