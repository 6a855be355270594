/-
The conversations that the adapters render: which failures they report, what each keeps along a
loop, and what is to be read off its wire.
-/
import NervOS.Refinement.Signatures
import NervOS.Refinement.ToolLoop
import NervOS.Guarantees.ToolTurns

namespace NervOS

open Relational

section Failures

variable {α β : Type}

/-- A computation that does not report a rate limit. -/
def NotRateLimited (outcome : Except ModelProviderError α) : Prop :=
  ∀ error, outcome = .error error → error.code ≠ modelRateLimited

theorem notRateLimited_ok (value : α) : NotRateLimited (.ok value) :=
  nofun

theorem notRateLimited_error {code : String} (h : code ≠ modelRateLimited) (usage : ModelUsage) :
    NotRateLimited (.error ⟨code, usage⟩ : Except ModelProviderError α) := by
  rintro _ ⟨⟩
  exact h

theorem notRateLimited_invalid (usage : Option ModelUsage) :
    NotRateLimited (.error (responseInvalid usage) : Except ModelProviderError α) :=
  notRateLimited_error (by decide) _

theorem NotRateLimited.bind {outcome : Except ModelProviderError α}
    {next : α → Except ModelProviderError β} (houtcome : NotRateLimited outcome)
    (hnext : ∀ value, NotRateLimited (next value)) : NotRateLimited (outcome >>= next) := by
  cases outcome with
  | error error =>
    rintro _ ⟨⟩
    exact houtcome error rfl
  | ok value => exact hnext value

theorem notRateLimited_ite {condition : Prop} [Decidable condition]
    {left right : Except ModelProviderError α} (hleft : NotRateLimited left)
    (hright : NotRateLimited right) :
    NotRateLimited (if condition then left else right) := by
  split_ifs
  · exact hleft
  · exact hright

end Failures

section Conversations

def ModelRequest.plainMessages (request : ModelRequest) : List (MessageRole × String) :=
  request.history.map (fun message => (message.role, message.content)) ++
    [(.user, request.userText)]

def textEvent {ρ : Type} (message : MessageRole × String) : WireEvent ρ :=
  .text message.1 message.2

variable {adapter : Adapter} {ρ : Type} (reader : JsonReader) (format : WireFormat adapter ρ)
  (original : String → Option String)

def callEvent (call : ToolCall) : WireEvent ρ :=
  .call .assistant (original call.callId) call.name (reader.loads call.argumentsJson)

def resultEvent (answer : ToolCall × ToolResultTurn) : WireEvent ρ :=
  .result .user (original answer.1.callId) (format.resultName answer.1) (format.payload answer.2)

def proseEvents (text : String) : List (WireEvent ρ) :=
  if text = "" then [] else [.text .assistant text]

def Round.events (round : Round) : List (WireEvent ρ) :=
  proseEvents round.text ++ round.calls.map (callEvent reader original) ++
    round.answers.map (resultEvent format original)

def Continues (request : ModelRequest)
    (rendered : Except ModelProviderError adapter.Wire) : Prop :=
  ∃ (wire : adapter.Wire) (rounds : List Round) (original : String → Option String)
    (before after : List (MessageRole × String)) (text : String),
    rendered = .ok wire ∧ request.turns = rounds.flatMap (·.turns) ∧
    (∀ round ∈ rounds, ∀ call ∈ round.calls, format.Original call.callId (original call.callId)) ∧
    request.plainMessages = before ++ (.user, text) :: after ∧
    format.events wire =
      (before ++ (.user, prefixed request.contextPrefix text) :: after).map textEvent ++
        rounds.flatMap (·.events reader format original)

theorem openingMessages_prefixed (request : ModelRequest) :
    ∃ before text after, request.plainMessages = before ++ (.user, text) :: after ∧
      request.openingMessages =
        before ++ (.user, prefixed request.contextPrefix text) :: after := by
  rw [ModelRequest.plainMessages, ModelRequest.openingMessages]
  match request.history with
  | [] => exact ⟨[], _, [], rfl, rfl⟩
  | ⟨_, _, _, .user, content⟩ :: rest => exact ⟨[], content, _, rfl, rfl⟩
  | ⟨sequence, _, _, .assistant, content⟩ :: rest => exact ⟨_, _, [], rfl, rfl⟩

theorem Continues.of_events {request : ModelRequest} {rounds : List Round} {wire : adapter.Wire}
    {rendered : Except ModelProviderError adapter.Wire} (hwire : rendered = .ok wire)
    (hturns : request.turns = rounds.flatMap (·.turns))
    (horiginal : ∀ round ∈ rounds, ∀ call ∈ round.calls,
      format.Original call.callId (original call.callId))
    (hevents : format.events wire = request.openingMessages.map textEvent ++
      rounds.flatMap (·.events reader format original)) :
    Continues reader format request rendered := by
  obtain ⟨before, text, after, hplain, hopening⟩ := openingMessages_prefixed request
  exact ⟨wire, rounds, original, before, after, text, hwire, hturns, horiginal, hplain,
    hopening ▸ hevents⟩

end Conversations

namespace OpenAI

theorem notRateLimited_withUsage {usage : Option ModelUsage}
    {result : Except ModelProviderError ModelResponse} (h : NotRateLimited result) :
    NotRateLimited (withUsage usage result) := by
  cases result with
  | ok response => exact nofun
  | error error =>
    rintro _ ⟨⟩
    have hcode := h error rfl
    dsimp only
    split_ifs
    · exact hcode
    · exact hcode

theorem notRateLimited_inspectItems (toolsEnabled : Bool) (items : List Item) :
    NotRateLimited (inspectItems toolsEnabled items) := by
  induction items with
  | nil => exact notRateLimited_ok _
  | cons item items ih =>
    have hcall : NotRateLimited (toolCall item) := by
      rw [toolCall]
      split
      · exact notRateLimited_ok _
      · exact notRateLimited_invalid none
    rw [inspectItems]
    refine notRateLimited_ite ih (notRateLimited_ite ?_ (notRateLimited_ite ?_ ?_))
    · exact hcall.bind fun _ => ih.bind fun _ => notRateLimited_ok _
    · exact ih.bind fun _ => notRateLimited_ok _
    · exact notRateLimited_invalid none

theorem notRateLimited_inspectParts (parts : List Part) :
    NotRateLimited (inspectParts parts) := by
  induction parts with
  | nil => exact notRateLimited_ok _
  | cons part parts ih =>
    rw [inspectParts]
    refine notRateLimited_ite ?_ (notRateLimited_ite ?_ (notRateLimited_invalid none))
    · exact ih.bind fun _ => notRateLimited_ok _
    · cases part.text with
      | none => exact notRateLimited_invalid none
      | some text => exact ih.bind fun _ => notRateLimited_ok _

theorem notRateLimited_received (request : ModelRequest) (response : Response) :
    NotRateLimited (received request response) := by
  have houtcome : NotRateLimited (outcome response) := by
    rw [outcome]
    refine notRateLimited_ite (notRateLimited_ok _) (notRateLimited_ite
      (notRateLimited_error (by decide) _) (notRateLimited_ite (notRateLimited_ite
        (notRateLimited_ok _) (notRateLimited_ite (notRateLimited_ok _) ?_)) ?_))
    · exact notRateLimited_invalid none
    · exact notRateLimited_invalid none
  have hinspected (toolsEnabled : Bool) :
      NotRateLimited (inspectedOutput response toolsEnabled) := by
    rw [inspectedOutput]
    cases response.output with
    | none => exact notRateLimited_invalid none
    | some output =>
      refine (notRateLimited_inspectItems toolsEnabled output).bind fun inspected => ?_
      obtain ⟨_ | ⟨message, _ | ⟨_, _⟩⟩, _⟩ := inspected
      · exact notRateLimited_ok _
      · dsimp only
        split
        · exact (notRateLimited_inspectParts _).bind fun _ => notRateLimited_ok _
        · exact notRateLimited_invalid none
      · exact notRateLimited_invalid none
  refine notRateLimited_withUsage (notRateLimited_ite (notRateLimited_error (by decide) _) ?_)
  refine houtcome.bind fun _ => (hinspected _).bind fun _ => ?_
  refine notRateLimited_ite (notRateLimited_error (by decide) _) (notRateLimited_ite
    (notRateLimited_ok _) (notRateLimited_ite (notRateLimited_ite ?_ (notRateLimited_ok _))
      (notRateLimited_ok _)))
  exact notRateLimited_invalid _

variable (reader : JsonReader)

theorem notRateLimited_inputItems (request : ModelRequest) :
    NotRateLimited (inputItems reader request) := by
  have hjson (argumentsJson : String) : NotRateLimited (jsonText reader argumentsJson) := by
    rw [jsonText]
    cases reader.loads argumentsJson with
    | none => exact notRateLimited_invalid none
    | some value => exact notRateLimited_ok _
  have hcalls (calls : List ToolCall) : NotRateLimited (callItems reader calls) := by
    induction calls with
    | nil => exact notRateLimited_ok _
    | cons call calls ih =>
      exact (hjson call.argumentsJson).bind fun _ => ih.bind fun _ => notRateLimited_ok _
  have hturns (turns : List ConversationTurn) : NotRateLimited (turnItems reader turns) := by
    induction turns with
    | nil => exact notRateLimited_ok _
    | cons turn turns ih =>
      cases turn with
      | assistant turn =>
        exact (hcalls turn.toolCalls).bind fun _ => ih.bind fun _ => notRateLimited_ok _
      | toolResult turn => exact ih.bind fun _ => notRateLimited_ok _
  exact notRateLimited_ite (notRateLimited_ok _)
    ((hturns request.turns).bind fun _ => notRateLimited_ok _)

theorem adapter_decided : (adapter reader).Decided where
  render h := notRateLimited_inputItems reader _ _ h
  received h := notRateLimited_received _ _ _ (congrArg Prod.fst h)

theorem adapter_keeps (input : LoopInput) :
    (adapter reader).Keeps input fun _ turns _ => turns = [] where
  init := rfl
  asked _ _ hreceived hshape hcalls _ _ _ := by
    have hreason := (ToolLoop.validateTurnShape_eq_ok.mp hshape).mpr hcalls
    exact absurd hreason (received_finishReason_ne (congrArg Prod.fst hreceived))

theorem continues {request : ModelRequest} (hturns : request.turns = []) :
    Continues reader (format reader) request ((adapter reader).render () request) := by
  have hrender : (adapter reader).render () request = inputItems reader request := rfl
  rw [hrender, inputItems, hturns]
  split_ifs with hbare
  · obtain ⟨-, hhistory, hcompaction, huser, hagent⟩ := hbare
    refine @Continues.of_events _ _ reader (format reader) some request [] _ _ rfl hturns nofun ?_
    have hprefix : request.contextPrefix = none := by
      simp [ModelRequest.contextPrefix, presentText, hcompaction, huser, hagent]
    simp [format, ModelRequest.openingMessages, hhistory, hprefix, prefixed, textEvent]
  · refine @Continues.of_events _ _ reader (format reader) some request [] _ _ rfl hturns nofun ?_
    have hmessage (message : MessageRole × String) :
        itemEvent reader (messageItem message) = textEvent message := by
      obtain ⟨role, text⟩ := message
      cases role <;> rfl
    simp [format, hmessage]

end OpenAI

namespace Anthropic

theorem notRateLimited_inspectBlocks (toolsEnabled : Bool) (blocks : List Block) :
    NotRateLimited (inspectBlocks toolsEnabled blocks) := by
  induction blocks with
  | nil => exact notRateLimited_ok _
  | cons block blocks ih =>
    have hcall : NotRateLimited (toolCall block) := by
      rw [toolCall]
      split
      · exact notRateLimited_ok _
      · exact notRateLimited_invalid none
    rw [inspectBlocks]
    refine notRateLimited_ite ?_ (notRateLimited_ite ih (notRateLimited_ite ?_
      (notRateLimited_invalid none)))
    · cases block.text with
      | none => exact notRateLimited_invalid none
      | some text => exact ih.bind fun _ => notRateLimited_ok _
    · exact hcall.bind fun _ => ih.bind fun _ => notRateLimited_ok _

theorem notRateLimited_received (request : ModelRequest) (message : Message) :
    NotRateLimited (received request message) := by
  have hcontent (toolsEnabled : Bool) : NotRateLimited (contentBlocks message toolsEnabled) := by
    rw [contentBlocks]
    cases message.content with
    | none => exact notRateLimited_invalid none
    | some content =>
      refine (notRateLimited_inspectBlocks toolsEnabled content).bind fun _ => ?_
      exact notRateLimited_ite (notRateLimited_invalid none) (notRateLimited_ok _)
  have houtcome : NotRateLimited (finishOutcome message) := by
    rw [finishOutcome]
    split
    · exact notRateLimited_ok _
    · exact notRateLimited_invalid none
  have hmodel : NotRateLimited (opaqueModelName message) := by
    rw [opaqueModelName]
    cases message.model with
    | none => exact notRateLimited_invalid none
    | some name => exact notRateLimited_ite (notRateLimited_invalid none) (notRateLimited_ok _)
  refine OpenAI.notRateLimited_withUsage ((hcontent _).bind fun _ => houtcome.bind fun _ => ?_)
  exact notRateLimited_ite (notRateLimited_invalid none)
    (hmodel.bind fun _ => notRateLimited_ok _)

variable (reader : JsonReader)

theorem notRateLimited_messages (request : ModelRequest) :
    NotRateLimited (messages reader request) := by
  have hdecode (argumentsJson : String) :
      NotRateLimited (decodeArguments reader argumentsJson) := by
    rw [decodeArguments]
    cases reader.loads argumentsJson with
    | none => exact notRateLimited_invalid none
    | some value => exact notRateLimited_ok _
  have hcalls (calls : List ToolCall) : NotRateLimited (toolUseBlocks reader calls) := by
    induction calls with
    | nil => exact notRateLimited_ok _
    | cons call calls ih =>
      exact (hdecode call.argumentsJson).bind fun _ => ih.bind fun _ => notRateLimited_ok _
  have hturns (turns : List ConversationTurn) (pending : List WireBlock) :
      NotRateLimited (turnMessages reader pending turns) := by
    induction turns generalizing pending with
    | nil => exact notRateLimited_ok _
    | cons turn turns ih =>
      cases turn with
      | assistant turn =>
        have hcontent : NotRateLimited (assistantContent reader turn) :=
          (hcalls turn.toolCalls).bind fun _ => notRateLimited_ok _
        exact hcontent.bind fun _ => (ih []).bind fun _ => notRateLimited_ok _
      | toolResult turn => exact ih _
  exact (hturns request.turns []).bind fun _ => notRateLimited_ok _

theorem adapter_decided : (adapter reader).Decided where
  render h := notRateLimited_messages reader _ _ h
  received h := notRateLimited_received _ _ _ (congrArg Prod.fst h)

def Canonical (turn : AssistantTurn) : Prop :=
  ∀ call ∈ turn.toolCalls, ∃ arguments : JsonObject, call.argumentsJson = arguments.text

theorem inspectBlocks_canonical {toolsEnabled : Bool} {blocks : List Block}
    {inspected : List String × List ToolCall}
    (h : inspectBlocks toolsEnabled blocks = .ok inspected) :
    ∀ call ∈ inspected.2, ∃ arguments : JsonObject, call.argumentsJson = arguments.text := by
  induction blocks generalizing inspected with
  | nil =>
    obtain rfl := Except.ok.inj h
    exact nofun
  | cons block blocks ih =>
    rw [inspectBlocks] at h
    by_cases htext : block.type = some "text"
    · rw [if_pos htext] at h
      cases hcontent : block.text with
      | none =>
        rw [hcontent] at h
        cases h
      | some text =>
        rw [hcontent] at h
        obtain ⟨⟨texts, calls⟩, hrest, h⟩ := bind_eq_ok.mp h
        obtain rfl := Except.ok.inj h
        exact @ih (texts, calls) hrest
    rw [if_neg htext] at h
    by_cases hthinking :
        block.type = some "thinking" ∨ block.type = some "redacted_thinking"
    · rw [if_pos hthinking] at h
      exact ih h
    rw [if_neg hthinking] at h
    split_ifs at h
    obtain ⟨call, hcall, h⟩ := bind_eq_ok.mp h
    obtain ⟨⟨texts, calls⟩, hrest, h⟩ := bind_eq_ok.mp h
    obtain rfl := Except.ok.inj h
    refine List.forall_mem_cons.mpr ⟨?_, @ih (texts, calls) hrest⟩
    rw [toolCall] at hcall
    split at hcall
    · obtain rfl := Except.ok.inj hcall
      exact ⟨_, rfl⟩
    · cases hcall

theorem received_canonical {request : ModelRequest} {message : Message} {result : ModelResponse}
    (h : received request message = .ok result) : Canonical ⟨result.text, result.toolCalls⟩ := by
  rw [received, OpenAI.withUsage, mapError_eq_ok, normalizedResponse] at h
  obtain ⟨⟨text, calls⟩, hcontent, h⟩ := bind_eq_ok.mp h
  obtain ⟨stopOutcome, -, h⟩ := bind_eq_ok.mp h
  split_ifs at h
  obtain ⟨name, -, h⟩ := bind_eq_ok.mp h
  obtain rfl := Except.ok.inj h
  rw [contentBlocks] at hcontent
  cases hblocks : message.content with
  | none =>
    rw [hblocks] at hcontent
    cases hcontent
  | some content =>
    rw [hblocks] at hcontent
    obtain ⟨⟨texts, inspected⟩, hinspect, hcontent⟩ := bind_eq_ok.mp hcontent
    dsimp only at hcontent
    split_ifs at hcontent
    obtain ⟨-, rfl⟩ := Prod.mk.inj (Except.ok.inj hcontent)
    exact inspectBlocks_canonical hinspect

theorem adapter_keeps (input : LoopInput) :
    (adapter reader).Keeps input fun _ turns _ => ∀ turn ∈ turns, Canonical turn where
  init := nofun
  asked _ _ hreceived _ _ _ _ hkept := by
    intro turn hturn
    rcases List.mem_append.mp hturn with hold | hnew
    · exact hkept turn hold
    · rw [List.mem_singleton.mp hnew]
      exact received_canonical (congrArg Prod.fst hreceived)

variable (reader : JsonReader)

theorem toolUseBlocks_events {calls : List ToolCall}
    (h : ∀ call ∈ calls, ∃ arguments : JsonObject, call.argumentsJson = arguments.text) :
    ∃ blocks, toolUseBlocks reader calls = .ok blocks ∧
      blocks.map (blockEvent .assistant) = calls.map (callEvent reader some) := by
  induction calls with
  | nil => exact ⟨[], rfl, rfl⟩
  | cons call calls ih =>
    obtain ⟨⟨arguments, hcall⟩, hcalls⟩ := List.forall_mem_cons.mp h
    obtain ⟨blocks, hblocks, hevents⟩ := ih hcalls
    have hloads : reader.loads call.argumentsJson = some arguments.value := by
      rw [hcall]
      exact reader.loads_text arguments
    refine ⟨.toolUse call.callId call.name arguments.value :: blocks, ?_, ?_⟩
    · simp [toolUseBlocks, decodeArguments, hloads, hblocks, bind, Except.bind, pure,
        Except.pure]
    · simp [blockEvent, callEvent, hloads, hevents]

theorem turnMessages_results (answers : List (ToolCall × ToolResultTurn))
    (pending : List WireBlock) (turns : List ConversationTurn) :
    turnMessages reader pending (answers.map (fun answer => .toolResult answer.2) ++ turns) =
      turnMessages reader
        (pending ++ answers.map fun answer => toolResultBlock answer.2) turns := by
  induction answers generalizing pending with
  | nil => simp
  | cons answer answers ih =>
    rw [List.map_cons, List.cons_append, turnMessages, ih]
    simp

theorem flush_events (pending : List WireBlock) :
    (flush pending).flatMap messageEvents = pending.map (blockEvent .user) := by
  cases pending <;> simp [flush, messageEvents]

theorem turnMessages_events {rounds : List Round}
    (h : ∀ round ∈ rounds, Canonical ⟨round.text, round.calls⟩) (pending : List WireBlock) :
    ∃ messages, turnMessages reader pending (rounds.flatMap (·.turns)) = .ok messages ∧
      messages.flatMap messageEvents = pending.map (blockEvent .user) ++
        rounds.flatMap (·.events reader (format reader) some) := by
  induction rounds generalizing pending with
  | nil => exact ⟨flush pending, rfl, by simp [flush_events]⟩
  | cons round rounds ih =>
    obtain ⟨hround, hrounds⟩ := List.forall_mem_cons.mp h
    obtain ⟨blocks, hblocks, hcalls⟩ := toolUseBlocks_events reader hround
    obtain ⟨messages, hmessages, hevents⟩ := ih hrounds
      (round.answers.map fun answer => toolResultBlock answer.2)
    have hcontent : assistantContent reader ⟨round.text, round.calls⟩ =
        .ok ((if round.text = "" then [] else [.text round.text]) ++ blocks) := by
      simp only [assistantContent, hblocks]
      rfl
    have hresults : (round.answers.map fun answer => toolResultBlock answer.2).map
        (blockEvent .user) = round.answers.map (resultEvent (format reader) some) := by
      rw [List.map_map]
      refine List.map_congr_left fun answer hanswer => ?_
      rw [Function.comp_apply, toolResultBlock, blockEvent, resultEvent,
        round.addressed answer hanswer]
      rfl
    refine ⟨flush pending ++ .blocks .assistant
      ((if round.text = "" then [] else [.text round.text]) ++ blocks) :: messages, ?_, ?_⟩
    · rw [List.flatMap_cons, Round.turns, List.cons_append, turnMessages, hcontent]
      simp only [bind, Except.bind, turnMessages_results, List.nil_append, hmessages]
      rfl
    · rw [List.flatMap_append, List.flatMap_cons, flush_events, hevents, List.flatMap_cons,
        Round.events, hresults, messageEvents, List.map_append, hcalls, proseEvents]
      by_cases htext : round.text = "" <;> simp [htext, blockEvent]

theorem continues {request : ModelRequest} {rounds : List Round}
    (hturns : request.turns = rounds.flatMap (·.turns))
    (h : ∀ round ∈ rounds, Canonical ⟨round.text, round.calls⟩) :
    Continues reader (format reader) request ((adapter reader).render () request) := by
  obtain ⟨messages, hmessages, hevents⟩ := turnMessages_events reader h []
  refine @Continues.of_events _ _ reader (format reader) some request rounds
    (request.openingMessages.map openingMessage ++ messages) _ ?_ hturns
    (fun _ _ _ _ => rfl) ?_
  · have hrender : (adapter reader).render () request = Anthropic.messages reader request := rfl
    rw [hrender, Anthropic.messages, hturns, hmessages]
    rfl
  · have hopening : (request.openingMessages.map openingMessage).flatMap messageEvents =
        request.openingMessages.map textEvent := by
      induction request.openingMessages with
      | nil => rfl
      | cons message messages ih =>
        obtain ⟨role, text⟩ := message
        rw [List.map_cons, List.flatMap_cons, ih]
        cases role <;> rfl
    refine (List.flatMap_append).trans ?_
    rw [hopening, hevents]
    rfl

end Anthropic

end NervOS
