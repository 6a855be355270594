/-
What the Gemini adapter keeps along a loop: the entries of the calls of the last round.  Those of
the rounds before were released when the results of their calls were sent.
-/
import NervOS.Refinement.Continuations

namespace NervOS.Gemini

open Relational

variable {reader : JsonReader} {sha256Hex : String → String}

section Failures

theorem notRateLimited_contents (signatures : Signatures) (request : ModelRequest) :
    NotRateLimited (contents reader signatures request) := by
  have hdecode (argumentsJson : String) :
      NotRateLimited (decodeArguments reader argumentsJson) := by
    rw [decodeArguments]
    split
    · exact notRateLimited_ite (notRateLimited_ok _) (notRateLimited_invalid none)
    · exact notRateLimited_invalid none
  have hcalls (calls : List ToolCall) : NotRateLimited (callsParts reader signatures calls) := by
    induction calls with
    | nil => exact notRateLimited_ok _
    | cons call calls ih =>
      have hcall : NotRateLimited (callParts reader signatures call) :=
        (hdecode call.argumentsJson).bind fun _ => notRateLimited_ok _
      exact hcall.bind fun _ => ih.bind fun _ => notRateLimited_ok _
  have hresult (turn : ToolResultTurn) : NotRateLimited (resultPart signatures turn) := by
    rw [resultPart]
    split
    · exact notRateLimited_invalid none
    · exact notRateLimited_ite (notRateLimited_invalid none) (notRateLimited_ok _)
  have hturns (turns : List ConversationTurn) (pending : List WirePart) :
      NotRateLimited (turnContents reader signatures pending turns) := by
    induction turns generalizing pending with
    | nil => exact notRateLimited_ok _
    | cons turn turns ih =>
      cases turn with
      | assistant turn =>
        have hparts : NotRateLimited (assistantParts reader signatures turn) :=
          (hcalls turn.toolCalls).bind fun _ =>
            notRateLimited_ite (notRateLimited_invalid none) (notRateLimited_ok _)
        exact hparts.bind fun _ => (ih []).bind fun _ => notRateLimited_ok _
      | toolResult turn => exact (hresult turn).bind fun _ => ih _
  exact (hturns request.turns []).bind fun _ => notRateLimited_ok _

variable {response : Response} {signatures : Signatures}

theorem notRateLimited_soleCandidate : NotRateLimited (soleCandidate response) := by
  have hreason (reason : Option String) : NotRateLimited (finishReason reason) := by
    rw [finishReason]
    split
    · exact notRateLimited_ok _
    · exact notRateLimited_invalid none
  refine notRateLimited_ite (notRateLimited_error (by decide) _) ?_
  split
  · refine (hreason _).bind fun _ => ?_
    exact notRateLimited_ite (notRateLimited_invalid _) (notRateLimited_ok _)
  · exact notRateLimited_invalid _

theorem notRateLimited_stageCall (index : Nat) (part : Part) (call : FunctionCall)
    (thoughts : List Part) :
    NotRateLimited (stageCall sha256Hex response index part call thoughts) := by
  rw [stageCall]
  split
  · exact notRateLimited_ite (notRateLimited_invalid _) (notRateLimited_ok _)
  · exact notRateLimited_invalid _

theorem notRateLimited_inspectParts (toolsEnabled : Bool) (index : Nat)
    (thoughts parts : List Part) (inspected : Inspected) :
    NotRateLimited
      (inspectParts sha256Hex response toolsEnabled signatures index thoughts parts inspected) := by
  induction parts generalizing index thoughts inspected with
  | nil => exact notRateLimited_ok _
  | cons part parts ih =>
    rw [inspectParts]
    refine notRateLimited_ite (notRateLimited_invalid _) ?_
    split
    · exact notRateLimited_ite (ih _ _ _) (ih _ _ _)
    · refine notRateLimited_ite (notRateLimited_invalid _) ?_
      refine (notRateLimited_stageCall _ _ _ _).bind fun _ => ?_
      exact notRateLimited_ite (notRateLimited_invalid _) (ih _ _ _)
    · exact notRateLimited_invalid _
    · exact notRateLimited_invalid _

theorem notRateLimited_received (request : ModelRequest) :
    NotRateLimited (received sha256Hex response request signatures).1 := by
  have hsole := @notRateLimited_soleCandidate response
  rw [received, normalizedResponse]
  split
  · next error h =>
    rw [h] at hsole
    rintro _ ⟨⟩
    exact hsole error rfl
  · split_ifs
    · exact notRateLimited_ok _
    · exact notRateLimited_invalid _
  · next outcome parts h =>
    have hinspect := @notRateLimited_inspectParts sha256Hex response
      (releaseSignatures request.turns signatures) (! request.tools.isEmpty) 0 [] parts {}
    split
    · next error h =>
      rw [h] at hinspect
      rintro _ ⟨⟩
      exact hinspect error rfl
    · rw [concluded]
      split_ifs
      · exact notRateLimited_error (by decide) _
      · exact notRateLimited_invalid _
      · exact notRateLimited_ok _
      · exact notRateLimited_ok _
      · exact notRateLimited_invalid _
      · exact notRateLimited_ok _

theorem adapter_decided (signatures : Signatures) :
    (adapter reader sha256Hex signatures).Decided where
  render h := notRateLimited_contents _ _ _ h
  received h := notRateLimited_received _ _ (congrArg Prod.fst h)

end Failures

section Store

variable {staged : List (String × SignatureEntry)} {store : Signatures}

theorem mem_of_mem_evict {callId : String} (h : callId ∈ evict store) : callId ∈ store := by
  rw [AList.mem_keys] at h ⊢
  exact ((List.take_sublist _ _).map _).subset h

theorem mem_keep {callId : String} (h : callId ∈ keep staged store) :
    callId ∈ staged.map Prod.fst ∨ callId ∈ store := by
  by_cases hmem : callId ∈ staged.map Prod.fst
  · exact Or.inl hmem
  · exact Or.inr ((mem_iff_of_lookup_eq (lookup_keep_of_notMem hmem)).mp h)

section

variable (hnodup : (staged.map Prod.fst).Nodup)
    (hfresh : ∀ callId ∈ staged.map Prod.fst, callId ∉ store)

include hnodup hfresh

theorem entries_keep :
    (keep staged store).entries =
      (staged.map fun entry => ⟨entry.1, entry.2⟩).reverse ++ store.entries := by
  induction staged generalizing store with
  | nil => rfl
  | cons entry staged ih =>
    rw [List.map_cons, List.nodup_cons] at hnodup
    obtain ⟨hentry, hstaged⟩ := List.forall_mem_cons.mp hfresh
    have hrest : ∀ callId ∈ staged.map Prod.fst, callId ∉ remember entry store := by
      intro callId hmem hkept
      rcases (AList.mem_insert store).mp hkept with rfl | hold
      · exact hnodup.1 hmem
      · exact hstaged callId hmem hold
    rw [keep_cons, ih hnodup.2 hrest, remember, AList.entries_insert_of_notMem hentry]
    simp

theorem lookup_evict_keep (hlength : staged.length ≤ maxPendingSignatures)
    {entry : String × SignatureEntry} (hentry : entry ∈ staged) :
    (evict (keep staged store)).lookup entry.1 = some entry.2 := by
  refine AList.mem_lookup_iff.mpr ?_
  have hentries : (evict (keep staged store)).entries =
      (keep staged store).entries.take maxPendingSignatures := rfl
  rw [hentries, entries_keep hnodup hfresh, List.take_append, List.take_of_length_le (by simpa)]
  refine List.mem_append_left _ (List.mem_reverse.mpr ?_)
  exact List.mem_map_of_mem (f := fun entry => (⟨entry.1, entry.2⟩ : Sigma fun _ => _)) hentry

end

end Store

section Staging

variable {response : Response} {signatures : Signatures}

/-- A call that the adapter can render again. -/
def Readable (call : ToolCall) : Prop :=
  call.name ≠ "" ∧ ∃ arguments : JsonObject, ValidJsonValue arguments.value ∧
    call.argumentsJson = arguments.text

structure StagedFor (sha256Hex : String → String) (call : ToolCall)
    (staged : String × SignatureEntry) : Prop where
  callId : staged.1 = call.callId
  name : staged.2.functionName = call.name
  readable : Readable call
  original : Original sha256Hex call.callId staged.2.providerCallId

theorem stagedFor_stageCall {index : Nat} {part : Part} {call : FunctionCall}
    {thoughts : List Part} {staged : String × SignatureEntry × ToolCall}
    (h : stageCall sha256Hex response index part call thoughts = .ok staged) :
    StagedFor sha256Hex staged.2.2 (staged.1, staged.2.1) := by
  obtain ⟨callId, name, args⟩ := call
  cases name with
  | none => cases h
  | some name =>
    cases args with
    | none => cases h
    | some args =>
      rw [stageCall] at h
      dsimp only at h
      split_ifs at h with hinvalid
      rw [not_or, not_not] at hinvalid
      obtain rfl := Except.ok.inj h
      refine ⟨rfl, rfl, ⟨hinvalid.1, args, hinvalid.2, rfl⟩, ?_⟩
      cases hid : callId.filter (· ≠ "") with
      | none => exact Or.inr ⟨rfl, response, index, name, args.text, rfl⟩
      | some callId => exact Or.inl rfl

variable {staged : List (String × SignatureEntry)}

theorem map_fst_stagedFor {calls : List ToolCall}
    (h : List.Forall₂ (StagedFor sha256Hex) calls staged) :
    staged.map Prod.fst = calls.map (·.callId) := by
  induction h with
  | nil => rfl
  | cons hentry _ ih => rw [List.map_cons, List.map_cons, hentry.callId, ih]

theorem exists_stagedFor {calls : List ToolCall}
    (h : List.Forall₂ (StagedFor sha256Hex) calls staged) {call : ToolCall} (hcall : call ∈ calls) :
    ∃ entry ∈ staged, StagedFor sha256Hex call entry := by
  induction h with
  | nil => cases hcall
  | cons hentry _ ih =>
    rcases List.mem_cons.mp hcall with rfl | hcall
    · exact ⟨_, List.mem_cons_self, hentry⟩
    · obtain ⟨entry, hmem, hfor⟩ := ih hcall
      exact ⟨entry, List.mem_cons_of_mem _ hmem, hfor⟩

/-- What the parts staged so far: an entry for each call, under ids that are new. -/
structure Inspected.Staged (sha256Hex : String → String) (signatures : Signatures)
    (inspected : Inspected) : Prop where
  calls : List.Forall₂ (StagedFor sha256Hex) inspected.calls inspected.staged
  nodup : (inspected.staged.map Prod.fst).Nodup
  fresh : ∀ callId ∈ inspected.staged.map Prod.fst, callId ∉ signatures

theorem Inspected.Staged.inspectParts {toolsEnabled : Bool} {index : Nat}
    {thoughts parts : List Part} {inspected result : Inspected}
    (hstaged : inspected.Staged sha256Hex signatures)
    (h : Gemini.inspectParts sha256Hex response toolsEnabled signatures index thoughts parts
      inspected = .ok result) : result.Staged sha256Hex signatures := by
  induction parts generalizing index thoughts inspected with
  | nil =>
    obtain rfl := Except.ok.inj h
    exact hstaged
  | cons part parts ih =>
    rw [Gemini.inspectParts] at h
    by_cases hsupported : part.unsupported = true
    · rw [if_pos hsupported] at h
      cases h
    rw [if_neg hsupported] at h
    cases hcall : part.functionCall with
    | none =>
      cases htext : part.text with
      | none =>
        rw [hcall, htext] at h
        cases h
      | some text =>
        rw [hcall, htext] at h
        dsimp only at h
        split_ifs at h
        · exact ih hstaged h
        · exact @ih _ _ { inspected with texts := inspected.texts ++ [text] }
            ⟨hstaged.calls, hstaged.nodup, hstaged.fresh⟩ h
    | some call =>
      cases htext : part.text with
      | some text =>
        rw [hcall, htext] at h
        cases h
      | none =>
        rw [hcall, htext] at h
        dsimp only at h
        by_cases hdisabled : toolsEnabled = false
        · rw [if_pos hdisabled] at h
          cases h
        rw [if_neg hdisabled] at h
        obtain ⟨⟨correlationId, entry, toolCall⟩, hstage, h⟩ := bind_eq_ok.mp h
        dsimp only at h
        split_ifs at h with hpending
        rw [not_or] at hpending
        refine ih ⟨?_, ?_, ?_⟩ h
        · exact List.rel_append hstaged.calls (.cons (stagedFor_stageCall hstage) .nil)
        · rw [List.map_append]
          refine List.nodup_append.mpr ⟨hstaged.nodup, List.nodup_singleton _, ?_⟩
          rintro callId hmem _ hnew rfl
          obtain rfl : callId = correlationId := List.mem_singleton.mp hnew
          exact hpending.2 hmem
        · intro callId hmem
          rw [List.map_append] at hmem
          rcases List.mem_append.mp hmem with hold | hnew
          · exact hstaged.fresh callId hold
          · rw [List.mem_singleton.mp hnew]
            exact hpending.1

theorem received_staged {request : ModelRequest} {result : ModelResponse} {kept : Signatures}
    (h : received sha256Hex response request signatures = (.ok result, kept))
    (hcalls : result.toolCalls ≠ []) :
    ∃ staged, List.Forall₂ (StagedFor sha256Hex) result.toolCalls staged ∧
      (staged.map Prod.fst).Nodup ∧
      (∀ callId ∈ staged.map Prod.fst, callId ∉ releaseSignatures request.turns signatures) ∧
      kept = evict (keep staged (releaseSignatures request.turns signatures)) := by
  rw [received, normalizedResponse] at h
  cases hsole : soleCandidate response with
  | error error =>
    simp only [hsole] at h
    cases h
  | ok sole =>
    obtain ⟨outcome, _ | parts⟩ := sole
    · simp only [hsole] at h
      split_ifs at h
      · obtain ⟨hresult, -⟩ := Prod.mk.inj h
        rw [← Except.ok.inj hresult] at hcalls
        exact absurd rfl hcalls
      · cases h
    · simp only [hsole] at h
      cases hinspect : inspectParts sha256Hex response (! request.tools.isEmpty)
        (releaseSignatures request.turns signatures) 0 [] parts {} with
      | error error =>
        simp only [hinspect] at h
        cases h
      | ok inspected =>
        simp only [hinspect] at h
        have hstaged : inspected.Staged sha256Hex
            (releaseSignatures request.turns signatures) :=
          Inspected.Staged.inspectParts
            (@Inspected.Staged.mk _ _ {} .nil List.nodup_nil (by simp)) hinspect
        rw [concluded] at h
        split_ifs at h
        · cases h
        · cases h
        · obtain ⟨hresult, -⟩ := Prod.mk.inj h
          rw [← Except.ok.inj hresult] at hcalls
          exact absurd rfl hcalls
        · obtain ⟨hresult, hkept⟩ := Prod.mk.inj h
          obtain rfl := Except.ok.inj hresult
          exact ⟨inspected.staged, hstaged.calls, hstaged.nodup, hstaged.fresh, hkept.symm⟩
        · cases h
        · obtain ⟨hresult, -⟩ := Prod.mk.inj h
          rw [← Except.ok.inj hresult] at hcalls
          exact absurd rfl hcalls

end Staging

variable {signatures : Signatures}

/-- The adapter can still render a call and address its result. -/
def Pending (sha256Hex : String → String) (signatures : Signatures) (call : ToolCall) : Prop :=
  Readable call ∧ ∃ entry, signatures.lookup call.callId = some entry ∧
    entry.functionName = call.name ∧ Original sha256Hex call.callId entry.providerCallId

structure KeepsLast (sha256Hex : String → String) (signatures : Signatures)
    (turns : List AssistantTurn) (seen : List String) : Prop where
  seen : ∀ turn ∈ turns, ∀ call ∈ turn.toolCalls, call.callId ∈ seen
  calls : ∀ turn ∈ turns, turn.toolCalls ≠ []
  earlier : ∀ turn ∈ turns.dropLast, ∀ call ∈ turn.toolCalls, call.callId ∉ signatures
  last : ∀ turn ∈ turns.getLast?, ∀ call ∈ turn.toolCalls, Pending sha256Hex signatures call

variable {rounds : List Round}

theorem mem_resultIds {round : Round} (hround : round ∈ rounds) {call : ToolCall}
    (hcall : call ∈ round.calls) :
    call.callId ∈ resultIds (rounds.flatMap (·.turns)) := by
  obtain ⟨answer, hanswer, rfl⟩ := List.mem_map.mp hcall
  refine List.mem_filterMap.mpr ⟨.toolResult answer.2, ?_, ?_⟩
  · refine List.mem_flatMap.mpr ⟨round, hround, List.mem_cons_of_mem _ ?_⟩
    exact List.mem_map.mpr ⟨answer, hanswer, rfl⟩
  · exact congrArg some (round.addressed answer hanswer)

variable (initial : Signatures)

theorem adapter_keeps (input : LoopInput) :
    (adapter reader sha256Hex initial).Keeps input (KeepsLast sha256Hex) where
  init := ⟨nofun, nofun, nofun, nofun⟩
  asked := by
    intro rounds state wire received response state' seen request hturns _ hreceived _ hcalls
      hfresh hlimit hkept
    obtain ⟨staged, hstaged, hnodup, hunreleased, rfl⟩ := received_staged hreceived hcalls
    have hids := map_fst_stagedFor hstaged
    refine ⟨?_, ?_, ?_, ?_⟩
    · intro turn hturn call hcall
      rcases List.mem_append.mp hturn with hold | hnew
      · exact List.mem_append_left _ (hkept.seen turn hold call hcall)
      · rw [List.mem_singleton.mp hnew] at hcall
        exact List.mem_append_right _ (List.mem_map.mpr ⟨call, hcall, rfl⟩)
    · intro turn hturn
      rcases List.mem_append.mp hturn with hold | hnew
      · exact hkept.calls turn hold
      · rw [List.mem_singleton.mp hnew]
        exact hcalls
    · -- The results of these turns were in the request, so their entries were released.
      rw [List.dropLast_concat]
      intro turn hturn call hcall hmem
      obtain ⟨round, hround, rfl⟩ := List.mem_map.mp hturn
      rcases mem_keep (mem_of_mem_evict hmem) with hnew | hold
      · rw [hids] at hnew
        obtain ⟨other, hother, heq⟩ := List.mem_map.mp hnew
        exact hfresh other hother (heq ▸ hkept.seen _ hturn call hcall)
      · have hreleased := lookup_releaseSignatures request.turns state call.callId
        rw [hturns, if_pos (mem_resultIds hround hcall), ← hturns] at hreleased
        exact AList.lookup_eq_none.mp hreleased hold
    · rw [List.getLast?_concat]
      rintro turn ⟨⟩ call hcall
      have hbound : staged.length ≤ maxPendingSignatures := by
        rw [← hstaged.length_eq]
        exact hlimit.trans (input.limits.toolCalls.2.trans (by decide))
      obtain ⟨entry, hentry, hfor⟩ := exists_stagedFor hstaged hcall
      refine ⟨hfor.readable, entry.2, ?_, hfor.name, hfor.original⟩
      rw [← hfor.callId]
      exact lookup_evict_keep hnodup hunreleased hbound hentry

variable (reader)

def providerId? (signatures : Signatures) (callId : String) : Option String :=
  (signatures.lookup callId).bind (·.providerCallId)

theorem callsParts_events {calls : List ToolCall}
    (h : ∀ call ∈ calls, Pending sha256Hex signatures call) :
    ∃ parts, callsParts reader signatures calls = .ok parts ∧
      parts.filterMap (partEvent .assistant) =
        calls.map (callEvent reader (providerId? signatures)) ∧ (calls ≠ [] → parts ≠ []) := by
  induction calls with
  | nil => exact ⟨[], rfl, rfl, fun hne => absurd rfl hne⟩
  | cons call calls ih =>
    obtain ⟨⟨⟨hname, arguments, hvalid, hcall⟩, entry, hentry, hfunction, horiginal⟩, hcalls⟩ :=
      List.forall_mem_cons.mp h
    obtain ⟨parts, hparts, hevents, -⟩ := ih hcalls
    have hloads : reader.loads call.argumentsJson = some (.obj arguments.members) := by
      rw [hcall]
      exact reader.loads_text arguments
    have hdecode : decodeArguments reader call.argumentsJson = .ok arguments.value := by
      rw [decodeArguments, hloads]
      exact if_pos hvalid
    have hthoughts (thoughts : List Part) :
        (thoughts.map WirePart.thought).filterMap (partEvent .assistant) = [] := by
      induction thoughts with
      | nil => rfl
      | cons thought thoughts ih => simp [partEvent]
    refine ⟨entry.thoughts.map .thought ++ [.functionCall entry.providerCallId call.name
      arguments.value entry.signature] ++ parts, ?_, ?_, by simp⟩
    · simp [callsParts, callParts, hentry, hdecode, hparts, bind, Except.bind, pure, Except.pure]
    · rw [List.filterMap_append, List.filterMap_append, hthoughts, hevents, List.map_cons,
        callEvent, hloads, providerId?, hentry]
      rfl

def resultWire (signatures : Signatures) (answer : ToolCall × ToolResultTurn) : WirePart :=
  .functionResponse (providerId? signatures answer.1.callId) answer.1.name
    (responsePayload answer.2)

theorem turnContents_results {answers : List (ToolCall × ToolResultTurn)}
    (h : ∀ answer ∈ answers, Pending sha256Hex signatures answer.1 ∧
      answer.2.callId = answer.1.callId) (pending : List WirePart)
    (turns : List ConversationTurn) :
    turnContents reader signatures pending
        (answers.map (fun answer => .toolResult answer.2) ++ turns) =
      turnContents reader signatures (pending ++ answers.map (resultWire signatures)) turns := by
  induction answers generalizing pending with
  | nil => simp
  | cons answer answers ih =>
    obtain ⟨⟨⟨⟨hname, -⟩, entry, hentry, hfunction, -⟩, haddressed⟩, hanswers⟩ :=
      List.forall_mem_cons.mp h
    have hresult : resultPart signatures answer.2 = .ok (resultWire signatures answer) := by
      rw [resultPart, haddressed, hentry, resultWire, providerId?, hentry]
      simp [hfunction, hname]
    rw [List.map_cons, List.cons_append, turnContents, hresult]
    simp only [bind, Except.bind, ih hanswers]
    simp

theorem flush_events (pending : List WirePart) :
    (flush pending).flatMap contentEvents = pending.filterMap (partEvent .user) := by
  cases pending <;> simp [flush, contentEvents]

theorem turnContents_events
    (h : ∀ round ∈ rounds, round.calls ≠ [] ∧
      ∀ call ∈ round.calls, Pending sha256Hex signatures call) (pending : List WirePart) :
    ∃ contents, turnContents reader signatures pending (rounds.flatMap (·.turns)) =
        .ok contents ∧
      contents.flatMap contentEvents = pending.filterMap (partEvent .user) ++
        rounds.flatMap
          (·.events reader (format reader sha256Hex initial) (providerId? signatures)) := by
  induction rounds generalizing pending with
  | nil => exact ⟨flush pending, rfl, by simp [flush_events]⟩
  | cons round rounds ih =>
    obtain ⟨⟨hsome, hround⟩, hrounds⟩ := List.forall_mem_cons.mp h
    obtain ⟨parts, hparts, hcalls, hnonempty⟩ := callsParts_events reader hround
    obtain ⟨contents, hcontents, hevents⟩ := ih hrounds
      (round.answers.map (resultWire signatures))
    have hassistant : assistantParts reader signatures ⟨round.text, round.calls⟩ =
        .ok ((if round.text = "" then [] else [.text round.text]) ++ parts) := by
      simp [assistantParts, hparts, hnonempty hsome, bind, Except.bind, pure, Except.pure]
    have hanswers : ∀ answer ∈ round.answers, Pending sha256Hex signatures answer.1 ∧
        answer.2.callId = answer.1.callId :=
      fun answer hanswer => ⟨hround _ (List.mem_map_of_mem hanswer),
        round.addressed answer hanswer⟩
    have hresults : (round.answers.map (resultWire signatures)).filterMap (partEvent .user) =
        round.answers.map
          (resultEvent (format reader sha256Hex initial) (providerId? signatures)) := by
      rw [List.filterMap_map]
      exact List.filterMap_eq_map.symm ▸ rfl
    refine ⟨flush pending ++ ⟨.assistant, (if round.text = "" then [] else [.text round.text]) ++
      parts⟩ :: contents, ?_, ?_⟩
    · rw [List.flatMap_cons, Round.turns, List.cons_append, turnContents, hassistant]
      simp only [bind, Except.bind, turnContents_results reader hanswers, List.nil_append,
        hcontents]
      rfl
    · rw [List.flatMap_append, List.flatMap_cons, flush_events, hevents, hresults,
        List.flatMap_cons, Round.events, contentEvents, List.filterMap_append, hcalls,
        proseEvents]
      by_cases htext : round.text = "" <;> simp [htext, partEvent]

theorem turnContents_ok_mem {turns : List ConversationTurn} {pending : List WirePart}
    {contents : List Content} (h : turnContents reader signatures pending turns = .ok contents) :
    ∀ callId ∈ resultIds turns, callId ∈ signatures := by
  induction turns generalizing pending contents with
  | nil => exact nofun
  | cons turn turns ih =>
    cases turn with
    | assistant turn =>
      obtain ⟨parts, -, h⟩ := bind_eq_ok.mp h
      obtain ⟨rest, hrest, -⟩ := bind_eq_ok.mp h
      exact ih hrest
    | toolResult turn =>
      obtain ⟨part, hpart, h⟩ := bind_eq_ok.mp h
      refine List.forall_mem_cons.mpr ⟨?_, ih h⟩
      rw [resultPart] at hpart
      cases hentry : signatures.lookup turn.callId with
      | none =>
        rw [hentry] at hpart
        cases hpart
      | some entry =>
        rw [← AList.lookup_isSome, hentry]
        rfl

theorem continues_iff {request : ModelRequest} {seen : List String}
    (hturns : request.turns = rounds.flatMap (·.turns))
    (hkept : KeepsLast sha256Hex signatures
      (rounds.map fun round => ⟨round.text, round.calls⟩) seen) :
    Continues reader (format reader sha256Hex initial) request
        (contents reader signatures request) ↔ rounds.length ≤ 1 := by
  constructor
  · rintro ⟨wire, -, -, -, -, -, hrender, -⟩
    obtain ⟨turnContents, hturnContents, -⟩ := bind_eq_ok.mp hrender
    rw [hturns] at hturnContents
    have hresults := turnContents_ok_mem reader hturnContents
    match rounds, hkept, hresults with
    | [], _, _ => exact Nat.zero_le _
    | [_], _, _ => exact le_refl _
    | first :: second :: rest, hkept, hresults =>
      -- The results of the first round went out with the second request.
      have hfirst : (⟨first.text, first.calls⟩ : AssistantTurn) ∈
          ((first :: second :: rest).map fun round => ⟨round.text, round.calls⟩).dropLast :=
        List.mem_cons_self
      obtain ⟨call, hcall⟩ := List.exists_mem_of_ne_nil _
        (hkept.calls _ (List.dropLast_subset _ hfirst))
      exact absurd (hresults _ (mem_resultIds List.mem_cons_self hcall))
        (hkept.earlier _ hfirst call hcall)
  · intro hrounds
    have hpending : ∀ round ∈ rounds, round.calls ≠ [] ∧
        ∀ call ∈ round.calls, Pending sha256Hex signatures call := by
      intro round hround
      refine ⟨hkept.calls _ (List.mem_map.mpr ⟨round, hround, rfl⟩), ?_⟩
      match rounds, hrounds, hround with
      | [_], _, hround =>
        obtain rfl := List.mem_singleton.mp hround
        exact hkept.last _ rfl
    obtain ⟨rest, hrest, hevents⟩ := turnContents_events reader initial hpending []
    refine @Continues.of_events _ _ reader (format reader sha256Hex initial)
      (providerId? signatures) request rounds
      (request.openingMessages.map openingContent ++ rest) _ ?_ hturns ?_ ?_
    · rw [contents, hturns, hrest]
      rfl
    · intro round hround call hcall
      obtain ⟨-, entry, hentry, -, horiginal⟩ := (hpending round hround).2 call hcall
      rw [providerId?, hentry]
      exact horiginal
    · have hopening : (request.openingMessages.map openingContent).flatMap contentEvents =
          request.openingMessages.map textEvent := by
        induction request.openingMessages with
        | nil => rfl
        | cons message messages ih =>
          rw [List.map_cons, List.flatMap_cons, ih]
          rfl
      refine (List.flatMap_append).trans ?_
      rw [hopening, hevents]
      rfl

end NervOS.Gemini
