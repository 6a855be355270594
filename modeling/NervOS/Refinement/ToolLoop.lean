/-
What a step of the tool loop does, and the conversation that it leaves: complete rounds before a
model call, and amid a round the calls that are still to be answered.
-/
import NervOS.Application.ToolLoop
import NervOS.Relational.Fallible

namespace NervOS

structure Round where
  text : String
  answers : List (ToolCall × ToolResultTurn)
  addressed : ∀ answer ∈ answers, answer.2.callId = answer.1.callId

namespace Round

def calls (round : Round) : List ToolCall :=
  round.answers.map Prod.fst

def turns (round : Round) : List ConversationTurn :=
  .assistant ⟨round.text, round.calls⟩ ::
    round.answers.map fun answer => .toolResult answer.2

end Round

def assistantTurns (turns : List ConversationTurn) : List AssistantTurn :=
  turns.filterMap fun turn =>
    match turn with
    | .assistant turn => some turn
    | .toolResult _ => none

theorem assistantTurns_append (left right : List ConversationTurn) :
    assistantTurns (left ++ right) = assistantTurns left ++ assistantTurns right :=
  List.filterMap_append

theorem Round.assistantTurns_turns (round : Round) :
    assistantTurns round.turns = [⟨round.text, round.calls⟩] := by
  simp [Round.turns, assistantTurns, List.filterMap_map]

theorem assistantTurns_flatMap (rounds : List Round) :
    assistantTurns (rounds.flatMap (·.turns)) =
      rounds.map fun round => ⟨round.text, round.calls⟩ := by
  induction rounds with
  | nil => rfl
  | cons round rounds ih =>
    rw [List.flatMap_cons, assistantTurns_append, round.assistantTurns_turns, ih]
    rfl

structure Adapter.Decided (adapter : Adapter) : Prop where
  render : ∀ {state : adapter.State} {request error},
    adapter.render state request = .error error → error.code ≠ modelRateLimited
  received : ∀ {state : adapter.State} {request response error state'},
    adapter.received state request response = (.error error, state') →
      error.code ≠ modelRateLimited

structure Accepted (input : LoopInput) (before : LoopState) (response : ModelResponse)
    (after : LoopState) : Prop where
  shape : ToolLoop.validateTurnShape response = .ok ()
  calls : response.toolCalls ≠ []
  fresh : ∀ call ∈ response.toolCalls, call.callId ∉ before.seenCallIds
  distinct : (response.toolCalls.map (·.callId)).Nodup
  limit : before.toolCalls + response.toolCalls.length ≤ input.limits.maxToolCalls
  turns : after.turns = before.turns ++ [.assistant ⟨response.text, response.toolCalls⟩]
  seen : after.seenCallIds = before.seenCallIds ++ response.toolCalls.map (·.callId)

namespace LoopSystem

variable {adapter : Adapter}

structure Called (input : LoopInput) (before after : LoopSystem adapter) : Prop where
  budget : before.state.modelCalls < input.limits.maxModelCalls
  phase : ∃ retries, before.phase = .modelTurn retries
  requests : after.requests = before.requests ++ [ToolLoop.request input before.state]
  modelCalls : after.state.modelCalls = before.state.modelCalls + 1
  toolCalls : after.state.toolCalls = before.state.toolCalls
  dispatched : after.dispatched = before.dispatched
  outcomes : after.outcomes = before.outcomes
  consecutiveFailures : after.state.consecutiveFailures = before.state.consecutiveFailures

structure Dispatched (before : LoopSystem adapter) (call : ToolCall) (calls : List ToolCall)
    (failed : Option Bool) (after : LoopSystem adapter) : Prop where
  phase : before.phase = .dispatch (call :: calls)
  adapterState : after.adapterState = before.adapterState
  requests : after.requests = before.requests
  modelCalls : after.state.modelCalls = before.state.modelCalls
  toolCalls : after.state.toolCalls = before.state.toolCalls + 1
  dispatched : after.dispatched = before.dispatched ++ [call]
  outcomes : after.outcomes = before.outcomes ++ failed.toList
  seen : after.state.seenCallIds = before.state.seenCallIds

inductive Effect (input : LoopInput) (before : LoopSystem adapter) : LoopSystem adapter → Prop
  | idle : Effect input before before
  | stopped (error : ModelProviderError) (hgoing : ∀ ending, before.phase ≠ .ended ending) :
      Effect input before { before with phase := .ended (.failed error) }
  | concluded (after : LoopSystem adapter) (ending : ToolLoop.Ending)
      (hcalled : Called input before after) (hphase : after.phase = .ended ending)
      (hturns : after.state.turns = before.state.turns) : Effect input before after
  | retried (after : LoopSystem adapter) (retries : Nat) (hcalled : Called input before after)
      (hphase : after.phase = .modelTurn retries)
      (hadapter : adapter.Decided → after.adapterState = before.adapterState)
      (hturns : after.state.turns = before.state.turns)
      (hseen : after.state.seenCallIds = before.state.seenCallIds) : Effect input before after
  | asked (after : LoopSystem adapter) (wire : adapter.Wire) (received : adapter.Response)
      (response : ModelResponse) (hcalled : Called input before after)
      (hphase : after.phase = .dispatch response.toolCalls)
      (hrender : adapter.render before.adapterState (ToolLoop.request input before.state) =
        .ok wire)
      (hreceived : adapter.received before.adapterState (ToolLoop.request input before.state)
        received = (.ok response, after.adapterState))
      (haccepted : Accepted input before.state response after.state) : Effect input before after
  | observed (after : LoopSystem adapter) (call : ToolCall) (calls : List ToolCall)
      (failed : Bool) (result : ToolResultTurn)
      (hdispatched : Dispatched before call calls failed after)
      (hphase : after.phase = ToolLoop.nextPhase calls)
      (haddressed : result.callId = call.callId)
      (hturns : after.state.turns = before.state.turns ++ [.toolResult result])
      (hfailures : after.state.consecutiveFailures =
        if failed then before.state.consecutiveFailures + 1 else 0)
      (hlimit : after.state.consecutiveFailures < input.limits.maxConsecutiveToolFailures) :
      Effect input before after
  | exhausted (after : LoopSystem adapter) (call : ToolCall) (calls : List ToolCall)
      (usage : ModelUsage) (hdispatched : Dispatched before call calls true after)
      (hphase : after.phase = .ended (.failed ⟨toolLoopLimit, usage⟩))
      (hturns : after.state.turns = before.state.turns)
      (hfailures : after.state.consecutiveFailures = before.state.consecutiveFailures + 1) :
      Effect input before after
  | fatal (after : LoopSystem adapter) (call : ToolCall) (calls : List ToolCall)
      (error : ModelProviderError) (hdispatched : Dispatched before call calls none after)
      (hphase : after.phase = .ended (.failed error))
      (hturns : after.state.turns = before.state.turns)
      (hfailures : after.state.consecutiveFailures = before.state.consecutiveFailures) :
      Effect input before after

variable {reader : JsonReader} {input : LoopInput}

theorem afterFailure_cases (state : LoopState) (retries : Nat) (error : ModelProviderError) :
    (∃ ending, ToolLoop.afterFailure state retries error = .ended ending) ∨
      (error.code = modelRateLimited ∧
        ToolLoop.afterFailure state retries error = .modelTurn (retries + 1)) := by
  rw [ToolLoop.afterFailure]
  split_ifs with hcode hretries
  · exact Or.inl ⟨_, rfl⟩
  · exact Or.inl ⟨_, rfl⟩
  · exact Or.inr ⟨not_not.mp hcode, rfl⟩

theorem acceptTurn_cases (state : LoopState) (response : ModelResponse) (persisted : Bool) :
    ∃ state' phase, ToolLoop.acceptTurn input state response persisted = (state', phase) ∧
      state'.modelCalls = state.modelCalls ∧ state'.toolCalls = state.toolCalls ∧
      state'.consecutiveFailures = state.consecutiveFailures ∧
      ((∃ ending, phase = .ended ending ∧ state'.turns = state.turns) ∨
        phase = .dispatch response.toolCalls ∧ Accepted input state response state') := by
  rw [ToolLoop.acceptTurn]
  cases hshape : ToolLoop.validateTurnShape response with
  | error error => exact ⟨_, _, rfl, rfl, rfl, rfl, Or.inl ⟨_, rfl, rfl⟩⟩
  | ok _ =>
    rw [ToolLoop.registerCallIds]
    by_cases hids : (∀ call ∈ response.toolCalls,
        ToolLoop.isValidProviderCallId call.callId = true ∧
          call.callId ∉ state.seenCallIds) ∧ (response.toolCalls.map (·.callId)).Nodup
    · simp only [if_pos hids]
      split_ifs with hpersisted hcalls hlimit
      · exact ⟨_, _, rfl, rfl, rfl, rfl, Or.inl ⟨_, rfl, rfl⟩⟩
      · exact ⟨_, _, rfl, rfl, rfl, rfl, Or.inl ⟨_, rfl, rfl⟩⟩
      · exact ⟨_, _, rfl, rfl, rfl, rfl, Or.inl ⟨_, rfl, rfl⟩⟩
      · refine ⟨_, _, rfl, rfl, rfl, rfl, Or.inr ⟨rfl, ?_⟩⟩
        exact ⟨hshape, hcalls, fun call hcall => (hids.1 call hcall).2, hids.2, by omega, rfl,
          rfl⟩
    · simp only [if_neg hids]
      exact ⟨_, _, rfl, rfl, rfl, rfl, Or.inl ⟨_, rfl, rfl⟩⟩

variable (system : LoopSystem adapter)

theorem answer_effect (retries : Nat) (hphase : system.phase = .modelTurn retries)
    (hbudget : system.state.modelCalls < input.limits.maxModelCalls)
    (outcome : Except ModelProviderError adapter.Response) (persisted : Bool) :
    Effect input system (system.answer input retries outcome persisted) := by
  simp only [answer]
  cases hrender : adapter.render system.adapterState (ToolLoop.request input system.state) with
  | error error =>
    obtain ⟨ending, hended⟩ | ⟨hcode, hretried⟩ := afterFailure_cases
      { system.state with modelCalls := system.state.modelCalls + 1 } retries error
    · exact .concluded _ ending ⟨hbudget, ⟨retries, hphase⟩, rfl, rfl, rfl, rfl, rfl, rfl⟩ hended
        rfl
    · exact .retried _ _ ⟨hbudget, ⟨retries, hphase⟩, rfl, rfl, rfl, rfl, rfl, rfl⟩ hretried
        (fun _ => rfl) rfl rfl
  | ok wire =>
    cases outcome with
    | error error =>
      obtain ⟨ending, hended⟩ | ⟨-, hretried⟩ := afterFailure_cases
        { system.state with modelCalls := system.state.modelCalls + 1 } retries error
      · exact .concluded _ ending ⟨hbudget, ⟨retries, hphase⟩, rfl, rfl, rfl, rfl, rfl, rfl⟩
          hended rfl
      · exact .retried _ _ ⟨hbudget, ⟨retries, hphase⟩, rfl, rfl, rfl, rfl, rfl, rfl⟩ hretried
          (fun _ => rfl) rfl rfl
    | ok received =>
      match hreceived : adapter.received system.adapterState
          (ToolLoop.request input system.state) received with
      | (.error error, adapterState) =>
        simp only [hreceived]
        obtain ⟨ending, hended⟩ | ⟨hcode, hretried⟩ := afterFailure_cases
          { system.state with modelCalls := system.state.modelCalls + 1 } retries error
        · exact .concluded _ ending ⟨hbudget, ⟨retries, hphase⟩, rfl, rfl, rfl, rfl, rfl,
            rfl⟩ hended rfl
        · exact .retried _ _ ⟨hbudget, ⟨retries, hphase⟩, rfl, rfl, rfl, rfl, rfl, rfl⟩
            hretried (fun hdecided => absurd hcode (hdecided.received hreceived)) rfl rfl
      | (.ok response, adapterState) =>
        obtain ⟨state', phase, haccept, hmodel, htool, hfailures, hcases⟩ :=
          @acceptTurn_cases input
            { system.state with modelCalls := system.state.modelCalls + 1 } response persisted
        simp only [hreceived, haccept]
        have hcalled : Called input system
            { system with
              adapterState := adapterState
              state := state'
              phase := phase
              requests := system.requests ++ [ToolLoop.request input system.state] } :=
          ⟨hbudget, ⟨retries, hphase⟩, rfl, hmodel, htool, rfl, rfl, hfailures⟩
        obtain ⟨ending, rfl, hturns⟩ | ⟨rfl, haccepted⟩ := hcases
        · exact .concluded _ ending hcalled rfl hturns
        · exact .asked _ wire received response hcalled rfl hrender hreceived
            ⟨haccepted.shape, haccepted.calls, haccepted.fresh, haccepted.distinct,
              haccepted.limit, haccepted.turns, haccepted.seen⟩

theorem observeFailure_effect (call : ToolCall) (calls : List ToolCall)
    (hphase : system.phase = .dispatch (call :: calls)) (toolSequence : Nat) (note : String) :
    Effect input system
      { system with
        state := (ToolLoop.observeFailure input { system.state with
          toolCalls := system.state.toolCalls + 1, toolSequence } call.callId note
            (ToolLoop.nextPhase calls)).1
        phase := (ToolLoop.observeFailure input { system.state with
          toolCalls := system.state.toolCalls + 1, toolSequence } call.callId note
            (ToolLoop.nextPhase calls)).2
        dispatched := system.dispatched ++ [call]
        outcomes := system.outcomes ++ (some true).toList } := by
  simp only [ToolLoop.observeFailure]
  split_ifs with hlimit
  · exact .exhausted _ call calls _ ⟨hphase, rfl, rfl, rfl, rfl, rfl, rfl, rfl⟩ rfl rfl rfl
  · exact .observed _ call calls true ⟨call.callId, note, none, true⟩
      ⟨hphase, rfl, rfl, rfl, rfl, rfl, rfl, rfl⟩ rfl rfl rfl rfl (not_le.mp hlimit)

theorem dispatch_effect (call : ToolCall) (calls : List ToolCall)
    (hphase : system.phase = .dispatch (call :: calls)) (outcome : ToolLoop.MediatedOutcome) :
    Effect input system (system.exec reader input (.dispatched outcome)) := by
  simp only [exec, hphase, ToolLoop.dispatch, ToolLoop.callFailed]
  by_cases hunknown : ∀ schema ∈ input.catalog, schema.name ≠ call.name
  · simp only [if_pos hunknown, if_pos (Or.inl hunknown)]
    exact observeFailure_effect system call calls hphase system.state.toolSequence _
  by_cases hparsed : ToolLoop.parseArguments reader call.argumentsJson = none
  · simp only [if_neg hunknown, if_pos hparsed, if_pos (Or.inr hparsed)]
    exact observeFailure_effect system call calls hphase system.state.toolSequence _
  simp only [if_neg hunknown, if_neg hparsed, if_neg (not_or.mpr ⟨hunknown, hparsed⟩)]
  cases outcome with
  | denied | invalidArguments | failed => exact observeFailure_effect system call calls hphase _ _
  | fatal error =>
    exact .fatal _ call calls error ⟨hphase, rfl, rfl, rfl, rfl, rfl, rfl, rfl⟩ rfl rfl rfl
  | succeeded text structured =>
    exact .observed _ call calls false ⟨call.callId, text, structured, false⟩
      ⟨hphase, rfl, rfl, rfl, rfl, rfl, rfl, rfl⟩ rfl rfl rfl rfl
      input.limits.positive.2.2.2.2.2.2.2.2.2

theorem exec_effect (op : LoopOp adapter.Response) (system : LoopSystem adapter) :
    Effect input system (system.exec reader input op) := by
  cases op with
  | answered outcome persisted =>
    match hphase : system.phase with
    | .modelTurn retries =>
      simp only [exec, hphase]
      split_ifs with hbudget
      · exact .stopped _ fun ending => by simp [hphase]
      · exact answer_effect system retries hphase (not_le.mp hbudget) outcome persisted
    | .dispatch _ | .ended _ =>
      simp only [exec, hphase]
      exact .idle
  | dispatched outcome =>
    match hphase : system.phase with
    | .dispatch (call :: calls) => exact dispatch_effect system call calls hphase outcome
    | .dispatch [] | .modelTurn _ | .ended _ =>
      simp only [exec, hphase]
      exact .idle
  | authorityLost error =>
    match hphase : system.phase with
    | .dispatch _ =>
      simp only [exec, hphase]
      exact .stopped _ fun ending => by simp [hphase]
    | .modelTurn _ | .ended _ =>
      simp only [exec, hphase]
      exact .idle

def Shaped (system : LoopSystem adapter) : Prop :=
  match system.phase with
  | .modelTurn _ => ∃ rounds : List Round, system.state.turns = rounds.flatMap (·.turns)
  | .dispatch calls => ∃ (rounds : List Round) (round : Round),
      system.state.turns = rounds.flatMap (·.turns) ++
        .assistant ⟨round.text, round.calls ++ calls⟩ ::
          round.answers.map fun answer => .toolResult answer.2
  | .ended _ => True

theorem shaped_init (adapter : Adapter) (input : LoopInput) :
    (LoopSystem.init adapter input).Shaped := by
  rw [Shaped, LoopSystem.init]
  dsimp only
  split_ifs
  · trivial
  · exact ⟨[], rfl⟩

theorem Shaped.effect {before after : LoopSystem adapter} (hshaped : before.Shaped)
    (h : Effect input before after) : after.Shaped := by
  cases h with
  | idle => exact hshaped
  | stopped error hgoing => exact trivial
  | concluded _ ending _ hphase _ =>
    rw [Shaped, hphase]
    trivial
  | retried _ retries hcalled hphase _ hturns _ =>
    obtain ⟨_, hbefore⟩ := hcalled.phase
    rw [Shaped, hbefore] at hshaped
    rw [Shaped, hphase, hturns]
    exact hshaped
  | asked _ wire received response hcalled hphase _ _ haccepted =>
    obtain ⟨_, hbefore⟩ := hcalled.phase
    rw [Shaped, hbefore] at hshaped
    obtain ⟨rounds, hrounds⟩ := hshaped
    rw [Shaped, hphase]
    refine ⟨rounds, ⟨response.text, [], nofun⟩, ?_⟩
    rw [haccepted.turns, hrounds]
    rfl
  | observed _ call calls failed result hdispatched hphase haddressed hturns _ _ =>
    rw [Shaped, hdispatched.phase] at hshaped
    obtain ⟨rounds, round, hrounds⟩ := hshaped
    let answered : Round := ⟨round.text, round.answers ++ [(call, result)], by
      intro answer hanswer
      rcases List.mem_append.mp hanswer with hold | hnew
      · exact round.addressed answer hold
      · rw [List.mem_singleton.mp hnew]
        exact haddressed⟩
    rw [Shaped, hphase]
    cases calls with
    | nil =>
      refine ⟨rounds ++ [answered], ?_⟩
      simp [hturns, hrounds, Round.turns, Round.calls, answered]
    | cons next calls =>
      refine ⟨rounds, answered, ?_⟩
      simp [hturns, hrounds, Round.calls, answered]
  | exhausted _ call calls usage _ hphase _ _ | fatal _ call calls error _ hphase _ _ =>
    rw [Shaped, hphase]
    trivial

end LoopSystem

structure Adapter.Keeps (adapter : Adapter) (input : LoopInput)
    (P : adapter.State → List AssistantTurn → List String → Prop) : Prop where
  init : P adapter.init [] []
  asked : ∀ {rounds : List Round} {state wire received response state' seen} {request},
    request.turns = rounds.flatMap (·.turns) →
    adapter.render state request = .ok wire →
    adapter.received state request received = (.ok response, state') →
    ToolLoop.validateTurnShape response = .ok () → response.toolCalls ≠ [] →
    (∀ call ∈ response.toolCalls, call.callId ∉ seen) →
    response.toolCalls.length ≤ input.limits.maxToolCalls →
    P state (rounds.map fun round => ⟨round.text, round.calls⟩) seen →
    P state' ((rounds.map fun round => ⟨round.text, round.calls⟩) ++
      [⟨response.text, response.toolCalls⟩]) (seen ++ response.toolCalls.map (·.callId))

namespace LoopSystem

variable {adapter : Adapter} {reader : JsonReader} {input : LoopInput}
  {P : adapter.State → List AssistantTurn → List String → Prop}

/-- A loop that goes on has a conversation of the right shape, and the adapter keeps its part. -/
def Running (P : adapter.State → List AssistantTurn → List String → Prop)
    (system : LoopSystem adapter) : Prop :=
  system.Shaped ∧ ((∀ ending, system.phase ≠ .ended ending) →
    P system.adapterState (assistantTurns system.state.turns) system.state.seenCallIds)

theorem Running.effect (hdecided : adapter.Decided) (hkeeps : adapter.Keeps input P)
    {before after : LoopSystem adapter} (hrunning : before.Running P)
    (h : Effect input before after) : after.Running P := by
  refine ⟨hrunning.1.effect h, fun hgoing => ?_⟩
  cases h with
  | idle => exact hrunning.2 hgoing
  | stopped error _ => exact absurd rfl (hgoing _)
  | concluded _ ending _ hphase _ => exact absurd hphase (hgoing ending)
  | retried _ retries hcalled hphase hadapter hturns hseen =>
    obtain ⟨_, hbefore⟩ := hcalled.phase
    rw [hturns, hseen, hadapter hdecided]
    exact hrunning.2 fun ending => by simp [hbefore]
  | asked _ wire received response hcalled hphase hrender hreceived haccepted =>
    obtain ⟨_, hbefore⟩ := hcalled.phase
    obtain ⟨hshaped, hkept⟩ := hrunning
    have hkept := hkept fun ending => by simp [hbefore]
    rw [Shaped, hbefore] at hshaped
    obtain ⟨rounds, hrounds⟩ := hshaped
    rw [hrounds, assistantTurns_flatMap] at hkept
    have hlimit := haccepted.limit
    have hasked := hkeeps.asked hrounds hrender hreceived haccepted.shape haccepted.calls
      haccepted.fresh (by omega) hkept
    rw [haccepted.turns, haccepted.seen, assistantTurns_append, hrounds, assistantTurns_flatMap]
    exact hasked
  | observed _ call calls failed result hdispatched hphase haddressed hturns _ _ =>
    have hkept := hrunning.2 fun ending => by simp [hdispatched.phase]
    rw [hturns, hdispatched.seen, hdispatched.adapterState, assistantTurns_append]
    exact (List.append_nil (assistantTurns before.state.turns)).symm ▸ hkept
  | exhausted _ call calls usage _ hphase _ _ | fatal _ call calls error _ hphase _ _ =>
    exact absurd hphase (hgoing _)

theorem Running.init (hkeeps : adapter.Keeps input P) :
    (LoopSystem.init adapter input).Running P :=
  ⟨shaped_init adapter input, fun _ => hkeeps.init⟩

variable {system : LoopSystem adapter} (hdecided : adapter.Decided) (hkeeps : adapter.Keeps input P)
  (h : (toolLoop adapter reader input).Reachable system)

include hdecided hkeeps h

theorem running_of_reachable :
    system.Running P := by
  refine h.invariant (I := Running P) (.init hkeeps) ?_
  intro state op hrunning
  exact hrunning.effect hdecided hkeeps (exec_effect op state)

theorem rounds_of_reachable {retries : Nat} (hphase : system.phase = .modelTurn retries) :
    ∃ rounds : List Round, system.state.turns = rounds.flatMap (·.turns) ∧
      P system.adapterState (rounds.map fun round => ⟨round.text, round.calls⟩)
        system.state.seenCallIds := by
  obtain ⟨hshaped, hkept⟩ := running_of_reachable hdecided hkeeps h
  have hkept := hkept fun ending => by simp [hphase]
  rw [Shaped, hphase] at hshaped
  obtain ⟨rounds, hrounds⟩ := hshaped
  rw [hrounds, assistantTurns_flatMap] at hkept
  exact ⟨rounds, hrounds, hkept⟩

end LoopSystem

end NervOS
