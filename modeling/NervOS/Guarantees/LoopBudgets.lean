/-
The budgets of the tool loop, and the conversation that every request carries.
-/
import NervOS.Refinement.ToolLoop

namespace NervOS

def conversationCalls (turns : List ConversationTurn) : List ToolCall :=
  (assistantTurns turns).flatMap (·.toolCalls)

theorem conversationCalls_append (left right : List ConversationTurn) :
    conversationCalls (left ++ right) = conversationCalls left ++ conversationCalls right := by
  rw [conversationCalls, assistantTurns_append, List.flatMap_append]
  rfl

def Conversation (turns : List ConversationTurn) : Prop :=
  ∃ rounds : List Round, turns = rounds.flatMap (·.turns) ∧
    ((rounds.flatMap (·.calls)).map (·.callId)).Nodup

def trailingFailures (outcomes : List Bool) : Nat :=
  (outcomes.reverse.takeWhile id).length

theorem trailingFailures_append (outcomes : List Bool) (failed : Bool) :
    trailingFailures (outcomes ++ [failed]) =
      if failed then trailingFailures outcomes + 1 else 0 := by
  cases failed <;> simp [trailingFailures]

namespace LoopSystem

variable {adapter : Adapter} {input : LoopInput}
  {before after system : LoopSystem adapter}

def pendingCalls (system : LoopSystem adapter) : Option (List ToolCall) :=
  match system.phase with
  | .modelTurn _ => some []
  | .dispatch calls => some calls
  | .ended _ => none

structure Budgeted (input : LoopInput) (system : LoopSystem adapter) : Prop where
  shaped : system.Shaped
  requests : system.requests.length = system.state.modelCalls
  modelCalls : system.state.modelCalls ≤ input.limits.maxModelCalls
  dispatched : system.dispatched.length = system.state.toolCalls
  batches : ∃ calls, system.dispatched ++ calls = conversationCalls system.state.turns ∧
    ∀ pending, system.pendingCalls = some pending → calls = pending
  toolCalls : (conversationCalls system.state.turns).length ≤ input.limits.maxToolCalls
  seen : (∀ ending, system.phase ≠ .ended ending) →
    system.state.seenCallIds = (conversationCalls system.state.turns).map (·.callId)
  distinct : ((conversationCalls system.state.turns).map (·.callId)).Nodup
  requested : ∀ request ∈ system.requests, Conversation request.turns
  failures : trailingFailures system.outcomes = system.state.consecutiveFailures
  limit : input.limits.maxConsecutiveToolFailures ≤ system.state.consecutiveFailures →
    ∃ usage, system.phase = .ended (.failed ⟨toolLoopLimit, usage⟩)

theorem budgeted_init (adapter : Adapter) (input : LoopInput) :
    (LoopSystem.init adapter input).Budgeted input := by
  have hfailures := input.limits.positive.2.2.2.2.2.2.2.2.2
  refine ⟨shaped_init adapter input, rfl, Nat.zero_le _, rfl, ⟨[], rfl, ?_⟩, Nat.zero_le _,
    fun _ => rfl, List.nodup_nil, nofun, rfl, fun hlimit => ?_⟩
  · intro pending hpending
    rw [pendingCalls, LoopSystem.init] at hpending
    dsimp only at hpending
    split_ifs at hpending
    exact Option.some.inj hpending
  · exact absurd hlimit (not_le.mpr hfailures)

theorem Budgeted.conversation (h : system.Budgeted input)
    (hphase : ∃ retries, system.phase = .modelTurn retries) :
    Conversation (ToolLoop.request input system.state).turns := by
  obtain ⟨retries, hphase⟩ := hphase
  have hshaped := h.shaped
  rw [Shaped, hphase] at hshaped
  obtain ⟨rounds, hrounds⟩ := hshaped
  have hdistinct := h.distinct
  rw [conversationCalls, hrounds, assistantTurns_flatMap, List.flatMap_map] at hdistinct
  exact ⟨rounds, hrounds, hdistinct⟩

theorem Budgeted.called (h : before.Budgeted input) (hcalled : Called input before after) :
    after.requests.length = after.state.modelCalls ∧
      after.state.modelCalls ≤ input.limits.maxModelCalls ∧
      after.dispatched.length = after.state.toolCalls ∧
      (∀ request ∈ after.requests, Conversation request.turns) ∧
      trailingFailures after.outcomes = after.state.consecutiveFailures := by
  have hbudget := hcalled.budget
  refine ⟨?_, ?_, ?_, ?_, ?_⟩
  · rw [hcalled.requests, hcalled.modelCalls, List.length_append, h.requests]
    rfl
  · rw [hcalled.modelCalls]
    omega
  · rw [hcalled.dispatched, hcalled.toolCalls, h.dispatched]
  · rw [hcalled.requests]
    intro request hrequest
    rcases List.mem_append.mp hrequest with hold | hnew
    · exact h.requested request hold
    · rw [List.mem_singleton.mp hnew]
      exact h.conversation hcalled.phase
  · rw [hcalled.outcomes, hcalled.consecutiveFailures, h.failures]

theorem Budgeted.dispatched_call (h : before.Budgeted input) {call : ToolCall}
    {calls : List ToolCall} {failed : Option Bool}
    (hdispatched : Dispatched before call calls failed after) :
    after.requests.length = after.state.modelCalls ∧
      after.state.modelCalls ≤ input.limits.maxModelCalls ∧
      after.dispatched.length = after.state.toolCalls ∧
      after.dispatched ++ calls = conversationCalls before.state.turns ∧
      (∀ request ∈ after.requests, Conversation request.turns) := by
  obtain ⟨rest, hbatches, hrest⟩ := h.batches
  have hpending : rest = call :: calls := hrest _ (by rw [pendingCalls, hdispatched.phase])
  refine ⟨?_, ?_, ?_, ?_, ?_⟩
  · rw [hdispatched.requests, hdispatched.modelCalls, h.requests]
  · rw [hdispatched.modelCalls]
    exact h.modelCalls
  · rw [hdispatched.dispatched, hdispatched.toolCalls, List.length_append, h.dispatched]
    rfl
  · rw [hdispatched.dispatched, List.append_assoc, ← hbatches, hpending]
    rfl
  · rw [hdispatched.requests]
    exact h.requested

theorem Budgeted.below (h : system.Budgeted input)
    (hgoing : ∀ ending, system.phase ≠ .ended ending) :
    system.state.consecutiveFailures < input.limits.maxConsecutiveToolFailures := by
  by_contra hlimit
  obtain ⟨usage, hended⟩ := h.limit (not_lt.mp hlimit)
  exact hgoing _ hended

theorem Called.going (hcalled : Called input before after) :
    ∀ ending, before.phase ≠ .ended ending := by
  obtain ⟨retries, hphase⟩ := hcalled.phase
  exact fun ending => by simp [hphase]

theorem Dispatched.going {call : ToolCall} {calls : List ToolCall} {failed : Option Bool}
    (hdispatched : Dispatched before call calls failed after) :
    ∀ ending, before.phase ≠ .ended ending :=
  fun ending => by simp [hdispatched.phase]

theorem Called.batches (hcalled : Called input before after) (h : before.Budgeted input) :
    after.dispatched = conversationCalls before.state.turns := by
  obtain ⟨calls, hbatches, hcalls⟩ := h.batches
  obtain ⟨retries, hphase⟩ := hcalled.phase
  have hpending : calls = [] := hcalls _ (by rw [pendingCalls, hphase])
  rw [hcalled.dispatched, ← hbatches, hpending, List.append_nil]

theorem conversationCalls_asked (turns : List ConversationTurn) (response : ModelResponse) :
    conversationCalls (turns ++ [.assistant ⟨response.text, response.toolCalls⟩]) =
      conversationCalls turns ++ response.toolCalls := by
  rw [conversationCalls_append]
  simp [conversationCalls, assistantTurns]

theorem conversationCalls_observed (turns : List ConversationTurn) (result : ToolResultTurn) :
    conversationCalls (turns ++ [.toolResult result]) = conversationCalls turns := by
  rw [conversationCalls_append]
  simp [conversationCalls, assistantTurns]

theorem Budgeted.effect (h : before.Budgeted input) (heffect : Effect input before after) :
    after.Budgeted input := by
  have hshaped := h.shaped.effect heffect
  cases heffect with
  | idle => exact h
  | stopped error hgoing =>
    obtain ⟨calls, hbatches, -⟩ := h.batches
    exact ⟨hshaped, h.requests, h.modelCalls, h.dispatched, ⟨calls, hbatches, nofun⟩,
      h.toolCalls, fun hended => absurd rfl (hended _), h.distinct, h.requested, h.failures,
      fun hlimit => absurd hlimit (not_le.mpr (h.below hgoing))⟩
  | concluded _ ending hcalled hphase hturns =>
    obtain ⟨hrequests, hmodelCalls, hdispatched, hrequested, hfailures⟩ := h.called hcalled
    refine ⟨hshaped, hrequests, hmodelCalls, hdispatched, ⟨[], ?_, ?_⟩, ?_, ?_, ?_, hrequested,
      hfailures, ?_⟩
    · rw [hcalled.batches h, hturns, List.append_nil]
    · simp [pendingCalls, hphase]
    · rw [hturns]
      exact h.toolCalls
    · exact fun hgoing => absurd hphase (hgoing ending)
    · rw [hturns]
      exact h.distinct
    · rw [hcalled.consecutiveFailures]
      exact fun hlimit => absurd hlimit (not_le.mpr (h.below hcalled.going))
  | retried _ retries hcalled hphase _ hturns hseen =>
    obtain ⟨hrequests, hmodelCalls, hdispatched, hrequested, hfailures⟩ := h.called hcalled
    refine ⟨hshaped, hrequests, hmodelCalls, hdispatched, ⟨[], ?_, ?_⟩, ?_, ?_, ?_, hrequested,
      hfailures, ?_⟩
    · rw [hcalled.batches h, hturns, List.append_nil]
    · simp [pendingCalls, hphase]
    · rw [hturns]
      exact h.toolCalls
    · rw [hturns, hseen]
      exact fun _ => h.seen hcalled.going
    · rw [hturns]
      exact h.distinct
    · rw [hcalled.consecutiveFailures]
      exact fun hlimit => absurd hlimit (not_le.mpr (h.below hcalled.going))
  | asked _ wire received response hcalled hphase _ _ haccepted =>
    obtain ⟨hrequests, hmodelCalls, hdispatched, hrequested, hfailures⟩ := h.called hcalled
    have hlimit := haccepted.limit
    have hbefore : (conversationCalls before.state.turns).length = before.state.toolCalls := by
      rw [← hcalled.batches h, hdispatched, hcalled.toolCalls]
    have hseen := h.seen hcalled.going
    refine ⟨hshaped, hrequests, hmodelCalls, hdispatched, ⟨response.toolCalls, ?_, ?_⟩, ?_, ?_,
      ?_, hrequested, hfailures, ?_⟩
    · rw [hcalled.batches h, haccepted.turns, conversationCalls_asked]
    · simp [pendingCalls, hphase]
    · rw [haccepted.turns, conversationCalls_asked, List.length_append]
      omega
    · rw [haccepted.turns, haccepted.seen, hseen, conversationCalls_asked, List.map_append]
      exact fun _ => rfl
    · rw [haccepted.turns, conversationCalls_asked, List.map_append, List.nodup_append]
      refine ⟨h.distinct, haccepted.distinct, ?_⟩
      rintro callId hold _ hnew rfl
      obtain ⟨call, hcall, rfl⟩ := List.mem_map.mp hnew
      exact haccepted.fresh call hcall (hseen ▸ hold)
    · rw [hcalled.consecutiveFailures]
      exact fun hlimit => absurd hlimit (not_le.mpr (h.below hcalled.going))
  | observed _ call calls failed result hdispatched hphase haddressed hturns hfailures hlimit =>
    obtain ⟨hrequests, hmodelCalls, hlength, hbatches, hrequested⟩ :=
      h.dispatched_call hdispatched
    have hcalls : conversationCalls after.state.turns =
        conversationCalls before.state.turns := by
      rw [hturns, conversationCalls_observed]
    refine ⟨hshaped, hrequests, hmodelCalls, hlength, ⟨calls, ?_, ?_⟩, ?_, ?_, ?_, hrequested,
      ?_, ?_⟩
    · rw [hcalls, hbatches]
    · rw [pendingCalls, hphase]
      cases calls <;> simp [ToolLoop.nextPhase]
    · rw [hcalls]
      exact h.toolCalls
    · rw [hcalls, hdispatched.seen]
      exact fun _ => h.seen hdispatched.going
    · rw [hcalls]
      exact h.distinct
    · rw [hdispatched.outcomes, hfailures, ← h.failures]
      exact trailingFailures_append before.outcomes failed
    · exact fun hreached => absurd hreached (not_le.mpr hlimit)
  | exhausted _ call calls usage hdispatched hphase hturns hfailures =>
    obtain ⟨hrequests, hmodelCalls, hlength, hbatches, hrequested⟩ :=
      h.dispatched_call hdispatched
    refine ⟨hshaped, hrequests, hmodelCalls, hlength, ⟨calls, ?_, ?_⟩, ?_, ?_, ?_, hrequested,
      ?_, ?_⟩
    · rw [hturns, hbatches]
    · simp [pendingCalls, hphase]
    · rw [hturns]
      exact h.toolCalls
    · exact fun hgoing => absurd hphase (hgoing _)
    · rw [hturns]
      exact h.distinct
    · rw [hdispatched.outcomes, hfailures, ← h.failures]
      exact trailingFailures_append before.outcomes true
    · exact fun _ => ⟨usage, hphase⟩
  | fatal _ call calls error hdispatched hphase hturns hfailures =>
    obtain ⟨hrequests, hmodelCalls, hlength, hbatches, hrequested⟩ :=
      h.dispatched_call hdispatched
    refine ⟨hshaped, hrequests, hmodelCalls, hlength, ⟨calls, ?_, ?_⟩, ?_, ?_, ?_, hrequested,
      ?_, ?_⟩
    · rw [hturns, hbatches]
    · simp [pendingCalls, hphase]
    · rw [hturns]
      exact h.toolCalls
    · exact fun hgoing => absurd hphase (hgoing _)
    · rw [hturns]
      exact h.distinct
    · rw [hdispatched.outcomes, hfailures, ← h.failures]
      exact congrArg trailingFailures (List.append_nil _)
    · rw [hfailures]
      exact fun hlimit => absurd hlimit (not_le.mpr (h.below hdispatched.going))

end LoopSystem

/-- In every run of the loop against any adapter: the provider calls and the dispatched calls
stay within their budgets; what is dispatched is the beginning of batches that fit the budget as
a whole; too many failures in a row end the loop; and every request carries complete rounds with
distinct call ids. -/
theorem loop_budgets (adapter : Adapter) (reader : JsonReader) (input : LoopInput)
    (system : LoopSystem adapter) (h : (toolLoop adapter reader input).Reachable system) :
    system.requests.length ≤ input.limits.maxModelCalls ∧
      system.dispatched.length ≤ input.limits.maxToolCalls ∧
      system.dispatched <+: conversationCalls system.state.turns ∧
      (conversationCalls system.state.turns).length ≤ input.limits.maxToolCalls ∧
      (input.limits.maxConsecutiveToolFailures ≤ trailingFailures system.outcomes →
        ∃ usage, system.phase = .ended (.failed ⟨toolLoopLimit, usage⟩)) ∧
      ∀ request ∈ system.requests, Conversation request.turns := by
  have hbudgeted : system.Budgeted input := by
    refine h.invariant (I := LoopSystem.Budgeted input)
      (LoopSystem.budgeted_init adapter input) ?_
    intro before op hbefore
    exact hbefore.effect (LoopSystem.exec_effect op before)
  obtain ⟨calls, hbatches, -⟩ := hbudgeted.batches
  have hprefix : system.dispatched <+: conversationCalls system.state.turns := ⟨calls, hbatches⟩
  refine ⟨?_, hprefix.length_le.trans hbudgeted.toolCalls, hprefix, hbudgeted.toolCalls, ?_,
    hbudgeted.requested⟩
  · rw [hbudgeted.requests]
    exact hbudgeted.modelCalls
  · rw [hbudgeted.failures]
    exact hbudgeted.limit

/-- A completion that hands over its responses as they are. -/
def directAdapter : Adapter where
  State := Unit
  Response := ModelResponse
  Wire := ModelRequest
  init := ()
  render _ request := .ok request
  received _ _ response := (.ok response, ())

def sampleLoopInput : LoopInput where
  systemInstruction := ""
  userText := "u"
  modelName := "m"
  limits := toolEnabledLimits
  catalog := []
  history := []
  compactionContext := none
  userMemoryContext := none
  agentMemoryContext := none

/-- A turn with one call, which is to an unknown tool. -/
def sampleLoopOps : List (LoopOp ModelResponse) :=
  [.answered (.ok ⟨"", "p", "m", .toolUse, none, [⟨"a", "read", "{}"⟩]⟩) true,
    .dispatched .denied]

def sampleLoop : LoopSystem directAdapter :=
  (toolLoop directAdapter canonicalReader sampleLoopInput).run sampleLoopOps
    (.init directAdapter sampleLoopInput)

theorem loop_budgets_sampleLoop :
    sampleLoop.dispatched.length ≤ 8 ∧
      sampleLoop.dispatched <+: conversationCalls sampleLoop.state.turns := by
  obtain ⟨-, hlength, hprefix, -⟩ := loop_budgets directAdapter canonicalReader sampleLoopInput
    sampleLoop ⟨sampleLoopOps, rfl⟩
  exact ⟨hlength, hprefix⟩

end NervOS
