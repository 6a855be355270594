/-
The usage that an Attempt of the tool loop reports at its end, beside all that the provider
reported: it is the whole as long as no failure is raised over usage that came before.
-/
import NervOS.Application.ToolLoop

namespace NervOS

open Relational

theorem addTokens_none (tokens : Option Nat) : ToolLoop.addTokens tokens none = tokens := by
  cases tokens <;> rfl

@[simp] theorem mergeUsage_empty (usage : ModelUsage) :
    ToolLoop.mergeUsage usage (some {}) = usage := by
  simp only [ToolLoop.mergeUsage, addTokens_none]

theorem mergeUsage_getD (total : ModelUsage) (reported : Option ModelUsage) :
    ToolLoop.mergeUsage total (some (reported.getD {})) = ToolLoop.mergeUsage total reported := by
  cases reported with
  | none => exact mergeUsage_empty total
  | some usage => rfl

section Ledger

variable {adapter : Adapter}

namespace LoopSystem

/-- What `complete` returns or raises for the request of this turn. -/
def completed (input : LoopInput) (system : LoopSystem adapter)
    (outcome : Except ModelProviderError adapter.Response) :
    Except ModelProviderError ModelResponse :=
  match adapter.render system.adapterState (ToolLoop.request input system.state) with
  | .error error => .error error
  | .ok _ =>
    match outcome with
    | .error error => .error error
    | .ok response =>
      (adapter.received system.adapterState (ToolLoop.request input system.state) response).1

end LoopSystem

def outcomeUsage : Except ModelProviderError ModelResponse → ModelUsage
  | .error error => error.usage
  | .ok response => response.usage.getD {}

def LoopOp.withUsage {ρ : Type} (usage : ModelUsage) : LoopOp ρ → LoopOp ρ
  | .dispatched (.fatal error) => .dispatched (.fatal ⟨error.code, usage⟩)
  | .authorityLost error => .authorityLost ⟨error.code, usage⟩
  | op => op

structure UsageLedger (adapter : Adapter) where
  system : LoopSystem adapter
  reported : ModelUsage

namespace UsageLedger

variable (input : LoopInput)

/-- What the provider reports in a step. -/
def reportedBy (system : LoopSystem adapter) : LoopOp adapter.Response → ModelUsage
  | .answered outcome _ =>
    match system.phase with
    | .modelTurn _ =>
      if input.limits.maxModelCalls ≤ system.state.modelCalls then {}
      else outcomeUsage (system.completed input outcome)
    | .dispatch _ | .ended _ => {}
  | .dispatched _ | .authorityLost _ => {}

def exec (reader : JsonReader) (op : LoopOp adapter.Response) (ledger : UsageLedger adapter) :
    UsageLedger adapter where
  system := ledger.system.exec reader input (op.withUsage ledger.system.state.usage)
  reported := ToolLoop.mergeUsage ledger.reported (some (reportedBy input ledger.system op))

end UsageLedger

/-- Every Attempt with what its provider reported. -/
def usageLedger (adapter : Adapter) (reader : JsonReader) (input : LoopInput) :
    Machine (UsageLedger adapter) (LoopOp adapter.Response) where
  init := ⟨.init adapter input, {}⟩
  exec := UsageLedger.exec input reader

/-- The usage that the end of `run` carries. -/
def carriedUsage (modelProvider : String) (limits : RunLimits) (ending : ToolLoop.Ending) :
    ModelUsage :=
  match ending.outcome modelProvider limits with
  | .ok outcome => outcome.usage
  | .error error => error.usage

def IsAnswer (modelProvider : String) (limits : RunLimits) (response : ModelResponse) : Prop :=
  response.modelProvider = modelProvider ∧ isBlankText response.modelName = false ∧
    response.finishReason ≠ .toolUse ∧
      (response.finishReason = .stop → isBlankText response.text = false ∧
        hasNul response.text = false ∧ response.text.length ≤ limits.outputMaxCodePoints ∧
          utf8Length response.text ≤ limits.outputMaxBytes)

def IsTurn (state : LoopState) (response : ModelResponse) : Prop :=
  (response.finishReason = .toolUse ↔ response.toolCalls ≠ []) ∧
    (∀ call ∈ response.toolCalls, ToolLoop.isValidProviderCallId call.callId = true ∧
      call.callId ∉ state.seenCallIds) ∧ (response.toolCalls.map (·.callId)).Nodup

/-- No usage is lost in the step: a rate limit that is tried again adds none, another failure
comes after none, and a turn that is malformed or refused as an answer leaves none. -/
def KeepsUsage (modelProvider : String) (input : LoopInput) (ledger : UsageLedger adapter)
    (op : LoopOp adapter.Response) : Prop :=
  match op, ledger.system.phase with
  | .answered outcome persisted, .modelTurn retries =>
    ledger.system.state.modelCalls < input.limits.maxModelCalls →
      match ledger.system.completed input outcome with
      | .error error =>
        if error.code = modelRateLimited then
          retries < ToolLoop.maxInAttemptModelRetries →
            ledger.system.state.modelCalls + 1 < input.limits.maxModelCalls →
              ToolLoop.mergeUsage ledger.reported (some error.usage) = ledger.reported
        else ToolLoop.mergeUsage ledger.reported (some error.usage) = error.usage
      | .ok response =>
        (¬ IsTurn ledger.system.state response ∨ (persisted = true ∧ response.toolCalls = [] ∧
          ¬ IsAnswer modelProvider input.limits response)) →
          ToolLoop.mergeUsage ledger.reported response.usage = {}
  | _, _ => True

variable {reader : JsonReader} {input : LoopInput} {modelProvider : String}

def AccountedIn (modelProvider : String) (input : LoopInput) (reported : ModelUsage)
    (state : LoopState) : ToolLoop.Phase → Prop
  | .modelTurn retries =>
    (state.modelCalls < input.limits.maxModelCalls ∨ retries = 0 → reported = state.usage) ∧
      (retries ≠ 0 → reported = state.lastUsage)
  | .dispatch _ => reported = state.usage
  | .ended ending => carriedUsage modelProvider input.limits ending = reported

def Accounted (modelProvider : String) (input : LoopInput) (ledger : UsageLedger adapter) : Prop :=
  AccountedIn modelProvider input ledger.reported ledger.system.state ledger.system.phase

theorem carriedUsage_failed (error : ModelProviderError) :
    carriedUsage modelProvider input.limits (.failed error) = error.usage := rfl

variable {response : ModelResponse}

theorem finalChatOutcome_answer {limits : RunLimits} {usage : ModelUsage}
    (hcalls : response.toolCalls = []) (h : IsAnswer modelProvider limits response) :
    carriedUsage modelProvider limits (.concluded response usage) = usage := by
  obtain ⟨hprovider, hname, hreason, htext⟩ := h
  rw [carriedUsage, ToolLoop.Ending.outcome, ToolLoop.finalChatOutcome, if_neg, if_neg]
  · cases hfinish : response.finishReason with
    | incomplete | refused | invalid => rfl
    | toolUse => exact absurd hfinish hreason
    | stop =>
      obtain ⟨hblank, hnul, hlength, hbytes⟩ := htext hfinish
      dsimp only
      rw [if_neg (by simp [hblank, hnul]), if_neg (by omega)]
  · exact not_not.mpr hcalls
  · simp [hprovider, hname]

theorem finalChatOutcome_refused {limits : RunLimits} {usage : ModelUsage}
    (h : ¬ IsAnswer modelProvider limits response) :
    carriedUsage modelProvider limits (.concluded response usage) = {} := by
  rw [carriedUsage, ToolLoop.Ending.outcome, ToolLoop.finalChatOutcome]
  by_cases hidentity : response.modelProvider ≠ modelProvider ∨
      isBlankText response.modelName = true
  · rw [if_pos hidentity]
    rfl
  by_cases hcalls : response.toolCalls ≠ []
  · rw [if_neg hidentity, if_pos hcalls]
    rfl
  rw [if_neg hidentity, if_neg hcalls]
  rw [not_or, not_not, Bool.not_eq_true] at hidentity
  cases hfinish : response.finishReason with
  | toolUse => rfl
  | incomplete | refused | invalid =>
    exact absurd ⟨hidentity.1, hidentity.2, by simp [hfinish], by simp [hfinish]⟩ h
  | stop =>
    dsimp only
    by_cases hblank : isBlankText response.text = true ∨ hasNul response.text = true
    · rw [if_pos hblank]
      rfl
    by_cases hlong : limits.outputMaxCodePoints < response.text.length ∨
        limits.outputMaxBytes < utf8Length response.text
    · rw [if_neg hblank, if_pos hlong]
    rw [not_or, Bool.not_eq_true, Bool.not_eq_true] at hblank
    refine absurd ⟨hidentity.1, hidentity.2, by simp [hfinish], fun _ => ?_⟩ h
    exact ⟨hblank.1, hblank.2, by omega, by omega⟩

section Step

variable {ledger : UsageLedger adapter} {state : LoopState} {reported : ModelUsage}

theorem accounted_failure (state : LoopState) {retries : Nat} {error : ModelProviderError}
    (hreported : reported = state.usage)
    (hkeeps : if error.code = modelRateLimited then
        retries < ToolLoop.maxInAttemptModelRetries →
          state.modelCalls < input.limits.maxModelCalls →
            ToolLoop.mergeUsage reported (some error.usage) = reported
      else ToolLoop.mergeUsage reported (some error.usage) = error.usage) :
    AccountedIn modelProvider input (ToolLoop.mergeUsage reported (some error.usage))
      (ToolLoop.rememberUsage state error) (ToolLoop.afterFailure state retries error) := by
  subst hreported
  rw [ToolLoop.afterFailure]
  by_cases hcode : error.code = modelRateLimited
  · rw [if_pos hcode] at hkeeps
    rw [if_neg (not_not.mpr hcode)]
    split_ifs with hretries
    · rfl
    · refine ⟨?_, fun _ => rfl⟩
      rintro (hbudget | hzero)
      · exact hkeeps (not_le.mp hretries) hbudget
      · cases hzero
  · rw [if_neg hcode] at hkeeps
    rw [if_pos hcode]
    exact hkeeps.symm

theorem accounted_response (state : LoopState) {response : ModelResponse} {persisted : Bool}
    (hreported : reported = state.usage)
    (hkeeps : (¬ IsTurn state response ∨ (persisted = true ∧ response.toolCalls = [] ∧
      ¬ IsAnswer modelProvider input.limits response)) →
        ToolLoop.mergeUsage reported response.usage = {}) :
    AccountedIn modelProvider input (ToolLoop.mergeUsage reported response.usage)
      (ToolLoop.acceptTurn input state response persisted).1
      (ToolLoop.acceptTurn input state response persisted).2 := by
  subst hreported
  rw [ToolLoop.acceptTurn, ToolLoop.validateTurnShape, ToolLoop.registerCallIds]
  by_cases hshape : response.finishReason = .toolUse ↔ response.toolCalls ≠ []
  · rw [if_pos hshape]
    by_cases hids : (∀ call ∈ response.toolCalls,
        ToolLoop.isValidProviderCallId call.callId = true ∧ call.callId ∉ state.seenCallIds) ∧
          (response.toolCalls.map (·.callId)).Nodup
    · rw [if_pos hids]
      dsimp only
      by_cases hpersisted : persisted = false
      · rw [if_pos hpersisted]
        rfl
      rw [if_neg hpersisted]
      by_cases hcalls : response.toolCalls = []
      · rw [if_pos hcalls, AccountedIn]
        by_cases hanswer : IsAnswer modelProvider input.limits response
        · rw [finalChatOutcome_answer hcalls hanswer]
        · rw [finalChatOutcome_refused hanswer]
          exact (hkeeps (Or.inr ⟨by simpa using hpersisted, hcalls, hanswer⟩)).symm
      rw [if_neg hcalls]
      split_ifs <;> rfl
    · rw [if_neg hids]
      exact (hkeeps (Or.inl fun hturn => hids hturn.2)).symm
  · rw [if_neg hshape]
    exact (hkeeps (Or.inl fun hturn => hshape hturn.1)).symm

theorem accounted_nextPhase (calls : List ToolCall) (hreported : reported = state.usage) :
    AccountedIn modelProvider input reported state (ToolLoop.nextPhase calls) := by
  cases calls with
  | nil => exact ⟨fun _ => hreported, fun hne => absurd rfl hne⟩
  | cons call rest => exact hreported

theorem accounted_observeFailure {callId note : String} {calls : List ToolCall}
    (hreported : reported = state.usage) :
    AccountedIn modelProvider input reported
      (ToolLoop.observeFailure input state callId note (ToolLoop.nextPhase calls)).1
      (ToolLoop.observeFailure input state callId note (ToolLoop.nextPhase calls)).2 := by
  rw [ToolLoop.observeFailure]
  dsimp only
  split_ifs with hlimit
  · exact hreported.symm
  · exact accounted_nextPhase calls hreported

theorem accounted_dispatch {call : ToolCall} {calls : List ToolCall}
    {outcome : ToolLoop.MediatedOutcome} (hreported : reported = state.usage)
    (houtcome : ∀ error, outcome = .fatal error → error.usage = state.usage) :
    AccountedIn modelProvider input reported
      (ToolLoop.dispatch reader input state call outcome (ToolLoop.nextPhase calls)).1
      (ToolLoop.dispatch reader input state call outcome (ToolLoop.nextPhase calls)).2 := by
  rw [ToolLoop.dispatch]
  by_cases hunknown : ∀ schema ∈ input.catalog, schema.name ≠ call.name
  · rw [if_pos hunknown]
    exact accounted_observeFailure hreported
  by_cases hparsed : ToolLoop.parseArguments reader call.argumentsJson = none
  · rw [if_neg hunknown, if_pos hparsed]
    exact accounted_observeFailure hreported
  rw [if_neg hunknown, if_neg hparsed]
  cases outcome with
  | denied | invalidArguments | failed => exact accounted_observeFailure hreported
  | fatal error => exact (houtcome error rfl).trans hreported.symm
  | succeeded text structured => exact accounted_nextPhase calls hreported

theorem accounted_answer {retries : Nat} {outcome : Except ModelProviderError adapter.Response}
    {persisted : Bool} (hphase : ledger.system.phase = .modelTurn retries)
    (h : Accounted modelProvider input ledger)
    (hkeeps : KeepsUsage modelProvider input ledger (.answered outcome persisted))
    (hbudget : ledger.system.state.modelCalls < input.limits.maxModelCalls) :
    Accounted modelProvider input
      ⟨ledger.system.answer input retries outcome persisted,
        ToolLoop.mergeUsage ledger.reported
          (some (outcomeUsage (ledger.system.completed input outcome)))⟩ := by
  rw [Accounted, hphase] at h
  have hreported := h.1 (Or.inl hbudget)
  simp only [KeepsUsage, hphase] at hkeeps
  replace hkeeps := hkeeps hbudget
  let called := { ledger.system.state with modelCalls := ledger.system.state.modelCalls + 1 }
  unfold LoopSystem.completed at hkeeps ⊢
  unfold LoopSystem.answer
  dsimp only
  cases hrender : adapter.render ledger.system.adapterState
      (ToolLoop.request input ledger.system.state) with
  | error error =>
    simp only [hrender] at hkeeps
    exact accounted_failure called hreported hkeeps
  | ok wire =>
    simp only [hrender] at hkeeps
    cases outcome with
    | error error => exact accounted_failure called hreported hkeeps
    | ok received =>
      dsimp only at hkeeps ⊢
      cases hreceived : adapter.received ledger.system.adapterState
          (ToolLoop.request input ledger.system.state) received with
      | mk response adapterState =>
        simp only [hreceived] at hkeeps
        cases response with
        | error error => exact accounted_failure called hreported hkeeps
        | ok response =>
          simp only [outcomeUsage, mergeUsage_getD]
          exact accounted_response called hreported hkeeps

theorem accounted_exec {op : LoopOp adapter.Response} (h : Accounted modelProvider input ledger)
    (hkeeps : KeepsUsage modelProvider input ledger op) :
    Accounted modelProvider input ((usageLedger adapter reader input).exec op ledger) := by
  have hidle : Accounted modelProvider input
      ⟨ledger.system, ToolLoop.mergeUsage ledger.reported (some {})⟩ := by
    rw [mergeUsage_empty]
    exact h
  cases op with
  | answered outcome persisted =>
    cases hphase : ledger.system.phase with
    | modelTurn retries =>
      simp only [usageLedger, UsageLedger.exec, LoopOp.withUsage, LoopSystem.exec, hphase,
        UsageLedger.reportedBy]
      split_ifs with hbudget
      · -- the budget is spent
        rw [Accounted, hphase] at h
        rw [mergeUsage_empty, Accounted, AccountedIn]
        dsimp only
        rw [carriedUsage_failed, ToolLoop.budgetError]
        split_ifs with hretries
        · exact (h.1 (Or.inr hretries)).symm
        · exact (h.2 hretries).symm
      · exact accounted_answer hphase h hkeeps (not_le.mp hbudget)
    | dispatch calls | ended ending =>
      simp only [usageLedger, UsageLedger.exec, LoopOp.withUsage, LoopSystem.exec, hphase,
        UsageLedger.reportedBy]
      exact hidle
  | dispatched outcome =>
    cases hphase : ledger.system.phase with
    | dispatch calls =>
      cases calls with
      | nil => cases outcome <;>
          simpa only [usageLedger, UsageLedger.exec, LoopOp.withUsage, LoopSystem.exec, hphase,
            UsageLedger.reportedBy] using hidle
      | cons call rest =>
        rw [Accounted, hphase] at h
        rw [Accounted]
        cases outcome <;>
          simp only [usageLedger, UsageLedger.exec, LoopOp.withUsage, LoopSystem.exec,
            hphase, UsageLedger.reportedBy, mergeUsage_empty]
        case fatal error =>
          refine accounted_dispatch h ?_
          rintro _ ⟨rfl⟩
          rfl
        all_goals
          refine accounted_dispatch h ?_
          rintro _ ⟨⟩
    | modelTurn _ | ended _ =>
      cases outcome <;>
        simpa only [usageLedger, UsageLedger.exec, LoopOp.withUsage, LoopSystem.exec, hphase,
          UsageLedger.reportedBy] using hidle
  | authorityLost error =>
    cases hphase : ledger.system.phase with
    | dispatch calls =>
      rw [Accounted, hphase] at h
      simp only [usageLedger, UsageLedger.exec, LoopOp.withUsage, LoopSystem.exec, hphase,
        UsageLedger.reportedBy, mergeUsage_empty]
      exact Eq.symm h
    | modelTurn _ | ended _ =>
      simpa only [usageLedger, UsageLedger.exec, LoopOp.withUsage, LoopSystem.exec, hphase,
        UsageLedger.reportedBy] using hidle

end Step

/-- In every run that loses no usage in a step, the end carries the sum of all that the provider
reported. -/
theorem usage_accounted {ledger : UsageLedger adapter}
    (h : (usageLedger adapter reader input).ReachableAlong (KeepsUsage modelProvider input) ledger)
    {ending : ToolLoop.Ending} (hended : ledger.system.phase = .ended ending) :
    carriedUsage modelProvider input.limits ending = ledger.reported := by
  have haccounted : Accounted modelProvider input ledger := by
    apply h.invariant
    · rw [Accounted]
      change AccountedIn modelProvider input {} {} (LoopSystem.init adapter input).phase
      rw [LoopSystem.init]
      dsimp only
      split_ifs
      · rfl
      · exact ⟨fun _ => rfl, fun hne => absurd rfl hne⟩
    · exact fun _ _ haccounted hkeeps => accounted_exec haccounted hkeeps
  rw [Accounted, hended] at haccounted
  exact haccounted

end Ledger

def plainAdapter : Adapter where
  State := Unit
  Response := ModelResponse
  Wire := Unit
  init := ()
  render _ _ := .ok ()
  received _ _ response := (.ok response, ())

def chatInput : LoopInput where
  systemInstruction := ""
  userText := "u"
  modelName := "m"
  limits := toolEnabledLimits
  catalog := []
  history := []
  compactionContext := none
  userMemoryContext := none
  agentMemoryContext := none

def chatAnswer : ModelResponse where
  text := "a"
  modelProvider := "p"
  modelName := "m"
  finishReason := .stop
  usage := some { inputTokens := some 3 }
  toolCalls := []

/-- A rate limit that reports `usage`, and then the answer. -/
def limitedAttempt (usage : ModelUsage) : List (LoopOp ModelResponse) :=
  [.answered (.error ⟨modelRateLimited, usage⟩) true, .answered (.ok chatAnswer) true]

def limitedLedger (usage : ModelUsage) : UsageLedger plainAdapter :=
  (usageLedger plainAdapter canonicalReader chatInput).run (limitedAttempt usage)
    (usageLedger plainAdapter canonicalReader chatInput).init

theorem usage_accounted_limited :
    carriedUsage "p" toolEnabledLimits (.concluded chatAnswer { inputTokens := some 3 }) =
      (limitedLedger {}).reported := by
  have halong : (usageLedger plainAdapter canonicalReader chatInput).ReachableAlong
      (KeepsUsage "p" chatInput) (limitedLedger {}) := by
    refine ⟨limitedAttempt {}, ?_, rfl⟩
    refine ⟨fun _ _ _ => rfl, fun _ hlost => ?_, trivial⟩
    rcases hlost with hturn | hanswer
    · exact absurd ⟨by decide, by decide, by decide⟩ hturn
    · exact absurd ⟨rfl, by decide +kernel, by decide, fun _ => by decide +kernel⟩ hanswer.2.2
  exact usage_accounted halong rfl

/-- The answer carries its own three tokens, and not the five of the rate limit before it. -/
theorem retried_usage_lost : ¬ ∀ (adapter : Adapter) (reader : JsonReader) (input : LoopInput)
    (modelProvider : String) (ledger : UsageLedger adapter) (ending : ToolLoop.Ending),
    (usageLedger adapter reader input).Reachable ledger →
      ledger.system.phase = .ended ending →
        carriedUsage modelProvider input.limits ending = ledger.reported := by
  intro h
  have hlost := h plainAdapter canonicalReader chatInput "p"
    (limitedLedger { inputTokens := some 5 }) (.concluded chatAnswer { inputTokens := some 3 })
    ⟨limitedAttempt { inputTokens := some 5 }, rfl⟩ rfl
  exact absurd hlost (by decide +kernel)

end NervOS
