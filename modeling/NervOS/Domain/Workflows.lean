/-
Durable workflow values: the lifecycle and its transitions, bounded application
state, directives, decision requests, and cumulative budgets.
-/
import NervOS.Json.Text
import NervOS.Application.Tools

namespace NervOS

section Lifecycle

inductive WorkflowStatus where
  | pending
  | runnable
  | running
  | waiting
  | succeeded
  | failed
  | cancelled
  | needsReview
deriving DecidableEq, Repr

def WorkflowStatus.IsTerminal : WorkflowStatus → Prop
  | .succeeded | .failed | .cancelled | .needsReview => True
  | .pending | .runnable | .running | .waiting => False

instance : DecidablePred WorkflowStatus.IsTerminal
  | .succeeded | .failed | .cancelled | .needsReview => isTrue trivial
  | .pending | .runnable | .running | .waiting => isFalse id

/-- States in which a tick may accept a new continuation. -/
def WorkflowStatus.IsDispatchable : WorkflowStatus → Prop
  | .pending | .runnable | .waiting => True
  | .running | .succeeded | .failed | .cancelled | .needsReview => False

instance : DecidablePred WorkflowStatus.IsDispatchable
  | .pending | .runnable | .waiting => isTrue trivial
  | .running | .succeeded | .failed | .cancelled | .needsReview => isFalse id

def allowedTransitions : WorkflowStatus → List WorkflowStatus
  | .pending => [.running, .waiting, .succeeded, .failed, .cancelled, .needsReview]
  | .runnable => [.running, .waiting, .succeeded, .failed, .cancelled, .needsReview]
  | .running => [.runnable, .waiting, .succeeded, .failed, .cancelled, .needsReview]
  | .waiting => [.runnable, .running, .succeeded, .failed, .cancelled, .needsReview]
  | .succeeded | .failed | .cancelled | .needsReview => []

variable {status : WorkflowStatus}

theorem not_terminal_of_dispatchable (h : status.IsDispatchable) :
    ¬ status.IsTerminal := by
  cases status with
  | pending | runnable | waiting => exact id
  | running | succeeded | failed | cancelled | needsReview => exact h.elim

theorem dispatchable_of_resting (hactive : ¬ status.IsTerminal) (hresting : status ≠ .running) :
    status.IsDispatchable := by
  cases status with
  | pending | runnable | waiting => trivial
  | running => exact hresting rfl
  | succeeded | failed | cancelled | needsReview => exact hactive trivial

theorem not_terminal_of_cancellable (h : .cancelled ∈ allowedTransitions status) :
    ¬ status.IsTerminal := by
  intro hterminal
  cases status with
  | succeeded | failed | cancelled | needsReview => cases h
  | pending | runnable | running | waiting => exact hterminal

theorem mem_allowed_of_dispatchable {status status' : WorkflowStatus}
    (h : status.IsDispatchable)
    (hstatus : status' ∈ [.running, .failed, .cancelled, .needsReview]) :
    status' ∈ allowedTransitions status := by
  cases status with
  | pending | runnable | waiting =>
    revert hstatus
    cases status' <;> decide
  | running | succeeded | failed | cancelled | needsReview => exact h.elim

inductive WorkflowWaitKind where
  | time
  | signal
  | ownerDecision
deriving DecidableEq, Repr

inductive WorkflowStepStatus where
  | pending
  | running
  | succeeded
  | failed
  | cancelled
deriving DecidableEq, Repr

def WorkflowStepStatus.IsTerminal : WorkflowStepStatus → Prop
  | .succeeded | .failed | .cancelled => True
  | .pending | .running => False

instance : DecidablePred WorkflowStepStatus.IsTerminal
  | .succeeded | .failed | .cancelled => isTrue trivial
  | .pending | .running => isFalse id

inductive WorkflowDecisionState where
  | pending
  | approved
  | denied
  | expired
  | cancelled
  | consumed
deriving DecidableEq, Repr

/-- The closed set of reasons for which a workflow is finished by the Scheduler. -/
inductive ReviewReason where
  | configurationChanged
  | ambiguousExternalEffect
  | runTerminal
  | authorityLost
  | deadlineExceeded
  | budgetExhausted
  | stepLimit
deriving DecidableEq, Repr

end Lifecycle

def maxStepsHard : Nat := 128
def checkpointMaxBytes : Nat := 64 * 1024
def jsonMaxDepth : Nat := 16
def jsonMaxNodes : Nat := 4096
def signalMaxBytes : Nat := 8 * 1024
def summaryMaxChars : Nat := 512
def modelCallReservationHard : Nat := 2048
def toolCallReservationHard : Nat := 2048
def outputTokenReservationHard : Nat := 2097152
def deadlineHoursHard : Nat := 168
def maxRetainedCheckpoints : Nat := 128
def workflowStateSchemaVersion : Nat := 1
def workflowJobMaxAttempts : Nat := 1

def Measured (value : Json.Value) : Prop :=
  value.depth ≤ jsonMaxDepth ∧ value.nodes ≤ jsonMaxNodes

instance : DecidablePred Measured := fun _ => inferInstanceAs (Decidable (_ ∧ _))

def IsJsonObject : Json.Value → Prop
  | .obj _ => True
  | .null | .bool _ | .int _ | .float _ | .str _ | .arr _ => False

instance : DecidablePred IsJsonObject
  | .obj _ => isTrue trivial
  | .null | .bool _ | .int _ | .float _ | .str _ | .arr _ => isFalse id

/-- An application state object within the depth, node and byte bounds. -/
structure Freezable (maxBytes : Nat) (value : Json.Value) : Prop where
  wellFormed : value.WellFormed
  object : IsJsonObject value
  measured : Measured value
  bytes : utf8Length (Json.canonicalText value) ≤ maxBytes

instance (maxBytes : Nat) : DecidablePred (Freezable maxBytes) := fun _ =>
  decidable_of_iff (_ ∧ _ ∧ _ ∧ _) ⟨fun h => ⟨h.1, h.2.1, h.2.2.1, h.2.2.2⟩,
    fun h => ⟨h.1, h.2, h.3, h.4⟩⟩

def FrozenState : Type :=
  { value : Json.Value // Freezable checkpointMaxBytes value }

/-- An immutable signal payload, under the tighter bound. -/
def FrozenSignal : Type :=
  { value : Json.Value // Freezable signalMaxBytes value }

/-- Validate one state object; `none` when it violates a bound. -/
def freezeState (value : Json.Value) : Option FrozenState :=
  if hfreezable : Freezable checkpointMaxBytes value then some ⟨value, hfreezable⟩ else none

def freezeSignal (value : Json.Value) : Option FrozenSignal :=
  if hfreezable : Freezable signalMaxBytes value then some ⟨value, hfreezable⟩ else none

def FrozenState.text (state : FrozenState) : String :=
  Json.canonicalText state.1

def FrozenSignal.text (payload : FrozenSignal) : String :=
  Json.canonicalText payload.1

def stateDigest (state : FrozenState) : Digest :=
  .text state.text

/-- What is read back from a stored column: loaded, validated and frozen again. -/
def loadState (text : String) : Option FrozenState :=
  (Json.loads text).bind freezeState

def emptyState : FrozenState :=
  ⟨.obj [], by decide⟩

theorem loadState_text (state : FrozenState) : loadState state.text = some state := by
  rw [loadState, FrozenState.text, Json.loads_canonicalText state.2.wellFormed,
    Option.bind_some, freezeState, dif_pos state.2]
  rfl

/-- The opaque-key alphabet: `[a-z0-9][a-z0-9_-]{0,63}`. -/
def ValidSafeKey (key : String) : Prop :=
  let isWord (c : Char) : Bool := ('a' ≤ c && c ≤ 'z') || ('0' ≤ c && c ≤ '9')
  key.toList.head?.any isWord = true ∧
    key.toList.all (fun c => isWord c || c == '_' || c == '-') = true ∧
    key.toList.length ≤ 64

instance : DecidablePred ValidSafeKey := fun _ => inferInstanceAs (Decidable (_ ∧ _ ∧ _))

inductive DecisionKey where
  | name (text : String)
  | digest (digest : Digest)
deriving DecidableEq

/-- Hex digits are within the alphabet and its length. -/
def DecisionKey.ValidSafeKey : DecisionKey → Prop
  | .name text => NervOS.ValidSafeKey text
  | .digest _ => True

instance : DecidablePred DecisionKey.ValidSafeKey
  | .name text => inferInstanceAs (Decidable (NervOS.ValidSafeKey text))
  | .digest _ => isTrue trivial

inductive WorkflowDirectiveKind where
  | complete
  | next
  | wait
deriving DecidableEq, Repr

def maxWaitSeconds : Nat := 30 * 24 * 3600

/-- What one bounded step decided to do next, as its fields. -/
structure DirectiveFields where
  kind : WorkflowDirectiveKind
  waitKind : Option WorkflowWaitKind := none
  wakeupAt : Option Instant := none
  waitSeconds : Option Nat := none
  signalKey : Option String := none
  decisionKey : Option DecisionKey := none
deriving DecidableEq

def DirectiveFields.Valid (fields : DirectiveFields) : Prop :=
  match fields.kind, fields.waitKind with
  | .complete, waitKind | .next, waitKind =>
    waitKind = none ∧ fields.wakeupAt = none ∧ fields.waitSeconds = none ∧
      fields.signalKey = none
  | .wait, some .time =>
    fields.signalKey = none ∧ fields.decisionKey = none ∧
      ¬ (fields.wakeupAt = none ↔ fields.waitSeconds = none) ∧
      ∀ seconds ∈ fields.waitSeconds, 1 ≤ seconds ∧ seconds ≤ maxWaitSeconds
  | .wait, some .signal =>
    fields.wakeupAt = none ∧ fields.waitSeconds = none ∧
      fields.signalKey.any (ValidSafeKey ·) = true
  | .wait, some .ownerDecision =>
    fields.wakeupAt = none ∧ fields.waitSeconds = none ∧
      fields.decisionKey.any (DecisionKey.ValidSafeKey ·) = true
  | .wait, none => False

instance (fields : DirectiveFields) : Decidable fields.Valid := by
  unfold DirectiveFields.Valid
  split <;> infer_instance

structure WorkflowDirective extends DirectiveFields where
  valid : toDirectiveFields.Valid
deriving DecidableEq

def completeDirective : WorkflowDirective where
  kind := .complete
  valid := by decide

def resolvedWakeupAt (directive : WorkflowDirective) (now : Instant) : Option Instant :=
  if directive.kind = .wait ∧ directive.waitKind = some .time then
    directive.wakeupAt <|> directive.waitSeconds.map fun count => now + seconds count
  else none

def decisionArgumentsDigest (arguments : Json.Value) : Digest :=
  .text (Json.canonicalText arguments)

/-- One exact proposed external action that a step wants an owner to authorize. -/
structure WorkflowDecisionRequest where
  checkpointRevision : Nat
  toolDefinitionId : Nat
  upstreamName : String
  actionFingerprint : Digest
  arguments : Json.Value
  argumentsDigest : Digest
  preview : FrozenState
  packageContentDigest : Option Digest
  effectiveConfigDigest : Option Digest
  expiresAt : Instant
  definitionPositive : 0 < toolDefinitionId
  upstreamBounds : 1 ≤ upstreamName.toList.length ∧ upstreamName.toList.length ≤ 128
  digested : argumentsDigest = decisionArgumentsDigest arguments
  measured : Measured arguments

structure WorkflowBudget where
  maxSteps : Nat := 32
  modelCallReservation : Nat := 256
  toolCallReservation : Nat := 256
  outputTokenReservation : Nat := 262144
  deadlineHours : Nat := 24
  maxRetainedCheckpoints : Nat := NervOS.maxRetainedCheckpoints
  steps : 1 ≤ maxSteps ∧ maxSteps ≤ maxStepsHard := by decide
  models : 1 ≤ modelCallReservation ∧
    modelCallReservation ≤ modelCallReservationHard := by decide
  tools : toolCallReservation ≤ toolCallReservationHard := by decide
  tokens : 1 ≤ outputTokenReservation ∧
    outputTokenReservation ≤ outputTokenReservationHard := by decide
  hours : 1 ≤ deadlineHours ∧ deadlineHours ≤ deadlineHoursHard := by decide
  retention : 1 ≤ maxRetainedCheckpoints ∧
    maxRetainedCheckpoints ≤ NervOS.maxRetainedCheckpoints := by decide
deriving DecidableEq

def WorkflowBudget.deadlineAt (budget : WorkflowBudget) (createdAt : Instant) : Instant :=
  createdAt + seconds (3600 * budget.deadlineHours)

/-- What has been drawn down, or one step's share of it. -/
structure WorkflowReservations where
  modelCalls : Nat := 0
  toolCalls : Nat := 0
  outputTokens : Nat := 0
deriving DecidableEq, Repr

def WorkflowReservations.draw (reservations claim : WorkflowReservations) :
    WorkflowReservations where
  modelCalls := reservations.modelCalls + claim.modelCalls
  toolCalls := reservations.toolCalls + claim.toolCalls
  outputTokens := reservations.outputTokens + claim.outputTokens

structure WorkflowReservations.Within (reservations : WorkflowReservations)
    (budget : WorkflowBudget) : Prop where
  modelCalls : reservations.modelCalls ≤ budget.modelCallReservation
  toolCalls : reservations.toolCalls ≤ budget.toolCallReservation
  outputTokens : reservations.outputTokens ≤ budget.outputTokenReservation

instance (reservations : WorkflowReservations) (budget : WorkflowBudget) :
    Decidable (reservations.Within budget) :=
  decidable_of_iff (_ ∧ _ ∧ _) ⟨fun h => ⟨h.1, h.2.1, h.2.2⟩, fun h => ⟨h.1, h.2, h.3⟩⟩

/-- The remaining cumulative reservation covers one step's whole capacity. -/
def acceptsReservation (reservations : WorkflowReservations) (budget : WorkflowBudget)
    (claim : WorkflowReservations) : Prop :=
  (claim.modelCalls : Int) ≤ budget.modelCallReservation - reservations.modelCalls ∧
    (claim.toolCalls : Int) ≤ budget.toolCallReservation - reservations.toolCalls ∧
    (claim.outputTokens : Int) ≤ budget.outputTokenReservation - reservations.outputTokens

instance (reservations : WorkflowReservations) (budget : WorkflowBudget)
    (claim : WorkflowReservations) : Decidable (acceptsReservation reservations budget claim) :=
  inferInstanceAs (Decidable (_ ∧ _ ∧ _))

/-- The whole per-Run capacity that a step reserves before it is accepted. -/
def reservationFor (limits : RunLimits) : WorkflowReservations where
  modelCalls := limits.maxModelCalls
  toolCalls := limits.maxToolCalls
  outputTokens := limits.maxModelCalls * limits.maxOutputTokens

theorem acceptsReservation.within {reservations claim : WorkflowReservations}
    {budget : WorkflowBudget} (haccepts : acceptsReservation reservations budget claim) :
    (reservations.draw claim).Within budget := by
  obtain ⟨hmodels, htools, htokens⟩ := haccepts
  constructor
  · change reservations.modelCalls + claim.modelCalls ≤ _
    omega
  · change reservations.toolCalls + claim.toolCalls ≤ _
    omega
  · change reservations.outputTokens + claim.outputTokens ≤ _
    omega

/-- What `str.strip` removes: the blank characters and the information separators. -/
def isSpaceCharacter (character : Char) : Bool :=
  isBlankCharacter character || (0x1C ≤ character.toNat && character.toNat ≤ 0x1F)

/-- A safe, bounded, owner-facing step summary. -/
def ValidSummary (summary : String) : Prop :=
  summary.toList.all isSpaceCharacter = false ∧ hasNul summary = false ∧
    summary.toList.length ≤ summaryMaxChars

instance : DecidablePred ValidSummary := fun _ => inferInstanceAs (Decidable (_ ∧ _ ∧ _))

/-- One bounded step outcome, validated before any terminalization. -/
structure WorkflowStepResult where
  directive : WorkflowDirective
  state : FrozenState
  summary : Option String
  decisionRequest : Option WorkflowDecisionRequest
  summaryValid : ∀ text ∈ summary, ValidSummary text
  requested : directive.kind = .wait → directive.waitKind = some .ownerDecision →
    decisionRequest ≠ none
  waited : decisionRequest ≠ none → directive.kind = .wait

theorem noSummary_valid : ∀ text ∈ (none : Option String), ValidSummary text :=
  fun _ htext => absurd htext (Option.not_mem_none _)

def completedResult (state : FrozenState) : WorkflowStepResult where
  directive := completeDirective
  state := state
  summary := none
  decisionRequest := none
  summaryValid := noSummary_valid
  requested hkind := nomatch hkind
  waited hrequest := absurd rfl hrequest

end NervOS
