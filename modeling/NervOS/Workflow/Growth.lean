/-
What no move ever takes back: the columns that a workflow is pinned to, the steps,
signals and decisions on record, its counters, and an ended workflow as a whole.
-/
import NervOS.Relational.Rows
import NervOS.Workflow.Protocol

namespace NervOS

open Relational

section Columns

/-- The columns of an execution that no move writes. -/
def WorkflowExecutionRecord.frozen (execution : WorkflowExecutionRecord) :
    WorkflowExecutionRecord :=
  { execution with
    status := .pending
    paused := false
    checkpointRevision := 0
    stepCount := 0
    reservations := {}
    waitKind := none
    wakeupAt := none
    signalKey := none
    decisionKey := none
    reviewReason := none
    updatedAt := execution.createdAt
    finishedAt := none }

variable {β : Type}

theorem frozen_column {execution execution' : WorkflowExecutionRecord}
    (h : execution'.frozen = execution.frozen) (column : WorkflowExecutionRecord → β)
    (hcolumn : ∀ execution, column execution.frozen = column execution) :
    column execution' = column execution := by
  rw [← hcolumn execution', ← hcolumn execution, h]

def WorkflowStepRecord.pin (step : WorkflowStepRecord) : WorkflowStepRecord :=
  { step with status := .running, summary := none, finishedAt := none }

/-- The step stays what was dispatched, however it ends. -/
def StepMoves (step step' : WorkflowStepRecord) : Prop :=
  step'.pin = step.pin

theorem StepMoves.refl (step : WorkflowStepRecord) : StepMoves step step :=
  rfl

theorem StepMoves.column {step step' : WorkflowStepRecord} (h : StepMoves step step')
    (column : WorkflowStepRecord → β) (hcolumn : ∀ step, column step.pin = column step) :
    column step' = column step := by
  rw [← hcolumn step', ← hcolumn step, show step'.pin = step.pin from h]

def WorkflowDecisionRecord.proposal (decision : WorkflowDecisionRecord) :
    WorkflowDecisionRecord :=
  { decision with state := .pending, decidedAt := none, consumedAt := none }

theorem proposal_column {decision decision' : WorkflowDecisionRecord}
    (h : decision'.proposal = decision.proposal) (column : WorkflowDecisionRecord → β)
    (hcolumn : ∀ decision, column decision.proposal = column decision) :
    column decision' = column decision := by
  rw [← hcolumn decision', ← hcolumn decision, h]

structure DecisionMoves (decision decision' : WorkflowDecisionRecord) : Prop where
  proposal : decision'.proposal = decision.proposal
  decided : decision.state ≠ .pending → decision'.state ≠ .pending
  closed : decision.state ≠ .pending → decision.state ≠ .approved → decision' = decision

theorem DecisionMoves.refl (decision : WorkflowDecisionRecord) :
    DecisionMoves decision decision :=
  ⟨rfl, id, fun _ _ => rfl⟩

theorem DecisionMoves.trans {a b c : WorkflowDecisionRecord} (h : DecisionMoves a b)
    (h' : DecisionMoves b c) : DecisionMoves a c where
  proposal := h'.proposal.trans h.proposal
  decided hpending := h'.decided (h.decided hpending)
  closed hpending happroved := by
    obtain rfl := h.closed hpending happroved
    exact h'.closed hpending happroved

theorem decisionMoves_amend {p : WorkflowDecisionRecord → Prop} [DecidablePred p]
    {f : WorkflowDecisionRecord → WorkflowDecisionRecord} {decision : WorkflowDecisionRecord}
    (hproposal : (f decision).proposal = decision.proposal)
    (hopen : p decision → decision.state = .pending ∨ decision.state = .approved)
    (hstate : (f decision).state ≠ .pending) :
    DecisionMoves decision (Table.amend p f decision) := by
  by_cases hp : p decision
  · rw [Table.amend_of_pos hp]
    refine ⟨hproposal, fun _ => hstate, fun hpending happroved => ?_⟩
    rcases hopen hp with hopen | hopen
    · exact absurd hopen hpending
    · exact absurd hopen happroved
  · rw [Table.amend_of_neg hp]
    exact .refl decision

/-- Every counter is at least what it was. -/
structure WorkflowReservations.Le (reservations reservations' : WorkflowReservations) :
    Prop where
  modelCalls : reservations.modelCalls ≤ reservations'.modelCalls
  toolCalls : reservations.toolCalls ≤ reservations'.toolCalls
  outputTokens : reservations.outputTokens ≤ reservations'.outputTokens

theorem WorkflowReservations.Le.refl (reservations : WorkflowReservations) :
    reservations.Le reservations :=
  ⟨le_rfl, le_rfl, le_rfl⟩

theorem WorkflowReservations.Le.trans {a b c : WorkflowReservations} (h : a.Le b)
    (h' : b.Le c) : a.Le c :=
  ⟨h.modelCalls.trans h'.modelCalls, h.toolCalls.trans h'.toolCalls,
    h.outputTokens.trans h'.outputTokens⟩

theorem WorkflowReservations.le_draw (reservations claim : WorkflowReservations) :
    reservations.Le (reservations.draw claim) :=
  ⟨Nat.le_add_right _ _, Nat.le_add_right _ _, Nat.le_add_right _ _⟩

end Columns

namespace Workflow

structure Grows (w w' : Workflow) : Prop where
  frozen : w'.execution.frozen = w.execution.frozen
  stepCount : w.execution.stepCount ≤ w'.execution.stepCount
  revision : w.execution.checkpointRevision ≤ w'.execution.checkpointRevision
  reserved : w.execution.reservations.Le w'.execution.reservations
  steps : Grown StepMoves w.steps w'.steps
  signals : w.signals <+: w'.signals
  decisions : Grown DecisionMoves w.decisions w'.decisions
  ended : w.execution.status.IsTerminal → w'.execution = w.execution ∧
    w'.checkpoints = w.checkpoints ∧ w'.steps.length = w.steps.length

namespace Grows

variable {w w' w'' : Workflow}

theorem steps_refl (steps : List WorkflowStepRecord) :
    Grown StepMoves steps steps :=
  .refl StepMoves.refl steps

theorem decisions_refl (decisions : List WorkflowDecisionRecord) :
    Grown DecisionMoves decisions decisions :=
  .refl DecisionMoves.refl decisions

theorem refl (w : Workflow) : w.Grows w where
  frozen := rfl
  stepCount := le_rfl
  revision := le_rfl
  reserved := .refl _
  steps := steps_refl _
  signals := List.prefix_refl _
  decisions := decisions_refl _
  ended _ := ⟨rfl, rfl, rfl⟩

theorem trans (h : w.Grows w') (h' : w'.Grows w'') : w.Grows w'' where
  frozen := h'.frozen.trans h.frozen
  stepCount := h.stepCount.trans h'.stepCount
  revision := h.revision.trans h'.revision
  reserved := h.reserved.trans h'.reserved
  steps := h.steps.trans (fun _ _ _ hab hbc => hbc.trans hab) h'.steps
  signals := h.signals.trans h'.signals
  decisions := h.decisions.trans (fun _ _ _ => .trans) h'.decisions
  ended hover := by
    obtain ⟨hexecution, hcheckpoints, hsteps⟩ := h.ended hover
    rw [← hexecution] at hover
    obtain ⟨hexecution', hcheckpoints', hsteps'⟩ := h'.ended hover
    exact ⟨hexecution'.trans hexecution, hcheckpoints'.trans hcheckpoints,
      hsteps'.trans hsteps⟩

theorem budget (h : w.Grows w') : w'.execution.budget = w.execution.budget :=
  frozen_column h.frozen WorkflowExecutionRecord.budget fun _ => rfl

theorem of_active (hactive : ¬ w.execution.status.IsTerminal)
    (hfrozen : w'.execution.frozen = w.execution.frozen)
    (hcount : w'.execution.stepCount = w.execution.stepCount)
    (hrevision : w'.execution.checkpointRevision = w.execution.checkpointRevision)
    (hreserved : w'.execution.reservations = w.execution.reservations)
    (hsteps : Grown StepMoves w.steps w'.steps)
    (hsignals : w.signals <+: w'.signals)
    (hdecisions : Grown DecisionMoves w.decisions w'.decisions) : w.Grows w' where
  frozen := hfrozen
  stepCount := hcount.ge
  revision := hrevision.ge
  reserved := by
    rw [hreserved]
    exact .refl _
  steps := hsteps
  signals := hsignals
  decisions := hdecisions
  ended hover := absurd hover hactive

theorem steps_map {p : WorkflowStepRecord → Prop} [DecidablePred p]
    {f : WorkflowStepRecord → WorkflowStepRecord} (steps : List WorkflowStepRecord)
    (hpin : ∀ step, (f step).pin = step.pin) :
    Grown StepMoves steps (steps.map (Table.amend p f)) :=
  .of_forall₂ (forall₂_amend fun step _ => Table.amend_column hpin step)

theorem decisions_spend {now : Instant} {approved : Option WorkflowDecisionRecord}
    (hclears : w.Clears approved now) : Grown DecisionMoves w.decisions (w.spend approved now) := by
  cases approved with
  | none => exact decisions_refl _
  | some approved =>
    have happroval := List.mem_of_head? hclears.head.symm
    have hstate : approved.state = .approved :=
      (of_decide_eq_true (List.mem_filter.mp happroval).2).2.1
    obtain ⟨-, honly⟩ := hclears.identified approved rfl
    refine .of_forall₂ (forall₂_amend fun decision hdecision => ?_)
    refine decisionMoves_amend rfl (fun hp => Or.inr ?_) (by rintro ⟨⟩)
    rw [honly decision hdecision hp.1]
    exact hstate

end Grows

variable {core : Tables} {act : WorkflowAct} {w w' : Workflow}

theorem Moves.grows (h : w.Moves core act w') : w.Grows w' := by
  cases h with
  | rotate hactive =>
    exact .of_active hactive rfl rfl rfl rfl (Grows.steps_refl _) (List.prefix_refl _)
      (Grows.decisions_refl _)
  | loseRun hrunning =>
    refine .of_active ?_ rfl rfl rfl rfl (Grows.steps_map _ fun _ => rfl)
      (List.prefix_refl _) (Grows.decisions_refl _)
    rw [hrunning]
    exact id
  | miss hready _ | close hready _ _ =>
    exact .of_active (not_terminal_of_dispatchable hready) rfl rfl rfl rfl
      (Grows.steps_refl _) (List.prefix_refl _) (Grows.decisions_refl _)
  | loseAuthority hready _ hhead hidentified _ =>
    refine .of_active (not_terminal_of_dispatchable hready) rfl rfl rfl rfl
      (Grows.steps_refl _) (List.prefix_refl _) ?_
    have hstate := (of_decide_eq_true (List.mem_filter.mp (List.mem_of_head? hhead)).2).2.1
    refine .of_forall₂ (forall₂_amend fun decision hdecision => ?_)
    refine decisionMoves_amend rfl (fun hp => Or.inr ?_) (by rintro ⟨⟩)
    rw [hidentified.2 decision hdecision hp]
    exact hstate
  | relink hclears _ _ =>
    exact .of_active (not_terminal_of_dispatchable hclears.ready) rfl rfl rfl rfl
      (Grows.steps_refl _) (List.prefix_refl _) (Grows.decisions_spend hclears)
  | dispatch dispatch =>
    constructor
    · rfl
    · exact Nat.le_succ _
    · exact le_rfl
    · exact WorkflowReservations.le_draw _ _
    · exact .append StepMoves.refl _ _
    · exact List.prefix_refl _
    · exact Grows.decisions_spend dispatch.clears
    · exact fun hover => absurd hover (not_terminal_of_dispatchable dispatch.clears.ready)
  | commit commit =>
    constructor
    · rfl
    · exact le_rfl
    · exact Nat.le_succ _
    · exact .refl _
    · exact Grows.steps_map _ fun _ => rfl
    · exact List.prefix_refl _
    · exact .append DecisionMoves.refl _ _
    · intro hover
      rw [commit.parent] at hover
      exact hover.elim
  | finishLate _ _ _ =>
    constructor
    · rfl
    · exact le_rfl
    · exact le_rfl
    · exact .refl _
    · exact Grows.steps_map _ fun _ => rfl
    · exact List.prefix_refl _
    · exact Grows.decisions_refl _
    · exact fun _ => ⟨rfl, rfl, List.length_map _⟩
  | wake _ haccepted _ =>
    refine .of_active ?_ rfl rfl rfl rfl (Grows.steps_refl _) (List.prefix_append _ _)
      (Grows.decisions_refl _)
    rw [(waits_of_accepted haccepted).1]
    exact id
  | @decide w verdict decision hdecides =>
    have hdecisions : Grown DecisionMoves w.decisions (w.decided verdict).decisions := by
      refine .of_forall₂ (forall₂_amend fun row _ => ?_)
      refine decisionMoves_amend rfl (fun hp => Or.inl hp.2) ?_
      change (if verdict.approve then WorkflowDecisionState.approved else .denied) ≠ .pending
      split <;> rintro ⟨⟩
    rcases decided_execution w verdict with ⟨hawaited, hexecution⟩ | ⟨-, hexecution⟩
    · have hactive : ¬ w.execution.status.IsTerminal := by
        rw [hawaited.2.1]
        exact id
      refine .of_active hactive ?_ ?_ ?_ ?_ (Grows.steps_refl _) (List.prefix_refl _)
        hdecisions <;> rw [hexecution] <;> rfl
    · constructor
      · rw [hexecution]
      · rw [hexecution]
      · rw [hexecution]
      · rw [hexecution]
        exact .refl _
      · exact Grows.steps_refl _
      · exact List.prefix_refl _
      · exact hdecisions
      · exact fun _ => ⟨hexecution, rfl, rfl⟩
  | setPaused hactive =>
    exact .of_active hactive rfl rfl rfl rfl (Grows.steps_refl _) (List.prefix_refl _)
      (Grows.decisions_refl _)
  | cancel hactive =>
    refine .of_active hactive rfl rfl rfl rfl (Grows.steps_refl _) (List.prefix_refl _) ?_
    refine .of_forall₂ (forall₂_amend fun decision _ => ?_)
    exact decisionMoves_amend rfl Or.inl (by rintro ⟨⟩)

/-- The steps and what was drawn for them are as they were. -/
structure Undrawn (w w' : Workflow) : Prop where
  steps : w'.steps.map (·.pin) = w.steps.map (·.pin)
  stepCount : w'.execution.stepCount = w.execution.stepCount
  reservations : w'.execution.reservations = w.execution.reservations

theorem Moves.dispatch_or_undrawn (h : w.Moves core act w') :
    (∃ now, ∃ dispatch : Dispatch core w now, act = .tick now ∧ w' = dispatch.after) ∨
      w.Undrawn w' := by
  cases h with
  | dispatch dispatch => exact Or.inl ⟨_, dispatch, rfl, rfl⟩
  | rotate _ | miss _ _ | close _ _ _ | loseAuthority _ _ _ _ _ | relink _ _ _ | wake _ _ _
  | setPaused _ | cancel _ => exact Or.inr ⟨rfl, rfl, rfl⟩
  | loseRun _ | commit _ | finishLate _ _ _ =>
    refine Or.inr ⟨?_, rfl, rfl⟩
    apply map_column_amend
    exact fun _ => rfl
  | @decide w verdict _ _ =>
    rcases decided_execution w verdict with ⟨-, hexecution⟩ | ⟨-, hexecution⟩
    · right
      refine ⟨rfl, ?_, ?_⟩ <;> rw [hexecution] <;> rfl
    · right
      refine ⟨rfl, ?_, ?_⟩ <;> rw [hexecution]

theorem Moves.commit_or_kept (h : w.Moves core act w') :
    (∃ runId result now, ∃ commit : Commit w runId, act = .commit runId result now ∧
        w' = commit.after result now) ∨
      (w'.checkpoints = w.checkpoints ∧
        w'.execution.checkpointRevision = w.execution.checkpointRevision) := by
  cases h with
  | commit commit => exact Or.inl ⟨_, _, _, commit, rfl, rfl⟩
  | rotate _ | loseRun _ | miss _ _ | close _ _ _ | loseAuthority _ _ _ _ _ | relink _ _ _
  | dispatch _ | finishLate _ _ _ | wake _ _ _ | setPaused _ | cancel _ =>
    exact Or.inr ⟨rfl, rfl⟩
  | @decide w verdict _ _ =>
    rcases decided_execution w verdict with ⟨-, hexecution⟩ | ⟨-, hexecution⟩
    · right
      refine ⟨rfl, ?_⟩
      rw [hexecution]
      rfl
    · right
      refine ⟨rfl, ?_⟩
      rw [hexecution]

theorem Moves.transition (h : w.Moves core act w') :
    w'.execution.status = w.execution.status ∨
      w'.execution.status ∈ allowedTransitions w.execution.status := by
  cases h with
  | rotate _ | relink _ _ _ | finishLate _ _ _ | setPaused _ => exact Or.inl rfl
  | loseRun hrunning =>
    right
    rw [hrunning]
    change WorkflowStatus.needsReview ∈ _
    decide
  | miss hready _ =>
    right
    apply mem_allowed_of_dispatchable hready
    change WorkflowStatus.failed ∈ _
    decide
  | close hready _ hcloses =>
    right
    apply mem_allowed_of_dispatchable hready
    rcases hcloses with rfl | rfl
    · change WorkflowStatus.failed ∈ _
      decide
    · change WorkflowStatus.needsReview ∈ _
      decide
  | loseAuthority hready _ _ _ _ =>
    right
    apply mem_allowed_of_dispatchable hready
    change WorkflowStatus.needsReview ∈ _
    decide
  | dispatch dispatch =>
    right
    apply mem_allowed_of_dispatchable dispatch.clears.ready
    change WorkflowStatus.running ∈ _
    decide
  | commit commit =>
    right
    rw [commit.parent]
    exact target_allowed _
  | wake _ haccepted _ =>
    right
    rw [(waits_of_accepted haccepted).1]
    change WorkflowStatus.runnable ∈ _
    decide
  | @decide w verdict decision _ =>
    rcases decided_execution w verdict with ⟨hawaited, hexecution⟩ | ⟨-, hexecution⟩
    · right
      rw [hexecution, hawaited.2.1]
      change (if verdict.approve then WorkflowStatus.runnable else .cancelled) ∈ _
      split <;> decide
    · left
      rw [hexecution]
  | @cancel w _ hactive =>
    right
    change WorkflowStatus.cancelled ∈ allowedTransitions w.execution.status
    cases hstatus : w.execution.status with
    | pending | runnable | running | waiting => decide
    | succeeded | failed | cancelled | needsReview =>
      rw [hstatus] at hactive
      exact absurd trivial hactive

end Workflow

end NervOS
