/-
The budget of a workflow: what was reserved is what the Runs of its steps may use, each charged
once, and no operation of the workflow engine does more to those Runs than the execution engine
itself would.  Over whole runs the budget is only drawn down, by the dispatches that were
committed and by nothing else, and it is never exceeded.
-/
import NervOS.Refinement.Runs
import NervOS.Refinement.WorkflowEngine

namespace NervOS

open Relational

section Bodies

abbrev RunsKept : Extended Tables WorkflowTables → Extended Tables WorkflowTables → Prop :=
  Tx.Beneath Quiet

variable {now : Instant}

theorem insertedRun_kept (submission : Submission) :
    Tx.Preserves RunsKept (insertedRun submission) := by
  apply Tx.Preserves.bind (Tx.beneath_onCore insertRunAndJob_quiet)
  intro runId
  apply Tx.Preserves.query_bind
  intro run
  apply Tx.Preserves.ofExcept

theorem reload_kept (workflowId : Nat) :
    Tx.Preserves RunsKept (reloadExecution workflowId) := by
  intro db execution db' h
  rw [(commits_reload.mp h).2.2]
  exact Std.Refl.refl db.1

theorem createWorkflow_kept (request : WorkflowCreationRequest) (preparation : Preparation) :
    Tx.Preserves RunsKept (createWorkflowWithStep request preparation) := by
  apply Tx.Preserves.query_bind
  intro existing
  cases existing with
  | some row =>
    apply Tx.Preserves.require_bind
    intro _
    apply Tx.Preserves.require_bind
    intro _
    apply Tx.Preserves.pure
  | none =>
    apply Tx.Preserves.query_bind
    intro active
    apply Tx.Preserves.require_bind
    intro _
    apply Tx.Preserves.require_bind
    intro _
    apply Tx.Preserves.bind (insertedRun_kept _)
    intro run
    apply Tx.Preserves.bind Tx.beneath_insert
    intro workflowId
    apply Tx.Preserves.bind Tx.beneath_insert
    intro stepId
    apply reload_kept

theorem submitContinuation_kept (continuation : Continuation) :
    Tx.Preserves RunsKept (submitContinuationOnConnection continuation) := by
  apply Tx.Preserves.bind (reload_kept _)
  intro current
  apply Tx.Preserves.require_bind
  intro _
  apply Tx.Preserves.query_bind
  intro linked
  cases linked with
  | some step => apply Tx.Preserves.ofExcept
  | none =>
    apply Tx.Preserves.require_bind
    intro _
    apply Tx.Preserves.require_bind
    intro _
    apply Tx.Preserves.bind (insertedRun_kept _)
    intro run
    apply Tx.Preserves.require_bind
    intro _
    apply Tx.Preserves.bind Tx.beneath_insert
    intro stepId
    apply Tx.Preserves.bind Tx.beneath_update
    intro updated
    apply Tx.Preserves.pure

theorem finish_kept {workflowId : Nat} {status : WorkflowStatus} {reason : ReviewReason} :
    Tx.Preserves RunsKept (finish workflowId status reason now) := by
  apply Tx.Preserves.bind Tx.beneath_update
  intro updated
  apply Tx.Preserves.pure

theorem consumeApproval_kept (approved : Option WorkflowDecisionRecord) :
    Tx.Preserves RunsKept (consumeApproval approved now) := by
  cases approved with
  | none => apply Tx.Preserves.pure
  | some approved =>
    apply Tx.Preserves.bind Tx.beneath_update
    intro updated
    apply Tx.Preserves.pure

theorem defer_kept {workflowId : Nat} (reason : Uncertainty) :
    Tx.Preserves RunsKept (defer workflowId now reason) := by
  cases reason with
  | identityChanged | reservationExhausted | stepBudgetExhausted =>
    apply Tx.Preserves.bind finish_kept
    intro _
    apply Tx.Preserves.pure
  | revisionMoved | stepUnlinked | pauseMoved => apply Tx.Preserves.pure

variable (request : TickRequest)

theorem continueWorkflow_kept (workflow : WorkflowExecutionRecord)
    (approved : Option WorkflowDecisionRecord) :
    Tx.Preserves RunsKept (continueWorkflow request workflow approved) := by
  apply Tx.Preserves.query_bind
  intro latest
  apply Tx.Preserves.ofExcept_bind
  intro state
  apply Tx.Preserves.query_bind
  intro eligible
  apply Tx.Preserves.ite
  · apply Tx.Preserves.pure
  · split
    · apply Tx.Preserves.bind finish_kept
      intro _
      apply Tx.Preserves.pure
    · apply Tx.Preserves.bind (Tx.Preserves.savepoint (submitContinuation_kept _))
      intro outcome
      split
      · apply Tx.Preserves.bind (consumeApproval_kept approved)
        intro _
        apply Tx.Preserves.pure
      · apply defer_kept
      · apply Tx.Preserves.pure
      · apply Tx.Preserves.pure
      · apply Tx.Preserves.raise

theorem advance_kept (workflowId : Nat) :
    Tx.Preserves RunsKept (advance request workflowId) := by
  apply Tx.Preserves.bind (reload_kept _)
  intro workflow
  apply Tx.Preserves.ite
  · apply Tx.Preserves.bind Tx.beneath_update
    intro updated
    apply Tx.Preserves.bind finish_kept
    intro _
    apply Tx.Preserves.pure
  apply Tx.Preserves.ite
  · apply Tx.Preserves.bind finish_kept
    intro _
    apply Tx.Preserves.pure
  apply Tx.Preserves.ite
  · apply Tx.Preserves.pure
  apply Tx.Preserves.ite
  · apply Tx.Preserves.bind finish_kept
    intro _
    apply Tx.Preserves.pure
  apply Tx.Preserves.query_bind
  intro approvals
  apply Tx.Preserves.require_bind
  intro _
  cases approvals.head? with
  | none => apply continueWorkflow_kept
  | some approved =>
    apply Tx.Preserves.ite
    · apply Tx.Preserves.bind Tx.beneath_update
      intro updated
      apply Tx.Preserves.bind finish_kept
      intro _
      apply Tx.Preserves.pure
    · apply continueWorkflow_kept

theorem scan_kept (due : List Nat) :
    Tx.Preserves RunsKept (scan request due) := by
  induction due with
  | nil => apply Tx.Preserves.pure
  | cons workflowId rest ih =>
    apply Tx.Preserves.bind (advance_kept request workflowId)
    intro advanced
    apply Tx.Preserves.ite
    · apply Tx.Preserves.pure
    · apply Tx.Preserves.bind Tx.beneath_update
      intro updated
      apply Tx.Preserves.bind ih
      intro outcome
      apply Tx.Preserves.pure

theorem tickOne_kept : Tx.Preserves RunsKept (tickOne request) := by
  apply Tx.Preserves.query_bind
  intro due
  apply scan_kept

theorem insertDecision_kept {workflow : WorkflowExecutionRecord}
    (request : Option WorkflowDecisionRequest) :
    Tx.Preserves RunsKept (insertDecision workflow request now) := by
  cases request with
  | none => apply Tx.Preserves.pure
  | some request =>
    apply Tx.Preserves.bind Tx.beneath_insert
    intro decisionId
    apply Tx.Preserves.pure

theorem commitStep_kept (runId : Nat) (result : WorkflowStepResult) :
    Tx.Preserves RunsKept (commitStep runId result now) := by
  apply Tx.Preserves.query_bind
  intro linked
  apply Tx.Preserves.ofExcept_bind
  intro step
  apply Tx.Preserves.query_bind
  intro parent
  apply Tx.Preserves.ofExcept_bind
  intro workflow
  apply Tx.Preserves.ite
  · apply Tx.Preserves.bind Tx.beneath_update
    intro updated
    apply Tx.Preserves.pure
  apply Tx.Preserves.ite
  · apply Tx.Preserves.pure
  apply Tx.Preserves.bind Tx.beneath_insert
  intro checkpointId
  apply Tx.Preserves.bind Tx.beneath_update
  intro succeeded
  apply Tx.Preserves.bind (insertDecision_kept _)
  intro _
  apply Tx.Preserves.bind Tx.beneath_update
  intro advanced
  apply Tx.Preserves.bind Tx.beneath_update
  intro touched
  apply Tx.Preserves.bind Tx.beneath_delete
  intro _
  apply Tx.Preserves.pure

theorem succeedWithStep_kept (claim : ClaimedAttempt) (completion : Completion)
    (workflowStep : Option WorkflowStepResult) :
    Tx.Preserves RunsKept (succeedWithStep claim completion workflowStep now) := by
  apply Tx.Preserves.bind (Tx.beneath_onCore updateOne_quiet)
  intro _
  apply Tx.Preserves.bind (Tx.beneath_onCore updateOne_quiet)
  intro _
  refine .bind (Tx.beneath_onCore
    (updateRun_quiet (fun _ hp => not_terminal_of_eq hp.2 id) fun _ => rfl)) ?_
  intro _
  apply Tx.Preserves.bind (Tx.beneath_onCore Tx.Preserves.ofExcept)
  intro _
  apply Tx.Preserves.query_bind
  intro outcome
  apply Tx.Preserves.ofExcept_bind
  intro result
  have hcommitted : Tx.Preserves RunsKept (commitResult claim.runId result now) := by
    cases result with
    | none => apply Tx.Preserves.pure
    | some result =>
      apply Tx.Preserves.bind (commitStep_kept _ _)
      intro committed
      apply Tx.Preserves.require
  apply Tx.Preserves.bind hcommitted
  intro _
  apply Tx.beneath_onCore
  apply Tx.Preserves.query_bind
  intro base
  apply appendEvent_quiet

variable (ownerUserId workflowId : Nat)

theorem ownedExecution_kept :
    Tx.Preserves RunsKept (ownedExecution ownerUserId workflowId) := by
  apply Tx.Preserves.query_bind
  intro row
  apply Tx.Preserves.ofExcept_bind
  intro execution
  apply Tx.Preserves.require_bind
  intro _
  apply Tx.Preserves.pure

theorem setPaused_kept (paused : Bool) :
    Tx.Preserves RunsKept (setPaused ownerUserId workflowId paused now) := by
  apply Tx.Preserves.bind (ownedExecution_kept _ _)
  intro workflow
  apply Tx.Preserves.require_bind
  intro _
  apply Tx.Preserves.bind Tx.beneath_updateOne
  intro _
  apply reload_kept

theorem cancelWorkflow_kept :
    Tx.Preserves RunsKept (cancelWorkflow ownerUserId workflowId now) := by
  apply Tx.Preserves.bind (ownedExecution_kept _ _)
  intro workflow
  apply Tx.Preserves.ite
  · apply Tx.Preserves.pure
  apply Tx.Preserves.require_bind
  intro _
  apply Tx.Preserves.bind Tx.beneath_update
  intro cancelled
  apply Tx.Preserves.bind Tx.beneath_update
  intro closed
  apply reload_kept

theorem deliverSignal_kept (delivery : SignalDelivery) :
    Tx.Preserves RunsKept (deliverSignal delivery) := by
  apply Tx.Preserves.bind (ownedExecution_kept _ _)
  intro workflow
  apply Tx.Preserves.query_bind
  intro prior
  cases prior with
  | some prior =>
    apply Tx.Preserves.require_bind
    intro _
    apply Tx.Preserves.pure
  | none =>
    apply Tx.Preserves.ite
    · apply Tx.Preserves.pure
    apply Tx.Preserves.bind Tx.beneath_insert
    intro signalId
    apply Tx.Preserves.bind Tx.beneath_update
    intro woken
    apply Tx.Preserves.bind (reload_kept _)
    intro reloaded
    apply Tx.Preserves.pure

theorem decideWorkflow_kept (verdict : Verdict) :
    Tx.Preserves RunsKept (decideWorkflow verdict) := by
  apply Tx.Preserves.bind (ownedExecution_kept _ _)
  intro workflow
  apply Tx.Preserves.query_bind
  intro row
  apply Tx.Preserves.ofExcept_bind
  intro decision
  apply Tx.Preserves.require_bind
  intro _
  apply Tx.Preserves.require_bind
  intro _
  apply Tx.Preserves.query_bind
  intro moved
  apply Tx.Preserves.require_bind
  intro _
  apply Tx.Preserves.ite
  · apply Tx.Preserves.bind Tx.beneath_update
    intro expired
    apply Tx.Preserves.raise
  apply Tx.Preserves.bind Tx.beneath_updateOne
  intro _
  apply Tx.Preserves.bind Tx.beneath_update
  intro woken
  apply Tx.Preserves.query_bind
  intro refreshed
  apply Tx.Preserves.ofExcept

end Bodies

namespace WorkflowSystem

variable {system : WorkflowSystem}

theorem commit_runs {α : Type} {x : WorkflowConnection α} (h : Tx.Preserves RunsKept x)
    (system : WorkflowSystem) :
    RunsMove system.db.1.core.runs (system.commit x).db.1.core.runs := by
  rcases commit_cases x system with ⟨value, hcommits⟩ | hsame
  · exact (h _ _ _ hcommits).runs
  · rw [hsame]
    exact .refl _

theorem settle_runs (claim : ClaimedAttempt) (completion : Completion)
    (workflowStep : Option WorkflowStepResult) (now : Instant) (system : WorkflowSystem) :
    RunsMove system.db.1.core.runs
      (system.settle claim completion workflowStep now).db.1.core.runs := by
  unfold WorkflowSystem.settle
  split
  · exact commit_runs (succeedWithStep_kept claim completion workflowStep) system
  · exact .refl _

theorem onEngine_runs {next : System} (h : RunsMove system.db.1.core.runs next.db.1.runs) :
    RunsMove system.db.1.core.runs (system.onEngine next).db.1.core.runs := by
  unfold WorkflowSystem.onEngine
  split
  · exact h
  · exact .refl _

theorem exec_runsMove (policy : QueuePolicy) (op : WorkflowOp) (system : WorkflowSystem) :
    RunsMove system.db.1.core.runs (exec policy op system).db.1.core.runs := by
  cases op with
  | engine op =>
    rcases exec_engine policy op system with ⟨claim, completion, now, rfl⟩ | hexec
    · exact settle_runs claim completion none now system
    · rw [hexec]
      exact onEngine_runs (NervOS.exec_runsMove policy op system.core)
  | succeed claim completion workflowStep now =>
    exact settle_runs claim completion workflowStep now system
  | create request preparation => exact commit_runs (createWorkflow_kept request preparation) _
  | readStep runId =>
    apply RunsMove.of_eq
    exact congrArg (·.1.core.runs) (readStep_db runId system)
  | tick request => exact commit_runs (tickOne_kept request) _
  | deliverSignal delivery => exact commit_runs (deliverSignal_kept delivery) _
  | decide verdict => exact commit_runs (decideWorkflow_kept verdict) _
  | setPaused ownerUserId workflowId paused now =>
    exact commit_runs (setPaused_kept ownerUserId workflowId paused) _
  | cancel ownerUserId workflowId now =>
    exact commit_runs (cancelWorkflow_kept ownerUserId workflowId) _

theorem workflow_invariant_core {policy : QueuePolicy} {id : Nat} {w : Workflow}
    {I : Tables → Workflow → Prop}
    (hruns : ∀ core core' w, I core w → RunsMove core.runs core'.runs → I core' w)
    (hopens : ∀ core w request run, w.Opens core request run → I core w)
    (hmoves : ∀ core act w w', I core w → w.Moves core act w' → I core w')
    (h : (workflowEngine policy).Reachable system) (hw : system.workflow id = some w) :
    I system.db.1.core w := by
  have hall : ∀ id w, system.workflow id = some w → I system.db.1.core w := by
    apply h.invariant (I := fun system =>
      ∀ id w, system.workflow id = some w → I system.db.1.core w)
    · intro id w hw
      rw [workflow_init] at hw
      cases hw
    · intro system op hI id w' hw'
      have hcore := exec_runsMove policy op system
      have hrefines := exec_refines policy op system
      cases hw : system.workflow id with
      | none =>
        obtain ⟨request, preparation, run, -, hopened⟩ := hrefines.opened id w' hw hw'
        exact hopens _ w' request run hopened
      | some w =>
        obtain ⟨after, hafter, hmoved⟩ := hrefines.kept id w hw
        obtain rfl := Option.some.inj (hafter.symm.trans hw')
        have hframed := hruns _ _ w (hI id w hw) hcore
        rcases hmoved with rfl | ⟨act, -, hmove⟩
        · exact hframed
        · exact hmoves _ act w _ hframed hmove
  exact hall id w hw

end WorkflowSystem

def stepReservation (core : Tables) (step : WorkflowStepRecord) : WorkflowReservations :=
  match step.runId.bind core.runs.find with
  | none => {}
  | some run => reservationFor run.limits

def Workflow.reserved (core : Tables) (w : Workflow) : WorkflowReservations :=
  (w.steps.map (stepReservation core)).foldl WorkflowReservations.draw {}

theorem stepReservation_of_found {core : Tables} {step : WorkflowStepRecord} {run : RunRecord}
    (hrun : step.runId = some run.id) (hfind : core.runs.find run.id = some run) :
    stepReservation core step = reservationFor run.limits := by
  rw [stepReservation, hrun, Option.bind_some, hfind]

namespace Workflow

structure Budgeted (core : Tables) (w : Workflow) : Prop where
  linked : ∀ step ∈ w.steps, ∃ run, step.runId = some run.id ∧
    core.runs.find run.id = some run
  charged : w.execution.reservations = w.reserved core
  within : w.execution.reservations.Within w.execution.budget
  stepped : w.execution.stepCount ≤ w.execution.budget.maxSteps

namespace Budgeted

variable {core core' : Tables} {w w' : Workflow}

theorem reserved_of_pins (h : w'.steps.map (·.pin) = w.steps.map (·.pin)) :
    w'.reserved core = w.reserved core := by
  have hsum : ∀ steps : List WorkflowStepRecord,
      steps.map (stepReservation core) = (steps.map (·.pin)).map (stepReservation core) := by
    intro steps
    rw [List.map_map]
    rfl
  rw [reserved, reserved, hsum, h, ← hsum]

theorem runsMove (h : w.Budgeted core) (hruns : RunsMove core.runs core'.runs) :
    w.Budgeted core' := by
  have hstep : ∀ step ∈ w.steps, stepReservation core' step = stepReservation core step := by
    intro step hstep
    obtain ⟨run, hrun, hfind⟩ := h.linked step hstep
    obtain ⟨run', hfind', hmoved⟩ := hruns.kept run.id run hfind
    have hlimits : run'.limits = run.limits := hmoved.column RunRecord.limits fun _ => rfl
    have hid : run'.id = run.id := (Table.find_eq_some.mp hfind').2
    rw [stepReservation_of_found hrun hfind, ← hlimits]
    apply stepReservation_of_found
    · rw [hrun, hid]
    · rw [hid, hfind']
  refine ⟨?_, ?_, h.within, h.stepped⟩
  · intro step hstep
    obtain ⟨run, hrun, hfind⟩ := h.linked step hstep
    obtain ⟨run', hfind', hmoved⟩ := hruns.kept run.id run hfind
    have hid : run'.id = run.id := (Table.find_eq_some.mp hfind').2
    exact ⟨run', by rw [hrun, hid], by rw [hid, hfind']⟩
  · rw [h.charged, reserved, reserved, List.map_congr_left hstep]

theorem opens {request : WorkflowCreationRequest} {run : RunRecord}
    (h : w.Opens core request run) : w.Budgeted core := by
  obtain ⟨executable, hexecution⟩ := h.execution
  obtain ⟨stepId, hsteps⟩ := h.steps
  have hreservations : w.execution.reservations = reservationFor request.limits := by
    rw [hexecution]
    rfl
  have hempty : ∀ claim : WorkflowReservations, ({} : WorkflowReservations).draw claim = claim := by
    intro claim
    simp only [WorkflowReservations.draw, Nat.zero_add]
  constructor
  · intro step hstep
    rw [hsteps, List.mem_singleton] at hstep
    exact ⟨run, by rw [hstep]; rfl, h.found⟩
  · have hcharge : stepReservation core (request.firstStep w.execution.id run.id stepId) =
        reservationFor request.limits := by
      rw [← h.limits]
      exact stepReservation_of_found rfl h.found
    rw [reserved, hsteps, hreservations, List.map_singleton, hcharge, List.foldl_cons,
      List.foldl_nil, hempty]
  · have hwithin := h.accepts.within
    rw [hempty] at hwithin
    rw [hreservations, hexecution]
    exact hwithin
  · rw [hexecution]
    exact request.budget.steps.1

theorem dispatch {now : Instant} (h : w.Budgeted core) (dispatch : Dispatch core w now) :
    dispatch.after.Budgeted core := by
  have hcharge : stepReservation core dispatch.step = reservationFor dispatch.run.limits :=
    stepReservation_of_found rfl dispatch.found
  constructor
  · intro step hstep
    rcases List.mem_append.mp hstep with hold | hnew
    · exact h.linked step hold
    · rw [List.mem_singleton.mp hnew]
      exact ⟨dispatch.run, rfl, dispatch.found⟩
  · change w.execution.reservations.draw _ = reserved core { w with steps := w.steps ++ [_] }
    rw [reserved, List.map_append, List.foldl_append, h.charged, List.map_singleton, hcharge]
    rfl
  · exact dispatch.accepts.within
  · exact dispatch.steps

theorem moves {act : WorkflowAct} (h : w.Budgeted core) (hmoves : w.Moves core act w') :
    w'.Budgeted core := by
  rcases hmoves.dispatch_or_undrawn with ⟨now, dispatch, -, rfl⟩ | hundrawn
  · exact h.dispatch dispatch
  · have hbudget := hmoves.grows.budget
    constructor
    · intro step' hstep'
      have hpin : step'.pin ∈ w.steps.map (·.pin) := by
        rw [← hundrawn.steps]
        exact List.mem_map_of_mem hstep'
      obtain ⟨step, hstep, heq⟩ := List.mem_map.mp hpin
      obtain ⟨run, hrun, hfind⟩ := h.linked step hstep
      have hlink : step.runId = step'.runId :=
        StepMoves.column heq WorkflowStepRecord.runId fun _ => rfl
      exact ⟨run, by rw [← hlink, hrun], hfind⟩
    · rw [hundrawn.reservations, h.charged, reserved_of_pins hundrawn.steps]
    · rw [hundrawn.reservations, hbudget]
      exact h.within
    · rw [hundrawn.stepCount, hbudget]
      exact h.stepped

end Budgeted

end Workflow

variable {policy : QueuePolicy} {system : WorkflowSystem} {id : Nat} {w : Workflow}

/-- In every reachable state each counter is the sum of what the Runs of the dispatched
steps reserve and is within the budget, and later the counters only grow. -/
theorem workflow_budgets (h : (workflowEngine policy).Reachable system)
    (hw : system.workflow id = some w) :
    w.Budgeted system.db.1.core ∧
      ∀ ops, ∃ w', ((workflowEngine policy).run ops system).workflow id = some w' ∧
        w'.execution.budget = w.execution.budget ∧
        w.execution.stepCount ≤ w'.execution.stepCount ∧
        w.execution.reservations.Le w'.execution.reservations := by
  constructor
  · apply WorkflowSystem.workflow_invariant_core _ _ _ h hw
    · exact fun _ _ _ hbudgeted hruns => hbudgeted.runsMove hruns
    · exact fun _ _ _ _ => Workflow.Budgeted.opens
    · exact fun _ _ _ _ hbudgeted hmove => hbudgeted.moves hmove
  · intro ops
    obtain ⟨w', hw', hgrows⟩ := WorkflowSystem.run_grows policy ops system hw
    exact ⟨w', hw', hgrows.budget, hgrows.stepCount, hgrows.reserved⟩

set_option maxRecDepth 100000 in
/-- The first step of a sample workflow is charged. -/
theorem budgeted_sampleWorkflow : ∃ w,
    (sampleWorkflowRun sampleWorkflowStart).workflow 1 = some w ∧
      w.Budgeted (sampleWorkflowRun sampleWorkflowStart).db.1.core := by
  have hsome : ((sampleWorkflowRun sampleWorkflowStart).workflow 1).isSome = true := by
    decide +kernel
  obtain ⟨w, hw⟩ := Option.isSome_iff_exists.mp hsome
  exact ⟨w, hw, (workflow_budgets (sampleWorkflowRun_reachable _) hw).1⟩

end NervOS
