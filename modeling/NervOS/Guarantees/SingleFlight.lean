/-
A workflow executes one step at a time: whoever writes it, its steps are numbered
without gaps, and no revision is executed twice.  Most writers of its status never
consult the transition table, and still every change is in it; an ended workflow stays
as it is.
-/
import NervOS.Refinement.WorkflowEngine

namespace NervOS

open Relational

structure SingleFlight (w : Workflow) : Prop where
  numbered : w.steps.map (·.stepNumber) = List.range' 1 w.execution.stepCount
  flying : w.execution.status = .running →
    w.execution.stepCount = w.execution.checkpointRevision + 1 ∧
      ∃ step, w.steps.filter (fun step => step.status = .running) = [step] ∧
        step.stepNumber = w.execution.stepCount ∧
        step.expectedCheckpointRevision = w.execution.checkpointRevision
  resting : w.execution.status = .runnable ∨ w.execution.status = .waiting →
    w.execution.stepCount = w.execution.checkpointRevision ∧
      w.steps.filter (fun step => step.status = .running) = []

namespace Workflow.Sound

variable {w w' : Workflow}

theorem running_steps (h : w.Sound) (hrunning : w.execution.status = .running) :
    ∃ step, w.steps.filter (fun step => step.status = .running) = [step] ∧
      step.stepNumber = w.execution.stepCount := by
  obtain ⟨hcount, honly⟩ := h.running hrunning
  have hlast : w.execution.stepCount ∈ w.steps.map (·.stepNumber) :=
    h.numbered.mem.mpr ⟨by omega, le_rfl⟩
  obtain ⟨step, hstep, hnumber⟩ := List.mem_map.mp hlast
  refine ⟨step, ?_, hnumber⟩
  have hnodup : w.steps.Nodup := List.Nodup.of_map _ h.numbered.nodup
  apply List.perm_singleton.mp
  rw [List.perm_ext_iff_of_nodup (hnodup.filter _) (List.nodup_singleton step)]
  intro other
  rw [List.mem_filter, decide_eq_true_eq, List.mem_singleton]
  constructor
  · rintro ⟨hother, hrun⟩
    exact h.eq_of_number hother hstep (((honly other hother).mp hrun).trans hnumber.symm)
  · rintro rfl
    exact ⟨hstep, (honly other hstep).mpr hnumber⟩

theorem singleFlight (h : w.Sound) : SingleFlight w := by
  constructor
  · exact h.numbered
  · intro hrunning
    obtain ⟨hcount, -⟩ := h.running hrunning
    obtain ⟨step, hfilter, hnumber⟩ := h.running_steps hrunning
    refine ⟨hcount, step, hfilter, hnumber, ?_⟩
    have hstep : step ∈ w.steps := by
      apply List.mem_of_mem_filter (p := fun step : WorkflowStepRecord => step.status = .running)
      rw [hfilter]
      exact List.mem_singleton_self step
    have hexpected := h.expected step hstep
    omega
  · intro hrests
    have hready : w.execution.status.IsDispatchable := by
      rcases hrests with hstatus | hstatus <;> rw [hstatus] <;> trivial
    obtain ⟨hcount, hidle⟩ := h.resting hready
    refine ⟨hcount, List.filter_eq_nil_iff.mpr fun step hstep => ?_⟩
    rw [decide_eq_true_eq]
    exact hidle step hstep

theorem eq_run_of_revision (h : w'.Sound) (hgrows : w.Grows w') {left right : WorkflowStepRecord}
    (hleft : left ∈ w.steps) (hright : right ∈ w'.steps)
    (hrevision : left.expectedCheckpointRevision = right.expectedCheckpointRevision) :
    left.runId = right.runId := by
  obtain ⟨kept, hkept, hpin⟩ := hgrows.steps.exists_after hleft
  have hexpected : kept.expectedCheckpointRevision = left.expectedCheckpointRevision :=
    hpin.column WorkflowStepRecord.expectedCheckpointRevision fun _ => rfl
  have hrun : kept.runId = left.runId :=
    hpin.column WorkflowStepRecord.runId fun _ => rfl
  have hsame : kept = right := by
    apply h.eq_of_number hkept hright
    rw [h.expected kept hkept, h.expected right hright, hexpected, hrevision]
  rw [← hrun, hsame]

end Workflow.Sound

variable {policy : QueuePolicy} {system : WorkflowSystem} {id : Nat} {w : Workflow}

/-- In every reachable state a workflow has one step in flight at most, and whatever
happens later no revision is executed by two Runs. -/
theorem workflow_single_flight (h : (workflowEngine policy).Reachable system)
    (hw : system.workflow id = some w) :
    SingleFlight w ∧
      ∀ ops w', ((workflowEngine policy).run ops system).workflow id = some w' →
        ∀ left ∈ w.steps, ∀ right ∈ w'.steps,
          left.expectedCheckpointRevision = right.expectedCheckpointRevision →
            left.runId = right.runId := by
  refine ⟨(WorkflowSystem.reachable_sound h hw).singleFlight, ?_⟩
  intro ops w' hw' left hleft right hright hrevision
  obtain ⟨after, hafter, hgrows⟩ := WorkflowSystem.run_grows policy ops system hw
  obtain rfl := Option.some.inj (hafter.symm.trans hw')
  exact (WorkflowSystem.reachable_sound (h.run ops) hw').eq_run_of_revision hgrows hleft hright hrevision

set_option maxRecDepth 100000 in
/-- The first step of a sample workflow is in flight. -/
theorem singleFlight_sampleWorkflow : ∃ w,
    (sampleWorkflowRun sampleWorkflowStart).workflow 1 = some w ∧ SingleFlight w := by
  have hsome : ((sampleWorkflowRun sampleWorkflowStart).workflow 1).isSome = true := by
    decide +kernel
  obtain ⟨w, hw⟩ := Option.isSome_iff_exists.mp hsome
  exact ⟨w, hw, (workflow_single_flight (sampleWorkflowRun_reachable _) hw).1⟩

variable {policy : QueuePolicy} {system : WorkflowSystem} {id : Nat} {w : Workflow}

/-- Each operation keeps a workflow's status or changes it as the table allows, and no
operation ever rewrites an ended workflow or adds a checkpoint or a step to it. -/
theorem workflow_lifecycle (policy : QueuePolicy) (hw : system.workflow id = some w) :
    (∀ op, ∃ w', ((workflowEngine policy).exec op system).workflow id = some w' ∧
      (w'.execution.status = w.execution.status ∨
        w'.execution.status ∈ allowedTransitions w.execution.status)) ∧
      (w.execution.status.IsTerminal → ∀ ops, ∃ w',
        ((workflowEngine policy).run ops system).workflow id = some w' ∧
          w'.execution = w.execution ∧ w'.checkpoints = w.checkpoints ∧
          w'.steps.map (·.pin) = w.steps.map (·.pin)) := by
  constructor
  · intro op
    obtain ⟨w', hw', hmoved⟩ := (WorkflowSystem.exec_refines policy op system).kept id w hw
    refine ⟨w', hw', ?_⟩
    rcases hmoved with rfl | ⟨act, -, hmove⟩
    · exact Or.inl rfl
    · exact hmove.transition
  · intro hover ops
    obtain ⟨w', hw', hgrows⟩ := WorkflowSystem.run_grows policy ops system hw
    obtain ⟨hexecution, hcheckpoints, hlength⟩ := hgrows.ended hover
    refine ⟨w', hw', hexecution, hcheckpoints, ?_⟩
    exact map_eq_of_forall₂ (hgrows.steps.forall₂ hlength) fun _ _ hpin => hpin

set_option maxRecDepth 100000 in
/-- A workflow that its owner cancelled stays as it is, whatever follows. -/
theorem lifecycle_sampleWorkflow : ∃ w,
    (sampleWorkflowRun (sampleWorkflowStart ++ [.cancel 1 1 2])).workflow 1 = some w ∧
      w.execution.status = .cancelled ∧
      ∀ ops, ∃ w', ((workflowEngine productionQueuePolicy).run ops
          (sampleWorkflowRun (sampleWorkflowStart ++ [.cancel 1 1 2]))).workflow 1 = some w' ∧
        w'.execution = w.execution ∧ w'.checkpoints = w.checkpoints ∧
          w'.steps.map (·.pin) = w.steps.map (·.pin) := by
  have hcancelled : ((sampleWorkflowRun (sampleWorkflowStart ++ [.cancel 1 1 2])).workflow
      1).map (·.execution.status) = some .cancelled := by
    decide +kernel
  obtain ⟨w, hw, hstatus⟩ := Option.map_eq_some_iff.mp hcancelled
  refine ⟨w, hw, hstatus, (workflow_lifecycle productionQueuePolicy hw).2 ?_⟩
  rw [hstatus]
  trivial

end NervOS
