/-
The checkpoints of a workflow over whole runs: what a step resumes from is what the
step before it committed, however long ago and whatever retention dropped since.
-/
import NervOS.Refinement.WorkflowHanded
import NervOS.Workflow.Chain

namespace NervOS

open Relational

section Log

def WorkflowOp.committed (policy : QueuePolicy) (id : Nat) (op : WorkflowOp)
    (system : WorkflowSystem) : List CommittedStep :=
  match op.act system, system.workflow id, (system.exec policy op).workflow id with
  | some act, some w, some w' => w.committed act w'
  | _, _, _ => []

def committedSteps (policy : QueuePolicy) (id : Nat) :
    List WorkflowOp → WorkflowSystem → List CommittedStep
  | [], _ => []
  | op :: rest, system =>
    op.committed policy id system ++ committedSteps policy id rest (system.exec policy op)

variable {policy : QueuePolicy} {id : Nat} {w : Workflow}

theorem committedSteps_append (first second : List WorkflowOp) (system : WorkflowSystem) :
    committedSteps policy id (first ++ second) system =
      committedSteps policy id first system ++
        committedSteps policy id second ((workflowEngine policy).run first system) := by
  induction first generalizing system with
  | nil => rfl
  | cons op rest ih =>
    rw [List.cons_append, committedSteps, committedSteps, ih, List.append_assoc]
    rfl

structure Logged (J : List CommittedStep → Workflow → Prop) (id : Nat) (system : WorkflowSystem)
    (log : List CommittedStep) : Prop where
  absent : system.workflow id = none → log = []
  holds : ∀ w, system.workflow id = some w → J log w

variable {op : WorkflowOp} {system : WorkflowSystem}

theorem committed_of_absent (h : system.workflow id = none) :
    op.committed policy id system = [] := by
  unfold WorkflowOp.committed
  rw [h]
  split
  · rename_i hsome _
    cases hsome
  · rfl

theorem committed_of_unmoved (h : system.workflow id = some w)
    (h' : (system.exec policy op).workflow id = some w) :
    op.committed policy id system = [] := by
  unfold WorkflowOp.committed
  rw [h, h']
  split
  · rename_i hleft hright
    obtain rfl := Option.some.inj hleft
    obtain rfl := Option.some.inj hright
    exact Workflow.committed_of_eq _ rfl
  · rfl

variable {J : List CommittedStep → Workflow → Prop}

theorem exec_logged {B : WorkflowAct → Workflow → Prop} {log : List CommittedStep}
    (h : Logged J id system log)
    (hbound : ∀ act w, op.act system = some act → system.workflow id = some w → B act w)
    (hopens : ∀ core w request run, w.Opens core request run → J [] w)
    (hmoves : ∀ core act log w w', J log w → system.workflow id = some w → B act w →
      w.Moves core act w' → J (log ++ w.committed act w') w') :
    Logged J id (system.exec policy op) (log ++ op.committed policy id system) := by
  have hrefines := WorkflowSystem.exec_refines policy op system
  cases hw : system.workflow id with
  | none =>
    rw [committed_of_absent hw, h.absent hw]
    refine ⟨fun _ => rfl, fun w' hw' => ?_⟩
    obtain ⟨request, preparation, run, -, hopened⟩ := hrefines.opened id w' hw hw'
    exact hopens _ w' request run hopened
  | some w =>
    obtain ⟨w', hw', hmoved⟩ := hrefines.kept id w hw
    constructor
    · intro hgone
      rw [hgone] at hw'
      cases hw'
    · intro other hother
      obtain rfl := Option.some.inj (hw'.symm.trans hother)
      rcases hmoved with rfl | ⟨act, hact, hmove⟩
      · rw [committed_of_unmoved hw hw', List.append_nil]
        exact h.holds _ hw
      · have hcommitted : op.committed policy id system = w.committed act w' := by
          unfold WorkflowOp.committed
          rw [hact, hw, hw']
        rw [hcommitted]
        exact hmoves _ act log w w' (h.holds w hw) hw (hbound act w hact hw) hmove

theorem run_logged (policy : QueuePolicy) (id : Nat) (ok : WorkflowSystem → WorkflowOp → Prop)
    (B : WorkflowAct → Workflow → Prop)
    (hbound : ∀ system op act w, (workflowEngine policy).ReachableAlong ok system →
      ok system op → op.act system = some act → system.workflow id = some w → B act w)
    (hopens : ∀ core w request run, w.Opens core request run → J [] w)
    (hmoves : ∀ system core act log w w', (workflowEngine policy).ReachableAlong ok system →
      system.workflow id = some w → J log w → B act w → w.Moves core act w' →
      J (log ++ w.committed act w') w') {ops : List WorkflowOp}
    (halong : (workflowEngine policy).Along ok ops (workflowEngine policy).init) :
    Logged J id ((workflowEngine policy).run ops (workflowEngine policy).init)
      (committedSteps policy id ops (workflowEngine policy).init) := by
  induction ops using List.reverseRecOn with
  | nil =>
    refine ⟨fun _ => rfl, fun w hw => ?_⟩
    cases hw
  | append_singleton before op ih =>
    obtain ⟨hbefore, hop, -⟩ := (Machine.along_append _ before [op] _).mp halong
    have hreach : (workflowEngine policy).ReachableAlong ok
        ((workflowEngine policy).run before (workflowEngine policy).init) :=
      ⟨before, hbefore, rfl⟩
    rw [Machine.run_append, committedSteps_append, committedSteps, committedSteps,
      List.append_nil]
    apply exec_logged (B := B) (ih hbefore)
    · exact fun act w => hbound _ op act w hreach hop
    · exact hopens
    · exact fun core act log w w' hJ hw => hmoves _ core act log w w' hreach hw hJ

theorem run_chained (policy : QueuePolicy) (ops : List WorkflowOp) (id : Nat) :
    Logged (fun log w => w.Chained log) id
      ((workflowEngine policy).run ops (workflowEngine policy).init)
      (committedSteps policy id ops (workflowEngine policy).init) := by
  apply run_logged policy id (fun _ _ => True) (fun _ _ => True)
  · exact fun _ _ _ _ _ _ _ _ => trivial
  · exact fun core w request run => Workflow.Chained.opens
  · intro system core act log w w' hreach hw hchained _ hmove
    exact hchained.moves (WorkflowSystem.reachable_sound hreach.reachable hw) hmove
  · exact Machine.along_of_forall (fun _ _ => trivial) ops _

end Log

variable {policy : QueuePolicy} {id : Nat} {w : Workflow}

/-- Over every run, each step of a workflow is pinned to the state that the step before
it committed, is handed to its package as that state, and retention keeps the newest
checkpoints of all that were committed. -/
theorem workflow_checkpoint_chain (ops : List WorkflowOp)
    (hw : ((workflowEngine policy).run ops (workflowEngine policy).init).workflow id = some w) :
    w.Chained (committedSteps policy id ops (workflowEngine policy).init) ∧
      ∀ entry ∈ ((workflowEngine policy).run ops (workflowEngine policy).init).handed,
        ∀ step ∈ w.steps, step.runId = some entry.1 →
          entry.2.stepNumber = step.stepNumber ∧ step.stateJson = entry.2.state.text := by
  refine ⟨(run_chained policy ops id).holds w hw, ?_⟩
  intro entry hentry step hstep hrun
  obtain ⟨id', w', hw', other, hother, hrun', hnumber, -, hstate⟩ :=
    WorkflowSystem.reachable_handed ⟨ops, rfl⟩ entry hentry
  obtain rfl := eq_of_step_run ((mem_steps hw').mp hother).1 ((mem_steps hw).mp hstep).1 hrun' hrun
  exact ⟨hnumber.symm, hstate⟩

def sampleSecondStep : List WorkflowOp :=
  sampleWorkflowStart ++ [.succeed (sampleClaim 1 0) sampleCompletion (some sampleNext) 2,
    .tick (sampleTick 3), .readStep 2]

set_option maxRecDepth 100000 in
theorem chained_sampleSecondStep : ∃ w, (sampleWorkflowRun sampleSecondStep).workflow 1 = some w ∧
    w.execution.stepCount = 2 ∧
    w.Chained (committedSteps productionQueuePolicy 1 sampleSecondStep
      (workflowEngine productionQueuePolicy).init) := by
  have hcount : ((sampleWorkflowRun sampleSecondStep).workflow 1).map (·.execution.stepCount) =
      some 2 := by
    decide +kernel
  obtain ⟨w, hw, hstep⟩ := Option.map_eq_some_iff.mp hcount
  exact ⟨w, hw, hstep, (workflow_checkpoint_chain sampleSecondStep hw).1⟩

/-- Each workflow still has its signals, the steps as they were dispatched and the decisions as
they were proposed, and no decision is taken twice. -/
def WorkflowSystem.KeepsRecords (system later : WorkflowSystem) : Prop :=
  ∀ id w, system.workflow id = some w → ∃ w', later.workflow id = some w' ∧
    w.signals <+: w'.signals ∧ (∀ step ∈ w.steps, ∃ step' ∈ w'.steps, StepMoves step step') ∧
      ∀ decision ∈ w.decisions, ∃ decision' ∈ w'.decisions, DecisionMoves decision decision'

theorem WorkflowSystem.records_kept (policy : QueuePolicy) (ops : List WorkflowOp)
    (system : WorkflowSystem) : system.KeepsRecords ((workflowEngine policy).run ops system) := by
  intro id w hw
  obtain ⟨w', hw', hgrows⟩ := run_grows policy ops system hw
  exact ⟨w', hw', hgrows.signals, fun step => hgrows.steps.exists_after,
    fun decision => hgrows.decisions.exists_after⟩

end NervOS
