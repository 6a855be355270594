/-
What a package is handed: the snapshot of the step that its Run executes, with the
state that the step is pinned to.
-/
import NervOS.Refinement.WorkflowEngine

namespace NervOS

open Relational

namespace Workflow

def Pinned (w : Workflow) : Prop :=
  ∀ step ∈ w.steps, ∃ state : FrozenState, step.stateJson = state.text

def Hands (w : Workflow) (entry : Nat × WorkflowStepSnapshot) : Prop :=
  ∃ step ∈ w.steps, step.runId = some entry.1 ∧ step.stepNumber = entry.2.stepNumber ∧
    step.expectedCheckpointRevision = entry.2.checkpointRevision ∧
    step.stateJson = entry.2.state.text

variable {w w' : Workflow}

theorem Pinned.opens {core : Tables} {request : WorkflowCreationRequest} {run : RunRecord}
    (h : w.Opens core request run) : w.Pinned := by
  intro step hstep
  obtain ⟨stepId, hsteps⟩ := h.steps
  rw [hsteps, List.mem_singleton] at hstep
  rw [hstep]
  exact ⟨emptyState, rfl⟩

theorem Pinned.moves {core : Tables} {act : WorkflowAct} (h : w.Pinned)
    (hmoves : w.Moves core act w') : w'.Pinned := by
  intro step' hstep'
  rcases hmoves.dispatch_or_undrawn with ⟨now, dispatch, -, rfl⟩ | hundrawn
  · rcases List.mem_append.mp hstep' with hold | hnew
    · exact h step' hold
    · rw [List.mem_singleton.mp hnew]
      exact ⟨dispatch.state, rfl⟩
  · have hpin : step'.pin ∈ w.steps.map (·.pin) := by
      rw [← hundrawn.steps]
      exact List.mem_map_of_mem hstep'
    obtain ⟨step, hstep, heq⟩ := List.mem_map.mp hpin
    obtain ⟨state, hstate⟩ := h step hstep
    refine ⟨state, ?_⟩
    rw [← hstate]
    exact (StepMoves.column heq WorkflowStepRecord.stateJson fun _ => rfl).symm

theorem Hands.grows {entry : Nat × WorkflowStepSnapshot} (h : w.Hands entry)
    (hgrows : w.Grows w') : w'.Hands entry := by
  obtain ⟨step, hstep, hrun, hnumber, hrevision, hstate⟩ := h
  obtain ⟨step', hstep', hpin⟩ := hgrows.steps.exists_after hstep
  refine ⟨step', hstep', ?_, ?_, ?_, ?_⟩
  · rw [← hrun]
    exact hpin.column WorkflowStepRecord.runId fun _ => rfl
  · rw [← hnumber]
    exact hpin.column WorkflowStepRecord.stepNumber fun _ => rfl
  · rw [← hrevision]
    exact hpin.column WorkflowStepRecord.expectedCheckpointRevision fun _ => rfl
  · rw [← hstate]
    exact hpin.column WorkflowStepRecord.stateJson fun _ => rfl

end Workflow

theorem eq_of_step_run {db : WorkflowDatabase} {left right : WorkflowStepRecord}
    (hleft : left ∈ db.1.own.steps.rows) (hright : right ∈ db.1.own.steps.rows)
    {runId : Nat} (hl : left.runId = some runId) (hr : right.runId = some runId) :
    left = right := by
  have hclash : ∀ {a b : WorkflowStepRecord}, a.runId = some runId → b.runId = some runId →
      Record.Clash a b := by
    intro a b ha hb
    right
    rw [ha, hb]
    exact ⟨nofun, rfl⟩
  rcases Nat.lt_trichotomy left.id right.id with hlt | heq | hlt
  · exact absurd (hclash hl hr) (Table.not_clash hleft hright hlt)
  · exact Table.eq_of_key_eq hleft hright heq
  · exact absurd (hclash hr hl) (Table.not_clash hright hleft hlt)

theorem snapshot_hands {own : WorkflowTables} {runId : Nat} {snapshot : WorkflowStepSnapshot}
    (hpinned : ∀ id w, own.workflow id = some w → w.Pinned)
    (hworkflow : ∀ step ∈ own.steps.rows, ∃ w, own.workflow step.workflowId = some w ∧
      step ∈ w.steps)
    (h : snapshotForRun own runId = .ok (some snapshot)) :
    ∃ id w, own.workflow id = some w ∧ w.Hands (runId, snapshot) := by
  unfold snapshotForRun at h
  split at h
  · cases h
  · rename_i step hfind
    have hmatch := List.find?_some hfind
    obtain ⟨hrun, -⟩ := of_decide_eq_true hmatch
    obtain ⟨w, hw, hstep⟩ := hworkflow step (List.mem_of_find?_eq_some hfind)
    split at h
    · rename_i wakeSignal state hsignal hload
      obtain rfl := Option.some.inj (Except.ok.inj h)
      obtain ⟨pinned, htext⟩ := hpinned _ w hw step hstep
      rw [htext, loadState_text] at hload
      obtain rfl := Option.some.inj hload
      exact ⟨_, w, hw, step, hstep, hrun, rfl, rfl, htext⟩
    all_goals cases h

namespace WorkflowSystem

variable {policy : QueuePolicy} {system : WorkflowSystem}

theorem exec_handed (policy : QueuePolicy) (op : WorkflowOp) (system : WorkflowSystem) :
    (exec policy op system).handed = system.handed ∨
      ∃ runId snapshot, snapshotForRun system.db.1.own runId = .ok (some snapshot) ∧
        (exec policy op system).handed = system.handed ++ [(runId, snapshot)] := by
  have hsettle : ∀ claim completion workflowStep now,
      (system.settle claim completion workflowStep now).handed = system.handed := by
    intro claim completion workflowStep now
    unfold WorkflowSystem.settle
    split <;> rfl
  cases op with
  | engine op =>
    left
    rcases exec_engine policy op system with ⟨claim, completion, now, rfl⟩ | hexec
    · exact hsettle claim completion none now
    · rw [hexec]
      unfold WorkflowSystem.onEngine
      split <;> rfl
  | succeed claim completion workflowStep now =>
    exact Or.inl (hsettle claim completion workflowStep now)
  | readStep runId =>
    change (system.readStep runId).handed = _ ∨ ∃ _ _, _ ∧ (system.readStep runId).handed = _
    unfold WorkflowSystem.readStep
    split
    · rename_i snapshot hread
      exact Or.inr ⟨runId, snapshot, hread, rfl⟩
    · exact Or.inl rfl
    · exact Or.inl rfl
  | create | tick | deliverSignal | decide | setPaused | cancel => exact Or.inl rfl

theorem reachable_pinned (h : (workflowEngine policy).Reachable system) {id : Nat} {w : Workflow}
    (hw : system.workflow id = some w) : w.Pinned :=
  workflow_invariant (fun _ _ _ _ => .opens) (fun _ _ _ _ => .moves) h hw

theorem reachable_handed (h : (workflowEngine policy).Reachable system) :
    ∀ entry ∈ system.handed, ∃ id w, system.workflow id = some w ∧ w.Hands entry := by
  have halong : (workflowEngine policy).ReachableAlong (fun _ _ => True) system :=
    h.along fun _ _ => trivial
  apply halong.induction
    (I := fun system =>
        ∀ entry ∈ system.handed, ∃ id w, system.workflow id = some w ∧ w.Hands entry)
  · exact List.forall_mem_nil _
  · intro system op hreach hI _ entry hentry
    have hkept : ∀ id w, system.workflow id = some w → w.Hands entry →
        ∃ id w, (exec policy op system).workflow id = some w ∧ w.Hands entry := by
      intro id w hw hhands
      obtain ⟨w', hw', hgrows⟩ := run_grows policy [op] system hw
      exact ⟨id, w', hw', hhands.grows hgrows⟩
    change entry ∈ (exec policy op system).handed at hentry
    rcases exec_handed policy op system with hsame | ⟨runId, snapshot, hread, happend⟩
    · rw [hsame] at hentry
      obtain ⟨id, w, hw, hhands⟩ := hI entry hentry
      exact hkept id w hw hhands
    · rw [happend] at hentry
      rcases List.mem_append.mp hentry with hold | hnew
      · obtain ⟨id, w, hw, hhands⟩ := hI entry hold
        exact hkept id w hw hhands
      · obtain ⟨id, w, hw, hhands⟩ := snapshot_hands
          (fun id w hw => reachable_pinned hreach.reachable hw)
          (fun step hstep => exists_workflow_of_step hstep) hread
        rw [List.mem_singleton.mp hnew]
        rw [List.mem_singleton.mp hnew] at hkept
        exact hkept id w hw hhands

end WorkflowSystem

end NervOS
