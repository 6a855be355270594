/-
Single flight: the steps of a workflow are numbered without gaps, and a workflow
executes one step at a time, each from the revision that the step before it left.
-/
import NervOS.Relational.Rows
import NervOS.Workflow.Protocol

namespace NervOS

open Relational

namespace Workflow

structure Sound (w : Workflow) : Prop where
  numbered : Numbered (w.steps.map (·.stepNumber)) w.execution.stepCount
  expected : ∀ step ∈ w.steps, step.stepNumber = step.expectedCheckpointRevision + 1
  resting : w.execution.status.IsDispatchable →
    w.execution.stepCount = w.execution.checkpointRevision ∧
      ∀ step ∈ w.steps, step.status ≠ .running
  running : w.execution.status = .running →
    w.execution.stepCount = w.execution.checkpointRevision + 1 ∧
      ∀ step ∈ w.steps, step.status = .running ↔ step.stepNumber = w.execution.stepCount

namespace Sound

variable {w w' : Workflow}

theorem eq_of_number (h : w.Sound) {left right : WorkflowStepRecord} (hleft : left ∈ w.steps)
    (hright : right ∈ w.steps) (hnumber : left.stepNumber = right.stepNumber) : left = right :=
  List.inj_on_of_nodup_map h.numbered.nodup hleft hright hnumber

theorem number_le (h : w.Sound) {step : WorkflowStepRecord} (hstep : step ∈ w.steps) :
    1 ≤ step.stepNumber ∧ step.stepNumber ≤ w.execution.stepCount :=
  h.numbered.mem.mp (List.mem_map_of_mem hstep)

def StepsKept (steps steps' : List WorkflowStepRecord) : Prop :=
  List.Forall₂ (fun step step' => step'.stepNumber = step.stepNumber ∧
    step'.expectedCheckpointRevision = step.expectedCheckpointRevision) steps steps'

theorem stepsKept_map {p : WorkflowStepRecord → Prop} [DecidablePred p]
    {f : WorkflowStepRecord → WorkflowStepRecord} (steps : List WorkflowStepRecord)
    (hnumber : ∀ step, (f step).stepNumber = step.stepNumber)
    (hexpected : ∀ step,
      (f step).expectedCheckpointRevision = step.expectedCheckpointRevision) :
    StepsKept steps (steps.map (Table.amend p f)) :=
  forall₂_amend fun step _ => ⟨Table.amend_column hnumber step, Table.amend_column hexpected step⟩

section

variable (h : w.Sound) (hsteps : StepsKept w.steps w'.steps)
    (hcount : w'.execution.stepCount = w.execution.stepCount)

include h hsteps hcount

theorem of_kept
    (hresting : w'.execution.status.IsDispatchable →
      w'.execution.stepCount = w'.execution.checkpointRevision ∧
        ∀ step ∈ w'.steps, step.status ≠ .running)
    (hrunning : w'.execution.status = .running →
      w'.execution.stepCount = w'.execution.checkpointRevision + 1 ∧
        ∀ step ∈ w'.steps, step.status = .running ↔ step.stepNumber = w'.execution.stepCount) :
    w'.Sound := by
  refine ⟨?_, ?_, hresting, hrunning⟩
  · rw [map_eq_of_forall₂ hsteps fun _ _ hkeep => hkeep.1, hcount]
    exact h.numbered
  · intro step' hstep'
    obtain ⟨step, hstep, hnumber, hexpected⟩ := exists_before hsteps hstep'
    rw [hnumber, hexpected]
    exact h.expected step hstep

theorem of_over (hover : w'.execution.status.IsTerminal) : w'.Sound := by
  apply h.of_kept hsteps hcount
  · intro hready
    exact absurd hover (not_terminal_of_dispatchable hready)
  · intro hrunning
    rw [hrunning] at hover
    exact hover.elim

end

theorem of_same (h : w.Sound) (hsteps : w'.steps = w.steps)
    (hcount : w'.execution.stepCount = w.execution.stepCount)
    (hrevision : w'.execution.checkpointRevision = w.execution.checkpointRevision)
    (hready : w'.execution.status.IsDispatchable → w.execution.status.IsDispatchable)
    (hrunning : w'.execution.status = .running → w.execution.status = .running) :
    w'.Sound := by
  refine ⟨?_, ?_, ?_, ?_⟩
  · rw [hsteps, hcount]
    exact h.numbered
  · rw [hsteps]
    exact h.expected
  · intro hrest
    rw [hsteps, hcount, hrevision]
    exact h.resting (hready hrest)
  · intro hrun
    rw [hsteps, hcount, hrevision]
    exact h.running (hrunning hrun)

variable {core : Tables}

theorem opens {request : WorkflowCreationRequest} {run : RunRecord} (h : w.Opens core request run) :
    w.Sound := by
  obtain ⟨executable, hexecution⟩ := h.execution
  obtain ⟨stepId, hsteps⟩ := h.steps
  constructor
  · rw [hsteps, hexecution]
    rfl
  · intro step hstep
    rw [hsteps, List.mem_singleton] at hstep
    rw [hstep]
    rfl
  · intro hready
    rw [hexecution] at hready
    exact hready.elim
  · intro _
    rw [hexecution]
    refine ⟨rfl, fun step hstep => ?_⟩
    rw [hsteps, List.mem_singleton] at hstep
    rw [hstep]
    exact iff_of_true rfl rfl

theorem dispatch {now : Instant} (h : w.Sound) (dispatch : Dispatch core w now) :
    dispatch.after.Sound := by
  obtain ⟨hcount, hidle⟩ := h.resting dispatch.clears.ready
  constructor
  · change Numbered ((w.steps ++ [dispatch.step]).map (·.stepNumber)) (w.execution.stepCount + 1)
    rw [List.map_append]
    exact h.numbered.concat
  · intro step hstep
    rcases List.mem_append.mp hstep with hold | hnew
    · exact h.expected step hold
    · rw [List.mem_singleton.mp hnew]
      exact congrArg (· + 1) hcount
  · intro hready
    exact hready.elim
  · intro _
    refine ⟨congrArg (· + 1) hcount, fun step hstep => ?_⟩
    rcases List.mem_append.mp hstep with hold | hnew
    · have hle := (h.number_le hold).2
      apply iff_of_false (hidle step hold)
      change step.stepNumber ≠ w.execution.stepCount + 1
      omega
    · rw [List.mem_singleton.mp hnew]
      exact iff_of_true rfl rfl

theorem commit {runId : Nat} {result : WorkflowStepResult} {now : Instant} (h : w.Sound)
    (commit : Commit w runId) : (commit.after result now).Sound := by
  obtain ⟨hcount, honly⟩ := h.running commit.parent
  have hnumber := (honly commit.step commit.owned).mp commit.running
  refine h.of_kept (stepsKept_map w.steps (fun _ => rfl) fun _ => rfl) rfl ?_ ?_
  · intro _
    refine ⟨hcount, fun step' hstep' hrunning => ?_⟩
    obtain ⟨step, hstep, rfl⟩ := List.mem_map.mp hstep'
    by_cases hp : step.id = commit.step.id ∧ step.status = .running
    · rw [Table.amend_of_pos (p := fun row : WorkflowStepRecord =>
        row.id = commit.step.id ∧ row.status = .running) hp] at hrunning
      cases hrunning
    · rw [Table.amend_of_neg (p := fun row : WorkflowStepRecord =>
        row.id = commit.step.id ∧ row.status = .running) hp] at hrunning
      have hsame := h.eq_of_number hstep commit.owned
        (((honly step hstep).mp hrunning).trans hnumber.symm)
      exact hp ⟨congrArg (·.id) hsame, hrunning⟩
  · intro hrunning
    change result.directive.target = .running at hrunning
    unfold WorkflowDirective.target at hrunning
    split at hrunning <;> cases hrunning

theorem decided (h : w.Sound) (verdict : Verdict) : (w.decided verdict).Sound := by
  rcases decided_execution w verdict with ⟨hawaited, hexecution⟩ | ⟨-, hexecution⟩
  · refine h.of_same rfl ?_ ?_ (fun _ => ?_) ?_
    · rw [hexecution]
      rfl
    · rw [hexecution]
      rfl
    · rw [hawaited.2.1]
      trivial
    · intro hrunning
      rw [hexecution] at hrunning
      change (if verdict.approve then WorkflowStatus.runnable else .cancelled) = .running
        at hrunning
      split at hrunning <;> cases hrunning
  · refine h.of_same rfl ?_ ?_ ?_ ?_
    · rw [hexecution]
    · rw [hexecution]
    · rw [hexecution]
      exact id
    · rw [hexecution]
      exact id

theorem moves {act : WorkflowAct} (h : w.Sound) (hmoves : w.Moves core act w') :
    w'.Sound := by
  cases hmoves with
  | rotate _ => exact h.of_same rfl rfl rfl id id
  | loseRun _ =>
    exact h.of_over (stepsKept_map w.steps (fun _ => rfl) fun _ => rfl) rfl trivial
  | miss _ _ => exact h.of_over (List.forall₂_same.mpr fun _ _ => ⟨rfl, rfl⟩) rfl trivial
  | close _ _ hcloses =>
    refine h.of_over (List.forall₂_same.mpr fun _ _ => ⟨rfl, rfl⟩) rfl ?_
    rcases hcloses with rfl | rfl <;> trivial
  | loseAuthority _ _ _ _ _ =>
    exact h.of_over (List.forall₂_same.mpr fun _ _ => ⟨rfl, rfl⟩) rfl trivial
  | relink _ _ _ => exact h.of_same rfl rfl rfl id id
  | dispatch dispatch => exact h.dispatch dispatch
  | commit commit => exact h.commit commit
  | finishLate _ _ hcancelled =>
    refine h.of_over (stepsKept_map w.steps (fun _ => rfl) fun _ => rfl) rfl ?_
    rw [hcancelled]
    trivial
  | wake _ haccepted _ =>
    have hwaiting := (waits_of_accepted haccepted).1
    refine h.of_same rfl rfl rfl (fun _ => ?_) nofun
    rw [hwaiting]
    trivial
  | decide hdecides => exact h.decided _
  | setPaused _ => exact h.of_same rfl rfl rfl id id
  | cancel _ => exact h.of_over (List.forall₂_same.mpr fun _ _ => ⟨rfl, rfl⟩) rfl trivial

end Sound

end Workflow

end NervOS
