/-
The chain of checkpoints: each step resumes from what the step before it committed,
and retention drops only what no later step resumes from.
-/
import NervOS.Workflow.Growth
import NervOS.Workflow.Sound

namespace NervOS

open Relational

structure CommittedStep where
  checkpoint : WorkflowCheckpointRecord
  runId : Nat
  result : WorkflowStepResult

namespace Workflow

def brought (w w' : Workflow) : List WorkflowCheckpointRecord :=
  w'.checkpoints.filter (· ∉ w.checkpoints)

def committed (act : WorkflowAct) (w w' : Workflow) : List CommittedStep :=
  match act with
  | .commit runId result _ => (w.brought w').map fun checkpoint => ⟨checkpoint, runId, result⟩
  | .tick _ | .deliver _ | .decide _ | .setPaused _ _ | .cancel _ => []

theorem latest_of_ascending {rows : List WorkflowCheckpointRecord}
    (h : (rows.map (·.revision)).Pairwise (· < ·)) :
    rows.foldl laterCheckpoint none = rows.getLast? := by
  induction rows using List.reverseRecOn with
  | nil => rfl
  | append_singleton before row ih =>
    rw [List.map_append, List.pairwise_append] at h
    obtain ⟨hbefore, -, habove⟩ := h
    rw [List.foldl_concat, ih hbefore, List.getLast?_concat]
    cases hlast : before.getLast? with
    | none => rfl
    | some other =>
      have hother : other.revision ∈ before.map (·.revision) :=
        List.mem_map_of_mem (List.mem_of_getLast? hlast)
      exact if_pos (habove _ hother _ (List.mem_singleton_self _))

def Resumed (log : List CommittedStep) (step : WorkflowStepRecord) : Prop :=
  (step.stepNumber = 1 ∧ step.stateJson = emptyState.text) ∨
    ∃ entry ∈ log, entry.checkpoint.revision + 1 = step.stepNumber ∧
      step.stateJson = entry.result.state.text

structure Recorded (w : Workflow) (entry : CommittedStep) : Prop where
  state : entry.checkpoint.stateJson = entry.result.state.text
  number : entry.checkpoint.stepNumber = entry.checkpoint.revision
  step : ∃ step ∈ w.steps, step.runId = some entry.runId ∧
    step.stepNumber = entry.checkpoint.revision

/-- The log holds every revision once, the newest of it are retained, and each step
resumes from the one before. -/
structure Chained (log : List CommittedStep) (w : Workflow) : Prop where
  numbered : Numbered (log.map (·.checkpoint.revision)) w.execution.checkpointRevision
  recorded : ∀ entry ∈ log, w.Recorded entry
  retained : w.checkpoints = (log.map (·.checkpoint)).drop
    (w.execution.checkpointRevision - w.execution.budget.maxRetainedCheckpoints)
  resumed : ∀ step ∈ w.steps, Resumed log step

section Frame

variable {w w' : Workflow} {log : List CommittedStep}

theorem Recorded.grows {entry : CommittedStep} (h : w.Recorded entry) (hgrows : w.Grows w') :
    w'.Recorded entry := by
  obtain ⟨step, hstep, hrun, hnumber⟩ := h.step
  obtain ⟨step', hstep', hpin⟩ := hgrows.steps.exists_after hstep
  refine ⟨h.state, h.number, step', hstep', ?_, ?_⟩
  · rw [← hrun]
    exact hpin.column WorkflowStepRecord.runId fun _ => rfl
  · rw [← hnumber]
    exact hpin.column WorkflowStepRecord.stepNumber fun _ => rfl

theorem Resumed.append {step : WorkflowStepRecord} (h : Resumed log step)
    (more : List CommittedStep) : Resumed (log ++ more) step := by
  refine h.imp_right ?_
  rintro ⟨entry, hentry, hresumed⟩
  exact ⟨entry, List.mem_append_left more hentry, hresumed⟩

theorem resumed_of_pins (hpins : w'.steps.map (·.pin) = w.steps.map (·.pin))
    (h : ∀ step ∈ w.steps, Resumed log step) : ∀ step ∈ w'.steps, Resumed log step := by
  intro step' hstep'
  have hpin : step'.pin ∈ w.steps.map (·.pin) := by
    rw [← hpins]
    exact List.mem_map_of_mem hstep'
  obtain ⟨step, hstep, heq⟩ := List.mem_map.mp hpin
  have hnumber : step.stepNumber = step'.stepNumber :=
    StepMoves.column heq WorkflowStepRecord.stepNumber fun _ => rfl
  have hstate : step.stateJson = step'.stateJson :=
    StepMoves.column heq WorkflowStepRecord.stateJson fun _ => rfl
  rw [Resumed, ← hnumber, ← hstate]
  exact h step hstep

theorem brought_commit {runId : Nat} (commit : Commit w runId) (result : WorkflowStepResult)
    (now : Instant)
    (hfresh : ∀ row ∈ w.checkpoints, row.revision ≤ w.execution.checkpointRevision) :
    w.brought (commit.after result now) = [commit.checkpoint result now] := by
  have hretention := w.execution.budget.retention.1
  have hnew : commit.checkpoint result now ∉ w.checkpoints := by
    intro hmem
    have hle := hfresh _ hmem
    change w.execution.checkpointRevision + 1 ≤ w.execution.checkpointRevision at hle
    omega
  have hkept : ¬ (commit.checkpoint result now).revision +
      w.execution.budget.maxRetainedCheckpoints ≤ w.execution.checkpointRevision + 1 := by
    change ¬ w.execution.checkpointRevision + 1 + _ ≤ _
    omega
  change ((w.checkpoints ++ [commit.checkpoint result now]).filter _).filter _ = _
  rw [List.filter_append, List.filter_append, List.filter_singleton, decide_eq_true hkept,
    Bool.cond_true, List.filter_singleton, decide_eq_true hnew, Bool.cond_true]
  rw [List.filter_eq_nil_iff.mpr, List.nil_append]
  intro row hrow
  rw [decide_eq_true_eq, not_not]
  exact List.mem_of_mem_filter hrow

theorem brought_of_eq (h : w'.checkpoints = w.checkpoints) : w.brought w' = [] := by
  rw [brought, h, List.filter_eq_nil_iff]
  intro row hrow
  rw [decide_eq_true_eq, not_not]
  exact hrow

theorem committed_of_eq (act : WorkflowAct) (h : w'.checkpoints = w.checkpoints) :
    committed act w w' = [] := by
  unfold committed
  split
  · rw [brought_of_eq h, List.map_nil]
  all_goals rfl

end Frame

namespace Chained

variable {core : Tables} {w w' : Workflow} {log : List CommittedStep}

theorem checkpoints_numbered (h : Chained log w) :
    Numbered ((log.map (·.checkpoint)).map (·.revision)) w.execution.checkpointRevision := by
  rw [List.map_map]
  exact h.numbered

theorem length (h : Chained log w) :
    (log.map (·.checkpoint)).length = w.execution.checkpointRevision := by
  rw [List.length_map]
  exact (List.length_map _).symm.trans h.numbered.length

theorem revision_le (h : Chained log w) {row : WorkflowCheckpointRecord}
    (hrow : row ∈ w.checkpoints) : row.revision ≤ w.execution.checkpointRevision := by
  rw [h.retained] at hrow
  exact (h.checkpoints_numbered.mem.mp (List.mem_map_of_mem (List.mem_of_mem_drop hrow))).2

theorem latest (h : Chained log w) : w.latest = (log.map (·.checkpoint)).getLast? := by
  have hlength := h.length
  have hretention := w.execution.budget.retention.1
  rw [Workflow.latest, h.retained, latest_of_ascending, List.getLast?_drop]
  · split
    · rename_i hle
      have hnone : (log.map (·.checkpoint)).length = 0 := by omega
      rw [List.length_eq_zero_iff.mp hnone]
      rfl
    · rfl
  · rw [h.checkpoints_numbered.drop]
    exact List.pairwise_lt_range'

theorem opens {request : WorkflowCreationRequest} {run : RunRecord}
    (h : w.Opens core request run) : Chained [] w := by
  obtain ⟨executable, hexecution⟩ := h.execution
  obtain ⟨stepId, hsteps⟩ := h.steps
  constructor
  · rw [hexecution]
    rfl
  · exact List.forall_mem_nil _
  · rw [h.checkpoints]
    exact List.drop_nil.symm
  · intro step hstep
    rw [hsteps, List.mem_singleton] at hstep
    rw [hstep]
    exact Or.inl ⟨rfl, rfl⟩

theorem of_kept (h : Chained log w) (hgrows : w.Grows w')
    (hpins : w'.steps.map (·.pin) = w.steps.map (·.pin))
    (hcheckpoints : w'.checkpoints = w.checkpoints)
    (hrevision : w'.execution.checkpointRevision = w.execution.checkpointRevision) :
    Chained log w' := by
  constructor
  · rw [hrevision]
    exact h.numbered
  · intro entry hentry
    exact (h.recorded entry hentry).grows hgrows
  · rw [hcheckpoints, hrevision, hgrows.budget]
    exact h.retained
  · exact resumed_of_pins hpins h.resumed

variable {now : Instant}

theorem resumed_dispatch (h : Chained log w) (hsound : w.Sound) (dispatch : Dispatch core w now) :
    Resumed log dispatch.step := by
  obtain ⟨hcount, -⟩ := hsound.resting dispatch.clears.ready
  have hresumes := dispatch.resumes
  rw [Resumes, h.latest] at hresumes
  have hnumbered := h.numbered
  rcases List.eq_nil_or_concat log with hempty | ⟨before, entry, hconcat⟩
  · subst hempty
    have hzero : w.execution.checkpointRevision = 0 := hnumbered.length.symm
    left
    constructor
    · change w.execution.stepCount + 1 = 1
      omega
    · exact congrArg FrozenState.text hresumes
  · rw [List.concat_eq_append] at hconcat
    subst hconcat
    rw [List.map_append, List.map_singleton] at hnumbered
    have hlast := hnumbered.last
    rw [List.map_append, List.map_singleton, List.getLast?_concat] at hresumes
    have hentry := h.recorded entry (List.mem_append_right before (List.mem_singleton_self _))
    change loadState entry.checkpoint.stateJson = some dispatch.state at hresumes
    rw [hentry.state, loadState_text] at hresumes
    obtain hstate := Option.some.inj hresumes
    right
    refine ⟨entry, List.mem_append_right before (List.mem_singleton_self _), ?_, ?_⟩
    · change entry.checkpoint.revision + 1 = w.execution.stepCount + 1
      rw [hlast, hcount]
    · change dispatch.state.text = entry.result.state.text
      rw [hstate]

theorem dispatch (h : Chained log w) (hsound : w.Sound) (dispatch : Dispatch core w now)
    (hgrows : w.Grows dispatch.after) :
    Chained log dispatch.after := by
  refine ⟨h.numbered, ?_, h.retained, ?_⟩
  · intro entry hentry
    exact (h.recorded entry hentry).grows hgrows
  · intro step hstep
    rcases List.mem_append.mp hstep with hold | hnew
    · exact h.resumed step hold
    · rw [List.mem_singleton.mp hnew]
      exact h.resumed_dispatch hsound dispatch

variable {result : WorkflowStepResult}

theorem retained_commit {runId : Nat} (h : Chained log w) (commit : Commit w runId)
    (hnumbered : Numbered ((log ++ [(⟨commit.checkpoint result now, runId, result⟩ :
      CommittedStep)]).map (·.checkpoint.revision)) (w.execution.checkpointRevision + 1)) :
    commit.retained result now =
      ((log ++ [(⟨commit.checkpoint result now, runId, result⟩ : CommittedStep)]).map
        (·.checkpoint)).drop (w.execution.checkpointRevision + 1 -
          w.execution.budget.maxRetainedCheckpoints) := by
  have hlength := h.length
  have hretention := w.execution.budget.retention.1
  generalize hrows : (log ++ [(⟨commit.checkpoint result now, runId, result⟩ :
    CommittedStep)]).map (·.checkpoint) = rows
  have hrevisions : Numbered (rows.map (·.revision)) (w.execution.checkpointRevision + 1) := by
    rw [← hrows, List.map_map]
    exact hnumbered
  have hold : w.checkpoints ++ [commit.checkpoint result now] =
      rows.drop (w.execution.checkpointRevision -
        w.execution.budget.maxRetainedCheckpoints) := by
    rw [← hrows, List.map_append, List.drop_append_of_le_length (by omega), ← h.retained]
    rfl
  have hnewest := hrevisions.filter_drop (Nat.sub_le_sub_right
    (Nat.le_succ w.execution.checkpointRevision) w.execution.budget.maxRetainedCheckpoints)
  rw [Commit.retained, hold, ← hnewest]
  apply List.filter_congr
  intro row hrow
  have hpositive := (hrevisions.mem.mp (List.mem_map_of_mem (List.mem_of_mem_drop hrow))).1
  rw [decide_eq_decide]
  omega

theorem commit {runId : Nat} (h : Chained log w) (hsound : w.Sound) (commit : Commit w runId)
    (hgrows : w.Grows (commit.after result now)) :
    Chained (log ++ [⟨commit.checkpoint result now, runId, result⟩])
      (commit.after result now) := by
  obtain ⟨hcount, honly⟩ := hsound.running commit.parent
  have hnumber : commit.step.stepNumber = w.execution.checkpointRevision + 1 := by
    rw [(honly commit.step commit.owned).mp commit.running, hcount]
  have hnumbered : Numbered ((log ++ [(⟨commit.checkpoint result now, runId, result⟩ :
      CommittedStep)]).map (·.checkpoint.revision)) (w.execution.checkpointRevision + 1) := by
    rw [List.map_append]
    exact h.numbered.concat
  constructor
  · exact hnumbered
  · intro entry hentry
    rcases List.mem_append.mp hentry with hold | hnew
    · exact (h.recorded entry hold).grows hgrows
    · rw [List.mem_singleton.mp hnew]
      obtain ⟨step', hstep', hpin⟩ := hgrows.steps.exists_after commit.owned
      refine ⟨rfl, hnumber, step', hstep', ?_, ?_⟩
      · change step'.runId = some runId
        rw [← commit.linked]
        exact hpin.column WorkflowStepRecord.runId fun _ => rfl
      · change step'.stepNumber = w.execution.checkpointRevision + 1
        rw [← hnumber]
        exact hpin.column WorkflowStepRecord.stepNumber fun _ => rfl
  · exact h.retained_commit commit hnumbered
  · apply resumed_of_pins (w := w)
    · apply map_column_amend
      exact fun _ => rfl
    · intro step hstep
      exact (h.resumed step hstep).append _

theorem moves {act : WorkflowAct} (h : Chained log w) (hsound : w.Sound)
    (hmoves : w.Moves core act w') : Chained (log ++ committed act w w') w' := by
  have hgrows := hmoves.grows
  rcases hmoves.commit_or_kept with ⟨runId, result, now, commit, rfl, rfl⟩ |
    ⟨hcheckpoints, hrevision⟩
  · rw [committed, brought_commit commit result now fun row => h.revision_le]
    exact h.commit hsound commit hgrows
  · rw [committed_of_eq act hcheckpoints, List.append_nil]
    rcases hmoves.dispatch_or_undrawn with ⟨now, dispatch, -, rfl⟩ | hundrawn
    · exact h.dispatch hsound dispatch hgrows
    · exact h.of_kept hgrows hundrawn.steps hcheckpoints hrevision

end Chained

end Workflow

end NervOS
