/-
The Runs over every operation of the engine: they are submitted, moved and closed,
and a closed one is never written again.
-/
import NervOS.Refinement.Quiet
import NervOS.Engine.Invariant

namespace NervOS

open Relational

variable {claim : ClaimedAttempt} {now : Instant} {db db' : Database}

theorem RunsMove.of_eq {runs runs' : Table RunRecord} (h : runs' = runs) : RunsMove runs runs' := by
  rw [h]
  exact .refl runs

theorem ConsumesApproval.runs (h : ConsumesApproval db db') : db'.1.runs = db.1.runs := by
  rcases h with rfl | ⟨approvalId, now, t', -, hdb'⟩
  · rfl
  · rw [hdb']
    rfl

theorem CallMoved.runs (h : CallMoved claim now db db') : db'.1.runs = db.1.runs := by
  obtain ⟨_, _, _, db₁, -, -, ⟨t', -, hdb₁⟩, hevent⟩ := h
  have hcall : db₁.1.runs = db.1.runs := by
    rw [hdb₁]
    rfl
  rcases hevent with rfl | ⟨_, -, _, _, _, t'', -, hdb'⟩
  · exact hcall
  · rw [hdb', ← hcall]
    rfl

theorem markStarted_runs {invocationId : Nat} {approval : Option ApprovalRequest}
    {outcome : StartOutcome}
    (h : (markStarted claim invocationId approval now).Commits db outcome db') :
    db'.1.runs = db.1.runs := by
  rcases commits_markStarted h with rfl | ⟨-, db₁, hconsumes, hmoved⟩
  · rfl
  · exact hmoved.runs.trans hconsumes.runs

theorem worker_runs (action : WorkerAction) (db : Database) :
    RunsMove db.1.runs (runWorkerAction claim now action db).1.runs := by
  by_cases hstart : ∃ invocationId approval, action = .markStarted invocationId approval
  · obtain ⟨invocationId, approval, rfl⟩ := hstart
    rcases commit_cases (markStarted claim invocationId approval now) db with
      ⟨outcome, hcommits⟩ | hsame
    · exact .of_eq (markStarted_runs hcommits)
    · rw [runWorkerAction, hsame]
      exact .refl _
  · refine (worker_quiet db ?_).runs
    intro invocationId approval heq
    exact hstart ⟨invocationId, approval, heq⟩

theorem ConsumesApproval.configuration (h : ConsumesApproval db db') :
    db'.1.configuration = db.1.configuration := by
  rcases h with rfl | ⟨approvalId, now, t', -, hdb'⟩
  · rfl
  · rw [hdb']
    rfl

theorem CallMoved.configuration (h : CallMoved claim now db db') :
    db'.1.configuration = db.1.configuration := by
  obtain ⟨_, _, _, db₁, -, -, ⟨t', -, hdb₁⟩, hevent⟩ := h
  have hcall : db₁.1.configuration = db.1.configuration := by
    rw [hdb₁]
    rfl
  rcases hevent with rfl | ⟨_, -, _, _, _, t'', -, hdb'⟩
  · exact hcall
  · rw [hdb', ← hcall]
    rfl

theorem worker_configuration (action : WorkerAction) (db : Database) :
    (runWorkerAction claim now action db).1.configuration = db.1.configuration := by
  by_cases hstart : ∃ invocationId approval, action = .markStarted invocationId approval
  · obtain ⟨invocationId, approval, rfl⟩ := hstart
    rcases commit_cases (markStarted claim invocationId approval now) db with
      ⟨outcome, hcommits⟩ | hsame
    · rcases commits_markStarted hcommits with heq | ⟨-, db₁, hconsumes, hmoved⟩
      · rw [runWorkerAction, heq]
      · exact hmoved.configuration.trans hconsumes.configuration
    · rw [runWorkerAction, hsame]
  · refine (worker_quiet db ?_).configuration
    intro invocationId approval heq
    exact hstart ⟨invocationId, approval, heq⟩

theorem exec_configuration (policy : QueuePolicy) {op : Op} (system : System)
    (hop : ∀ configuration now, op ≠ .configure configuration now) :
    (system.exec policy op).db.1.configuration = system.db.1.configuration := by
  cases op with
  | submit inputText submission => exact (commit_quiet submit_quiet _).configuration
  | insertRunAndJob submission => exact (commit_quiet insertRunAndJob_quiet _).configuration
  | claimNext request => exact (commit_quiet claimNext_quiet _).configuration
  | reclaim now backoff => exact (commit_quiet reclaim_quiet _).configuration
  | cancelRun userId runId now => exact (commit_quiet cancelRun_quiet _).configuration
  | closeLegacy now => exact (commit_quiet closeLegacy_quiet _).configuration
  | configure configuration now => exact absurd rfl (hop configuration now)
  | approval action now =>
    have hmoved : ApprovalsMoved (action.touchedRuns system.db.1 now) system.db
        (runApprovalAction now action system.db) := approval_moved
    obtain ⟨approvals, events, hframe⟩ := hmoved.frame
    simp only [System.exec]
    rw [hframe]
  | worker claim action now =>
    simp only [System.exec]
    split
    · exact worker_configuration action system.db
    · rfl

theorem exec_runsMove (policy : QueuePolicy) (op : Op) (system : System) :
    RunsMove system.db.1.runs (system.exec policy op).db.1.runs := by
  cases op with
  | submit inputText submission => exact (commit_quiet submit_quiet _).runs
  | insertRunAndJob submission => exact (commit_quiet insertRunAndJob_quiet _).runs
  | claimNext request => exact (commit_quiet claimNext_quiet _).runs
  | reclaim now backoff => exact (commit_quiet reclaim_quiet _).runs
  | cancelRun userId runId now => exact (commit_quiet cancelRun_quiet _).runs
  | closeLegacy now => exact (commit_quiet closeLegacy_quiet _).runs
  | configure configuration now =>
    apply RunsMove.of_eq
    simp only [System.exec]
    rcases commit_configure configuration system.db with hsame | hwritten
    · rw [hsame]
    · rw [hwritten]
  | approval action now =>
    have hmoved : ApprovalsMoved (action.touchedRuns system.db.1 now) system.db
        (runApprovalAction now action system.db) := approval_moved
    obtain ⟨approvals, events, hframe⟩ := hmoved.frame
    apply RunsMove.of_eq
    change (runApprovalAction now action system.db).1.runs = _
    rw [hframe]
  | worker claim action now =>
    simp only [System.exec]
    split
    · exact worker_runs action system.db
    · exact .refl _

end NervOS
