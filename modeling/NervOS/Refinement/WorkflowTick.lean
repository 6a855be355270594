/-
One tick moves at most one due workflow beyond the scan order, as the protocol
allows it; a refused continuation leaves nothing behind.
-/
import NervOS.Refinement.WorkflowControl
import NervOS.Workflow.Sound

namespace NervOS

open Relational

section Readings

variable {own : WorkflowTables} {workflowId : Nat} {w : Workflow}

theorem latestCheckpoint_eq (hw : own.workflow workflowId = some w) :
    own.latestCheckpoint workflowId = w.latest := by
  rw [WorkflowTables.latestCheckpoint, Workflow.latest, (workflow_eq_some.mp hw).2.2.1]

theorem approvedDecisions_eq (hw : own.workflow workflowId = some w) :
    own.approvedDecisions w.execution = w.approvals := by
  rw [Workflow.approvals, (workflow_eq_some.mp hw).2.2.2.2, Table.owned, List.filter_filter,
    WorkflowTables.approvedDecisions]
  apply List.filter_congr
  intro decision _
  rw [workflow_id hw, Bool.and_comm, ← Bool.decide_and]

end Readings

section Dispatch

variable {db db' : WorkflowDatabase}

theorem commits_insertedRun {submission : Submission} {run : RunRecord}
    (h : (insertedRun submission).Commits db run db') :
    db'.1.own = db.1.own ∧ db'.1.core.runs.find run.id = some run ∧
      run.limits = submission.limits := by
  simp only [insertedRun, onEngine, Tx.commits_bind, Tx.commits_onCore, Tx.commits_query,
    Tx.commits_found] at h
  obtain ⟨runId, db₁, ⟨hinsert, hown⟩, _, db₁, ⟨rfl, rfl⟩, hfind, rfl⟩ := h
  obtain ⟨instanceRow, inputText, cutoff, core₁, core₂, core₃, rfl, hrun, ⟨_, -, hjob⟩,
    ⟨_, -, hcreated⟩, ⟨_, -, hqueued⟩⟩ := commits_insertRunAndJob hinsert
  have hruns : db'.1.core.runs = core₁.1.runs := by
    change db'.core.1.runs = core₁.1.runs
    rw [hqueued, hcreated, hjob]
    rfl
  have hfound := hrun.find (fun _ => rfl) db.core.1.runs.next
  rw [table_run, ← hruns, hfind, table_run, if_pos rfl] at hfound
  obtain rfl := Option.some.inj hfound
  exact ⟨hown, hfind, rfl⟩

variable {continuation : Continuation}

theorem insertContinuation_rewrites {current : WorkflowExecutionRecord} {runId : Nat}
    (h : (insertContinuation current continuation).Commits db runId db') :
    ∃ run stepId, db'.1.core.runs.find run.id = some run ∧ run.limits = continuation.limits ∧
      current.identity = run.identity continuation.preparation.executable ∧
      Rewrites current.id
        (fun w => { w with
          execution := current.dispatch (reservationFor run.limits) continuation.now w.execution
          steps := w.steps ++ [continuation.step current.id run.id stepId] })
        db.1.own db'.1.own := by
  simp only [insertContinuation, Tx.commits_bind, Tx.commits_require, Tx.commits_insert,
    Tx.commits_update, Tx.commits_pure] at h
  obtain ⟨run, _, hrun, _, db₁, ⟨hidentity, rfl⟩, _, db₂, ⟨-, hstep⟩, _, db₃, ⟨-, hupdate⟩, -,
    rfl⟩ := h
  obtain ⟨hown, hfound, hlimits⟩ := commits_insertedRun hrun
  have hfirst := rewrites_insert current.id hstep fun _ => rfl
  have hsecond := rewrites_updateExecution current.id hupdate (fun _ => rfl)
    (fun row hp => hp) fun w hw => workflow_id hw
  refine ⟨run, db₁.1.own.steps.next, ?_, hlimits, hidentity, ?_⟩
  · obtain ⟨_, -, hdb₂⟩ := hstep
    obtain ⟨_, -, hdb'⟩ := hupdate
    rw [hdb', hdb₂]
    exact hfound
  · rw [← hown, hlimits]
    exact hfirst.trans hsecond

theorem submitContinuation_cases {runId : Nat} {w : Workflow}
    (hw : db.1.own.workflow continuation.workflowId = some w)
    (h : (submitContinuationOnConnection continuation).Commits db runId db') :
    ((∃ step ∈ w.steps, step.stepNumber = continuation.stepNumber) ∧ db' = db) ∨
      (acceptsReservation w.execution.reservations w.execution.budget
          (reservationFor continuation.limits) ∧
        w.execution.stepCount + 1 ≤ w.execution.budget.maxSteps ∧
        (insertContinuation w.execution continuation).Commits db runId db') := by
  simp only [submitContinuationOnConnection, Tx.commits_bind, commits_reload,
    Tx.commits_require, Tx.commits_query] at h
  obtain ⟨current, db, ⟨hfind, -, rfl⟩, _, db, ⟨-, rfl⟩, linked, db, ⟨hlinked, rfl⟩, h⟩ := h
  obtain rfl := execution_eq hw hfind
  cases linked with
  | some step =>
    obtain ⟨-, rfl⟩ := Tx.commits_found.mp h
    have hmatch := List.find?_some hlinked.symm
    obtain ⟨hparent, hnumber⟩ := of_decide_eq_true hmatch
    refine Or.inl ⟨⟨step, (mem_steps hw).mpr ⟨?_, ?_⟩, hnumber⟩, rfl⟩
    · exact List.mem_of_find?_eq_some hlinked.symm
    · exact hparent.trans (workflow_id hw)
  | none =>
    simp only [Tx.commits_bind, Tx.commits_require] at h
    obtain ⟨_, db, ⟨haccepts, rfl⟩, _, db, ⟨hsteps, rfl⟩, h⟩ := h
    exact Or.inr ⟨haccepts, hsteps, h⟩

theorem consumeApproval_rewrites (target : Nat) {approved : Option WorkflowDecisionRecord}
    {now : Instant} {value : Unit}
    (howned : ∀ decision ∈ approved, decision ∈ db.1.own.decisions.rows ∧
      decision.workflowId = target)
    (h : (consumeApproval approved now).Commits db value db') :
    Rewrites target (fun w => { w with decisions := w.spend approved now })
      db.1.own db'.1.own ∧ db'.1.core = db.1.core := by
  cases approved with
  | none =>
    obtain ⟨-, rfl⟩ := Tx.commits_pure.mp h
    exact ⟨Rewrites.of_eq rfl, rfl⟩
  | some approved =>
    simp only [consumeApproval, Tx.commits_bind, Tx.commits_update, Tx.commits_pure] at h
    obtain ⟨_, db', ⟨-, hupdate⟩, -, rfl⟩ := h
    obtain ⟨hmem, hparent⟩ := howned approved rfl
    constructor
    · apply rewrites_update _ hupdate (fun _ => rfl)
      intro row hrow hp
      rw [Table.eq_of_key_eq hrow hmem hp.1]
      exact hparent
    · obtain ⟨_, -, hdb'⟩ := hupdate
      rw [hdb']
      rfl

end Dispatch

section Advance

/-- The ticks that a status is away from the end: a rest, the Run after it, or nothing. -/
def WorkflowStatus.remaining : WorkflowStatus → Nat
  | .pending | .runnable | .waiting => 2
  | .running => 1
  | .succeeded | .failed | .cancelled | .needsReview => 0

variable {status : WorkflowStatus}

theorem remaining_of_terminal (h : status.IsTerminal) :
    status.remaining = 0 := by
  cases status with
  | pending | runnable | running | waiting => exact h.elim
  | succeeded | failed | cancelled | needsReview => rfl

theorem remaining_of_dispatchable (h : status.IsDispatchable) :
    status.remaining = 2 := by
  cases status with
  | pending | runnable | waiting => rfl
  | running | succeeded | failed | cancelled | needsReview => exact h.elim

theorem remaining_pos (h : ¬ status.IsTerminal) :
    0 < status.remaining := by
  cases status with
  | pending | runnable | waiting => exact Nat.zero_lt_two
  | running => exact Nat.zero_lt_one
  | succeeded | failed | cancelled | needsReview => exact absurd trivial h

/-- A tick at `now` brought the workflow nearer to its end. -/
structure WorkflowExecutionRecord.Nearer (now : Instant) (row row' : WorkflowExecutionRecord) :
    Prop where
  remaining : row'.status.remaining < row.status.remaining
  updatedAt : row'.updatedAt = now

variable {now : Instant}

theorem nearer_finish {row : WorkflowExecutionRecord} {reason : ReviewReason}
    (hactive : ¬ row.status.IsTerminal) (hover : status.IsTerminal) :
    row.Nearer now (row.finish status reason now) := by
  refine ⟨?_, rfl⟩
  change status.remaining < _
  rw [remaining_of_terminal hover]
  exact remaining_pos hactive

/-- The workflow `target` made the move, nearer to its end, and no other changed. -/
def MovesOne (core : Tables) (now : Instant) (target : Nat) (own own' : WorkflowTables) :
    Prop :=
  ∃ w w', own.workflow target = some w ∧ w.Moves core (.tick now) w' ∧
    (w.Sound → w.execution.Nearer now w'.execution) ∧ Rewrites target (fun _ => w') own own'

variable {target : Nat} {F : Workflow → Workflow}

theorem Rewrites.movesOne {core : Tables} {own own' : WorkflowTables} {w : Workflow}
    (h : Rewrites target F own own') (hw : own.workflow target = some w)
    (hmoves : w.Moves core (.tick now) (F w))
    (hnearer : w.Sound → w.execution.Nearer now (F w).execution) :
    MovesOne core now target own own' := by
  refine ⟨w, F w, hw, hmoves, hnearer, h.congr fun other hother => ?_⟩
  rw [hw] at hother
  rw [Option.some.inj hother]

variable {db db' : WorkflowDatabase} {request : TickRequest} {w : Workflow}

def Active (db : WorkflowDatabase) (target : Nat) : Prop :=
  ∀ w, db.1.own.workflow target = some w → ¬ w.execution.status.IsTerminal

theorem Active.of_rewrites (h : Active db target) (hrewrites : Rewrites target F db.1.own db'.1.own)
    (hstatus : ∀ w, (F w).execution.status = w.execution.status) : Active db' target := by
  intro other hother
  rw [hrewrites.eq_map, Option.map_eq_some_iff] at hother
  obtain ⟨w, hw, rfl⟩ := hother
  rw [hstatus]
  exact h w hw

theorem finish_rewrites {reason : ReviewReason} {value : Unit} (hactive : Active db target)
    (h : (finish target status reason now).Commits db value db') :
    Rewrites target (fun w => { w with execution := w.execution.finish status reason now })
      db.1.own db'.1.own := by
  simp only [finish, Tx.commits_bind, Tx.commits_update, Tx.commits_pure] at h
  obtain ⟨_, db', ⟨-, hupdate⟩, -, rfl⟩ := h
  apply rewrites_updateExecution _ hupdate (fun _ => rfl) fun row hp => hp.1
  intro w hw
  exact ⟨workflow_id hw, hactive w hw⟩

/-- What one examination does: nothing, or one move that ends the scan. -/
def Examined (request : TickRequest) (target : Nat) (advanced : Advanced)
    (db db' : WorkflowDatabase) : Prop :=
  (advanced.changed = false ∧ db' = db) ∨
    (advanced.changed = true ∧
      MovesOne db'.1.core request.now target db.1.own db'.1.own)

variable {advanced : Advanced}

theorem defer_examined {reason : Uncertainty} (hw : db.1.own.workflow w.execution.id = some w)
    (hready : w.execution.status.IsDispatchable) (hunblocked : ¬ w.Blocked)
    (hactive : Active db w.execution.id)
    (h : (defer w.execution.id request.now reason).Commits db advanced db') :
    Examined request w.execution.id advanced db db' := by
  cases reason with
  | identityChanged =>
    simp only [defer, Tx.commits_bind, Tx.commits_pure] at h
    obtain ⟨_, db', hfinish, rfl, rfl⟩ := h
    refine Or.inr ⟨rfl, (finish_rewrites hactive hfinish).movesOne hw ?_ fun _ => ?_⟩
    · exact .close hready hunblocked (Or.inr rfl)
    · exact nearer_finish (hactive w hw) trivial
  | reservationExhausted | stepBudgetExhausted =>
    simp only [defer, Tx.commits_bind, Tx.commits_pure] at h
    obtain ⟨_, db', hfinish, rfl, rfl⟩ := h
    refine Or.inr ⟨rfl, (finish_rewrites hactive hfinish).movesOne hw ?_ fun _ => ?_⟩
    · exact .close hready hunblocked (Or.inl rfl)
    · exact nearer_finish (hactive w hw) trivial
  | revisionMoved | stepUnlinked | pauseMoved =>
    obtain ⟨rfl, rfl⟩ := Tx.commits_pure.mp h
    exact Or.inl ⟨rfl, rfl⟩

variable {approved : Option WorkflowDecisionRecord}

theorem submitted_movesOne {state : FrozenState} {limits : RunLimits} {runId : Nat}
    {db₁ : WorkflowDatabase} {value : Unit} (hw : db.1.own.workflow w.execution.id = some w)
    (hclears : w.Clears approved request.now) (hresumes : w.Resumes state)
    (hsubmit : (submitContinuationOnConnection
      (request.continuation w.execution state limits)).Commits db runId db₁)
    (hconsume : (consumeApproval approved request.now).Commits db₁ value db') :
    MovesOne db'.1.core request.now w.execution.id db.1.own db'.1.own := by
  have happroved : ∀ decision ∈ approved, decision ∈ w.decisions :=
    fun decision hdecision => (hclears.identified decision hdecision).1
  rcases submitContinuation_cases hw hsubmit with ⟨⟨step, hstep, hnumber⟩, rfl⟩ |
    ⟨haccepts, hsteps, hinsert⟩
  · obtain ⟨hspend, -⟩ := consumeApproval_rewrites w.execution.id
      (fun decision hdecision => (mem_decisions hw).mp (happroved decision hdecision)) hconsume
    apply hspend.movesOne hw (.relink hclears hstep hnumber)
    intro hsound
    have hle := (hsound.number_le hstep).2
    have hnext : step.stepNumber = w.execution.stepCount + 1 := hnumber
    omega
  · obtain ⟨run, stepId, hfound, hlimits, hidentity, hrewrites⟩ :=
      insertContinuation_rewrites hinsert
    have hw₁ := hrewrites.eq_map
    rw [hw, Option.map_some] at hw₁
    obtain ⟨hspend, hcore⟩ := consumeApproval_rewrites w.execution.id
      (fun decision hdecision => (mem_decisions hw₁).mp (happroved decision hdecision)) hconsume
    let dispatch : Workflow.Dispatch db'.1.core w request.now :=
      { run := run
        executable := (request.prepare w.execution.id).executable
        state := state
        stepId := stepId
        approved := approved
        clears := hclears
        resumes := hresumes
        found := hcore ▸ hfound
        identity := hidentity
        accepts := hlimits ▸ haccepts
        steps := hsteps }
    apply (hrewrites.trans hspend).movesOne hw (.dispatch dispatch)
    intro _
    refine ⟨?_, rfl⟩
    rw [remaining_of_dispatchable hclears.ready]
    exact Nat.one_lt_two

theorem continueWorkflow_examined (hw : db.1.own.workflow w.execution.id = some w)
    (hactive : Active db w.execution.id) (hclears : w.Clears approved request.now)
    (h : (continueWorkflow request w.execution approved).Commits db advanced db') :
    Examined request w.execution.id advanced db db' := by
  simp only [continueWorkflow, Tx.commits_bind, Tx.commits_query, Tx.commits_ofExcept,
    Tx.commits_ite, Tx.commits_pure] at h
  obtain ⟨latest, db, ⟨rfl, rfl⟩, state, db, ⟨hstate, rfl⟩, eligible, db, ⟨-, rfl⟩, h⟩ := h
  rcases h with ⟨-, rfl, rfl⟩ | ⟨-, h⟩
  · exact Or.inl ⟨rfl, rfl⟩
  · rw [latestCheckpoint_eq hw] at hstate
    have hresumes : w.Resumes state := by
      unfold Workflow.Resumes
      cases hlatest : w.latest with
      | none =>
        rw [hlatest] at hstate
        exact (Except.ok.inj hstate).symm
      | some checkpoint =>
        rw [hlatest] at hstate
        exact Tx.elim_eq_ok.mp hstate
    cases hlimits : request.limitsResolver
        ⟨w.execution.identity.agentKey, w.execution.identity.agentDefinitionVersion⟩ with
    | none =>
      rw [hlimits] at h
      simp only [Tx.commits_bind, Tx.commits_pure] at h
      obtain ⟨_, db', hfinish, rfl, rfl⟩ := h
      refine Or.inr ⟨rfl, (finish_rewrites hactive hfinish).movesOne hw ?_ fun _ => ?_⟩
      · exact .close hclears.ready hclears.unblocked (Or.inr rfl)
      · exact nearer_finish (hactive w hw) trivial
    | some limits =>
      rw [hlimits] at h
      simp only [Tx.commits_bind, Tx.commits_savepoint] at h
      obtain ⟨outcome, db₁, houtcome, h⟩ := h
      rcases houtcome with ⟨runId, rfl, hsubmit⟩ | ⟨error, rfl, -, rfl⟩
      · simp only [Tx.commits_bind, Tx.commits_pure] at h
        obtain ⟨_, _, hconsume, rfl, rfl⟩ := h
        refine Or.inr ⟨rfl, ?_⟩
        exact submitted_movesOne hw hclears hresumes hsubmit hconsume
      · cases error with
        | uncertain reason =>
          exact defer_examined hw hclears.ready hclears.unblocked hactive h
        | persistence error =>
          cases error with
          | durableSubmissionRejected | queueCapacityExceeded =>
            obtain ⟨rfl, rfl⟩ := Tx.commits_pure.mp h
            exact Or.inl ⟨rfl, rfl⟩
          | fenced | persistenceUnavailable | eventOwnershipViolation | approvalNotFound |
            approvalConflict | contextRejected | packageNotExecutable | invalidArgument =>
              exact (Tx.commits_raise.mp h).elim
        | invalidWorkflow | workflowNotFound | workflowTransition | workflowConflict |
          workflowCapacityExceeded | workflowNotLinked | multipleRows =>
            exact (Tx.commits_raise.mp h).elim

theorem advance_examined {workflowId : Nat} (hactive : Active db workflowId)
    (h : (advance request workflowId).Commits db advanced db') :
    Examined request workflowId advanced db db' := by
  simp only [advance, Tx.commits_bind, commits_reload, Tx.commits_ite, Tx.commits_update,
    Tx.commits_pure, Tx.commits_query, Tx.commits_require] at h
  obtain ⟨workflow, db, ⟨hfind, -, rfl⟩, h⟩ := h
  obtain ⟨w, hw⟩ := exists_workflow (Option.isSome_iff_exists.mpr ⟨workflow, hfind⟩)
  obtain rfl := execution_eq hw hfind
  obtain rfl := workflow_id hw
  rcases h with ⟨hrunning, _, db₁, ⟨-, hsteps⟩, _, db₂, hfinish, rfl, rfl⟩ | ⟨hresting, h⟩
  · have hfirst := rewrites_update_congr w.execution.id
      (q := fun step => step.status = .running) hsteps (fun _ => rfl) fun row _ => Iff.rfl
    have hsecond := finish_rewrites (hactive.of_rewrites hfirst fun _ => rfl) hfinish
    refine Or.inr ⟨rfl, (hfirst.trans hsecond).movesOne hw (.loseRun hrunning) fun _ => ?_⟩
    exact nearer_finish (hactive w hw) trivial
  have hready := dispatchable_of_resting (hactive w hw) hresting
  rcases h with ⟨hlate, _, db₁, hfinish, rfl, rfl⟩ | ⟨htimely, h⟩
  · refine Or.inr ⟨rfl, (finish_rewrites hactive hfinish).movesOne hw (.miss hready hlate)
      fun _ => ?_⟩
    exact nearer_finish (hactive w hw) trivial
  rcases h with ⟨-, rfl, rfl⟩ | ⟨hunblocked, h⟩
  · exact Or.inl ⟨rfl, rfl⟩
  rcases h with ⟨-, _, db₁, hfinish, rfl, rfl⟩ | ⟨-, approvals, db, ⟨happrovals, rfl⟩, _, db,
    ⟨hsingle, rfl⟩, h⟩
  · refine Or.inr ⟨rfl, (finish_rewrites hactive hfinish).movesOne hw ?_ fun _ => ?_⟩
    · exact .close hready hunblocked (Or.inl rfl)
    · exact nearer_finish (hactive w hw) trivial
  rw [approvedDecisions_eq hw] at happrovals
  subst happrovals
  cases hhead : w.approvals.head? with
  | none =>
    rw [hhead] at h
    refine continueWorkflow_examined hw hactive ?_ h
    exact ⟨hready, hunblocked, not_le.mp htimely, hsingle, hhead.symm,
      fun _ happroved => absurd happroved (Option.not_mem_none _),
      fun _ happroved => absurd happroved (Option.not_mem_none _)⟩
  | some approved =>
    rw [hhead] at h
    simp only [Tx.commits_ite, Tx.commits_bind, Tx.commits_update, Tx.commits_pure] at h
    have hmem : approved ∈ w.decisions :=
      (List.mem_filter.mp (List.mem_of_head? hhead)).1
    rcases h with ⟨hexpired, _, db₁, ⟨-, hexpire⟩, _, db₂, hfinish, rfl, rfl⟩ |
      ⟨hunexpired, h⟩
    · obtain ⟨hrow, hparent⟩ := (mem_decisions hw).mp hmem
      have hfirst := rewrites_update w.execution.id hexpire (fun _ => rfl) <| by
        intro other hother hid
        rw [Table.eq_of_key_eq hother hrow hid]
        exact hparent
      have hsecond := finish_rewrites (hactive.of_rewrites hfirst fun _ => rfl) hfinish
      refine Or.inr ⟨rfl, (hfirst.trans hsecond).movesOne hw ?_ fun _ => ?_⟩
      · exact .loseAuthority hready hunblocked hhead (identifies hw hmem) hexpired
      · exact nearer_finish (hactive w hw) trivial
    · refine continueWorkflow_examined hw hactive ?_ h
      refine ⟨hready, hunblocked, not_le.mp htimely, hsingle, hhead.symm, ?_, ?_⟩
      · intro decision hdecision
        exact Option.some.inj hdecision ▸ identifies hw hmem
      · intro decision hdecision
        exact Option.some.inj hdecision ▸ not_le.mp hunexpired

end Advance

variable {db db' : WorkflowDatabase} {request : TickRequest}

theorem touch_rewrites {target count : Nat}
    (h : (Tx.update (fun row : WorkflowExecutionRecord => row.id = target)
      (WorkflowExecutionRecord.touch request.now) : WorkflowConnection Nat).Commits db count db') :
    Rewrites target (fun w => { w with execution := w.execution.touch request.now })
      db.1.own db'.1.own :=
  rewrites_updateExecution _ (Tx.commits_update.mp h).2 (fun _ => rfl) (fun _ hp => hp)
    fun _ hw => workflow_id hw

variable {result : Bool × List TickCounter}

theorem scan_moved {ids : List Nat} (hnodup : ids.Nodup) (hactive : ∀ id ∈ ids, Active db id)
    (h : (scan request ids).Commits db result db') :
    Moved db'.1.core (.tick request.now) db.1.own db'.1.own ∧
      ∀ id, id ∉ ids → db'.1.own.workflow id = db.1.own.workflow id := by
  induction ids generalizing db result with
  | nil =>
    obtain ⟨-, rfl⟩ := Tx.commits_pure.mp h
    exact ⟨.of_eq rfl, fun _ _ => rfl⟩
  | cons workflowId rest ih =>
    obtain ⟨hfresh, hrest⟩ := List.nodup_cons.mp hnodup
    simp only [scan, Tx.commits_bind, Tx.commits_ite, Tx.commits_pure] at h
    obtain ⟨advanced, db₁, hadvance, h⟩ := h
    rcases advance_examined (hactive _ List.mem_cons_self) hadvance with ⟨hsame, rfl⟩ |
      ⟨hchanged, w, w', hw, hmoves, -, hrewrites⟩
    · rcases h with ⟨hchanged, -⟩ | ⟨-, _, db₂, htouch, counted, _, hscan, -, rfl⟩
      · rw [hsame] at hchanged
        cases hchanged
      · have htouched := touch_rewrites htouch
        have hactive₂ : ∀ id ∈ rest, Active db₂ id := by
          intro id hid
          have hne : id ≠ workflowId := fun heq => hfresh (heq ▸ hid)
          intro w hw
          rw [htouched.eq_of_ne hne] at hw
          exact hactive id (List.mem_cons_of_mem _ hid) w hw
        obtain ⟨hmoved, hframe⟩ := ih hrest hactive₂ hscan
        constructor
        · apply htouched.moved_trans _ hmoved (hframe workflowId hfresh)
          intro w hw
          exact .rotate (hactive _ List.mem_cons_self w hw)
        · intro id hid
          rw [List.mem_cons, not_or] at hid
          rw [hframe id hid.2, htouched.eq_of_ne hid.1]
    · rcases h with ⟨-, -, rfl⟩ | ⟨hsame, -⟩
      · constructor
        · apply hrewrites.moved
          intro other hother
          rw [hw] at hother
          exact Option.some.inj hother ▸ hmoves
        · intro id hid
          exact hrewrites.eq_of_ne (List.ne_of_not_mem_cons hid)
      · exact absurd hchanged hsame

theorem Due.active {core : Tables} {own : WorkflowTables} {now : Instant}
    {workflow : WorkflowExecutionRecord} (h : Due core own now workflow) :
    ¬ workflow.status.IsTerminal := by
  rcases h with ⟨-, hrunning⟩ | ⟨-, hready, -⟩
  · rw [hrunning]
    exact id
  · exact not_terminal_of_dispatchable hready

theorem dueWorkflows_spec (request : TickRequest) (db : Extended Tables WorkflowTables) :
    (dueWorkflows request db).Nodup ∧ ∀ id ∈ dueWorkflows request db,
      ∃ workflow ∈ db.own.executions.rows, workflow.id = id ∧
        Due db.core db.own request.now workflow := by
  have hids : (db.own.executions.rows.map (·.id)).Nodup := by
    rw [List.nodup_iff_pairwise_ne, List.pairwise_map]
    exact db.own.executions.lawful.ascending.imp fun hlt => Nat.ne_of_lt hlt
  constructor
  · unfold dueWorkflows
    rw [List.map_take]
    apply List.Nodup.sublist (List.take_sublist _ _)
    apply ((List.perm_insertionSort _ _).map WorkflowExecutionRecord.id).nodup_iff.mpr
    exact hids.sublist ((List.filter_sublist).map _)
  · intro id hid
    obtain ⟨workflow, hworkflow, rfl⟩ := List.mem_map.mp hid
    have hmem := (List.perm_insertionSort _ _).mem_iff.mp (List.mem_of_mem_take hworkflow)
    obtain ⟨hrow, hdue⟩ := List.mem_filter.mp hmem
    exact ⟨workflow, hrow, rfl, of_decide_eq_true hdue⟩

def Comes (request : TickRequest) (page : List Nat) (db : WorkflowDatabase) (id : Nat) : Prop :=
  ∃ before after counted db', page = before ++ id :: after ∧
    (scan request before).Commits db (false, counted) db'

variable {id : Nat}

theorem scan_comes {ids : List Nat} (hnodup : ids.Nodup) (hactive : ∀ id ∈ ids, Active db id)
    (h : (scan request ids).Commits db result db')
    (hchanged : db'.1.own.workflow id ≠ db.1.own.workflow id) : Comes request ids db id := by
  induction ids generalizing db result with
  | nil =>
    obtain ⟨-, rfl⟩ := Tx.commits_pure.mp h
    exact absurd rfl hchanged
  | cons workflowId rest ih =>
    by_cases hid : id = workflowId
    · subst hid
      exact ⟨[], rest, [], db, rfl, Tx.commits_pure.mpr ⟨rfl, rfl⟩⟩
    obtain ⟨hfresh, hrest⟩ := List.nodup_cons.mp hnodup
    simp only [scan, Tx.commits_bind, Tx.commits_ite, Tx.commits_pure] at h
    obtain ⟨advanced, db₁, hadvance, h⟩ := h
    rcases advance_examined (hactive _ List.mem_cons_self) hadvance with ⟨hsame, rfl⟩ |
      ⟨hmoved, w, w', hw, hmoves, -, hrewrites⟩
    · rcases h with ⟨hmoved, -⟩ | ⟨-, touched, db₂, htouch, _, db₃, hscan, -, rfl⟩
      · rw [hsame] at hmoved
        cases hmoved
      · have hrewrites := touch_rewrites htouch
        have hactive₂ : ∀ other ∈ rest, Active db₂ other := by
          intro other hother
          have hne : other ≠ workflowId := fun heq => hfresh (heq ▸ hother)
          intro w hw
          rw [hrewrites.eq_of_ne hne] at hw
          exact hactive other (List.mem_cons_of_mem _ hother) w hw
        rw [← hrewrites.eq_of_ne hid] at hchanged
        obtain ⟨before, after, counted, db₄, rfl, hbefore⟩ :=
          ih hrest hactive₂ hscan hchanged
        refine ⟨workflowId :: before, after, advanced.counted.toList ++ counted, db₄, rfl, ?_⟩
        simp only [scan, Tx.commits_bind, Tx.commits_ite, Tx.commits_pure]
        refine ⟨advanced, _, hadvance, Or.inr ⟨?_, touched, db₂, htouch, _, db₄, hbefore, rfl,
          rfl⟩⟩
        rw [hsame]
        exact Bool.false_ne_true
    · rcases h with ⟨-, -, rfl⟩ | ⟨hsame, -⟩
      · exact absurd (hrewrites.eq_of_ne hid) hchanged
      · exact absurd hmoved hsame

theorem due_active (hid : id ∈ dueWorkflows request db.1) : Active db id := by
  intro w hw
  obtain ⟨workflow, hrow, rfl, hworkflow⟩ := (dueWorkflows_spec request db.1).2 id hid
  rw [execution_eq hw (Table.find_key hrow)]
  exact hworkflow.active

theorem tickOne_comes (h : (tickOne request).Commits db result db')
    (hchanged : db'.1.own.workflow id ≠ db.1.own.workflow id) :
    Comes request (dueWorkflows request db.1) db id := by
  simp only [tickOne, Tx.commits_bind, Tx.commits_query] at h
  obtain ⟨due, db, ⟨rfl, rfl⟩, hscan⟩ := h
  exact scan_comes (dueWorkflows_spec request db.1).1 (fun _ => due_active) hscan hchanged

theorem tickOne_moved (h : (tickOne request).Commits db result db') :
    Moved db'.1.core (.tick request.now) db.1.own db'.1.own := by
  simp only [tickOne, Tx.commits_bind, Tx.commits_query] at h
  obtain ⟨due, db, ⟨rfl, rfl⟩, hscan⟩ := h
  exact (scan_moved (dueWorkflows_spec request db.1).1 (fun _ => due_active) hscan).1

end NervOS
