/-
Every operation of the workflow engine refines the protocol: the fenced commit of a step moves
the workflow of the step's Run, each workflow moves at most once under the act of the
operation, and a new one opens with its creation.
-/
import NervOS.WorkflowEngine
import NervOS.Refinement.WorkflowTick
import NervOS.Workflow.Growth

namespace NervOS

open Relational

variable {core : Tables} {db db' : WorkflowDatabase} {runId : Nat} {now : Instant}

theorem find_linked {own : WorkflowTables} {step : WorkflowStepRecord}
    (h : own.steps.rows.find? (fun step => step.runId = some runId) = some step) :
    step ∈ own.steps.rows ∧ step.runId = some runId := by
  have hrun := List.find?_some h
  exact ⟨List.mem_of_find?_eq_some h, of_decide_eq_true hrun⟩

theorem insertDecision_rewrites {workflow : WorkflowExecutionRecord}
    {request : Option WorkflowDecisionRequest} {value : Unit}
    (h : (insertDecision workflow request now).Commits db value db') :
    Rewrites workflow.id
      (fun w => { w with decisions := w.decisions ++ (request.map fun request =>
        request.decision workflow now db.1.own.decisions.next).toList })
      db.1.own db'.1.own := by
  cases request with
  | none =>
    obtain ⟨-, rfl⟩ := Tx.commits_pure.mp h
    apply (Rewrites.of_eq rfl).congr
    intro w _
    simp only [id, Option.map_none, Option.toList_none, List.append_nil]
  | some request =>
    simp only [insertDecision, Tx.commits_bind, Tx.commits_insert, Tx.commits_pure] at h
    obtain ⟨_, db', ⟨-, hinsert⟩, -, rfl⟩ := h
    exact rewrites_insert _ hinsert fun _ => rfl

theorem commitStep_moved {result : WorkflowStepResult}
    (h : (commitStep runId result now).Commits db true db') :
    Moved core (.commit runId result now) db.1.own db'.1.own := by
  simp only [commitStep, Tx.commits_bind, Tx.commits_query, Tx.commits_found] at h
  obtain ⟨linked, db, ⟨rfl, rfl⟩, step, db, ⟨hlinked, rfl⟩, parent, db, ⟨rfl, rfl⟩, workflow, db,
    ⟨hparent, rfl⟩, h⟩ := h
  obtain ⟨hstep, hrun⟩ := find_linked hlinked
  simp only [Tx.commits_ite, Tx.commits_bind, Tx.commits_update, Tx.commits_pure,
    Tx.commits_insert, Tx.commits_delete, Bool.true_eq_false, false_and, and_false,
    false_or] at h
  rcases h with ⟨hcancelled, _, db', ⟨-, hupdate⟩, -, rfl⟩ | ⟨-, hfence, h⟩
  · have hrewrites := rewrites_update step.workflowId hupdate (fun _ => rfl) <| by
      intro other hother hid
      rw [Table.eq_of_key_eq hother hstep hid]
      rfl
    apply hrewrites.moved
    intro w hw
    apply Workflow.Moves.finishLate
    · exact (mem_steps hw).mpr ⟨hstep, rfl⟩
    · exact hrun
    · rwa [execution_eq hw hparent]
  · simp only [not_or, not_not, ne_eq] at hfence
    obtain ⟨hrunning, hexpected, hstatus⟩ := hfence
    obtain ⟨_, db₁, ⟨-, hinsert⟩, _, db₂, ⟨-, hsucceed⟩, _, db₃, hdecision, _, db₄,
      ⟨-, hcommit⟩, _, db₅, ⟨-, htouch⟩, _, _, hdelete, -, rfl⟩ := h
    have hid : workflow.id = step.workflowId := (Table.find_eq_some.mp hparent).2
    have hfirst := rewrites_insert workflow.id hinsert fun _ => hid.symm
    have hsecond := rewrites_update workflow.id hsucceed (fun _ => rfl) <| by
      intro other hother hp
      obtain ⟨t', -, hdb₁⟩ := hinsert
      rw [hdb₁] at hother
      rw [Table.eq_of_key_eq hother hstep hp.1, hid]
      rfl
    have hthird := insertDecision_rewrites hdecision
    have hfourth := rewrites_updateExecutions workflow.id hcommit (fun _ => rfl)
      fun row hp => hp.1
    have hfifth := rewrites_updateExecutions workflow.id htouch (fun _ => rfl)
      fun row hp => hp
    have hsixth := rewrites_delete workflow.id
      (q := fun row => row.revision + workflow.budget.maxRetainedCheckpoints ≤
        workflow.checkpointRevision + 1) hdelete fun _ => Iff.rfl
    apply (((((hfirst.trans hsecond).trans hthird).trans hfourth).trans hfifth).trans
      hsixth).moved
    intro w hw
    rw [hid] at hw
    obtain rfl := execution_eq hw hparent
    let commit : Workflow.Commit w runId :=
      { step := step
        checkpointId := (table (ρ := WorkflowCheckpointRecord) db.1.own).next
        decisionId := db₂.1.own.decisions.next
        owned := (mem_steps hw).mpr ⟨hstep, rfl⟩
        linked := hrun
        running := hrunning
        expected := hexpected
        parent := hstatus
        workflowId := hid.symm }
    have hcommitted : Table.amend
        (fun row : WorkflowExecutionRecord => row.id = w.execution.id ∧
          row.checkpointRevision = w.execution.checkpointRevision ∧ row.status = .running)
        (WorkflowExecutionRecord.commit result.directive
          (w.execution.checkpointRevision + 1) now) w.execution =
        (commit.after result now).execution :=
      Table.amend_of_pos ⟨rfl, rfl, hstatus⟩
    have htouched : Table.amend
        (fun row : WorkflowExecutionRecord => row.id = w.execution.id)
        (WorkflowExecutionRecord.touch now) (commit.after result now).execution =
        (commit.after result now).execution :=
      Table.amend_of_pos rfl
    have hafter : ∀ execution, execution = (commit.after result now).execution →
        w.Moves core (.commit runId result now)
          { commit.after result now with execution := execution } := by
      rintro _ rfl
      exact .commit commit
    apply hafter
    exact (congrArg _ hcommitted).trans htouched

theorem succeedWithStep_moved {claim : ClaimedAttempt} {completion : Completion}
    {workflowStep : Option WorkflowStepResult} {value : Unit}
    (h : (succeedWithStep claim completion workflowStep now).Commits db value db') :
    ∃ outcome, stepResult db.1.own claim.runId workflowStep = .ok outcome ∧
      match outcome with
      | none => db'.1.own = db.1.own
      | some result =>
        Moved core (.commit claim.runId result now) db.1.own db'.1.own := by
  simp only [succeedWithStep, onEngine, Tx.commits_bind, Tx.commits_onCore, Tx.commits_query,
    Tx.commits_ofExcept] at h
  obtain ⟨_, db₁, ⟨-, hown₁⟩, _, db₂, ⟨-, hown₂⟩, _, db₃, ⟨-, hown₃⟩, _, db₄, ⟨-, hown₄⟩, _, _,
    ⟨rfl, rfl⟩, outcome, _, ⟨hresult, rfl⟩, _, db₅, hcommit, -, hown₅⟩ := h
  rw [hown₄, hown₃, hown₂, hown₁] at hresult
  refine ⟨outcome, hresult, ?_⟩
  cases outcome with
  | none =>
    obtain ⟨-, rfl⟩ := Tx.commits_pure.mp hcommit
    change db'.1.own = db.1.own
    rw [hown₅, hown₄, hown₃, hown₂, hown₁]
  | some result =>
    simp only [commitResult, Tx.commits_bind, Tx.commits_require] at hcommit
    obtain ⟨_, db₅, hstep, rfl, rfl⟩ := hcommit
    rw [hown₅, ← hown₁, ← hown₂, ← hown₃, ← hown₄]
    exact commitStep_moved hstep

end NervOS

namespace NervOS

open Relational

section Creation

variable {db db' : WorkflowDatabase}

theorem createWorkflow_cases {request : WorkflowCreationRequest} {preparation : Preparation}
    {execution : WorkflowExecutionRecord}
    (h : (createWorkflowWithStep request preparation).Commits db execution db') :
    db' = db ∨ ∃ w run, w.Opens db'.1.core request run ∧
      db.1.own.workflow w.execution.id = none ∧
      ∀ id, db'.1.own.workflow id =
        if id = w.execution.id then some w else db.1.own.workflow id := by
  simp only [createWorkflowWithStep, Tx.commits_bind, Tx.commits_query] at h
  obtain ⟨existing, db, ⟨-, rfl⟩, h⟩ := h
  cases existing with
  | some row =>
    simp only [Tx.commits_bind, Tx.commits_require, Tx.commits_pure] at h
    obtain ⟨-, _, ⟨-, rfl⟩, -, _, ⟨-, rfl⟩, -, rfl⟩ := h
    exact Or.inl rfl
  | none =>
    simp only [Tx.commits_bind, Tx.commits_query, Tx.commits_require, Tx.commits_insert,
      commits_reload] at h
    obtain ⟨active, db, ⟨-, rfl⟩, -, _, ⟨-, rfl⟩, -, db, ⟨haccepts, rfl⟩, run, db₁, hrun, _, db₂,
      ⟨rfl, hexecution⟩, _, db₃, ⟨-, hstep⟩, hfind, hloads, rfl⟩ := h
    obtain ⟨hown, hfound, hlimits⟩ := commits_insertedRun hrun
    have hopened := workflow_insertExecution hexecution fun _ => rfl
    have hrewrites := rewrites_insert db₁.1.own.executions.next hstep fun _ => rfl
    have hcore : db'.1.core = db₁.1.core := by
      obtain ⟨_, -, hdb₂⟩ := hexecution
      obtain ⟨_, -, hdb'⟩ := hstep
      rw [hdb', hdb₂]
      rfl
    rw [table_extended, table_execution] at hfind
    let w : Workflow :=
      { execution := request.execution run preparation.executable db₁.1.own.executions.next
        steps := [request.firstStep db₁.1.own.executions.next run.id
          (table (ρ := WorkflowStepRecord) db₂.1.own).next]
        checkpoints := []
        signals := []
        decisions := [] }
    have hview : ∀ id, db'.1.own.workflow id =
        if id = w.execution.id then some w else db.1.own.workflow id := by
      intro id
      rw [hrewrites id, hopened id, ← hown]
      by_cases hid : id = db₁.1.own.executions.next
      · rw [if_pos hid, if_pos hid, Option.map_some]
        exact (if_pos hid).symm
      · rw [if_neg hid, if_neg hid]
        exact (if_neg hid).symm
    have hw : db'.1.own.workflow w.execution.id = some w := by
      rw [hview, if_pos rfl]
    refine Or.inr ⟨w, run, ?_, ?_, hview⟩
    · constructor
      · exact ⟨preparation.executable, rfl⟩
      · exact ⟨_, rfl⟩
      · rfl
      · rfl
      · rfl
      · rwa [hcore]
      · exact hlimits
      · exact haccepts
      · rw [execution_eq hw hfind]
        exact hloads
    · rw [← hown, WorkflowTables.workflow, Option.map_eq_none_iff]
      exact Table.find_next db₁.1.own.executions

end Creation

def WorkflowSystem.settled (system : WorkflowSystem) (claim : ClaimedAttempt)
    (workflowStep : Option WorkflowStepResult) (now : Instant) : Option WorkflowAct :=
  match stepResult system.db.1.own claim.runId workflowStep with
  | .ok (some result) => some (.commit claim.runId result now)
  | .ok none | .error _ => none

/-- The act under which an operation reaches the workflows that exist. -/
def WorkflowOp.act (system : WorkflowSystem) : WorkflowOp → Option WorkflowAct
  | .engine (.worker claim (.succeed _) now) => system.settled claim none now
  | .succeed claim _ workflowStep now => system.settled claim workflowStep now
  | .engine _ | .create _ _ | .readStep _ => none
  | .tick request => some (.tick request.now)
  | .deliverSignal delivery => some (.deliver delivery)
  | .decide verdict => some (.decide verdict)
  | .setPaused _ _ paused now => some (.setPaused paused now)
  | .cancel _ _ now => some (.cancel now)

namespace WorkflowSystem

section Acts

def workflow (system : WorkflowSystem) (id : Nat) : Option Workflow :=
  system.db.1.own.workflow id

/-- Every workflow moved at most once, under the operation's act; one that was not
there was opened by a creation. -/
structure Refines (op : WorkflowOp) (system system' : WorkflowSystem) : Prop where
  kept : ∀ id w, system.workflow id = some w → ∃ w', system'.workflow id = some w' ∧
    (w' = w ∨ ∃ act, op.act system = some act ∧ w.Moves system'.db.1.core act w')
  opened : ∀ id w, system.workflow id = none → system'.workflow id = some w →
    ∃ request preparation run, op = .create request preparation ∧
      w.Opens system'.db.1.core request run

variable {op : WorkflowOp} {system system' : WorkflowSystem} {policy : QueuePolicy}

theorem Refines.of_eq (h : system'.db.1.own = system.db.1.own) : Refines op system system' := by
  have hview : ∀ id, system'.workflow id = system.workflow id := by
    intro id
    rw [workflow, h]
    rfl
  constructor
  · intro id w hw
    exact ⟨w, (hview id).trans hw, Or.inl rfl⟩
  · intro id w hnone hw
    rw [hview, hnone] at hw
    cases hw

theorem Refines.of_moved {act : WorkflowAct} (hact : op.act system = some act)
    (h : Moved system'.db.1.core act system.db.1.own system'.db.1.own) :
    Refines op system system' := by
  constructor
  · intro id w hw
    obtain ⟨w', hw', hmoves⟩ := h.kept id w hw
    exact ⟨w', hw', hmoves.imp_right fun hmove => ⟨act, hact, hmove⟩⟩
  · intro id w hnone hw
    rw [workflow, h.absent id hnone] at hw
    cases hw

theorem commit_refines {α : Type} {x : WorkflowConnection α}
    (h : ∀ value, x.Commits system.db value (system.commit x).db →
      Refines op system (system.commit x)) : Refines op system (system.commit x) := by
  rcases commit_cases x system with ⟨value, hcommits⟩ | hsame
  · exact h value hcommits
  · rw [hsame]
    exact .of_eq rfl

theorem settle_refines {claim : ClaimedAttempt} {completion : Completion}
    {workflowStep : Option WorkflowStepResult} {now : Instant}
    (hact : op.act system = system.settled claim workflowStep now) :
    Refines op system (system.settle claim completion workflowStep now) := by
  unfold WorkflowSystem.settle
  split
  · apply commit_refines
    intro value h
    obtain ⟨outcome, hresult, hmoved⟩ := succeedWithStep_moved h
    cases outcome with
    | none => exact .of_eq hmoved
    | some result =>
      rw [WorkflowSystem.settled, hresult] at hact
      exact .of_moved hact hmoved
  · exact .of_eq rfl

theorem onEngine_own (next : System) (system : WorkflowSystem) :
    (system.onEngine next).db.1.own = system.db.1.own := by
  unfold WorkflowSystem.onEngine
  split <;> rfl

theorem readStep_db (runId : Nat) (system : WorkflowSystem) :
    (system.readStep runId).db = system.db := by
  unfold WorkflowSystem.readStep
  split <;> rfl

theorem exec_engine (policy : QueuePolicy) (op : Op) (system : WorkflowSystem) :
    (∃ claim completion now, op = .worker claim (.succeed completion) now) ∨
      WorkflowSystem.exec policy (.engine op) system =
        system.onEngine (System.exec policy op system.core) := by
  cases op with
  | worker claim action now =>
    cases action with
    | succeed completion => exact Or.inl ⟨claim, completion, now, rfl⟩
    | startAttempt | renewLease | fail | recordFailure | persistAttemptUsage |
      recordRequested | markStarted | markDenied | markCancelled | markSucceeded |
      markFailed | markAmbiguous | recordPreDispatchRefusal => exact Or.inr rfl
  | submit | insertRunAndJob | claimNext | reclaim | cancelRun | approval | closeLegacy |
    configure => exact Or.inr rfl

theorem act_engine {op : Op} {act : WorkflowAct}
    (h : (WorkflowOp.engine op).act system = some act) :
    ∃ claim now, system.settled claim none now = some act := by
  cases op with
  | worker claim action now =>
    cases action with
    | succeed completion => exact ⟨claim, now, h⟩
    | startAttempt | renewLease | fail | recordFailure | persistAttemptUsage |
      recordRequested | markStarted | markDenied | markCancelled | markSucceeded |
      markFailed | markAmbiguous | recordPreDispatchRefusal => cases h
  | submit | insertRunAndJob | claimNext | reclaim | cancelRun | approval | closeLegacy |
    configure => cases h

theorem exec_refines (policy : QueuePolicy) (op : WorkflowOp) (system : WorkflowSystem) :
    Refines op system (WorkflowSystem.exec policy op system) := by
  cases op with
  | engine op =>
    rcases exec_engine policy op system with ⟨claim, completion, now, rfl⟩ | hexec
    · exact settle_refines rfl
    · rw [hexec]
      exact .of_eq (onEngine_own _ _)
  | succeed claim completion workflowStep now => exact settle_refines rfl
  | create request preparation =>
    apply commit_refines
    intro execution h
    rcases createWorkflow_cases h with hsame | ⟨w, run, hopens, hnone, hview⟩
    · exact .of_eq (congrArg (·.1.own) hsame)
    · constructor
      · intro id other hother
        refine ⟨other, (hview id).trans ?_, Or.inl rfl⟩
        rw [if_neg]
        · exact hother
        · rintro rfl
          rw [workflow, hnone] at hother
          cases hother
      · intro id other hother hopened
        have hsome := (hview id).symm.trans hopened
        split at hsome
        · obtain rfl := Option.some.inj hsome
          exact ⟨request, preparation, run, rfl, hopens⟩
        · rw [workflow] at hother
          rw [hother] at hsome
          cases hsome
  | readStep runId => exact .of_eq (congrArg (·.1.own) (readStep_db runId system))
  | tick request =>
    apply commit_refines
    intro value h
    exact .of_moved rfl (tickOne_moved h)
  | deliverSignal delivery =>
    apply commit_refines
    intro value h
    exact .of_moved rfl (deliverSignal_moved h)
  | decide verdict =>
    apply commit_refines
    intro value h
    exact .of_moved rfl (decideWorkflow_moved h)
  | setPaused ownerUserId workflowId paused now =>
    apply commit_refines
    intro value h
    exact .of_moved rfl (setPaused_moved h)
  | cancel ownerUserId workflowId now =>
    apply commit_refines
    intro value h
    exact .of_moved rfl (cancelWorkflow_moved h)

end Acts

variable {policy : QueuePolicy} {system : WorkflowSystem} {id : Nat} {w : Workflow}

theorem workflow_init (policy : QueuePolicy) (id : Nat) :
    (workflowEngine policy).init.workflow id = none :=
  rfl

variable {I : Workflow → Prop}

theorem Refines.invariant {op : WorkflowOp} {system' : WorkflowSystem}
    {B : WorkflowAct → Workflow → Prop} (h : Refines op system system')
    (hbound : ∀ act id w, op.act system = some act → system.workflow id = some w →
      B act w ∨ system'.workflow id = some w)
    (hopens : ∀ core w request run, w.Opens core request run → I w)
    (hmoves : ∀ core act w w', I w → B act w → w.Moves core act w' → I w')
    (hI : ∀ id w, system.workflow id = some w → I w) :
    ∀ id w', system'.workflow id = some w' → I w' := by
  intro id w' hw'
  cases hw : system.workflow id with
  | none =>
    obtain ⟨request, preparation, run, -, hopened⟩ := h.opened id w' hw hw'
    exact hopens _ _ _ _ hopened
  | some w =>
    obtain ⟨after, hafter, hmoved⟩ := h.kept id w hw
    obtain rfl := Option.some.inj (hafter.symm.trans hw')
    rcases hmoved with rfl | ⟨act, hact, hmove⟩
    · exact hI id _ hw
    · rcases hbound act id w hact hw with hbounded | hsame
      · exact hmoves _ act w _ (hI id w hw) hbounded hmove
      · obtain rfl := Option.some.inj (hw'.symm.trans hsame)
        exact hI id _ hw

theorem workflow_invariant_along (ok : WorkflowSystem → WorkflowOp → Prop)
    (B : WorkflowAct → Workflow → Prop)
    (hbound : ∀ system op act id w, (workflowEngine policy).ReachableAlong ok system →
      ok system op → op.act system = some act → system.workflow id = some w →
        B act w ∨ (WorkflowSystem.exec policy op system).workflow id = some w)
    (hopens : ∀ core w request run, w.Opens core request run → I w)
    (hmoves : ∀ core act w w', I w → B act w → w.Moves core act w' → I w')
    (h : (workflowEngine policy).ReachableAlong ok system) (hw : system.workflow id = some w) :
    I w := by
  have hall : ∀ id w, system.workflow id = some w → I w := by
    apply h.induction (I := fun system => ∀ id w, system.workflow id = some w → I w)
    · intro id w hw
      rw [workflow_init] at hw
      cases hw
    · intro system op hreach hI hok
      apply (exec_refines policy op system).invariant _ hopens hmoves hI
      intro act id w hact hw
      exact hbound system op act id w hreach hok hact hw
  exact hall id w hw

theorem workflow_invariant (hopens : ∀ core w request run, w.Opens core request run → I w)
    (hmoves : ∀ core act w w', I w → w.Moves core act w' → I w')
    (h : (workflowEngine policy).Reachable system) (hw : system.workflow id = some w) : I w := by
  apply workflow_invariant_along (fun _ _ => True) (fun _ _ => True) _ hopens _
    (h.along fun _ _ => trivial) hw
  · intro _ _ _ _ _ _ _ _ _
    exact Or.inl trivial
  · intro core act w w' hI _ hmove
    exact hmoves core act w w' hI hmove

theorem run_grows (policy : QueuePolicy) (ops : List WorkflowOp) (system : WorkflowSystem)
    (hw : system.workflow id = some w) :
    ∃ w', ((workflowEngine policy).run ops system).workflow id = some w' ∧ w.Grows w' := by
  induction ops generalizing system w with
  | nil => exact ⟨w, hw, .refl w⟩
  | cons op rest ih =>
    obtain ⟨w', hw', hmoved⟩ := (exec_refines policy op system).kept id w hw
    obtain ⟨w'', hw'', hgrows⟩ := ih (WorkflowSystem.exec policy op system) hw'
    refine ⟨w'', hw'', ?_⟩
    rcases hmoved with rfl | ⟨act, -, hmove⟩
    · exact hgrows
    · exact hmove.grows.trans hgrows

theorem reachable_sound (h : (workflowEngine policy).Reachable system)
    (hw : system.workflow id = some w) : w.Sound :=
  workflow_invariant (fun _ _ _ _ => .opens) (fun _ _ _ _ => .moves) h hw

end WorkflowSystem

end NervOS
