/-
Signal waits.  An accepted signal reserves its key for the life of the workflow, so a
wait can be released exactly when its key was not accepted before.
-/
import NervOS.Refinement.Decoded

namespace NervOS

open Relational

structure Workflow.AwaitsSignal (w : Workflow) (key : String) : Prop where
  waiting : w.execution.status = .waiting
  kind : w.execution.waitKind = some .signal
  signalKey : w.execution.signalKey = some key

instance (w : Workflow) (key : String) : Decidable (w.AwaitsSignal key) :=
  decidable_of_iff (_ ∧ _ ∧ _) ⟨fun h => ⟨h.1, h.2.1, h.2.2⟩, fun h => ⟨h.1, h.2, h.3⟩⟩

def Workflow.delivery (w : Workflow) (key : String) (payload : FrozenSignal) (now : Instant) :
    SignalDelivery where
  ownerUserId := w.execution.ownerUserId
  workflowId := w.execution.id
  signalKey := key
  payload := payload
  expectedRevision := w.execution.checkpointRevision
  now := now

def SignalDelivery.Wakes (delivery : SignalDelivery) (db : WorkflowDatabase) : Prop :=
  ∃ outcome db', (deliverSignal delivery).Commits db outcome db' ∧
    outcome.accepted = true ∧ outcome.outcome = .accepted ∧
    outcome.workflow.status = .runnable ∧
    db'.1.own.executions.find delivery.workflowId = some outcome.workflow

section Progress

variable {db : WorkflowDatabase} {id : Nat} {w : Workflow} {key : String}

theorem prior_none_iff (hw : db.1.own.workflow id = some w) (key : String) :
    (db.1.own.signals.rows.find? fun signal =>
      signal.workflowId = id ∧ signal.signalKey = key) = none ↔
      ∀ signal ∈ w.signals, signal.signalKey ≠ key := by
  rw [List.find?_eq_none]
  constructor
  · intro hnone signal hsignal hkey
    obtain ⟨hrow, howner⟩ := (mem_signals hw).mp hsignal
    exact hnone signal hrow (decide_eq_true ⟨howner, hkey⟩)
  · intro hunused signal hrow hmatch
    obtain ⟨howner, hkey⟩ := of_decide_eq_true hmatch
    exact hunused signal ((mem_signals hw).mpr ⟨hrow, howner⟩) hkey

theorem verdict_delivery (hwaits : w.AwaitsSignal key) (payload : FrozenSignal) (now : Instant) :
    (w.delivery key payload now).verdict w.execution = .accepted := by
  unfold SignalDelivery.verdict
  rw [if_neg, if_neg, if_neg]
  · rw [hwaits.waiting, hwaits.kind, hwaits.signalKey]
    simp [Workflow.delivery]
  · exact fun hmoved => hmoved rfl
  · rw [hwaits.waiting]
    exact nofun

theorem references_insertSignal {row : Nat → WorkflowSignalRecord}
    {t : Table WorkflowSignalRecord} (ht : db.1.own.signals.insert? row = some t)
    (hw : (db.1.own.executions.find (row db.1.own.signals.next).workflowId).isSome) :
    Schema.References (setTable t db.1) := by
  refine ⟨db.2.1, ?_⟩
  have hown := db.2.2
  refine ⟨hown.executionAgent, hown.stepWorkflow, hown.stepRun, hown.checkpointWorkflow, ?_,
    hown.decisionWorkflow, hown.decisionDefinition⟩
  intro signal hsignal
  change signal ∈ t.rows at hsignal
  rw [(Table.insert?_rows ht).1] at hsignal
  rcases List.mem_append.mp hsignal with hold | hnew
  · exact hown.signalWorkflow signal hold
  · rw [List.mem_singleton.mp hnew]
    exact hw

theorem references_updateExecution {p : WorkflowExecutionRecord → Prop} [DecidablePred p]
    {f : WorkflowExecutionRecord → WorkflowExecutionRecord}
    {t : Table WorkflowExecutionRecord} (ht : db.1.own.executions.update? p f = some t)
    (hid : ∀ row, (f row).id = row.id)
    (hagent : ∀ row, (f row).agentInstanceId = row.agentInstanceId) :
    Schema.References (setTable t db.1) := by
  refine ⟨db.2.1, ?_⟩
  have hown := db.2.2
  have hfind : ∀ id, (db.1.own.executions.find id).isSome → (t.find id).isSome := by
    intro id hsome
    rwa [Table.find_update ht hid, Option.isSome_map]
  refine ⟨?_, fun row hrow => hfind _ (hown.stepWorkflow row hrow), hown.stepRun,
    fun row hrow => hfind _ (hown.checkpointWorkflow row hrow),
    fun row hrow => hfind _ (hown.signalWorkflow row hrow),
    fun row hrow => hfind _ (hown.decisionWorkflow row hrow), hown.decisionDefinition⟩
  intro execution hexecution
  change execution ∈ t.rows at hexecution
  rw [(Table.update?_rows ht).1] at hexecution
  obtain ⟨row, hrow, rfl⟩ := List.mem_map.mp hexecution
  rw [Table.amend_column hagent]
  exact hown.executionAgent row hrow

theorem lengthBetween_of_safeKey (h : ValidSafeKey key) : LengthBetween 1 64 key := by
  obtain ⟨hhead, hall, hlength⟩ := h
  have hwhole : key.toList.takeWhile (· != '\x00') = key.toList := by
    rw [List.takeWhile_eq_self_iff]
    intro character hcharacter
    have hword := List.all_eq_true.mp hall character hcharacter
    by_contra hnul
    rw [bne_iff_ne, not_not] at hnul
    rw [hnul] at hword
    revert hword
    decide
  rw [LengthBetween, sqlLength, hwhole]
  refine ⟨?_, hlength⟩
  cases hcharacters : key.toList with
  | nil =>
    rw [hcharacters] at hhead
    cases hhead
  | cons character rest => exact Nat.le_add_left 1 rest.length

theorem exists_insertSignal (hw : db.1.own.workflow id = some w) (hkey : ValidSafeKey key)
    (hunused : ∀ signal ∈ w.signals, signal.signalKey ≠ key)
    (payload : FrozenSignal) (now : Instant) :
    ∃ db', Tx.Inserts (w.delivery key payload now).signal db db' := by
  apply Tx.exists_inserts
  · exact fun _ => rfl
  · intro signalId
    refine ⟨payload.2.bytes, lengthBetween_of_safeKey hkey, ?_⟩
    rintro _ ⟨⟩
    exact le_rfl
  · rintro other hother signalId ⟨howner, hsame⟩
    refine hunused other ((mem_signals hw).mpr ⟨hother, ?_⟩) hsame
    exact Eq.trans howner (workflow_id hw)
  · intro t ht
    apply references_insertSignal ht
    change (db.1.own.executions.find w.execution.id).isSome
    rw [workflow_id hw, workflow_find hw]
    rfl

variable {execution : WorkflowExecutionRecord}

theorem wake_check (h : execution.Check) (hwaiting : execution.status = .waiting) (now : Instant) :
    (execution.wake now).Check := by
  have hunfinished : execution.finishedAt = none := by
    by_contra hfinished
    have hover := h.terminalShape.mpr hfinished
    rw [hwaiting] at hover
    exact hover
  constructor
  · exact ⟨rfl, rfl⟩
  · exact h.reservedWithinBudget
  · exact h.submissionKeyBound
  · exact h.workflowKindBound
  · exact h.agentKeyBound
  · exact h.definitionVersionBound
  · apply iff_of_false
    · exact fun hover => hover
    · exact fun hfinished => hfinished hunfinished
  · exact h.deadlineAfterCreation

theorem exists_wake (hw : db.1.own.workflow id = some w)
    (hwaiting : w.execution.status = .waiting) (now : Instant) :
    ∃ db', Tx.Updates (fun row : WorkflowExecutionRecord => row.id = id)
      (WorkflowExecutionRecord.wake now) db db' := by
  have hmem : w.execution ∈ (table (ρ := WorkflowExecutionRecord) db.1).rows := workflow_mem hw
  have hclash : ∀ other ∈ (table (ρ := WorkflowExecutionRecord) db.1).rows,
      (Record.Clash other (w.execution.wake now) → Record.Clash other w.execution) ∧
        (Record.Clash (w.execution.wake now) other → Record.Clash w.execution other) :=
    fun other _ => ⟨fun hclash => hclash, fun hclash => hclash⟩
  refine (Tx.exists_updates hmem (workflow_id hw) ?_ rfl ?_ hclash ?_).imp fun db' => And.right
  · intro other hother
    exact hother.trans (workflow_id hw).symm
  · exact wake_check (workflow_check hw) hwaiting now
  · intro t ht
    exact references_updateExecution ht (fun _ => rfl) fun _ => rfl

theorem wake_loads (h : execution.Loads) (now : Instant) :
    (execution.wake now).Loads :=
  ⟨h.positive, h.kind, h.submission, h.steps, nofun, h.decision⟩

theorem wakes_of_unused (hw : db.1.own.workflow id = some w) (hloads : w.execution.Loads)
    (hwaits : w.AwaitsSignal key) (hunused : ∀ signal ∈ w.signals, signal.signalKey ≠ key)
    (payload : FrozenSignal) (now : Instant) : (w.delivery key payload now).Wakes db := by
  have hid := workflow_id hw
  obtain ⟨db₁, hinsert⟩ := exists_insertSignal hw (hloads.signal key hwaits.signalKey) hunused
    payload now
  have hrewrites := rewrites_insert id hinsert fun _ => hid
  have hw₁ := hrewrites.eq_map
  rw [hw, Option.map_some] at hw₁
  obtain ⟨db₂, hupdate⟩ := exists_wake hw₁ hwaits.waiting now
  have hwoken := rewrites_updateExecution id hupdate (fun _ => rfl) (fun row hp => hp)
    fun w hw => workflow_id hw
  have hw₂ := hwoken.eq_map
  rw [hw₁, Option.map_some] at hw₂
  have hfind := workflow_find hw₂
  refine ⟨⟨true, .accepted, w.execution.wake now⟩, db₂, ?_, rfl, rfl, rfl, ?_⟩
  · simp only [deliverSignal, Tx.commits_bind, commits_owned, Tx.commits_query]
    refine ⟨w.execution, db, ⟨?_, rfl, hloads, rfl⟩, none, db, ⟨?_, rfl⟩, ?_⟩
    · change db.1.own.executions.find w.execution.id = _
      rw [hid]
      exact workflow_find hw
    · symm
      change db.1.own.signals.rows.find? (fun signal =>
        signal.workflowId = w.execution.id ∧ signal.signalKey = key) = none
      rw [hid, prior_none_iff hw]
      exact hunused
    · simp only [Tx.commits_ite, Tx.commits_bind, Tx.commits_insert, Tx.commits_update,
        commits_reload, Tx.commits_pure]
      refine Or.inr ⟨not_not.mpr (verdict_delivery hwaits payload now), _, db₁, ⟨rfl, hinsert⟩,
        _, db₂, ⟨rfl, ?_⟩, _, db₂, ⟨?_, wake_loads hloads now, rfl⟩, rfl, rfl⟩
      · change Tx.Updates (fun row : WorkflowExecutionRecord => row.id = w.execution.id) _ db₁ db₂
        rw [hid]
        exact hupdate
      · change db₂.1.own.executions.find w.execution.id = _
        rw [hid]
        exact hfind
  · change db₂.1.own.executions.find w.execution.id = _
    rw [hid]
    exact hfind

theorem unused_of_wakes (hw : db.1.own.workflow id = some w) {payload : FrozenSignal}
    {now : Instant} (h : (w.delivery key payload now).Wakes db) :
    w.execution.Loads ∧ ∀ signal ∈ w.signals, signal.signalKey ≠ key := by
  obtain ⟨outcome, db', hcommits, -, haccepted, -⟩ := h
  simp only [deliverSignal, Tx.commits_bind, commits_owned, Tx.commits_query] at hcommits
  obtain ⟨execution, db, ⟨hfind, -, hloads, rfl⟩, prior, db, ⟨hprior, rfl⟩, hcommits⟩ := hcommits
  change db.1.own.executions.find w.execution.id = some execution at hfind
  rw [workflow_id hw] at hfind
  rw [execution_eq hw hfind]
  refine ⟨hloads, ?_⟩
  cases prior with
  | none =>
    rw [← prior_none_iff hw, ← workflow_id hw]
    exact hprior.symm
  | some prior =>
    simp only [Tx.commits_bind, Tx.commits_require, Tx.commits_pure] at hcommits
    obtain ⟨-, _, -, rfl, -⟩ := hcommits
    change (if prior.outcome = .accepted then SignalOutcome.replayed else prior.outcome) = _
      at haccepted
    split at haccepted
    · cases haccepted
    · rename_i hrefused
      exact absurd haccepted hrefused

end Progress

variable {system : WorkflowSystem} {id : Nat} {w : Workflow} {key : String}

def emptySignal : FrozenSignal :=
  ⟨.obj [], by decide⟩

/-- A waiting workflow can be woken, at every time, exactly when no signal of its key was
accepted before; on runs of decoded results it also always loads. -/
theorem signal_wait_live (policy : QueuePolicy) (hw : system.workflow id = some w)
    (hwaits : w.AwaitsSignal key) :
    ((∃ payload, ∀ now, (w.delivery key payload now).Wakes system.db) ↔
        w.execution.Loads ∧ ∀ signal ∈ w.signals, signal.signalKey ≠ key) ∧
      ((workflowEngine policy).ReachableAlong (fun system op => op.Decoded system) system →
        w.execution.Loads) := by
  refine ⟨⟨?_, ?_⟩, fun h => WorkflowSystem.decoded_loads h hw⟩
  · rintro ⟨payload, hwakes⟩
    exact unused_of_wakes hw (hwakes 0)
  · rintro ⟨hloads, hunused⟩
    exact ⟨emptySignal, fun now => wakes_of_unused hw hloads hwaits hunused emptySignal now⟩

def signalDirective : WorkflowDirective where
  kind := .wait
  waitKind := some .signal
  signalKey := some "go"
  valid := by decide

def sampleSignal : WorkflowStepResult where
  directive := signalDirective
  state := emptyState
  summary := none
  decisionRequest := none
  summaryValid := noSummary_valid
  requested _ hkind := nomatch hkind
  waited hrequest := absurd rfl hrequest

def signalWait : List WorkflowOp :=
  sampleWorkflowStart ++ [.readStep 1,
    .succeed (sampleClaim 1 0) sampleCompletion (some sampleSignal) 2]

set_option maxRecDepth 100000 in
theorem signal_wait_live_sample : ∃ w, (sampleWorkflowRun signalWait).workflow 1 = some w ∧
    ∃ payload, ∀ now, (w.delivery "go" payload now).Wakes (sampleWorkflowRun signalWait).db := by
  have hwaiting : ∃ w ∈ (sampleWorkflowRun signalWait).workflow 1,
      w.AwaitsSignal "go" ∧ w.execution.Loads ∧
        ∀ signal ∈ w.signals, signal.signalKey ≠ "go" := by
    decide +kernel
  obtain ⟨w, hw, hwaits, hloads, hunused⟩ := hwaiting
  refine ⟨w, hw, ?_⟩
  exact (signal_wait_live productionQueuePolicy hw hwaits).1.mpr ⟨hloads, hunused⟩

def sampleDelivery : SignalDelivery where
  ownerUserId := 1
  workflowId := 1
  signalKey := "go"
  payload := emptySignal
  expectedRevision := 1
  now := 3

def sampleSecondClaim (now : Instant) : ClaimedAttempt :=
  { sampleClaim 2 now with jobId := 2, runId := 2, attemptNumber := 1 }

def loopedSignalWait : List WorkflowOp :=
  signalWait ++ [.deliverSignal sampleDelivery, .tick (sampleTick 4),
    .engine (.claimNext (samplePoll 2 5)),
    .engine (.worker (sampleSecondClaim 5) .startAttempt 6), .readStep 2,
    .succeed (sampleSecondClaim 5) sampleCompletion (some sampleSignal) 7]

set_option maxRecDepth 100000 in
/-- The second wait for a key that was accepted before is dead. -/
theorem dead_loopedSignalWait : ∃ w, (sampleWorkflowRun loopedSignalWait).workflow 1 = some w ∧
    w.AwaitsSignal "go" ∧ w.execution.checkpointRevision = 2 ∧
    ∀ payload now,
      ¬ (w.delivery "go" payload now).Wakes (sampleWorkflowRun loopedSignalWait).db := by
  have hwaiting : ∃ w ∈ (sampleWorkflowRun loopedSignalWait).workflow 1,
      w.AwaitsSignal "go" ∧ w.execution.checkpointRevision = 2 ∧
        ∃ signal ∈ w.signals, signal.signalKey = "go" := by
    decide +kernel
  obtain ⟨w, hw, hwaits, hrevision, signal, hsignal, hkey⟩ := hwaiting
  refine ⟨w, hw, hwaits, hrevision, fun payload now hwakes => ?_⟩
  exact (unused_of_wakes hw hwakes).2 signal hsignal hkey

end NervOS
