/-
Accepted signals.  The payload is bounded when it is delivered, and once more, one object deeper,
when the step that it wakes reads it.
-/
import NervOS.Guarantees.Signals

namespace NervOS

open Relational

namespace Workflow

structure SignalsSpent (w : Workflow) : Prop where
  accepted : ∀ signal ∈ w.signals, signal.outcome = .accepted
  single : (w.signals.map WorkflowSignalRecord.expectedRevision).Nodup
  reached : ∀ signal ∈ w.signals, signal.expectedRevision ≤ w.execution.checkpointRevision
  woken : ∀ signal ∈ w.signals, signal.expectedRevision = w.execution.checkpointRevision →
    w.execution.status ≠ .waiting

namespace SignalsSpent

variable {w w' : Workflow}

theorem opens {core : Tables} {request : WorkflowCreationRequest} {run : RunRecord}
    (h : w.Opens core request run) : w.SignalsSpent := by
  constructor <;> simp [h.signals]

theorem of_kept (h : w.SignalsSpent) (hsignals : w'.signals = w.signals)
    (hrevision : w'.execution.checkpointRevision = w.execution.checkpointRevision)
    (hstatus : w'.execution.status = .waiting → w.execution.status = .waiting) :
    w'.SignalsSpent where
  accepted := by
    rw [hsignals]
    exact h.accepted
  single := by
    rw [hsignals]
    exact h.single
  reached := by
    rw [hsignals, hrevision]
    exact h.reached
  woken := by
    rw [hsignals, hrevision]
    intro signal hsignal hexpected hwaiting
    exact h.woken signal hsignal hexpected (hstatus hwaiting)

theorem commit {runId : Nat} {result : WorkflowStepResult} {now : Instant} (h : w.SignalsSpent)
    (commit : Commit w runId) : (commit.after result now).SignalsSpent where
  accepted := h.accepted
  single := h.single
  reached signal hsignal := Nat.le_succ_of_le (h.reached signal hsignal)
  woken signal hsignal hexpected := by
    have hreached := h.reached signal hsignal
    rw [hexpected] at hreached
    exact absurd hreached (Nat.not_succ_le_self _)

theorem wake (h : w.SignalsSpent) {delivery : SignalDelivery}
    (haccepted : delivery.verdict w.execution = .accepted) (signalId : Nat) :
    SignalsSpent { w with
      execution := w.execution.wake delivery.now
      signals := w.signals ++ [delivery.signal signalId] } := by
  obtain ⟨hwaiting, -, -, hrevision⟩ := waits_of_accepted haccepted
  constructor
  case accepted =>
    intro signal hsignal
    rcases List.mem_append.mp hsignal with hold | hnew
    · exact h.accepted signal hold
    · rw [List.mem_singleton.mp hnew]
      rfl
  case single =>
    dsimp only
    rw [List.map_append, List.nodup_append]
    refine ⟨h.single, by simp, ?_⟩
    rintro _ hmem _ hnew rfl
    obtain ⟨signal, hsignal, hsame⟩ := List.mem_map.mp hmem
    rw [List.map_singleton, List.mem_singleton] at hnew
    exact h.woken signal hsignal (hsame.trans (hnew.trans hrevision)) hwaiting
  case reached =>
    intro signal hsignal
    rcases List.mem_append.mp hsignal with hold | hnew
    · exact h.reached signal hold
    · rw [List.mem_singleton.mp hnew]
      exact hrevision.le
  case woken =>
    intro _ _ _ hstatus
    cases hstatus

theorem moves {core : Tables} {act : WorkflowAct} (h : w.SignalsSpent)
    (hmoves : w.Moves core act w') : w'.SignalsSpent := by
  cases hmoves with
  | commit commit => exact h.commit commit
  | wake workflow accepted unused => exact h.wake accepted _
  | rotate _ | relink _ _ _ | finishLate _ _ _ | setPaused _ => exact h.of_kept rfl rfl id
  | loseRun _ | miss _ _ | loseAuthority _ _ _ _ _ | dispatch _ | cancel _ =>
    exact h.of_kept rfl rfl fun hstatus => by cases hstatus
  | close _ _ hcloses =>
    refine h.of_kept rfl rfl fun hstatus => ?_
    rcases hcloses with rfl | rfl <;> cases hstatus
  | @decide w verdict decision _ =>
    rcases decided_execution w verdict with ⟨-, hexecution⟩ | ⟨-, hexecution⟩
    · refine h.of_kept rfl ?_ ?_
      · rw [hexecution]
        rfl
      · rw [hexecution]
        intro hstatus
        change (if verdict.approve then WorkflowStatus.runnable else .cancelled) = _ at hstatus
        split at hstatus <;> cases hstatus
    · refine h.of_kept rfl ?_ ?_
      · rw [hexecution]
      · rw [hexecution]
        exact id

end SignalsSpent

end Workflow

section Bounds

/-- The wakeup as a step sees it, before it is frozen. -/
def SignalDelivery.wakeup (delivery : SignalDelivery) : Json.Value :=
  .obj [("key", .str delivery.signalKey), ("payload", delivery.payload.1)]

def charBytes (characters : List Char) : Nat :=
  (characters.map Char.utf8Size).sum

theorem charBytes_append (left right : List Char) :
    charBytes (left ++ right) = charBytes left + charBytes right := by
  simp [charBytes]

theorem charBytes_cons (first : Char) (rest : List Char) :
    charBytes (first :: rest) = first.utf8Size + charBytes rest := by
  simp [charBytes]

theorem charBytes_le (characters : List Char) : charBytes characters ≤ 4 * characters.length := by
  induction characters with
  | nil => simp [charBytes]
  | cons first rest ih =>
    have hfirst := Char.utf8Size_le_four first
    rw [charBytes_cons, List.length_cons]
    omega

theorem escape_length (character : Char) : (Json.escape character).length ≤ 6 := by
  unfold Json.escape
  split_ifs <;> simp

theorem stringTail_length (characters : List Char) :
    (Json.stringTail characters).length ≤ 6 * characters.length + 1 := by
  unfold Json.stringTail
  rw [List.length_append, List.length_singleton]
  induction characters with
  | nil => simp
  | cons first rest ih =>
    have hfirst := escape_length first
    rw [List.flatMap_cons, List.length_append, List.length_cons]
    omega

variable (delivery : SignalDelivery)

theorem wakeup_bytes (hkey : ValidSafeKey delivery.signalKey) :
    utf8Length (Json.canonicalText delivery.wakeup) ≤ checkpointMaxBytes := by
  have hpayload : charBytes (Json.text delivery.payload.1) ≤ 8 * 1024 := by
    have hbytes := delivery.payload.2.bytes
    rw [utf8Length, Json.canonicalText, String.toList_ofList] at hbytes
    exact hbytes
  have hname : charBytes (Json.stringTail delivery.signalKey.toList) ≤ 4 * (6 * 64 + 1) := by
    have hlength := stringTail_length delivery.signalKey.toList
    have hshort := hkey.2.2
    refine (charBytes_le _).trans ?_
    omega
  have hfirst : charBytes (Json.stringTail "key".toList) ≤ 16 := by decide
  have hsecond : charBytes (Json.stringTail "payload".toList) ≤ 32 := by decide
  rw [utf8Length, Json.canonicalText, String.toList_ofList]
  change charBytes (Json.text delivery.wakeup) ≤ checkpointMaxBytes
  simp only [SignalDelivery.wakeup, Json.text, Json.textMembers, Json.textMembersTail,
    charBytes_cons, charBytes_append]
  have hnil : charBytes [] = 0 := rfl
  have hquote := Char.utf8Size_le_four '\x22'
  have hcolon := Char.utf8Size_le_four ':'
  have hcomma := Char.utf8Size_le_four ','
  have hopen := Char.utf8Size_le_four '\x7b'
  have hclose := Char.utf8Size_le_four '\x7d'
  unfold checkpointMaxBytes
  omega

theorem freezable_wakeup (hkey : ValidSafeKey delivery.signalKey) :
    Freezable checkpointMaxBytes delivery.wakeup ↔
      delivery.payload.1.depth < jsonMaxDepth ∧ delivery.payload.1.nodes + 2 ≤ jsonMaxNodes := by
  have hdepth : delivery.wakeup.depth = max 1 delivery.payload.1.depth + 1 := by
    simp [SignalDelivery.wakeup, Json.Value.depth, Json.Value.depthMembers]
  have hnodes : delivery.wakeup.nodes = delivery.payload.1.nodes + 2 := by
    simp only [SignalDelivery.wakeup, Json.Value.nodes, Json.Value.nodesMembers]
    omega
  constructor
  · rintro ⟨-, -, ⟨hdeep, hmany⟩, -⟩
    rw [hdepth] at hdeep
    rw [hnodes] at hmany
    exact ⟨by omega, hmany⟩
  · rintro ⟨hdeep, hmany⟩
    refine ⟨?_, trivial, ⟨?_, ?_⟩, wakeup_bytes delivery hkey⟩
    · refine ⟨?_, trivial, delivery.payload.2.wellFormed, trivial⟩
      change List.Pairwise (· < ·) ["key", "payload"]
      decide +kernel
    · rw [hdepth]
      unfold jsonMaxDepth at hdeep ⊢
      omega
    · rw [hnodes]
      exact hmany

end Bounds

variable {own : WorkflowTables} {w : Workflow} {delivery : SignalDelivery}
  {step : WorkflowStepRecord}

theorem wakingSignal_eq (hspent : w.SignalsSpent) (hw : own.workflow step.workflowId = some w)
    {signal : WorkflowSignalRecord} (hsignal : signal ∈ w.signals)
    (hexpected : signal.expectedRevision = step.expectedCheckpointRevision) :
    own.wakingSignal step = some signal := by
  obtain ⟨hrow, howner⟩ := (mem_signals hw).mp hsignal
  unfold WorkflowTables.wakingSignal
  have hmem : signal ∈ own.signals.rows.filter fun signal =>
      signal.workflowId = step.workflowId ∧
        signal.expectedRevision = step.expectedCheckpointRevision ∧
        signal.outcome = .accepted :=
    List.mem_filter.mpr ⟨hrow, decide_eq_true ⟨howner, hexpected, hspent.accepted signal hsignal⟩⟩
  rw [List.getLast?_eq_some_getLast (List.ne_nil_of_mem hmem)]
  have hlast := List.getLast_mem (List.ne_nil_of_mem hmem)
  obtain ⟨hother, hmatch⟩ := List.mem_filter.mp hlast
  obtain ⟨hsame, hrevision, -⟩ := of_decide_eq_true hmatch
  exact congrArg some (List.inj_on_of_nodup_map hspent.single
    ((mem_signals hw).mpr ⟨hother, hsame⟩) hsignal (hrevision.trans hexpected.symm))

theorem recorded_of_accepted {db db' : WorkflowDatabase} {outcome : WorkflowSignalOutcome}
    (h : (deliverSignal delivery).Commits db outcome db')
    (haccepted : outcome.outcome = .accepted) :
    ValidSafeKey delivery.signalKey ∧ ∃ w, db'.1.own.workflow delivery.workflowId = some w ∧
      ∃ signalId, delivery.signal signalId ∈ w.signals := by
  simp only [deliverSignal, Tx.commits_bind, commits_owned, Tx.commits_query] at h
  obtain ⟨workflow, db, ⟨hfind, -, hloads, rfl⟩, prior, db, ⟨hprior, rfl⟩, h⟩ := h
  cases prior with
  | some prior =>
    simp only [Tx.commits_bind, Tx.commits_require, Tx.commits_pure] at h
    obtain ⟨-, _, -, rfl, -⟩ := h
    change (if prior.outcome = .accepted then SignalOutcome.replayed else prior.outcome) = _
      at haccepted
    split at haccepted
    · cases haccepted
    · rename_i hrefused
      exact absurd haccepted hrefused
  | none =>
    simp only [Tx.commits_ite, Tx.commits_pure, Tx.commits_bind, Tx.commits_insert,
      Tx.commits_update, commits_reload] at h
    rcases h with ⟨hrefused, rfl, -⟩ | ⟨hverdict, signalId, db₁, ⟨rfl, hinsert⟩, _, db₂,
      ⟨-, hupdate⟩, _, db₂, ⟨-, -, rfl⟩, -, rfl⟩
    · exact absurd haccepted hrefused
    · have hfirst := rewrites_insert delivery.workflowId hinsert fun _ => rfl
      have hsecond := rewrites_updateExecution delivery.workflowId hupdate
        (fun _ => rfl) (fun row hp => hp) fun w hw => workflow_id hw
      obtain ⟨w, hw⟩ := exists_workflow (Option.isSome_iff_exists.mpr ⟨workflow, hfind⟩)
      have hkey : workflow.signalKey = some delivery.signalKey := by
        have haccepted : delivery.verdict w.execution = .accepted := by
          rw [execution_eq hw hfind]
          exact not_not.mp hverdict
        rw [← execution_eq hw hfind]
        exact (Workflow.waits_of_accepted haccepted).2.2.1
      refine ⟨hloads.signal _ hkey, ?_⟩
      have hafter := (hfirst.trans hsecond).eq_map
      rw [hw, Option.map_some] at hafter
      exact ⟨_, hafter, _, List.mem_append_right _ List.mem_cons_self⟩

/-- The step of the Run reads the signal with its key and the payload that was delivered. -/
def SignalDelivery.ReadBy (delivery : SignalDelivery) (own : WorkflowTables) (runId : Nat) :
    Prop :=
  ∃ snapshot, snapshotForRun own runId = .ok (some snapshot) ∧
    snapshot.wakeSignal.1 = delivery.wakeup

theorem readBy_iff {db : WorkflowDatabase} (hpinned : w.Pinned) (hspent : w.SignalsSpent)
    (hstep : step ∈ db.1.own.steps.rows) (hw : db.1.own.workflow step.workflowId = some w)
    {runId : Nat} (hrun : step.runId = some runId) (hrunning : step.status = .running)
    {signalId : Nat} (hsignal : delivery.signal signalId ∈ w.signals)
    (hexpected : step.expectedCheckpointRevision = delivery.expectedRevision) :
    delivery.ReadBy db.1.own runId ↔ Freezable checkpointMaxBytes delivery.wakeup := by
  have hfound : (db.1.own.steps.rows.find? fun step =>
      step.runId = some runId ∧ step.status = .running) = some step := by
    cases hfind : db.1.own.steps.rows.find? fun step =>
        step.runId = some runId ∧ step.status = .running with
    | none =>
      exact absurd (decide_eq_true ⟨hrun, hrunning⟩) (List.find?_eq_none.mp hfind step hstep)
    | some found =>
      have hmatch := List.find?_some hfind
      rw [eq_of_step_run (List.mem_of_find?_eq_some hfind) hstep (of_decide_eq_true hmatch).1 hrun]
  obtain ⟨state, hstate⟩ := hpinned step ((mem_steps hw).mpr ⟨hstep, rfl⟩)
  have hloaded : loadState step.stateJson = some state := by
    rw [hstate]
    exact loadState_text state
  have hwaking := wakingSignal_eq hspent hw hsignal hexpected.symm
  have hpayload : Json.loads (delivery.signal signalId).signalJson = some delivery.payload.1 :=
    Json.loads_canonicalText delivery.payload.2.wellFormed
  have hwake : db.1.own.wakeSignal step = freezeState delivery.wakeup := by
    unfold WorkflowTables.wakeSignal
    rw [hwaking]
    dsimp only
    rw [hpayload]
    rfl
  unfold SignalDelivery.ReadBy snapshotForRun
  rw [hfound]
  dsimp only
  rw [hwake, hloaded]
  unfold freezeState
  split_ifs with hfreezable
  · exact iff_of_true ⟨_, rfl, rfl⟩ hfreezable
  · refine iff_of_false ?_ hfreezable
    rintro ⟨snapshot, hread, -⟩
    cases hread

/-- A signal that was accepted is read by the step that resumes from its revision, whatever
happens before, exactly when its payload leaves room for the object around it. -/
theorem signal_readable (policy : QueuePolicy) {system : WorkflowSystem}
    (hreachable : (workflowEngine policy).Reachable system) {db' : WorkflowDatabase}
    {outcome : WorkflowSignalOutcome}
    (hcommits : (deliverSignal delivery).Commits system.db outcome db')
    (haccepted : outcome.outcome = .accepted) (ops : List WorkflowOp)
    {step : WorkflowStepRecord}
    (hstep : step ∈ ((workflowEngine policy).run (.deliverSignal delivery :: ops)
      system).db.1.own.steps.rows)
    (hworkflow : step.workflowId = delivery.workflowId)
    (hexpected : step.expectedCheckpointRevision = delivery.expectedRevision)
    (hrunning : step.status = .running) {runId : Nat} (hrun : step.runId = some runId) :
    delivery.ReadBy ((workflowEngine policy).run (.deliverSignal delivery :: ops)
        system).db.1.own runId ↔
      delivery.payload.1.depth < jsonMaxDepth ∧ delivery.payload.1.nodes + 2 ≤ jsonMaxNodes := by
  obtain ⟨hkey, w, hw, signalId, hsignal⟩ := recorded_of_accepted hcommits haccepted
  have hdelivered : (system.commit (deliverSignal delivery)).db = db' := by
    rw [WorkflowSystem.commit, Tx.run_of_commits hcommits]
  rw [← hdelivered] at hw
  obtain ⟨later, hlater, hgrows⟩ := WorkflowSystem.run_grows policy ops
    (system.commit (deliverSignal delivery)) hw
  have hreached := hreachable.run (.deliverSignal delivery :: ops)
  rw [← hworkflow] at hlater
  rw [← freezable_wakeup delivery hkey]
  exact readBy_iff (WorkflowSystem.reachable_pinned hreached hlater)
    (WorkflowSystem.workflow_invariant (fun _ _ _ _ => .opens) (fun _ _ _ _ => .moves) hreached
      hlater) hstep hlater hrun hrunning (hgrows.signals.subset hsignal) hexpected

def nestedArrays : Nat → Json.Value
  | 0 => .arr []
  | levels + 1 => .arr [nestedArrays levels]

def deepSignal : FrozenSignal :=
  ⟨.obj [("a", nestedArrays 14)], by decide +kernel⟩

def deepDelivery : SignalDelivery :=
  { sampleDelivery with payload := deepSignal }

def dispatchedSecond : List WorkflowOp :=
  [.tick (sampleTick 4), .engine (.claimNext (samplePoll 2 5)),
    .engine (.worker (sampleSecondClaim 5) .startAttempt 6)]

def afterSignal (delivery : SignalDelivery) : WorkflowSystem :=
  (workflowEngine productionQueuePolicy).run (.deliverSignal delivery :: dispatchedSecond)
    (sampleWorkflowRun signalWait)

theorem commits_of_run {α : Type} {x : WorkflowConnection α} {db : WorkflowDatabase} {p : α → Prop}
    (h : ∃ value ∈ (x.run db).1.toOption, p value) :
    ∃ value db', x.Commits db value db' ∧ p value := by
  obtain ⟨value, hvalue, hp⟩ := h
  rcases Tx.run_cases x db with ⟨committed, db', hcommits, hrun⟩ | ⟨abort, hrun⟩
  · rw [hrun] at hvalue
    obtain rfl := Option.some.inj hvalue
    exact ⟨committed, db', hcommits, hp⟩
  · rw [hrun] at hvalue
    cases hvalue

set_option maxRecDepth 100000 in
theorem signal_readable_sample : sampleDelivery.ReadBy (afterSignal sampleDelivery).db.1.own 2 := by
  have haccepted : ∃ value ∈ ((deliverSignal sampleDelivery).run
      (sampleWorkflowRun signalWait).db).1.toOption, value.outcome = .accepted := by
    decide +kernel
  have hstep : ∃ step ∈ (afterSignal sampleDelivery).db.1.own.steps.rows, step.workflowId = 1 ∧
      step.expectedCheckpointRevision = 1 ∧ step.status = .running ∧ step.runId = some 2 := by
    decide +kernel
  obtain ⟨outcome, db', hcommits, houtcome⟩ := commits_of_run haccepted
  obtain ⟨step, hmem, hworkflow, hexpected, hrunning, hrun⟩ := hstep
  unfold afterSignal at hmem ⊢
  rw [signal_readable productionQueuePolicy (sampleWorkflowRun_reachable signalWait) hcommits
    houtcome dispatchedSecond hmem hworkflow hexpected hrunning hrun]
  decide +kernel

set_option maxRecDepth 100000 in
/-- The deepest payload is accepted, and the step that it wakes cannot be read. -/
theorem signal_unreadable :
    (∃ outcome db', (deliverSignal deepDelivery).Commits (sampleWorkflowRun signalWait).db
      outcome db' ∧ outcome.outcome = .accepted) ∧
    (∃ step ∈ (afterSignal deepDelivery).db.1.own.steps.rows, step.workflowId = 1 ∧
      step.expectedCheckpointRevision = 1 ∧ step.status = .running ∧ step.runId = some 2) ∧
    ¬ deepDelivery.ReadBy (afterSignal deepDelivery).db.1.own 2 := by
  refine ⟨commits_of_run ?_, ?_, ?_⟩
  · decide +kernel
  · decide +kernel
  · rintro ⟨snapshot, hread, -⟩
    have hfails : (snapshotForRun (afterSignal deepDelivery).db.1.own 2).isOk = false := by
      decide +kernel
    rw [hread] at hfails
    cases hfails

end NervOS
