/-
One approval, one dispatch.  Consumed approvals and started gated calls are
paired by what the approval binds, and a closed approval stays closed.
-/
import NervOS.Refinement.Dispatch

namespace NervOS

open Relational

section Operations

/-- The operation is one that the gated mediator makes: every start goes through
the gate when the call needs it, and nothing consumes an approval on its own. -/
def Op.Mediated (db : Tables) : Op → Prop
  | .worker _ (.markStarted invocationId asked) _ => GatedCall db invocationId asked
  | .approval (.consume _ _) _ => False
  | _ => True

instance (db : Tables) : DecidablePred (Op.Mediated db)
  | .worker _ (.markStarted invocationId asked) _ =>
    inferInstanceAs (Decidable (GatedCall db invocationId asked))
  | .approval (.consume _ _) _ => isFalse id
  | .worker _ .startAttempt _ | .worker _ (.renewLease _) _ | .worker _ (.succeed _) _
  | .worker _ (.fail _) _ | .worker _ (.recordFailure _ _ _) _
  | .worker _ (.persistAttemptUsage _) _ | .worker _ (.recordRequested _) _
  | .worker _ (.markDenied _ _) _ | .worker _ (.markCancelled _) _
  | .worker _ (.markSucceeded _ _) _ | .worker _ (.markFailed _ _ _) _
  | .worker _ (.markAmbiguous _ _ _) _ | .worker _ .recordPreDispatchRefusal _
  | .approval (.request _) _ | .approval (.approve _ _) _ | .approval (.deny _ _) _
  | .approval (.cancel _ _) _ | .approval (.listPending _) _ | .approval (.gateAdmit _) _
  | .approval (.abandon _) _
  | .submit .. | .insertRunAndJob .. | .claimNext .. | .reclaim .. | .cancelRun ..
  | .closeLegacy .. | .configure .. => isTrue trivial

def Op.Grants (op : Op) (approval : ActionApprovalRecord) : Prop :=
  ∃ now, op = .approval (.approve approval.ownerUserId approval.id) now ∧
    now < approval.expiresAt ∧ approval.decidedAt = some now

variable {system : System}

theorem exec_dispatch (policy : QueuePolicy) {op : Op} (hok : op.Mediated system.db.1) :
    Undispatched system.db.1 (system.exec policy op).db.1 ∨
      OnlyDecided op.Grants system.db.1 (system.exec policy op).db.1 ∨
      ∃ approval call now, Dispatch approval call now system.db.1
        (system.exec policy op).db.1 := by
  cases op with
  | submit inputText submission => exact Or.inl (commit_quiet submit_quiet _).toUndispatched
  | insertRunAndJob submission =>
    exact Or.inl (commit_quiet insertRunAndJob_quiet _).toUndispatched
  | claimNext request => exact Or.inl (commit_quiet claimNext_quiet _).toUndispatched
  | reclaim now backoff => exact Or.inl (commit_quiet reclaim_quiet _).toUndispatched
  | cancelRun userId runId now => exact Or.inl (commit_quiet cancelRun_quiet _).toUndispatched
  | closeLegacy now => exact Or.inl (commit_quiet closeLegacy_quiet _).toUndispatched
  | configure configuration now =>
    refine Or.inl ?_
    simp only [System.exec]
    rcases commit_configure configuration system.db with hsame | hwritten
    · rw [hsame]
      exact Std.Refl.refl _
    · rw [hwritten]
      exact .of_frame rfl rfl
  | approval action now =>
    refine Or.inr (Or.inl ?_)
    have hdecided := approvalAction_decided action now system.db ?_
    · refine ⟨hdecided.calls, hdecided.approvals.mono fun approval approval' h => ?_⟩
      refine ⟨h.binding, h.closed, h.unconsumed, fun happroved => ?_⟩
      refine (h.approved happroved).imp_right ?_
      rintro ⟨owner, approvalId, rfl, rfl, rfl, hexpiry, hdecidedAt⟩
      exact ⟨now, rfl, hexpiry, hdecidedAt⟩
    · rintro request attemptId rfl
      exact hok
  | worker claim action now =>
    simp only [System.exec]
    split
    · by_cases hstart : ∃ invocationId approval, action = .markStarted invocationId approval
      · obtain ⟨invocationId, approval, rfl⟩ := hstart
        rcases commit_cases (markStarted claim invocationId approval now) system.db with
          ⟨outcome, hcommits⟩ | hsame
        · refine (markStarted_cases hok hcommits).imp_right ?_
          rintro ⟨granted, call, hdispatch⟩
          exact Or.inr ⟨granted, call, now, hdispatch⟩
        · refine Or.inl ?_
          rw [runWorkerAction, hsame]
          exact Std.Refl.refl _
      · refine Or.inl (worker_quiet system.db ?_).toUndispatched
        intro invocationId approval heq
        exact hstart ⟨invocationId, approval, heq⟩
    · exact Or.inl (Std.Refl.refl _)

end Operations

section Pairing

structure OneForOne (db : Tables) : Prop where
  consumed : ∀ approval ∈ db.actionApprovals.rows, approval.state = .consumed →
    ∃ call ∈ db.toolInvocations.rows, call.GatedStart ∧ Binds approval call
  started : ∀ call ∈ db.toolInvocations.rows, call.GatedStart →
    ∃ approval ∈ db.actionApprovals.rows, approval.state = .consumed ∧ Binds approval call

variable {db db' : Tables} {approval : ActionApprovalRecord}

theorem not_open_of_consumed (h : approval.state = .consumed) : ¬ approval.state.IsOpen := by
  rw [h]
  decide

theorem OneForOne.undispatched (h : OneForOne db) (hmoved : Undispatched db db') :
    OneForOne db' where
  consumed approval happroval hconsumed := by
    rw [hmoved.approvals] at happroval
    obtain ⟨call, hcall, hstarted, hbinds⟩ := h.consumed approval happroval hconsumed
    obtain ⟨call', hcall', hkept⟩ := hmoved.calls.kept _ call (Table.find_key hcall)
    refine ⟨call', (Table.find_eq_some.mp hcall').1, hkept.gatedStart_iff.mpr hstarted, ?_⟩
    exact hbinds.congr rfl hkept.identity
  started call' hcall' hstarted := by
    rcases hmoved.calls.brought _ call' (Table.find_key hcall') with ⟨call, hcall, hkept⟩ |
      ⟨-, call, hfresh, hkept⟩
    · obtain ⟨approval, happroval, hconsumed, hbinds⟩ := h.started call
        (Table.find_eq_some.mp hcall).1 (hkept.gatedStart_iff.mp hstarted)
      rw [hmoved.approvals]
      exact ⟨approval, happroval, hconsumed, hbinds.congr rfl hkept.identity⟩
    · exact absurd hfresh (hkept.gatedStart_iff.mp hstarted).2

theorem OneForOne.decided {granted : ActionApprovalRecord → Prop} (h : OneForOne db)
    (hmoved : OnlyDecided granted db db') : OneForOne db' where
  consumed approval' happroval' hconsumed := by
    rw [hmoved.calls]
    rcases hmoved.approvals.brought _ approval' (Table.find_key happroval') with
      ⟨approval, happroval, hdecides⟩ | ⟨-, approval, hfresh, hdecides⟩
    · obtain rfl := hdecides.unconsumed hconsumed
      exact h.consumed _ (Table.find_eq_some.mp happroval).1 hconsumed
    · obtain rfl := hdecides.unconsumed hconsumed
      rw [hfresh] at hconsumed
      cases hconsumed
  started call hcall hstarted := by
    rw [hmoved.calls] at hcall
    obtain ⟨approval, happroval, hconsumed, hbinds⟩ := h.started call hcall hstarted
    obtain ⟨approval', happroval', hdecides⟩ :=
      hmoved.approvals.kept _ approval (Table.find_key happroval)
    obtain rfl := hdecides.closed (not_open_of_consumed hconsumed)
    exact ⟨_, (Table.find_eq_some.mp happroval').1, hconsumed, hbinds⟩

variable {call : ToolInvocationRecord}

theorem OneForOne.dispatch {now : Instant} (h : OneForOne db)
    (hdispatch : Dispatch approval call now db db') :
    OneForOne db' := by
  have hconsumed : approval.consume now ∈ db'.actionApprovals.rows := by
    have hfind := hdispatch.consumed approval.id
    rw [if_pos rfl] at hfind
    exact (Table.find_eq_some.mp hfind).1
  have hstarted : call.start now ∈ db'.toolInvocations.rows := by
    have hfind := hdispatch.started call.id
    rw [if_pos rfl] at hfind
    exact (Table.find_eq_some.mp hfind).1
  have hgated : (call.start now).GatedStart := ⟨hdispatch.gated, Option.some_ne_none now⟩
  have hbinds : Binds (approval.consume now) (call.start now) :=
    hdispatch.binds.congr rfl rfl
  constructor
  · intro other hother hstate
    have hfind := hdispatch.consumed other.id
    rw [show db'.actionApprovals.find other.id = some other from Table.find_key hother] at hfind
    split at hfind
    · obtain rfl := Option.some.inj hfind
      exact ⟨_, hstarted, hgated, hbinds⟩
    · obtain ⟨old, hold, holdStarted, holdBinds⟩ :=
        h.consumed other (Table.find_eq_some.mp hfind.symm).1 hstate
      by_cases hsame : old.id = call.id
      · obtain rfl := Table.eq_of_key_eq hold (Table.find_eq_some.mp hdispatch.called).1 hsame
        exact ⟨_, hstarted, hgated, holdBinds.congr rfl rfl⟩
      · have hfind' := hdispatch.started old.id
        rw [if_neg hsame] at hfind'
        refine ⟨old, ?_, holdStarted, holdBinds⟩
        exact (Table.find_eq_some.mp (hfind'.trans (Table.find_key hold))).1
  · intro other hother hstate
    have hfind := hdispatch.started other.id
    rw [show db'.toolInvocations.find other.id = some other from Table.find_key hother] at hfind
    split at hfind
    · obtain rfl := Option.some.inj hfind
      exact ⟨_, hconsumed, rfl, hbinds⟩
    · obtain ⟨old, hold, holdConsumed, holdBinds⟩ :=
        h.started other (Table.find_eq_some.mp hfind.symm).1 hstate
      have hsame : ¬ old.id = approval.id := by
        intro hid
        have heq := Table.eq_of_key_eq hold (Table.find_eq_some.mp hdispatch.found).1 hid
        rw [heq, hdispatch.approved] at holdConsumed
        cases holdConsumed
      have hfind' := hdispatch.consumed old.id
      rw [if_neg hsame] at hfind'
      refine ⟨old, ?_, holdConsumed, holdBinds⟩
      exact (Table.find_eq_some.mp (hfind'.trans (Table.find_key hold))).1

/-- The calls of a Run that crossed the start boundary through the gate. -/
def Tables.gatedStarts (db : Tables) (runId : Nat) : Nat :=
  db.toolInvocations.rows.countP fun call => call.GatedStart ∧ call.runId = runId

def Tables.consumedApprovals (db : Tables) (runId : Nat) : Nat :=
  db.actionApprovals.rows.countP fun approval =>
    approval.state = .consumed ∧ approval.runId = runId

theorem Binds.call_unique {call call' : ToolInvocationRecord}
    (hcall : call ∈ db.toolInvocations.rows) (hcall' : call' ∈ db.toolInvocations.rows)
    (h : Binds approval call) (h' : Binds approval call') : call = call' := by
  have hattempt : call.attemptId = call'.attemptId := h.attemptId.symm.trans h'.attemptId
  have hsequence := h.toolSequence.symm.trans h'.toolSequence
  exact Table.eq_of_clash hcall hcall' ⟨hattempt, hsequence⟩ ⟨hattempt.symm, hsequence.symm⟩

theorem Binds.approval_unique {approval approval' : ActionApprovalRecord}
    (happroval : approval ∈ db.actionApprovals.rows)
    (happroval' : approval' ∈ db.actionApprovals.rows) (h : Binds approval call)
    (h' : Binds approval' call) : approval = approval' := by
  have hattempt : approval.attemptId = approval'.attemptId :=
    h.attemptId.trans h'.attemptId.symm
  have hsequence := h.toolSequence.trans h'.toolSequence.symm
  exact Table.eq_of_clash happroval happroval' ⟨hattempt, hsequence⟩
    ⟨hattempt.symm, hsequence.symm⟩

theorem OneForOne.counts (h : OneForOne db) (runId : Nat) :
    db.gatedStarts runId = db.consumedApprovals runId := by
  apply Nat.le_antisymm
  · apply Table.countP_le_of_related (R := fun call approval =>
      call ∈ db.toolInvocations.rows ∧ Binds approval call)
    · rintro call hcall ⟨hstarted, hrun⟩
      obtain ⟨approval, happroval, hconsumed, hbinds⟩ := h.started call hcall hstarted
      exact ⟨approval, happroval, ⟨hconsumed, hbinds.runId.trans hrun⟩, hcall, hbinds⟩
    · intro call hcall call' hcall' approval hbinds hbinds'
      exact hbinds.2.call_unique hcall hcall' hbinds'.2
  · apply Table.countP_le_of_related (R := fun approval call =>
      approval ∈ db.actionApprovals.rows ∧ Binds approval call)
    · rintro approval happroval ⟨hconsumed, hrun⟩
      obtain ⟨call, hcall, hstarted, hbinds⟩ := h.consumed approval happroval hconsumed
      exact ⟨call, hcall, ⟨hstarted, hbinds.runId.symm.trans hrun⟩, happroval, hbinds⟩
    · intro approval happroval approval' happroval' call hbinds hbinds'
      exact hbinds.2.approval_unique happroval happroval' hbinds'.2

end Pairing

section Runs

variable {policy : QueuePolicy} {system : System}

theorem exec_oneForOne {op : Op} (h : OneForOne system.db.1) (hok : op.Mediated system.db.1) :
    OneForOne (system.exec policy op).db.1 := by
  rcases exec_dispatch policy hok with hmoved | hmoved | ⟨approval, call, now, hmoved⟩
  · exact h.undispatched hmoved
  · exact h.decided hmoved
  · exact h.dispatch hmoved

theorem exec_closed {op : Op} (hok : op.Mediated system.db.1) {approval : ActionApprovalRecord}
    (happroval : approval ∈ system.db.1.actionApprovals.rows)
    (hclosed : ¬ approval.state.IsOpen) :
    approval ∈ (system.exec policy op).db.1.actionApprovals.rows := by
  rcases exec_dispatch policy hok with hmoved | hmoved | ⟨other, call, now, hmoved⟩
  · rw [hmoved.approvals]
    exact happroval
  · obtain ⟨approval', happroval', hdecides⟩ :=
      hmoved.approvals.kept _ approval (Table.find_key happroval)
    obtain rfl := hdecides.closed hclosed
    exact (Table.find_eq_some.mp happroval').1
  · have hne : ¬ approval.id = other.id := by
      intro hid
      have heq := Table.eq_of_key_eq happroval (Table.find_eq_some.mp hmoved.found).1 hid
      rw [heq, hmoved.approved] at hclosed
      exact hclosed (Or.inr rfl)
    have hfind := hmoved.consumed approval.id
    rw [if_neg hne] at hfind
    exact (Table.find_eq_some.mp (hfind.trans (Table.find_key happroval))).1

/-- Every start of the run went through the gated mediator. -/
def MediatedRun (policy : QueuePolicy) (ops : List Op) (system : System) : Prop :=
  (engine policy).Along (fun system op => op.Mediated system.db.1) ops system

instance (policy : QueuePolicy) (ops : List Op) (system : System) :
    Decidable (MediatedRun policy ops system) :=
  inferInstanceAs (Decidable ((engine policy).Along _ ops system))

def ApprovedByOwner (policy : QueuePolicy) (ops : List Op) (approval : ActionApprovalRecord) :
    Prop :=
  ∃ before op after, ops = before ++ op :: after ∧ op.Grants approval ∧
    ∃ granted ∈ ((engine policy).run (before ++ [op])
      (engine policy).init).db.1.actionApprovals.rows,
      granted.binding = approval.binding ∧ granted.state = .approved

theorem run_approvedByOwner {ops : List Op}
    (hops : MediatedRun policy ops (engine policy).init) :
    ∀ approval ∈ ((engine policy).run ops (engine policy).init).db.1.actionApprovals.rows,
      approval.state = .approved ∨ approval.state = .consumed →
        ApprovedByOwner policy ops approval := by
  have hextend : ∀ {before : List Op} {op : Op} {old approval : ActionApprovalRecord},
      ApprovedByOwner policy before old → approval.binding = old.binding →
      approval.decidedAt = old.decidedAt → ApprovedByOwner policy (before ++ [op]) approval := by
    rintro before op old approval ⟨first, grant, after, rfl, hgrants, granted, hmem, hbinding,
      hstate⟩ hsame hdecided
    refine ⟨first, grant, after ++ [op], by simp, ?_, granted, hmem, hbinding.trans hsame.symm,
      hstate⟩
    obtain ⟨now, rfl, hexpiry, hat⟩ := hgrants
    have hid : approval.id = old.id := congrArg (·.id) hsame
    have howner : approval.ownerUserId = old.ownerUserId := congrArg (·.ownerUserId) hsame
    have hexpires : approval.expiresAt = old.expiresAt := congrArg (·.expiresAt) hsame
    exact ⟨now, by rw [hid, howner], hexpires ▸ hexpiry, hdecided.trans hat⟩
  refine Machine.Along.history (I := fun ops system =>
    ∀ approval ∈ system.db.1.actionApprovals.rows,
      approval.state = .approved ∨ approval.state = .consumed →
        ApprovedByOwner policy ops approval) ?_ ?_ hops
  · intro approval happroval
    cases happroval
  · intro before op ih hok approval happroval hstate
    rcases exec_dispatch policy hok with hmoved | hmoved | ⟨other, call, now, hmoved⟩
    · rw [show ((engine policy).exec op _).db.1.actionApprovals = _ from hmoved.approvals]
        at happroval
      exact hextend (ih approval happroval hstate) rfl rfl
    · have hnew : op.Grants approval → approval.state = .approved →
          ApprovedByOwner policy (before ++ [op]) approval := by
        intro hgrants happroved
        refine ⟨before, op, [], rfl, hgrants, approval, ?_, rfl, happroved⟩
        rw [Machine.run_append]
        exact happroval
      rcases hmoved.approvals.brought _ approval (Table.find_key happroval) with
        ⟨old, hold, hdecides⟩ | ⟨-, old, hfresh, hdecides⟩
      · have hmem := (Table.find_eq_some.mp hold).1
        rcases hstate with happroved | hconsumed
        · rcases hdecides.approved happroved with rfl | hgrants
          · exact hextend (ih _ hmem (Or.inl happroved)) rfl rfl
          · exact hnew hgrants happroved
        · obtain rfl := hdecides.unconsumed hconsumed
          exact hextend (ih _ hmem (Or.inr hconsumed)) rfl rfl
      · rcases hstate with happroved | hconsumed
        · rcases hdecides.approved happroved with rfl | hgrants
          · rw [hfresh] at happroved
            cases happroved
          · exact hnew hgrants happroved
        · obtain rfl := hdecides.unconsumed hconsumed
          rw [hfresh] at hconsumed
          cases hconsumed
    · have hfind := hmoved.consumed approval.id
      have hkey : ((engine policy).exec op ((engine policy).run before
          (engine policy).init)).db.1.actionApprovals.find approval.id = some approval :=
        Table.find_key happroval
      rw [show System.exec policy op _ = (engine policy).exec op _ from rfl, hkey] at hfind
      split at hfind
      · obtain rfl := Option.some.inj hfind
        have hmem := (Table.find_eq_some.mp hmoved.found).1
        exact hextend (ih _ hmem (Or.inl hmoved.approved)) rfl rfl
      · exact hextend (ih _ (Table.find_eq_some.mp hfind.symm).1 hstate) rfl rfl

/-- One approval, one dispatch. -/
theorem one_approval_one_dispatch {ops : List Op}
    (hops : MediatedRun policy ops (engine policy).init)
    (hrun : (engine policy).run ops (engine policy).init = system) :
    (∀ runId, system.db.1.gatedStarts runId = system.db.1.consumedApprovals runId) ∧
    (∀ approval ∈ system.db.1.actionApprovals.rows, approval.state = .consumed →
      ApprovedByOwner policy ops approval ∧
        ∃ call ∈ system.db.1.toolInvocations.rows, call.GatedStart ∧ Binds approval call ∧
          ∀ other ∈ system.db.1.toolInvocations.rows, Binds approval other → other = call) ∧
    ∀ approval ∈ system.db.1.actionApprovals.rows, ¬ approval.state.IsOpen →
      ∀ later, MediatedRun policy later system →
        approval ∈ ((engine policy).run later system).db.1.actionApprovals.rows := by
  have hpaired : OneForOne system.db.1 := by
    rw [← hrun]
    refine Machine.Along.invariant (M := engine policy)
      (I := fun system => OneForOne system.db.1) ?_ hops ?_
    · exact fun _ _ h hok => exec_oneForOne h hok
    · constructor
      · intro approval happroval
        cases happroval
      · intro call hcall
        cases hcall
  refine ⟨hpaired.counts, fun approval happroval hconsumed => ⟨?_, ?_⟩, ?_⟩
  · rw [← hrun] at happroval
    exact run_approvedByOwner hops approval happroval (Or.inr hconsumed)
  · obtain ⟨call, hcall, hstarted, hbinds⟩ := hpaired.consumed approval happroval hconsumed
    refine ⟨call, hcall, hstarted, hbinds, fun other hother hbinds' => ?_⟩
    exact hbinds'.call_unique hother hcall hbinds
  · intro approval happroval hclosed later hlater
    exact Machine.Along.invariant (M := engine policy)
      (I := fun system => approval ∈ system.db.1.actionApprovals.rows)
      (fun _ _ hmem hok => exec_closed hok hmem hclosed) hlater happroval

end Runs

/-- The owner's Agent Instance may call one tool of a connected MCP server. -/
def gatedConfiguration : Configuration :=
  { sampleConfiguration with
    toolDefinitions := [
      { id := 1, sourceKind := .mcp, sourceId := some 1, status := .available
        fingerprint := .text "" }]
    mcpConnections := [{ id := 1, ownerUserId := 1, enabled := true }] }

def gatedRequest : InvocationRequest where
  runId := 1
  jobId := 1
  attemptId := 1
  toolSequence := 1
  toolDefinitionId := 1
  sourceKind := .mcp
  sourceId := some 1
  upstreamName := "tool"
  modelName := "tool"
  definitionFingerprint := .text ""
  providerCallId := "call"
  permissionDecision := .allowed
  arguments := ⟨"{}"⟩

def gatedApproval : ApprovalRequest where
  agentInstanceId := 1
  runId := 1
  jobId := 1
  attemptId := 1
  toolSequence := 1
  toolDefinitionId := 1
  upstreamName := "tool"
  fingerprint := .text ""
  arguments := ⟨"{}"⟩
  positive := Nat.one_pos
  expiryBounds := defaultExpiry_bounds

def approvedCall : List Op :=
  [.configure gatedConfiguration 0, .submit "hello" (sampleSubmission 3),
    .claimNext (samplePoll 1 0), .worker (sampleClaim 1 0) .startAttempt 1,
    .worker (sampleClaim 1 0) (.recordRequested gatedRequest) 2,
    .approval (.gateAdmit gatedApproval) 3, .approval (.approve 1 1) 4,
    .approval (.gateAdmit gatedApproval) 5,
    .worker (sampleClaim 1 0) (.markStarted 1 (some gatedApproval)) 6]

/-- The approved call consumes its approval. -/
theorem one_dispatch_approvedCall :
    (sampleRun approvedCall).db.1.consumedApprovals 1 = 1 ∧
      (sampleRun approvedCall).db.1.gatedStarts 1 =
        (sampleRun approvedCall).db.1.consumedApprovals 1 ∧
      ∀ approval ∈ (sampleRun approvedCall).db.1.actionApprovals.rows,
        approval.state = .consumed →
          ApprovedByOwner productionQueuePolicy approvedCall approval := by
  have hops : MediatedRun productionQueuePolicy approvedCall
      (engine productionQueuePolicy).init := by
    decide +kernel
  obtain ⟨hcounts, hconsumed, -⟩ := one_approval_one_dispatch hops rfl
  refine ⟨by decide +kernel, hcounts 1, ?_⟩
  intro approval happroval hstate
  exact (hconsumed approval happroval hstate).1

end NervOS
