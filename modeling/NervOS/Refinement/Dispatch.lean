/-
What the operations may do to the two sides of a dispatch.  Outside of a start
no approval is consumed and no call starts; a start of a gated call consumes the
one approval that binds it.
-/
import NervOS.Refinement.Quiet

namespace NervOS

open Relational

section Approvals

/-- The columns of an approval that no transition writes. -/
def ActionApprovalRecord.binding (approval : ActionApprovalRecord) : ActionApprovalRecord :=
  { approval with state := .pending, decidedAt := none, consumedAt := none }

structure Decides (granted : ActionApprovalRecord → Prop)
    (approval approval' : ActionApprovalRecord) : Prop where
  binding : approval'.binding = approval.binding
  closed : ¬ approval.state.IsOpen → approval' = approval
  unconsumed : approval'.state = .consumed → approval' = approval
  approved : approval'.state = .approved → approval' = approval ∨ granted approval'

variable {granted : ActionApprovalRecord → Prop} {now : Instant} {db db' : Database}

instance : Std.Refl (Decides granted) where
  refl _ := ⟨rfl, fun _ => rfl, fun _ => rfl, fun _ => Or.inl rfl⟩

instance : IsTrans ActionApprovalRecord (Decides granted) where
  trans a b c hab hbc := by
    refine ⟨hbc.binding.trans hab.binding, fun hclosed => ?_, fun hconsumed => ?_,
      fun happroved => ?_⟩
    · have hb : b = a := hab.closed hclosed
      subst hb
      exact hbc.closed hclosed
    · have hc : c = b := hbc.unconsumed hconsumed
      subst hc
      exact hab.unconsumed hconsumed
    · rcases hbc.approved happroved with hc | hgranted
      · subst hc
        exact hab.approved happroved
      · exact Or.inr hgranted

structure OnlyDecided (granted : ActionApprovalRecord → Prop) (db db' : Tables) : Prop where
  calls : db'.toolInvocations = db.toolInvocations
  approvals : db.actionApprovals.Evolves (Decides granted) (·.state = .pending)
    db'.actionApprovals

instance : Std.Refl (OnlyDecided granted) where
  refl _ := ⟨rfl, .refl _⟩

instance : IsTrans Tables (OnlyDecided granted) where
  trans _ _ _ h h' := ⟨h'.calls.trans h.calls, h.approvals.trans h'.approvals⟩

theorem OnlyDecided.of_frame {db db' : Tables}
    (happrovals : db'.actionApprovals = db.actionApprovals)
    (hcalls : db'.toolInvocations = db.toolInvocations) : OnlyDecided granted db db' :=
  ⟨hcalls, happrovals ▸ .refl _⟩

theorem OnlyDecided.trans {a b c : Tables} (hab : OnlyDecided granted a b)
    (hbc : OnlyDecided granted b c) : OnlyDecided granted a c :=
  IsTrans.trans _ _ _ hab hbc

variable {value : Unit} {approval : ActionApprovalRecord}

theorem approvalEvent_frame {eventType : RunEventType}
    (h : (approvalEvent approval eventType now).Commits db value db') :
    db'.1.actionApprovals = db.1.actionApprovals ∧
      db'.1.toolInvocations = db.1.toolInvocations := by
  simp only [approvalEvent, sequenceBase, Tx.commits_bind, Tx.commits_query,
    commits_appendEvent] at h
  obtain ⟨_, db, ⟨-, rfl⟩, _, db, ⟨-, rfl⟩, -, t', -, hdb'⟩ := h
  rw [hdb']
  exact ⟨rfl, rfl⟩

variable {approvalId : Nat} {state : ApprovalState}

theorem setState_written (h : (setStateOnConnection approvalId state now).Commits db value db') :
    db'.1.toolInvocations = db.1.toolInvocations ∧
      db.1.actionApprovals.update? (fun row : ActionApprovalRecord => row.id = approvalId)
        (ActionApprovalRecord.decide state now) = some db'.1.actionApprovals := by
  simp only [setStateOnConnection, Tx.commits_bind, Tx.commits_update] at h
  obtain ⟨old, _, hold, _, db₁, ⟨-, t', ht', hdb₁⟩, h⟩ := h
  obtain ⟨rfl, -⟩ := approvalById_eq hold
  have hframe : db'.1.actionApprovals = db₁.1.actionApprovals ∧
      db'.1.toolInvocations = db₁.1.toolInvocations := by
    simp only [Tx.commits_ite, Tx.commits_pure] at h
    rcases h with ⟨-, hevent⟩ | ⟨-, -, rfl⟩
    · exact approvalEvent_frame hevent
    · exact ⟨rfl, rfl⟩
  rw [hframe.1, hframe.2, hdb₁]
  exact ⟨rfl, ht'⟩

theorem setState_decided
    (hopen : ∀ row, db.1.actionApprovals.find approvalId = some row → row.state.IsOpen)
    (hconsumed : state ≠ .consumed)
    (hgranted : state = .approved → ∀ row, db.1.actionApprovals.find approvalId = some row →
      granted (row.decide .approved now))
    (h : (setStateOnConnection approvalId state now).Commits db value db') :
    OnlyDecided granted db.1 db'.1 := by
  obtain ⟨hcalls, hupdate⟩ := setState_written h
  refine ⟨hcalls, .of_update hupdate (fun _ => rfl) fun row hrow hid => ?_⟩
  have hfind : db.1.actionApprovals.find approvalId = some row :=
    Table.find_eq_some.mpr ⟨hrow, hid⟩
  refine ⟨rfl, fun hclosed => absurd (hopen row hfind) hclosed,
    fun hstate => absurd hstate hconsumed, fun hstate => Or.inr ?_⟩
  have happroved : state = .approved := hstate
  rw [happroved]
  exact hgranted happroved row hfind

theorem setState_other (h : (setStateOnConnection approvalId state now).Commits db value db')
    {id : Nat} (hne : id ≠ approvalId) :
    db'.1.actionApprovals.find id = db.1.actionApprovals.find id := by
  rw [Table.find_update (setState_written h).2 (fun _ => rfl)]
  cases hfind : db.1.actionApprovals.find id with
  | none => rfl
  | some row =>
    have hid : ¬ row.id = approvalId := fun heq =>
      hne ((Table.find_eq_some.mp hfind).2.symm.trans heq)
    rw [Option.map_some,
      Table.amend_of_neg (p := fun row : ActionApprovalRecord => row.id = approvalId) hid]

def StillOpen (db : Tables) (rows : List ActionApprovalRecord) : Prop :=
  rows.Pairwise (fun left right => left.id ≠ right.id) ∧
    ∀ row ∈ rows, db.actionApprovals.find row.id = some row ∧ row.state.IsOpen

theorem stillOpen_filter (db : Tables) {p : ActionApprovalRecord → Bool}
    (hopen : ∀ row, p row = true → row.state.IsOpen) :
    StillOpen db (db.actionApprovals.rows.filter p) := by
  constructor
  · apply List.Pairwise.filter
    refine db.actionApprovals.lawful.ascending.imp fun hlt => ?_
    exact Nat.ne_of_lt hlt
  · intro row hrow
    obtain ⟨hmem, hp⟩ := List.mem_filter.mp hrow
    exact ⟨Table.find_key hmem, hopen row hp⟩

variable {row : ActionApprovalRecord} {rest : List ActionApprovalRecord}

theorem StillOpen.close (h : StillOpen db.1 (row :: rest))
    (hstate : ¬ state.IsOpen ∧ state ≠ .consumed)
    (hset : (setStateOnConnection row.id state now).Commits db value db') :
    OnlyDecided granted db.1 db'.1 ∧ StillOpen db'.1 rest := by
  obtain ⟨hdistinct, hrows⟩ := h
  rw [List.pairwise_cons] at hdistinct
  constructor
  · apply setState_decided ?_ hstate.2 ?_ hset
    · intro other hother
      rw [(hrows row List.mem_cons_self).1] at hother
      obtain rfl := Option.some.inj hother
      exact (hrows row List.mem_cons_self).2
    · intro happroved
      exact absurd (Or.inr happroved) hstate.1
  · refine ⟨hdistinct.2, fun other hother => ?_⟩
    have hne := hdistinct.1 other hother
    rw [setState_other hset fun heq => hne heq.symm]
    exact hrows other (List.mem_cons_of_mem row hother)

theorem StillOpen.tail {db : Tables} (h : StillOpen db (row :: rest)) : StillOpen db rest :=
  ⟨(List.pairwise_cons.mp h.1).2, fun other hother => h.2 other (List.mem_cons_of_mem row hother)⟩

theorem staleState_closed {db : Tables} (h : staleState db approval now = some state) :
    ¬ state.IsOpen ∧ state ≠ .consumed := by
  unfold staleState at h
  split at h
  · obtain rfl := Option.some.inj h
    decide
  · split at h
    · cases h
    · obtain rfl := Option.some.inj h
      decide

variable {rows : List ActionApprovalRecord}

theorem reconcileRows_decided (hopen : StillOpen db.1 rows)
    (h : (reconcileRows now rows).Commits db value db') :
    OnlyDecided granted db.1 db'.1 := by
  induction rows generalizing db with
  | nil =>
    obtain ⟨-, rfl⟩ := Tx.commits_pure.mp h
    exact Std.Refl.refl _
  | cons row rest ih =>
    simp only [reconcileRows, Tx.commits_bind, Tx.commits_query] at h
    obtain ⟨state, db, ⟨hstate, rfl⟩, _, db₁, hset, hrest⟩ := h
    cases state with
    | none =>
      obtain ⟨-, rfl⟩ := Tx.commits_pure.mp hset
      exact ih hopen.tail hrest
    | some state =>
      obtain ⟨hdecided, hopen'⟩ := hopen.close (staleState_closed hstate.symm) hset
      exact hdecided.trans (ih hopen' hrest)

theorem abandonRows_decided (hopen : StillOpen db.1 rows)
    (h : (abandonRows now rows).Commits db value db') :
    OnlyDecided granted db.1 db'.1 := by
  induction rows generalizing db with
  | nil =>
    obtain ⟨-, rfl⟩ := Tx.commits_pure.mp h
    exact Std.Refl.refl _
  | cons row rest ih =>
    simp only [abandonRows, Tx.commits_bind] at h
    obtain ⟨_, db₁, hset, hrest⟩ := h
    obtain ⟨hdecided, hopen'⟩ := hopen.close (by decide) hset
    exact hdecided.trans (ih hopen' hrest)

theorem reconcilePending_decided {owner : Nat}
    (h : (reconcilePending owner now).Commits db value db') :
    OnlyDecided granted db.1 db'.1 := by
  simp only [reconcilePending, Tx.commits_bind, Tx.commits_query] at h
  obtain ⟨_, db, ⟨rfl, rfl⟩, h⟩ := h
  refine reconcileRows_decided (stillOpen_filter db.1 fun row hp => ?_) h
  exact (of_decide_eq_true hp).2

variable {request : ApprovalRequest}

theorem abandon_decided (h : (abandon request now).Commits db value db') :
    OnlyDecided granted db.1 db'.1 := by
  simp only [abandon, Tx.commits_bind, Tx.commits_query] at h
  obtain ⟨_, db, ⟨rfl, rfl⟩, h⟩ := h
  refine abandonRows_decided (stillOpen_filter db.1 fun row hp => ?_) h
  exact (of_decide_eq_true hp).2.2.2

variable {owner approvalId : Nat}

theorem freshApproval_decided (h : (freshApproval owner approvalId now).Commits db row db') :
    OnlyDecided granted db.1 db'.1 ∧ db'.1.actionApprovals.find approvalId = some row ∧
      row.ownerUserId = owner := by
  simp only [freshApproval, Tx.commits_bind, Tx.commits_ite, Tx.commits_pure] at h
  obtain ⟨old, _, hold, h⟩ := h
  obtain ⟨rfl, hfind, howner⟩ := ownedApproval_eq hold
  rcases h with ⟨-, _, db₁, hreconcile, hrow⟩ | ⟨-, rfl, rfl⟩
  · obtain ⟨rfl, hfind', howner'⟩ := ownedApproval_eq hrow
    exact ⟨reconcilePending_decided hreconcile, hfind', howner'⟩
  · exact ⟨Std.Refl.refl _, hfind, howner⟩

def GrantedBy (owner approvalId : Nat) (now : Instant) (approval : ActionApprovalRecord) :
    Prop :=
  approval.id = approvalId ∧ approval.ownerUserId = owner ∧ now < approval.expiresAt ∧
    approval.decidedAt = some now

variable {outcome : ActionApprovalRecord}

theorem approve_decided (h : (approve owner approvalId now).Commits db outcome db') :
    OnlyDecided (GrantedBy owner approvalId now) db.1 db'.1 := by
  obtain ⟨row, db₁, hfresh, h⟩ := Tx.commits_bind.mp h
  obtain ⟨hdecided, hfind, howner⟩ := freshApproval_decided hfresh
  refine hdecided.trans ?_
  have hrow : ∀ other, db₁.1.actionApprovals.find approvalId = some other → other = row := by
    intro other hother
    rw [hfind] at hother
    exact (Option.some.inj hother).symm
  cases hstate : row.state with
  | pending =>
    have hopen : ∀ other, db₁.1.actionApprovals.find approvalId = some other →
        other.state.IsOpen := by
      intro other hother
      rw [hrow other hother]
      exact Or.inl hstate
    simp only [hstate, Tx.commits_ite, Tx.commits_bind] at h
    rcases h with ⟨-, _, _, hset, howned⟩ | ⟨hlive, _, _, hset, howned⟩
    · obtain ⟨rfl, -⟩ := ownedApproval_eq howned
      exact setState_decided hopen (by decide) (fun hne => by cases hne) hset
    · obtain ⟨rfl, -⟩ := ownedApproval_eq howned
      refine setState_decided hopen (by decide) (fun _ other hother => ?_) hset
      rw [hrow other hother]
      refine ⟨(Table.find_eq_some.mp hfind).2, howner, ?_, rfl⟩
      exact lt_of_not_ge hlive
  | approved | expired | cancelled =>
    simp only [hstate, Tx.commits_pure] at h
    obtain ⟨-, rfl⟩ := h
    exact Std.Refl.refl _
  | consumed | denied | revoked =>
    simp only [hstate, Tx.commits_raise] at h

theorem closePending_decided {target : ApprovalState}
    (htarget : ¬ target.IsOpen ∧ target ≠ .consumed)
    (h : (closePending target owner approvalId now).Commits db outcome db') :
    OnlyDecided granted db.1 db'.1 := by
  simp only [closePending, Tx.commits_bind, Tx.commits_ite, Tx.commits_pure,
    Tx.commits_require] at h
  obtain ⟨old, _, hold, h⟩ := h
  obtain ⟨rfl, hfind, -⟩ := ownedApproval_eq hold
  rcases h with ⟨-, -, rfl⟩ | ⟨-, _, _, ⟨hpending, rfl⟩, _, _, hset, howned⟩
  · exact Std.Refl.refl _
  · obtain ⟨rfl, -⟩ := ownedApproval_eq howned
    refine setState_decided (fun other hother => ?_) htarget.2 (fun happroved => ?_) hset
    · rw [hfind] at hother
      obtain rfl := Option.some.inj hother
      exact Or.inl hpending
    · exact absurd (Or.inr happroved) htarget.1

theorem insertPending_decided (h : (insertPending request owner now).Commits db approvalId db') :
    OnlyDecided granted db.1 db'.1 := by
  simp only [insertPending, Tx.commits_bind, Tx.commits_insert, Tx.commits_pure] at h
  obtain ⟨_, db₁, ⟨-, t', ht', hdb₁⟩, _, _, hevent, -, rfl⟩ := h
  have hinserted : OnlyDecided granted db.1 db₁.1 := by
    rw [hdb₁]
    exact ⟨rfl, .of_insert ht' (fun _ => rfl) fun _ => rfl⟩
  obtain ⟨happrovals, hcalls⟩ := approvalEvent_frame hevent
  exact hinserted.trans (.of_frame happrovals hcalls)

theorem requestApproval_decided (h : (requestApproval request now).Commits db approvalId db') :
    OnlyDecided granted db.1 db'.1 := by
  simp only [requestApproval, Tx.commits_bind, Tx.commits_query, Tx.commits_ofExcept] at h
  obtain ⟨_, db, ⟨-, rfl⟩, _, db, ⟨-, rfl⟩, h⟩ := h
  exact insertPending_decided h

theorem expireApproval_decided (h : (expireApproval approvalId now).Commits db value db') :
    OnlyDecided granted db.1 db'.1 := by
  simp only [expireApproval, Tx.commits_bind, Tx.commits_ite, Tx.commits_pure] at h
  obtain ⟨row, _, hrow, h⟩ := h
  obtain ⟨rfl, hfind⟩ := approvalById_eq hrow
  rcases h with ⟨hopen, h⟩ | ⟨-, -, rfl⟩
  · refine setState_decided (fun other hother => ?_) (by decide) (fun hne => by cases hne) h
    rw [hfind] at hother
    rwa [← Option.some.inj hother]
  · exact Std.Refl.refl _

theorem gateAdmit_decided {outcome : ApprovalAdmission}
    (h : (gateAdmit request now).Commits db outcome db') : OnlyDecided granted db.1 db'.1 := by
  simp only [gateAdmit, Tx.commits_bind, Tx.commits_query] at h
  obtain ⟨resolved, db, ⟨-, rfl⟩, h⟩ := h
  cases resolved with
  | none =>
    obtain ⟨-, rfl⟩ := Tx.commits_pure.mp h
    exact Std.Refl.refl _
  | some owner =>
    simp only [Tx.commits_bind, Tx.commits_query, Tx.commits_ite, Tx.commits_pure] at h
    obtain ⟨_, db₁, hreconcile, _, db₁, ⟨-, rfl⟩, row, db₁, ⟨-, rfl⟩, h⟩ := h
    refine (reconcilePending_decided hreconcile).trans ?_
    rcases h with ⟨-, -, rfl⟩ | ⟨-, h⟩
    · exact Std.Refl.refl _
    · cases row with
      | none =>
        simp only [Tx.commits_bind, Tx.commits_pure] at h
        obtain ⟨_, _, hinsert, -, rfl⟩ := h
        exact insertPending_decided hinsert
      | some row =>
        simp only [Tx.commits_ite, Tx.commits_bind, Tx.commits_pure] at h
        rcases h with ⟨-, -, rfl⟩ | ⟨-, ⟨-, -, rfl⟩ | ⟨-, ⟨-, _, _, hexpire, -, rfl⟩ |
          ⟨-, -, rfl⟩⟩⟩
        · exact Std.Refl.refl _
        · exact Std.Refl.refl _
        · exact expireApproval_decided hexpire
        · exact Std.Refl.refl _

theorem approvalAction_decided (action : ApprovalAction) (now : Instant) (db : Database)
    (hconsume : ∀ request attemptId, action ≠ .consume request attemptId) :
    OnlyDecided (fun approval => ∃ owner approvalId, action = .approve owner approvalId ∧
      GrantedBy owner approvalId now approval) db.1 (runApprovalAction now action db).1 := by
  have hcommit : ∀ {α : Type} {x : Connection α} {granted : ActionApprovalRecord → Prop},
      (∀ {value db'}, x.Commits db value db' → OnlyDecided granted db.1 db'.1) →
      OnlyDecided granted db.1 (commit x db).1 := by
    intro α x granted h
    rcases commit_cases x db with ⟨value, hcommits⟩ | hsame
    · exact h hcommits
    · rw [hsame]
      exact Std.Refl.refl _
  cases action with
  | request request => exact hcommit requestApproval_decided
  | approve owner approvalId =>
    refine hcommit fun h => ?_
    obtain ⟨hcalls, happrovals⟩ := approve_decided h
    refine ⟨hcalls, happrovals.mono fun _ _ hdecides => ?_⟩
    refine ⟨hdecides.binding, hdecides.closed, hdecides.unconsumed, fun happroved => ?_⟩
    exact (hdecides.approved happroved).imp_right fun hgranted =>
      ⟨owner, approvalId, rfl, hgranted⟩
  | deny | cancel => exact hcommit (closePending_decided (by decide))
  | listPending owner => exact hcommit reconcilePending_decided
  | gateAdmit request => exact hcommit gateAdmit_decided
  | abandon request => exact hcommit abandon_decided
  | consume request attemptId => exact absurd rfl (hconsume request attemptId)

end Approvals

variable {claim : ClaimedAttempt} {now : Instant} {db db' : Database}

structure Binds (approval : ActionApprovalRecord) (call : ToolInvocationRecord) : Prop where
  runId : approval.runId = call.runId
  jobId : approval.jobId = call.jobId
  attemptId : approval.attemptId = call.attemptId
  toolSequence : approval.toolSequence = call.toolSequence
  toolDefinitionId : approval.toolDefinitionId = call.toolDefinitionId
  fingerprint : approval.fingerprint =
    actionFingerprint call.toolDefinitionId call.upstreamName call.definitionFingerprint
  inputDigest : approval.inputDigest = call.argumentsDigest

theorem Binds.congr {approval approval' : ActionApprovalRecord}
    {call call' : ToolInvocationRecord} (h : Binds approval call)
    (happroval : approval'.binding = approval.binding)
    (hcall : call'.identity = call.identity) : Binds approval' call' := by
  have hcolumns : Binds approval.binding call.identity :=
    ⟨h.runId, h.jobId, h.attemptId, h.toolSequence, h.toolDefinitionId, h.fingerprint,
      h.inputDigest⟩
  rw [← happroval, ← hcall] at hcolumns
  exact ⟨hcolumns.runId, hcolumns.jobId, hcolumns.attemptId, hcolumns.toolSequence,
    hcolumns.toolDefinitionId, hcolumns.fingerprint, hcolumns.inputDigest⟩

structure Dispatch (approval : ActionApprovalRecord) (call : ToolInvocationRecord)
    (now : Instant) (db db' : Tables) : Prop where
  found : db.actionApprovals.find approval.id = some approval
  called : db.toolInvocations.find call.id = some call
  approved : approval.state = .approved
  unexpired : now < approval.expiresAt
  requested : call.status = .requested
  gated : call.sourceKind = .mcp
  binds : Binds approval call
  consumed : ∀ id, db'.actionApprovals.find id =
    if id = approval.id then some (approval.consume now) else db.actionApprovals.find id
  started : ∀ id, db'.toolInvocations.find id =
    if id = call.id then some (call.start now) else db.toolInvocations.find id

variable {request : ApprovalRequest}

theorem commits_consumeOnConnection {consumed : Bool}
    (h : (consumeOnConnection request now).Commits db consumed db') :
    (consumed = false ∧ db' = db) ∨
      (consumed = true ∧ ∃ owner row, Matches request owner row ∧
        row ∈ db.1.actionApprovals.rows ∧ ConsumeFence row.id row ∧ now < row.expiresAt ∧
        Tx.Updates (ConsumeFence row.id) (ActionApprovalRecord.consume now) db db') := by
  simp only [consumeOnConnection, Tx.commits_bind, Tx.commits_query, Tx.commits_ofExcept] at h
  obtain ⟨_, db, ⟨-, rfl⟩, owner, db, ⟨-, rfl⟩, row, db, ⟨hrow, rfl⟩, h⟩ := h
  cases row with
  | none => exact Or.inl (Tx.commits_pure.mp h)
  | some row =>
    obtain ⟨hmatching, hguard⟩ := Option.filter_eq_some_iff.mp hrow.symm
    have hmem := List.mem_of_getLast? hmatching
    rw [List.mem_filter, decide_eq_true_eq] at hmem
    obtain ⟨hmem, hmatches, hstate⟩ := hmem
    have hcheck := (db.1.actionApprovals.lawful.checked row hmem).lifecycleShape.1
    have hfence : ConsumeFence row.id row := by
      refine ⟨rfl, hstate, ?_⟩
      by_contra hne
      rw [hcheck.mp hne] at hstate
      cases hstate
    simp only [Tx.commits_bind, Tx.commits_update, Tx.commits_pure] at h
    obtain ⟨_, db', ⟨rfl, hupdates⟩, rfl, rfl⟩ := h
    have hcount : db.1.actionApprovals.rows.countP (ConsumeFence row.id) = 1 :=
      Table.countP_eq_one hmem hfence fun other _ hother => hother.1
    refine Or.inr ⟨?_, owner, row, hmatches, hmem, hfence, (of_decide_eq_true hguard).1,
      hupdates⟩
    rw [table_actionApproval, hcount]
    rfl

variable {invocationId : Nat}

theorem startDenied_quiet {reason : PermissionDenialReason} :
    Tx.Preserves Quiet (startDecided claim invocationId (.denied reason) now) := by
  apply Tx.Preserves.bind
  · apply moveUpdate_quiet
    · exact fun _ => rfl
    · exact fun _ _ => ⟨rfl, fun _ => rfl⟩
  · intro _
    apply Tx.Preserves.bind appendToolEvent_quiet
    intro _
    apply Tx.Preserves.pure

variable {outcome : StartOutcome}

theorem commits_startAllowed
    (h : (startDecided claim invocationId .allowed now).Commits db outcome db') :
    db'.1.actionApprovals = db.1.actionApprovals ∧
      ∃ t', db.1.toolInvocations.update? (claim.HoldsCall invocationId .requested)
        (ToolInvocationRecord.start now) = some t' ∧ db'.1.toolInvocations = t' := by
  simp only [startDecided, Tx.commits_bind, Tx.commits_updateOne, Tx.commits_pure] at h
  obtain ⟨_, db₁, ⟨-, t', ht', hdb₁⟩, _, _, hevent, -, rfl⟩ := h
  obtain ⟨_, _, _, t₂, -, hdb'⟩ := commits_appendToolEvent hevent
  rw [hdb', hdb₁]
  exact ⟨rfl, t', ht', rfl⟩

/-- The call comes through the gated mediator: it needs an approval exactly when it
leaves the machine. -/
def GatedCall (db : Tables) (invocationId : Nat) (approval : Option ApprovalRequest) : Prop :=
  ∀ call ∈ db.toolInvocations.find invocationId,
    approval.isSome ↔ call.sourceKind = .mcp

instance (db : Tables) (invocationId : Nat) (approval : Option ApprovalRequest) :
    Decidable (GatedCall db invocationId approval) :=
  inferInstanceAs (Decidable (∀ call ∈ db.toolInvocations.find invocationId, _))

theorem startDecided_undispatched {decision : PermissionDecision}
    (hungated : decision = .allowed →
      ∀ call ∈ db.1.toolInvocations.find invocationId, call.sourceKind ≠ .mcp)
    (h : (startDecided claim invocationId decision now).Commits db outcome db') :
    Undispatched db.1 db'.1 := by
  cases decision with
  | denied reason => exact (startDenied_quiet _ _ _ h).toUndispatched
  | allowed =>
    obtain ⟨happrovals, t', ht', hcalls⟩ := commits_startAllowed h
    refine ⟨happrovals, hcalls ▸ .of_update ht' (fun _ => rfl) fun call hcall hp => ?_⟩
    refine ⟨rfl, fun hkind => absurd hkind ?_⟩
    exact hungated rfl call (Table.find_eq_some.mpr ⟨hcall, hp.1⟩)

variable {approval : Option ApprovalRequest}

theorem consumeDecision_cases {decision outcome : PermissionDecision}
    (h : (consumeDecision decision approval now).Commits db outcome db') :
    (db' = db ∧ (approval.isSome → outcome ≠ .allowed)) ∨
      (outcome = .allowed ∧ ∃ request, approval = some request ∧
        (consumeOnConnection request now).Commits db true db') := by
  cases decision with
  | denied reason =>
    obtain ⟨rfl, rfl⟩ := Tx.commits_pure.mp h
    exact Or.inl ⟨rfl, fun _ hallowed => by cases hallowed⟩
  | allowed =>
    cases approval with
    | none =>
      obtain ⟨-, rfl⟩ := Tx.commits_pure.mp h
      exact Or.inl ⟨rfl, fun hsome => by cases hsome⟩
    | some request =>
      simp only [consumeDecision, Tx.commits_bind, Tx.commits_pure] at h
      obtain ⟨consumed, db', hconsume, rfl, rfl⟩ := h
      cases consumed with
      | true => exact Or.inr ⟨rfl, request, rfl, hconsume⟩
      | false =>
        rcases commits_consumeOnConnection hconsume with ⟨-, rfl⟩ | ⟨htrue, -⟩
        · exact Or.inl ⟨rfl, fun _ hallowed => by cases hallowed⟩
        · cases htrue

theorem dispatch_of_start {db₁ : Database} {call : ToolInvocationRecord}
    (hfind : db.1.toolInvocations.find invocationId = some call)
    (hattempt : call.attemptId = claim.attemptId) (hrequested : call.status = .requested)
    (hgated : call.sourceKind = .mcp) (happroves : ApprovesCall claim request call)
    (hconsume : (consumeOnConnection request now).Commits db true db₁)
    (hstart : (startDecided claim invocationId .allowed now).Commits db₁ outcome db') :
    ∃ approval call, Dispatch approval call now db.1 db'.1 := by
  obtain ⟨hmem, hid⟩ := Table.find_eq_some.mp hfind
  rcases commits_consumeOnConnection hconsume with ⟨hfalse, -⟩ | ⟨-, owner, row, hmatches,
    hrow, hfence, hexpiry, t₁, ht₁, hdb₁⟩
  · cases hfalse
  · obtain ⟨happrovals, t', ht', hcalls⟩ := commits_startAllowed hstart
    have hsame : db₁.1.toolInvocations = db.1.toolInvocations := by
      rw [hdb₁]
      rfl
    have hconsumed : db'.1.actionApprovals = t₁ := by
      rw [happrovals, hdb₁]
      rfl
    rw [hsame] at ht'
    obtain ⟨-, hrun, hjob, hattempt', hsequence, hdefinition, hupstream, hfingerprint,
      hdigest⟩ := hmatches
    obtain ⟨hrun', hjob', hclaim, hsequence', hdefinition', hupstream', hfingerprint',
      hdigest'⟩ := happroves
    refine ⟨row, call, ?_⟩
    constructor
    · exact Table.find_key hrow
    · exact Table.find_key hmem
    · exact hfence.2.1
    · exact hexpiry
    · exact hrequested
    · exact hgated
    · constructor
      · exact hrun.trans hrun'
      · exact hjob.trans hjob'
      · exact hattempt'.trans (hclaim.trans hattempt.symm)
      · exact hsequence.trans hsequence'
      · exact hdefinition.trans hdefinition'
      · rw [hfingerprint, hdefinition', hupstream', hfingerprint']
      · exact hdigest.trans hdigest'
    · rw [hconsumed]
      exact Table.find_update_of_pin ht₁ (fun _ => rfl) hrow hfence fun other hother => hother.1
    · rw [hcalls]
      refine Table.find_update_of_pin ht' (fun _ => rfl) hmem ⟨hid, hattempt, hrequested⟩ ?_
      exact fun other hother => hother.1.trans hid.symm

theorem markStarted_cases (hgated : GatedCall db.1 invocationId approval)
    (h : (markStarted claim invocationId approval now).Commits db outcome db') :
    Undispatched db.1 db'.1 ∨
      ∃ approval call, Dispatch approval call now db.1 db'.1 := by
  simp only [markStarted, Tx.commits_bind, Tx.commits_query, Tx.commits_ite,
    Tx.commits_pure] at h
  obtain ⟨_, db, ⟨-, rfl⟩, _, db, ⟨-, rfl⟩, found, db, ⟨hfound, rfl⟩, h⟩ := h
  rcases h with ⟨-, -, rfl⟩ | ⟨-, ⟨-, _, _, hcancel, -, rfl⟩ | ⟨-, h⟩⟩
  · exact Or.inl (Std.Refl.refl _)
  · refine Or.inl (moveUpdate_quiet ?_ ?_ _ _ _ hcancel).toUndispatched
    · exact fun _ => rfl
    · exact fun _ _ => ⟨rfl, fun _ => rfl⟩
  · cases found with
    | none =>
      obtain ⟨-, rfl⟩ := Tx.commits_pure.mp h
      exact Or.inl (Std.Refl.refl _)
    | some call =>
      obtain ⟨hfind, hcall⟩ := Option.filter_eq_some_iff.mp hfound.symm
      obtain ⟨hattempt, hrequested⟩ := of_decide_eq_true hcall
      simp only [Tx.commits_ite, Tx.commits_bind, Tx.commits_query, Tx.commits_pure] at h
      rcases h with ⟨happroves, decision, db, ⟨-, rfl⟩, outcome', db₁, hconsume, hstart⟩ |
        ⟨-, -, rfl⟩
      · rcases consumeDecision_cases hconsume with ⟨rfl, hdenied⟩ | ⟨rfl, request, rfl, hone⟩
        · refine Or.inl (startDecided_undispatched (fun hallowed other hother => ?_) hstart)
          rw [hfind] at hother
          obtain rfl := Option.some.inj hother
          intro hmcp
          exact hdenied ((hgated call hfind).mpr hmcp) hallowed
        · refine Or.inr ?_
          have hmcp := (hgated call hfind).mp rfl
          exact dispatch_of_start hfind hattempt hrequested hmcp (happroves request rfl)
            hone hstart
      · exact Or.inl (Std.Refl.refl _)

end NervOS
