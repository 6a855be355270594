/-
Approval transactions only note events.  Which timelines they write to can be
read off the approvals that they find open.
-/
import NervOS.Database.Approvals
import NervOS.Obligation.Local

namespace NervOS

open Relational

variable {now : Instant} {db db' : Database} {runs : List Nat}

structure ApprovalsMoved (runs : List Nat) (db db' : Database) : Prop where
  frame : ∃ approvals events,
    db'.1 = { db.1 with actionApprovals := approvals, runEvents := events }
  stable : ∀ id row, db.1.actionApprovals.find id = some row →
    ∃ row', db'.1.actionApprovals.find id = some row' ∧ row'.runId = row.runId
  told : ∀ runId, ∃ types, (∀ type ∈ types, ¬ type.IsTerminal) ∧
    Appends types (db.1.timeline runId) (db'.1.timeline runId) ∧
    (types ≠ [] → runId ∈ runs)

theorem ApprovalsMoved.refl (db : Database) : ApprovalsMoved runs db db where
  frame := ⟨_, _, rfl⟩
  stable _ row hrow := ⟨row, hrow, rfl⟩
  told _ := ⟨[], List.forall_mem_nil _, Appends.nil _, fun h => absurd rfl h⟩

theorem ApprovalsMoved.trans {a b c : Database} (hab : ApprovalsMoved runs a b)
    (hbc : ApprovalsMoved runs b c) : ApprovalsMoved runs a c where
  frame := by
    obtain ⟨approvals, events, hb⟩ := hab.frame
    obtain ⟨approvals', events', hc⟩ := hbc.frame
    exact ⟨approvals', events', by rw [hc, hb]⟩
  stable id row hrow := by
    obtain ⟨row₁, hrow₁, hrun₁⟩ := hab.stable id row hrow
    obtain ⟨row₂, hrow₂, hrun₂⟩ := hbc.stable id row₁ hrow₁
    exact ⟨row₂, hrow₂, hrun₂.trans hrun₁⟩
  told runId := by
    obtain ⟨types, hordinary, htold, htouched⟩ := hab.told runId
    obtain ⟨types', hordinary', htold', htouched'⟩ := hbc.told runId
    refine ⟨types ++ types', ?_, htold.trans htold', fun hne => ?_⟩
    · intro type htype
      exact (List.mem_append.mp htype).elim (hordinary type) (hordinary' type)
    · by_cases hnil : types = []
      · exact htouched' fun hnil' => hne (by rw [hnil, hnil']; rfl)
      · exact htouched hnil

theorem ApprovalsMoved.updated {p : ActionApprovalRecord → Prop} [DecidablePred p]
    {f : ActionApprovalRecord → ActionApprovalRecord} (h : Tx.Updates p f db db')
    (hid : ∀ approval, (f approval).id = approval.id)
    (hrun : ∀ approval, (f approval).runId = approval.runId) :
    ApprovalsMoved runs db db' where
  frame := by
    obtain ⟨t', -, hdb'⟩ := h
    exact ⟨t', db.1.runEvents, hdb'⟩
  stable id row hrow := by
    have hfind := h.find hid id
    simp only [table_actionApproval, hrow, Option.map_some] at hfind
    exact ⟨_, hfind, Table.amend_column hrun row⟩
  told runId := by
    obtain ⟨t', -, hdb'⟩ := h
    refine ⟨[], List.forall_mem_nil _, ?_, fun h => absurd rfl h⟩
    rw [hdb']
    exact Appends.nil _

theorem ApprovalsMoved.inserted {row : Nat → ActionApprovalRecord}
    (h : Tx.Inserts row db db') (hkey : ∀ id, (row id).id = id) :
    ApprovalsMoved runs db db' where
  frame := by
    obtain ⟨t', -, hdb'⟩ := h
    exact ⟨t', db.1.runEvents, hdb'⟩
  stable id old hold := by
    obtain ⟨t', ht', hdb'⟩ := h
    refine ⟨old, ?_, rfl⟩
    rw [hdb']
    exact find_insert_of_ne_next ht' hkey hold
  told runId := by
    obtain ⟨t', -, hdb'⟩ := h
    refine ⟨[], List.forall_mem_nil _, ?_, fun h => absurd rfl h⟩
    rw [hdb']
    exact Appends.nil _

variable {value : Unit} {approval : ActionApprovalRecord}

theorem ApprovalsMoved.event {eventType : RunEventType} (hordinary : ¬ eventType.IsTerminal)
    (htouched : approval.runId ∈ runs)
    (h : (approvalEvent approval eventType now).Commits db value db') :
    ApprovalsMoved runs db db' := by
  simp only [approvalEvent, sequenceBase, Tx.commits_bind, Tx.commits_query,
    commits_appendEvent] at h
  obtain ⟨invocationId, db, ⟨-, rfl⟩, _, db, ⟨rfl, rfl⟩, -, t', ht', hdb'⟩ := h
  simp only [table_runEvent, setTable_runEvent] at ht' hdb'
  refine ⟨⟨db.1.actionApprovals, t', hdb'⟩, fun id row hrow => ⟨row, ?_, rfl⟩, fun runId => ?_⟩
  · rw [hdb']
    exact hrow
  · have htimeline : db'.1.timeline runId = db.1.timeline runId ++
        if approval.runId = runId then [(approval.event invocationId eventType
          (lastSequence (db.1.timeline approval.runId) + 1) now).withId db.1.runEvents.next]
        else [] := by
      simp only [Tables.timeline, hdb', (Table.insert?_rows ht').1, filter_append_singleton,
        decide_eq_true_eq]
      rfl
    rw [htimeline]
    split
    · rename_i hrun
      subst hrun
      exact ⟨_, List.forall_mem_singleton.mpr hordinary, (Appends.nil _).snoc _ rfl,
        fun _ => htouched⟩
    · rw [List.append_nil]
      exact ⟨[], List.forall_mem_nil _, Appends.nil _, fun h => absurd rfl h⟩

variable {approvalId : Nat} {row : ActionApprovalRecord}

theorem approvalById_eq (h : (approvalById approvalId).Commits db row db') :
    db' = db ∧ db.1.actionApprovals.find approvalId = some row := by
  simp only [approvalById, Tx.commits_bind, Tx.commits_query, Tx.commits_ofExcept] at h
  obtain ⟨found, db, ⟨hfound, rfl⟩, hrow, rfl⟩ := h
  cases found with
  | none => cases hrow
  | some other =>
    obtain rfl : other = row := Except.ok.inj hrow
    exact ⟨rfl, hfound.symm⟩

variable {state : ApprovalState}

theorem setState_moved
    (htouched : ∀ row, db.1.actionApprovals.find approvalId = some row → row.runId ∈ runs)
    (h : (setStateOnConnection approvalId state now).Commits db value db') :
    ApprovalsMoved runs db db' := by
  simp only [setStateOnConnection, Tx.commits_bind, Tx.commits_update] at h
  obtain ⟨old, _, hold, _, db₁, ⟨-, hupdates⟩, h⟩ := h
  obtain ⟨rfl, hfind⟩ := approvalById_eq hold
  refine (ApprovalsMoved.updated hupdates (fun _ => rfl) fun _ => rfl).trans ?_
  simp only [Tx.commits_ite, Tx.commits_pure] at h
  rcases h with ⟨-, hevent⟩ | ⟨-, -, rfl⟩
  · exact ApprovalsMoved.event (by decide) (htouched old hfind) hevent
  · exact ApprovalsMoved.refl _

/-- Each of the rows is still there, under a Run that may be written to. -/
def Touchable (runs : List Nat) (db : Database) (rows : List ActionApprovalRecord) : Prop :=
  ∀ row ∈ rows, ∃ old, db.1.actionApprovals.find row.id = some old ∧ old.runId ∈ runs

variable {rows : List ActionApprovalRecord}

theorem touchable_of_mem (hrows : ∀ row ∈ rows, row ∈ db.1.actionApprovals.rows)
    (hruns : ∀ row ∈ rows, row.runId ∈ runs) : Touchable runs db rows :=
  fun row hrow => ⟨row, Table.find_key (hrows row hrow), hruns row hrow⟩

theorem Touchable.moved (h : Touchable runs db rows) (hmoved : ApprovalsMoved runs db db') :
    Touchable runs db' rows := by
  intro row hrow
  obtain ⟨old, hold, hrun⟩ := h row hrow
  obtain ⟨old', hold', hsame⟩ := hmoved.stable _ old hold
  exact ⟨old', hold', hsame ▸ hrun⟩

variable {rest : List ActionApprovalRecord}

theorem Touchable.setState (h : Touchable runs db (row :: rest))
    (hset : (setStateOnConnection row.id state now).Commits db value db') :
    ApprovalsMoved runs db db' := by
  obtain ⟨old, hold, hrun⟩ := h row List.mem_cons_self
  refine setState_moved (fun other hother => ?_) hset
  rw [hold] at hother
  rwa [← Option.some.inj hother]

theorem Touchable.tail (h : Touchable runs db (row :: rest)) :
    Touchable runs db rest :=
  fun other hother => h other (List.mem_cons_of_mem _ hother)

theorem reconcileRows_moved (htouchable : Touchable runs db rows)
    (h : (reconcileRows now rows).Commits db value db') : ApprovalsMoved runs db db' := by
  induction rows generalizing db with
  | nil =>
    obtain ⟨-, rfl⟩ := Tx.commits_pure.mp h
    exact ApprovalsMoved.refl _
  | cons row rest ih =>
    simp only [reconcileRows, Tx.commits_bind, Tx.commits_query] at h
    obtain ⟨state, db, ⟨-, rfl⟩, _, db₁, hset, hrest⟩ := h
    have hmoved : ApprovalsMoved runs db db₁ := by
      cases state with
      | none =>
        obtain ⟨-, rfl⟩ := Tx.commits_pure.mp hset
        exact ApprovalsMoved.refl _
      | some state => exact htouchable.setState hset
    exact hmoved.trans (ih (htouchable.tail.moved hmoved) hrest)

theorem abandonRows_moved (htouchable : Touchable runs db rows)
    (h : (abandonRows now rows).Commits db value db') : ApprovalsMoved runs db db' := by
  induction rows generalizing db with
  | nil =>
    obtain ⟨-, rfl⟩ := Tx.commits_pure.mp h
    exact ApprovalsMoved.refl _
  | cons row rest ih =>
    simp only [abandonRows, Tx.commits_bind] at h
    obtain ⟨_, db₁, hset, hrest⟩ := h
    have hmoved := htouchable.setState hset
    exact hmoved.trans (ih (htouchable.tail.moved hmoved) hrest)

variable {owner : Nat}

theorem mem_openApprovals {db : Tables} :
    approval ∈ db.openApprovals owner ↔ approval ∈ db.actionApprovals.rows ∧
      approval.ownerUserId = owner ∧ approval.state.IsOpen := by
  rw [Tables.openApprovals, List.mem_filter, decide_eq_true_eq]

theorem reconcilePending_moved
    (htouched : ∀ approval ∈ db.1.openApprovals owner, approval.runId ∈ runs)
    (h : (reconcilePending owner now).Commits db value db') : ApprovalsMoved runs db db' := by
  simp only [reconcilePending, Tx.commits_bind, Tx.commits_query] at h
  obtain ⟨_, db, ⟨rfl, rfl⟩, h⟩ := h
  exact reconcileRows_moved (touchable_of_mem (fun _ hrow => (mem_openApprovals.mp hrow).1)
    htouched) h

variable {request : ApprovalRequest}

theorem abandon_moved (htouched : ∀ approval ∈ db.1.openApprovalsOf request, approval.runId ∈ runs)
    (h : (abandon request now).Commits db value db') : ApprovalsMoved runs db db' := by
  simp only [abandon, Tx.commits_bind, Tx.commits_query] at h
  obtain ⟨_, db, ⟨rfl, rfl⟩, h⟩ := h
  exact abandonRows_moved (touchable_of_mem (fun _ hrow => (List.mem_filter.mp hrow).1)
    htouched) h

variable {owner approvalId : Nat}

theorem ownedApproval_eq (h : (ownedApproval owner approvalId).Commits db row db') :
    db' = db ∧ db.1.actionApprovals.find approvalId = some row ∧ row.ownerUserId = owner := by
  simp only [ownedApproval, Tx.commits_bind, Tx.commits_require, Tx.commits_pure] at h
  obtain ⟨_, _, hrow, -, _, ⟨howner, rfl⟩, rfl, rfl⟩ := h
  obtain ⟨rfl, hfind⟩ := approvalById_eq hrow
  exact ⟨rfl, hfind, howner⟩

theorem freshApproval_moved
    (htouched : ∀ old, db.1.actionApprovals.find approvalId = some old →
      old.ownerUserId = owner → old.state.IsOpen →
      ∀ approval ∈ db.1.openApprovals owner, approval.runId ∈ runs)
    (h : (freshApproval owner approvalId now).Commits db row db') :
    ApprovalsMoved runs db db' ∧ db'.1.actionApprovals.find approvalId = some row ∧
      (row.state.IsOpen → row.runId ∈ runs) := by
  simp only [freshApproval, Tx.commits_bind, Tx.commits_ite, Tx.commits_pure] at h
  obtain ⟨old, _, hold, h⟩ := h
  obtain ⟨rfl, hfind, howner⟩ := ownedApproval_eq hold
  rcases h with ⟨hopen, _, db₁, hreconcile, hrow⟩ | ⟨hclosed, rfl, rfl⟩
  · obtain ⟨rfl, hfind', -⟩ := ownedApproval_eq hrow
    have hmine := htouched old hfind howner hopen
    have hmoved := reconcilePending_moved hmine hreconcile
    obtain ⟨_, hstable, hrun⟩ := hmoved.stable approvalId old hfind
    rw [hfind'] at hstable
    obtain rfl := Option.some.inj hstable
    refine ⟨hmoved, hfind', fun _ => ?_⟩
    rw [hrun]
    exact hmine old (mem_openApprovals.mpr ⟨(Table.find_eq_some.mp hfind).1, howner, hopen⟩)
  · exact ⟨ApprovalsMoved.refl _, hfind, fun hopen => absurd hopen hclosed⟩

theorem setOwned_moved {row outcome : ActionApprovalRecord} {db₁ : Database}
    (hfind : db.1.actionApprovals.find approvalId = some row) (htouched : row.runId ∈ runs)
    (hset : (setStateOnConnection approvalId state now).Commits db value db₁)
    (howned : (ownedApproval owner approvalId).Commits db₁ outcome db') :
    ApprovalsMoved runs db db' := by
  obtain ⟨rfl, -⟩ := ownedApproval_eq howned
  refine setState_moved (fun other hother => ?_) hset
  rw [hfind] at hother
  rwa [← Option.some.inj hother]

variable {outcome : ActionApprovalRecord}

theorem approve_moved
    (htouched : ∀ old, db.1.actionApprovals.find approvalId = some old →
      old.ownerUserId = owner → old.state.IsOpen →
      ∀ approval ∈ db.1.openApprovals owner, approval.runId ∈ runs)
    (h : (approve owner approvalId now).Commits db outcome db') :
    ApprovalsMoved runs db db' := by
  obtain ⟨row, db₁, hfresh, h⟩ := Tx.commits_bind.mp h
  obtain ⟨hmoved, hfind, hrun⟩ := freshApproval_moved htouched hfresh
  refine hmoved.trans ?_
  cases hstate : row.state with
  | pending =>
    simp only [hstate, Tx.commits_ite, Tx.commits_bind] at h
    have hopen : row.state.IsOpen := Or.inl hstate
    rcases h with ⟨-, _, _, hset, howned⟩ | ⟨-, _, _, hset, howned⟩
    · exact setOwned_moved hfind (hrun hopen) hset howned
    · exact setOwned_moved hfind (hrun hopen) hset howned
  | approved | expired | cancelled =>
    simp only [hstate, Tx.commits_pure] at h
    obtain ⟨-, rfl⟩ := h
    exact ApprovalsMoved.refl _
  | consumed | denied | revoked =>
    simp only [hstate, Tx.commits_raise] at h

theorem closePending_moved {target : ApprovalState}
    (htouched : ∀ old, db.1.actionApprovals.find approvalId = some old →
      old.ownerUserId = owner → old.state = .pending → old.runId ∈ runs)
    (h : (closePending target owner approvalId now).Commits db outcome db') :
    ApprovalsMoved runs db db' := by
  simp only [closePending, Tx.commits_bind, Tx.commits_ite, Tx.commits_pure,
    Tx.commits_require] at h
  obtain ⟨old, _, hold, h⟩ := h
  obtain ⟨rfl, hfind, howner⟩ := ownedApproval_eq hold
  rcases h with ⟨-, -, rfl⟩ | ⟨-, _, _, ⟨hpending, rfl⟩, _, _, hset, howned⟩
  · exact ApprovalsMoved.refl _
  · exact setOwned_moved hfind (htouched old hfind howner hpending) hset howned

theorem insertPending_moved (htouched : request.runId ∈ runs)
    (h : (insertPending request owner now).Commits db approvalId db') :
    ApprovalsMoved runs db db' := by
  simp only [insertPending, Tx.commits_bind, Tx.commits_insert, Tx.commits_pure] at h
  obtain ⟨_, db₁, ⟨-, hinsert⟩, _, _, hevent, -, rfl⟩ := h
  exact (ApprovalsMoved.inserted hinsert fun _ => rfl).trans
    (ApprovalsMoved.event (by decide) htouched hevent)

theorem requestApproval_moved
    (htouched : (db.1.resolvedOwner request).isSome → request.runId ∈ runs)
    (h : (requestApproval request now).Commits db approvalId db') :
    ApprovalsMoved runs db db' := by
  simp only [requestApproval, Tx.commits_bind, Tx.commits_query, Tx.commits_ofExcept] at h
  obtain ⟨resolved, db, ⟨hresolved, rfl⟩, owner, db, ⟨howner, rfl⟩, h⟩ := h
  cases resolved with
  | none => cases howner
  | some owner => exact insertPending_moved (htouched (by rw [← hresolved]; rfl)) h

theorem expireApproval_moved (hfind : db.1.actionApprovals.find row.id = some row)
    (htouched : row.runId ∈ runs) (h : (expireApproval row.id now).Commits db value db') :
    ApprovalsMoved runs db db' := by
  simp only [expireApproval, Tx.commits_bind, Tx.commits_ite, Tx.commits_pure] at h
  obtain ⟨_, _, hrow, h⟩ := h
  obtain ⟨rfl, -⟩ := approvalById_eq hrow
  rcases h with ⟨-, h⟩ | ⟨-, -, rfl⟩
  · refine setState_moved (fun other hother => ?_) h
    rw [hfind] at hother
    rwa [← Option.some.inj hother]
  · exact ApprovalsMoved.refl _

theorem matching_eq_some {p : ApprovalState → Prop} [DecidablePred p] {db : Tables}
    (h : db.matching request owner p = some row) :
    db.actionApprovals.find row.id = some row ∧ row.runId = request.runId := by
  have hmem := List.mem_of_getLast? h
  rw [List.mem_filter, decide_eq_true_eq] at hmem
  exact ⟨Table.find_key hmem.1, hmem.2.1.2.1⟩

theorem ApprovalsMoved.liveRequest (h : ApprovalsMoved runs db db')
    (request : ApprovalRequest) :
    LiveRequest db'.1 request now ↔ LiveRequest db.1 request now := by
  obtain ⟨_, _, hdb'⟩ := h.frame
  rw [hdb']
  exact Iff.rfl

theorem admit_moved {outcome : ApprovalAdmission}
    (htouched : ∀ owner, db.1.resolvedOwner request = some owner →
      ∀ approval ∈ db.1.openApprovals owner, approval.runId ∈ runs)
    (hlive : LiveRequest db.1 request now → request.runId ∈ runs)
    (h : (gateAdmit request now).Commits db outcome db') : ApprovalsMoved runs db db' := by
  simp only [gateAdmit, Tx.commits_bind, Tx.commits_query] at h
  obtain ⟨resolved, db, ⟨hresolved, rfl⟩, h⟩ := h
  cases resolved with
  | none =>
    obtain ⟨-, rfl⟩ := Tx.commits_pure.mp h
    exact ApprovalsMoved.refl _
  | some owner =>
    simp only [Tx.commits_bind, Tx.commits_query, Tx.commits_ite, Tx.commits_pure] at h
    obtain ⟨_, db₁, hreconcile, _, db₁, ⟨rfl, rfl⟩, row, db₁, ⟨hrow, rfl⟩, h⟩ := h
    have hmoved := reconcilePending_moved (htouched owner hresolved.symm) hreconcile
    refine hmoved.trans ?_
    rcases h with ⟨-, -, rfl⟩ | ⟨hnow, h⟩
    · exact ApprovalsMoved.refl _
    · have hrun : request.runId ∈ runs :=
        hlive ((hmoved.liveRequest request).mp (by simpa using hnow))
      cases row with
      | none =>
        simp only [Tx.commits_bind, Tx.commits_pure] at h
        obtain ⟨_, _, hinsert, -, rfl⟩ := h
        exact insertPending_moved hrun hinsert
      | some row =>
        obtain ⟨hfind, hsame⟩ := matching_eq_some hrow.symm
        simp only [Tx.commits_ite, Tx.commits_bind, Tx.commits_pure] at h
        rcases h with ⟨-, -, rfl⟩ | ⟨-, ⟨-, -, rfl⟩ | ⟨-, ⟨-, _, _, hexpire, -, rfl⟩ |
          ⟨-, -, rfl⟩⟩⟩
        · exact ApprovalsMoved.refl _
        · exact ApprovalsMoved.refl _
        · exact expireApproval_moved hfind (hsame ▸ hrun) hexpire
        · exact ApprovalsMoved.refl _

theorem consume_moved {consumingAttemptId : Nat} {outcome : ConsumeOutcome}
    (hlive : LiveRequest db.1 request now → request.runId ∈ runs)
    (h : (consume request consumingAttemptId now).Commits db outcome db') :
    ApprovalsMoved runs db db' := by
  simp only [consume, Tx.commits_bind, Tx.commits_query, Tx.commits_ite, Tx.commits_pure] at h
  obtain ⟨_, db, ⟨rfl, rfl⟩, resolved, db, ⟨-, rfl⟩, row, db, ⟨hrow, rfl⟩, h⟩ := h
  rcases h with ⟨-, -, rfl⟩ | ⟨hnow, h⟩
  · exact ApprovalsMoved.refl _
  · have hrun : request.runId ∈ runs := by
      rw [not_or, Bool.not_eq_false, decide_eq_true_eq] at hnow
      exact hlive hnow.2
    cases row with
    | none =>
      obtain ⟨-, rfl⟩ := Tx.commits_pure.mp h
      exact ApprovalsMoved.refl _
    | some row =>
      obtain ⟨owner, -, hmatching⟩ := Option.bind_eq_some_iff.mp hrow.symm
      obtain ⟨hfind, hsame⟩ := matching_eq_some hmatching
      simp only [Tx.commits_ite, Tx.commits_bind, Tx.commits_pure, Tx.commits_update] at h
      rcases h with ⟨-, _, _, hexpire, -, rfl⟩ | ⟨-, _, _, ⟨-, hupdates⟩, -, rfl⟩
      · exact expireApproval_moved hfind (hsame ▸ hrun) hexpire
      · exact ApprovalsMoved.updated hupdates (fun _ => rfl) fun _ => rfl

theorem ApprovalsMoved.advances {rules : Nat → Discipline} (h : ApprovalsMoved runs db db')
    (hquiet : ∀ jobId, (rules jobId).quiet → ∀ runId ∈ runs,
      ∀ run ∈ db.1.runs.find runId, ¬ run.status.IsTerminal) :
    Advances rules now db db' := by
  obtain ⟨approvals, events, hdb'⟩ := h.frame
  refine ⟨fun jobId => ?_, by rw [hdb']; exact ⟨rfl, rfl, rfl⟩⟩
  have hmap : db'.1.obligation jobId = (db.1.obligation jobId).map fun o =>
      { o with timeline := db'.1.timeline o.job.runId } := by
    simp only [Tables.obligation, Tables.attemptsOf, Tables.callsOf, Tables.timeline, hdb']
    cases db.1.jobs.find jobId with
    | none => rfl
    | some job =>
      simp only [Option.bind_some, Option.map_map]
      rfl
  rw [hmap]
  cases ho : db.1.obligation jobId with
  | none => exact .absent
  | some o =>
    obtain ⟨types, hordinary, htold, htouched⟩ := h.told o.job.runId
    rw [← obligation_timeline ho] at htold
    by_cases hnil : types = []
    · subst hnil
      obtain ⟨events, htimeline, hempty, -⟩ := htold
      rw [List.map_eq_nil_iff.mp hempty, List.append_nil] at htimeline
      rw [Option.map_some, htimeline]
      exact .moves .refl
    · refine .moves (.single (.note (fun hrule => ?_) hordinary htold))
      exact hquiet jobId hrule _ (htouched hnil) o.run (obligation_run ho)

end NervOS
