/-
Reclamation and owner cancellation refine the protocol.  Both close an Attempt
that its Worker may still hold, so both reconcile the calls that it left open.
-/
import NervOS.Database.Cancellation
import NervOS.Obligation.Local

namespace NervOS

open Relational

section Abandoned

variable {db db' : Database} {attemptId jobId runId : Nat} {now : Instant} {o : Obligation}

/-- What the loop did to one row, once the ids read before it are behind it. -/
def AbandonedAfter (attemptId : Nat) (now : Instant) (ids : List Nat)
    (call call' : ToolInvocationRecord) : Prop :=
  SameCall call call' ∧
    ((call' = call ∧ call.id ∉ ids) ∨
      (call.OpenFor attemptId ∧ call' = call.abandon call.status now))

def Reconciled (attemptId : Nat) (now : Instant) (call call' : ToolInvocationRecord) : Prop :=
  SameCall call call' ∧
    ((call' = call ∧ ¬ call.OpenFor attemptId) ∨
      (call.OpenFor attemptId ∧ call' = call.abandon call.status now))

theorem abandon_closed (status : InvocationStatus) (now : Instant)
    (call : ToolInvocationRecord) : ¬ (call.abandon status now).status.IsOpen := by
  unfold ToolInvocationRecord.abandon
  split <;> exact id

theorem abandon_same (status : InvocationStatus) (now : Instant)
    (call : ToolInvocationRecord) : SameCall call (call.abandon status now) := by
  unfold ToolInvocationRecord.abandon
  split <;> exact ⟨rfl, rfl, rfl, rfl⟩

theorem abandonCalls_rows {rows : List ToolInvocationRecord} {ambiguous : List Nat}
    (hopen : ∀ seen ∈ rows, seen.status.IsOpen)
    (h : (abandonCalls attemptId now rows).Commits db ambiguous db') :
    (∃ t, db'.1 = { db.1 with toolInvocations := t }) ∧
      List.Forall₂ (AbandonedAfter attemptId now (rows.map (·.id))) db.1.toolInvocations.rows
        db'.1.toolInvocations.rows := by
  induction rows generalizing db ambiguous with
  | nil =>
    obtain ⟨-, rfl⟩ := Tx.commits_pure.mp h
    exact ⟨⟨_, rfl⟩, List.forall₂_same.mpr fun call _ =>
      ⟨SameCall.refl call, Or.inl ⟨rfl, List.not_mem_nil⟩⟩⟩
  | cons seen rest ih =>
    simp only [abandonCalls, Tx.commits_bind, Tx.commits_updateOne, Tx.commits_pure] at h
    obtain ⟨_, db₁, ⟨hcount, hupdates⟩, _, _, hrest, -, rfl⟩ := h
    obtain ⟨⟨t, ht⟩, hrows⟩ := ih (fun other hother =>
      hopen other (List.mem_cons_of_mem _ hother)) hrest
    obtain ⟨row, hrow, hp, -⟩ := Table.exists_unique_of_countP hcount
    have hrows₁ := hupdates.rows
    simp only [table_toolInvocation] at hrows₁
    rw [hrows₁, List.forall₂_map_left_iff] at hrows
    refine ⟨?_, forall₂_imp_of_mem hrows ?_⟩
    · obtain ⟨t₁, -, hdb₁⟩ := hupdates
      rw [ht, hdb₁]
      exact ⟨t, rfl⟩
    · rintro call hcall call' ⟨hsame, hmoved⟩
      by_cases hpc : AbandonFence attemptId seen call
      · rw [Table.amend_of_pos hpc] at hsame hmoved
        have hclosed := abandon_closed seen.status now call
        refine ⟨(abandon_same _ _ _).trans hsame, Or.inr ⟨⟨hpc.2.1, ?_⟩, ?_⟩⟩
        · rw [hpc.2.2]
          exact hopen seen List.mem_cons_self
        · rcases hmoved with ⟨rfl, -⟩ | ⟨hwas, -⟩
          · rw [hpc.2.2]
          · exact absurd hwas.2 hclosed
      · rw [Table.amend_of_neg hpc] at hsame hmoved
        refine ⟨hsame, hmoved.imp_left fun ⟨heq, hnot⟩ => ⟨heq, ?_⟩⟩
        rw [List.map_cons, List.mem_cons, not_or]
        refine ⟨fun hid => hpc ?_, hnot⟩
        rwa [Table.eq_of_key_eq hcall hrow (hid.trans hp.1.symm)]

theorem reconcile_rows {ambiguous : List Nat}
    (h : (reconcileAbandonedToolInvocations attemptId now).Commits db ambiguous db') :
    (∃ t, db'.1 = { db.1 with toolInvocations := t }) ∧
      List.Forall₂ (Reconciled attemptId now) db.1.toolInvocations.rows
        db'.1.toolInvocations.rows := by
  simp only [reconcileAbandonedToolInvocations, Tx.commits_bind, Tx.commits_query] at h
  obtain ⟨_, db, ⟨rfl, rfl⟩, habandon⟩ := h
  have hmem : ∀ call, call ∈ db.1.openCalls attemptId ↔
      call ∈ db.1.toolInvocations.rows ∧ call.OpenFor attemptId := by
    intro call
    rw [Tables.openCalls, List.mem_insertionSort, List.mem_filter, decide_eq_true_eq]
  obtain ⟨hframe, hrows⟩ := abandonCalls_rows (fun seen hseen => ((hmem seen).mp hseen).2.2)
    habandon
  refine ⟨hframe, forall₂_imp_of_mem hrows ?_⟩
  rintro call hcall call' ⟨hsame, hmoved⟩
  refine ⟨hsame, hmoved.imp_left fun hkept => ⟨hkept.1, fun hopen => hkept.2 ?_⟩⟩
  exact List.mem_map_of_mem ((hmem call).mpr ⟨hcall, hopen⟩)

theorem obligation_reconciled {t : Table ToolInvocationRecord}
    (hdb' : db'.1 = { db.1 with toolInvocations := t }) (jobId : Nat) :
    db'.1.obligation jobId =
      (db.1.obligation jobId).map fun o => { o with calls := db'.1.callsOf jobId } := by
  simp only [Tables.obligation, Tables.attemptsOf, Tables.callsOf, Tables.timeline, hdb']
  cases db.1.jobs.find jobId with
  | none => rfl
  | some job =>
    simp only [Option.bind_some, Option.map_map]
    rfl

theorem reconciled {ambiguous : List Nat} (ho : db.1.obligation jobId = some o)
    (h : (reconcileAbandonedToolInvocations attemptId now).Commits db ambiguous db') :
    ∃ calls', List.Forall₂ (Reconciled attemptId now) o.calls calls' ∧
      db'.1.obligation jobId = some { o with calls := calls' } := by
  obtain ⟨⟨t, hdb'⟩, hrows⟩ := reconcile_rows h
  refine ⟨db'.1.callsOf jobId, ?_, ?_⟩
  · rw [(obligation_eq_some.mp ho).2.2.2.1]
    apply List.rel_filter ?_ hrows
    rintro call call' ⟨hsame, -⟩
    simp only [decide_eq_true_eq, hsame.jobId]
  · rw [obligation_reconciled hdb', ho, Option.map_some]

theorem Local.reconcile {ambiguous : List Nat}
    (h : (reconcileAbandonedToolInvocations attemptId now).Commits db ambiguous db') :
    Local (Foreign jobId runId attemptId) db db' where
  absent otherId hnone := by
    obtain ⟨⟨t, hdb'⟩, -⟩ := reconcile_rows h
    rw [obligation_reconciled hdb', hnone, Option.map_none]
  other otherId other hother hforeign := by
    obtain ⟨calls', hcalls, hother'⟩ := reconciled hother h
    have heq : other.calls = calls' := by
      rw [← List.forall₂_eq_eq_eq]
      refine forall₂_imp_of_mem hcalls fun call hcall call' ⟨_, hmoved⟩ => ?_
      rcases hmoved with ⟨rfl, -⟩ | ⟨hopen, -⟩
      · rfl
      · exact absurd hopen.1 (hforeign.calls call hcall)
    rw [hother', ← heq]
  kept := by
    obtain ⟨⟨t, hdb'⟩, -⟩ := reconcile_rows h
    rw [hdb']
    exact ⟨rfl, rfl, rfl⟩

variable {attempt : JobAttemptRecord}

theorem callsMove_of_reconciled {calls calls' : List ToolInvocationRecord}
    {attempts : List JobAttemptRecord} (h : List.Forall₂ (Reconciled attemptId now) calls calls')
    (hattempt : attempt ∈ attempts) (hid : attempt.id = attemptId)
    (hactive : attempt.status.IsActive) :
    CallsMove attempts calls calls' :=
  h.imp fun _ _ ⟨hsame, hmoved⟩ => ⟨hsame, hmoved.imp And.left fun ⟨hopen, _⟩ =>
    ⟨hopen.2, attempt, hattempt, hid.trans hopen.1.symm, hactive⟩⟩

theorem settled_of_reconciled {calls' : List ToolInvocationRecord} (hsound : o.Sound)
    (h : List.Forall₂ (Reconciled attemptId now) o.calls calls') (hattempt : attempt ∈ o.attempts)
    (hid : attempt.id = attemptId) (hactive : attempt.status.IsActive) :
    Settled o.attempts calls' := by
  rintro call' hcall' ⟨other, hother, hotherId, hotherActive⟩
  obtain ⟨call, -, hsame, ⟨rfl, hclosed⟩ | ⟨-, rfl⟩⟩ := exists_before h hcall'
  · intro hopen
    rw [hsound.only hother hotherActive hattempt hactive, hid] at hotherId
    exact hclosed ⟨hotherId.symm, hopen⟩
  · exact abandon_closed _ now call

variable {template : RunEventRecord}

theorem ambiguous_told {ambiguous : List Nat} {sequence next : Nat} {types : List RunEventType}
    {base : List RunEventRecord} (ho : db.1.obligation jobId = some o)
    (hrun : template.runId = o.job.runId) (htold : Appends types base o.timeline)
    (hordinary : ∀ type ∈ types, ¬ type.IsTerminal)
    (hsequence : sequence = lastSequence base + types.length + 1)
    (h : (appendAmbiguousCalls template ambiguous sequence).Commits db next db') :
    ∃ types' timeline', (∀ type ∈ types', ¬ type.IsTerminal) ∧
      Appends types' base timeline' ∧ next = lastSequence base + types'.length + 1 ∧
      db'.1.obligation jobId = some { o with timeline := timeline' } := by
  induction ambiguous generalizing db o types sequence with
  | nil =>
    obtain ⟨rfl, rfl⟩ := Tx.commits_pure.mp h
    exact ⟨types, o.timeline, hordinary, htold, hsequence, ho⟩
  | cons invocationId rest ih =>
    simp only [appendAmbiguousCalls, Tx.commits_bind, commits_appendEvent] at h
    obtain ⟨_, db₁, ⟨-, hevent⟩, hrest⟩ := h
    obtain ⟨timeline₁, htold₁, ho₁⟩ := event_told ho hevent hrun htold hsequence
    refine ih (o := { o with timeline := timeline₁ }) ho₁ hrun htold₁ ?_ ?_ hrest
    · intro type htype
      rcases List.mem_append.mp htype with hold | hnew
      · exact hordinary type hold
      · rw [List.mem_singleton.mp hnew]
        show ¬ RunEventType.toolAmbiguous.IsTerminal
        decide
    · rw [hsequence, List.length_append]
      rfl

theorem Local.ambiguous {ambiguous : List Nat} {sequence next : Nat} (hrun : template.runId = runId)
    (h : (appendAmbiguousCalls template ambiguous sequence).Commits db next db') :
    Local (Foreign jobId runId attemptId) db db' := by
  induction ambiguous generalizing db sequence with
  | nil =>
    obtain ⟨-, rfl⟩ := Tx.commits_pure.mp h
    exact Local.refl _
  | cons invocationId rest ih =>
    simp only [appendAmbiguousCalls, Tx.commits_bind, commits_appendEvent] at h
    obtain ⟨_, db₁, ⟨-, hevent⟩, hrest⟩ := h
    exact (Local.ofEvent hevent hrun).trans (ih hrest)

end Abandoned

section Reclamation

variable {expired : ExpiredClaim} {now : Instant} {backoff : Duration} {db db' : Database}
  {o : Obligation} {rules : Nat → Discipline} {reclaimed : ReclaimedClaim}

/-- What the reclamation's statements leave alone. -/
abbrev ExpiredClaim.Spares (expired : ExpiredClaim) : Obligation → Prop :=
  Foreign expired.job.id expired.job.runId expired.attempt.id

/-- The obligation that a candidate belongs to. -/
structure ExpiredClaim.Of (expired : ExpiredClaim) (db : Database) (o : Obligation) :
    Prop where
  obligation : db.1.obligation expired.job.id = some o
  job : o.job = expired.job
  owner : ∀ attempt ∈ db.1.jobAttempts.rows, attempt.id = expired.attempt.id →
    attempt.jobId = expired.job.id

theorem reclaimCandidate_of (h : reclaimCandidate db.1 now = some expired) :
    ∃ o, expired.Of db o := by
  obtain ⟨hjob, hattempt, howner, -⟩ := mem_expiredClaims.mp (reclaimCandidate_mem h)
  obtain ⟨o, ho, hsame⟩ := exists_obligation hjob
  refine ⟨o, ho, hsame, fun attempt hrow hid => ?_⟩
  rw [Table.eq_of_key_eq hrow hattempt hid, howner]

variable {eventType : RunEventType}

theorem recovery_told (ho : db.1.obligation expired.job.id = some o)
    (hrun : o.job.runId = expired.job.runId) (h : RecoveryEvents expired now eventType db db') :
    ∃ timeline', Appends [.attemptExpired, eventType] o.timeline timeline' ∧
      db'.1.obligation expired.job.id = some { o with timeline := timeline' } := by
  obtain ⟨db₁, hexpired, hrecovery⟩ := h
  have hbase := timeline_eq ho hrun
  obtain ⟨timeline₁, htold₁, ho₁⟩ := event_told ho hexpired hrun.symm
    (Appends.nil o.timeline) (by rw [← hbase]; rfl)
  exact event_told ho₁ hrecovery hrun.symm htold₁ (by rw [← hbase]; rfl)

theorem Local.recovery (h : RecoveryEvents expired now eventType db db') :
    Local expired.Spares db db' := by
  obtain ⟨db₁, hexpired, hrecovery⟩ := h
  exact (Local.ofEvent hexpired rfl).trans (Local.ofEvent hrecovery rfl)

theorem Advances.of_expired (hsound : AllSound db) (hof : expired.Of db o)
    (hlocal : Local expired.Spares db db') {o' : Obligation}
    (ho' : db'.1.obligation expired.job.id = some o')
    (hstep : Step (rules expired.job.id) now o o') : Advances rules now db db' :=
  Advances.of_local hsound hof.obligation (congrArg JobRecord.runId hof.job) hof.owner hlocal
    ho' hstep

theorem Local.preStartRequeue
    (h : (reclaimPreStartRequeue expired now backoff).Commits db reclaimed db') :
    Local expired.Spares db db' := by
  obtain ⟨db₁, db₂, -, hattempt, -, hjob, hevents⟩ := commits_preStartRequeue h
  exact (Local.ofAttempt hattempt (fun _ => rfl) fun _ hp => hp.2.1).trans <|
    (Local.ofJob hjob (fun _ => rfl) (fun _ => rfl) fun _ hp => hp.1).trans <|
      Local.recovery hevents

theorem Local.preStartExhausted
    (h : (reclaimPreStartExhausted expired now).Commits db reclaimed db') :
    Local expired.Spares db db' := by
  obtain ⟨db₁, db₂, db₃, db₄, -, hattempt, -, hjob, -, hrun, hevents, hfailed⟩ :=
    commits_preStartExhausted h
  exact (Local.ofAttempt hattempt (fun _ => rfl) fun _ hp => hp.2.1).trans <|
    (Local.ofJob hjob (fun _ => rfl) (fun _ => rfl) fun _ hp => hp.1).trans <|
      (Local.ofRun hrun (fun _ => rfl) fun _ hp => hp.1).trans <|
        (Local.recovery hevents).trans <| Local.ofEvent hfailed rfl

theorem Local.postStartAmbiguous
    (h : (reclaimPostStartAmbiguous expired now).Commits db reclaimed db') :
    Local expired.Spares db db' := by
  obtain ⟨db₁, db₂, db₃, db₄, db₅, db₆, ambiguousCalls, next, -, hattempt, -, hjob, -, hrun,
    hreconcile, hevents, hambiguous, hfailed⟩ := commits_postStartAmbiguous h
  exact (Local.ofAttempt hattempt (fun _ => rfl) fun _ hp => hp.2.1).trans <|
    (Local.ofJob hjob (fun _ => rfl) (fun _ => rfl) fun _ hp => hp.1).trans <|
      (Local.ofRun hrun (fun _ => rfl) fun _ hp => hp.1).trans <|
        (Local.reconcile hreconcile).trans <| (Local.recovery hevents).trans <|
          (Local.ambiguous rfl hambiguous).trans <| Local.ofEvent hfailed rfl

section

variable (hsound : AllSound db) (hof : expired.Of db o)

include hsound hof

theorem preStartRequeue_advances (hbudget : expired.job.attemptCount < expired.job.maxAttempts)
    (hunstarted : (rules expired.job.id).unstarted → o.run.status = .created)
    (h : (reclaimPreStartRequeue expired now backoff).Commits db reclaimed db') :
    Advances rules now db db' := by
  obtain ⟨db₁, db₂, hattemptCount, hattempt, hjobCount, hjob, hevents⟩ :=
    commits_preStartRequeue h
  have hrunId : o.job.runId = expired.job.runId := congrArg JobRecord.runId hof.job
  obtain ⟨attempt, hmem, hfence⟩ :=
    fence_attempt hof.obligation hattemptCount fun _ hp => hp.2.1
  have ho₁ := attempts_updated hof.obligation hattempt fun _ => rfl
  have hjobFence := fence_job ho₁ hjobCount fun _ hp => hp.1
  have ho₂ := job_updated ho₁ hjob hjobFence (fun _ => rfl) fun _ => rfl
  obtain ⟨timeline', htold, ho'⟩ := recovery_told ho₂ hrunId hevents
  have hlocal := Local.preStartRequeue h
  have hnever : attempt.executionStartedAt = none := by
    have hiff := hfence.2.2.2.1
    simpa using hiff
  rw [← hof.job] at hbudget
  refine Advances.of_expired hsound hof hlocal ho' (Step.requeue hjobFence.2.1 hbudget
    hunstarted ⟨rfl, rfl, rfl, rfl, rfl, rfl⟩ rfl rfl ⟨rfl, rfl, rfl, rfl⟩ ?_ htold)
  refine attempts_moved (hsound _ o hof.obligation) hmem hfence ?_
    ⟨rfl, rfl, rfl, rfl, rfl, rfl⟩ ⟨rfl, hnever, hnever⟩
  intro other hp
  rw [hp.2.2.1]
  trivial

theorem preStartExhausted_advances
    (h : (reclaimPreStartExhausted expired now).Commits db reclaimed db') :
    Advances rules now db db' := by
  obtain ⟨db₁, db₂, db₃, db₄, hattemptCount, hattempt, hjobCount, hjob, hrunCount, hrun,
    hevents, hfailed⟩ := commits_preStartExhausted h
  have hrunId : o.job.runId = expired.job.runId := congrArg JobRecord.runId hof.job
  obtain ⟨attempt, hmem, hfence⟩ :=
    fence_attempt hof.obligation hattemptCount fun _ hp => hp.2.1
  have ho₁ := attempts_updated hof.obligation hattempt fun _ => rfl
  have hjobFence := fence_job ho₁ hjobCount fun _ hp => hp.1
  have ho₂ := job_updated ho₁ hjob hjobFence (fun _ => rfl) fun _ => rfl
  have hrunFence := fence_run ho₂ hrunCount fun _ hp => hp.1.trans hrunId.symm
  have ho₃ := run_updated ho₂ hrun hrunFence fun _ => rfl
  obtain ⟨timeline₄, htold₄, ho₄⟩ := recovery_told ho₃ hrunId hevents
  obtain ⟨timeline', htold, ho'⟩ := event_told ho₄ hfailed hrunId.symm htold₄
    (by rw [timeline_eq ho₃ hrunId]; rfl)
  have hlocal := Local.preStartExhausted h
  have hactive : attempt.status.IsActive := by
    rw [hfence.2.2.1]
    trivial
  have hnever : attempt.executionStartedAt = none := by
    have hiff := hfence.2.2.2.1
    simpa using hiff
  have hopen : ¬ o.job.status.IsTerminal := by
    rw [hjobFence.2.1]
    exact id
  refine Advances.of_expired hsound hof hlocal ho' (Step.close hopen
    ⟨rfl, rfl, rfl, rfl, rfl, rfl⟩ trivial rfl ⟨rfl, rfl, rfl, rfl⟩ ⟨rfl, rfl⟩
    List.mem_cons_self ?_ (CallsMove.refl _ _)
    (fun _ => settled_of_unstarted (hsound _ o hof.obligation) hmem hactive hnever)
    (by decide) rfl htold)
  refine attempts_moved (hsound _ o hof.obligation) hmem hfence ?_
    ⟨rfl, rfl, rfl, rfl, rfl, rfl⟩ ⟨id, rfl⟩
  intro other hp
  rw [hp.2.2.1]
  trivial

theorem postStartAmbiguous_advances
    (h : (reclaimPostStartAmbiguous expired now).Commits db reclaimed db') :
    Advances rules now db db' := by
  obtain ⟨db₁, db₂, db₃, db₄, db₅, db₆, ambiguousCalls, next, hattemptCount, hattempt,
    hjobCount, hjob, hrunCount, hrun, hreconcile, hevents, hambiguous, hfailed⟩ :=
    commits_postStartAmbiguous h
  have hrunId : o.job.runId = expired.job.runId := congrArg JobRecord.runId hof.job
  obtain ⟨attempt, hmem, hfence⟩ :=
    fence_attempt hof.obligation hattemptCount fun _ hp => hp.2.1
  have ho₁ := attempts_updated hof.obligation hattempt fun _ => rfl
  have hjobFence := fence_job ho₁ hjobCount fun _ hp => hp.1
  have ho₂ := job_updated ho₁ hjob hjobFence (fun _ => rfl) fun _ => rfl
  have hrunFence := fence_run ho₂ hrunCount fun _ hp => hp.1.trans hrunId.symm
  have ho₃ := run_updated ho₂ hrun hrunFence fun _ => rfl
  obtain ⟨calls', hcalls, ho₄⟩ := reconciled ho₃ hreconcile
  obtain ⟨timeline₅, htold₅, ho₅⟩ := recovery_told ho₄ hrunId hevents
  obtain ⟨types, timeline₆, hordinary, htold₆, hnext, ho₆⟩ :=
    ambiguous_told ho₅ hrunId.symm htold₅ (by decide)
      (by rw [timeline_eq ho₄ hrunId]; rfl) hambiguous
  obtain ⟨timeline', htold, ho'⟩ := event_told ho₆ hfailed hrunId.symm htold₆ hnext
  have hlocal := Local.postStartAmbiguous h
  have hactive : attempt.status.IsActive := by
    rw [hfence.2.2.1]
    trivial
  have hopen : ¬ o.job.status.IsTerminal := by
    rw [hjobFence.2.1]
    exact id
  refine Advances.of_expired hsound hof hlocal ho' (Step.close hopen
    ⟨rfl, rfl, rfl, rfl, rfl, rfl⟩ trivial rfl ⟨rfl, rfl, rfl, rfl⟩ ⟨rfl, rfl⟩
    List.mem_cons_self ?_ (callsMove_of_reconciled hcalls hmem hfence.1 hactive)
    (fun _ => settled_of_reconciled (hsound _ o hof.obligation) hcalls hmem hfence.1 hactive)
    hordinary rfl htold)
  refine attempts_moved (hsound _ o hof.obligation) hmem hfence ?_
    ⟨rfl, rfl, rfl, rfl, rfl, rfl⟩ ⟨id, rfl⟩
  intro other hp
  rw [hp.2.2.1]
  trivial

end

/-- The candidate is not a claim of a started Run that is still to be requeued. -/
def RequeuesUnstarted (db : Tables) (now : Instant) : Prop :=
  ∀ expired ∈ reclaimCandidate db now, expired.job.status = .claimed →
    expired.job.attemptCount < expired.job.maxAttempts →
    ∀ run ∈ db.runs.find expired.job.runId, run.status = .created

theorem reclaimNext_advances {outcome : Option ReclaimedClaim} (hsound : AllSound db)
    (hunstarted : ∀ jobId, (rules jobId).unstarted → RequeuesUnstarted db.1 now)
    (h : (reclaimNextExpiredClaim now backoff).Commits db outcome db') :
    Advances rules now db db' := by
  rcases commits_reclaimNext h with ⟨-, -, rfl⟩ | ⟨expired, reclaimed, hcandidate, -, h⟩
  · exact Advances.refl db'
  · obtain ⟨o, hof⟩ := reclaimCandidate_of hcandidate
    simp only [reclaimOnConnection, Tx.commits_ite] at h
    rcases h with ⟨hclaimed, ⟨hbudget, h⟩ | ⟨-, h⟩⟩ | ⟨-, h⟩
    · refine preStartRequeue_advances hsound hof hbudget (fun hrule => ?_) h
      refine hunstarted _ hrule expired hcandidate hclaimed hbudget o.run ?_
      rw [← hof.job]
      exact obligation_run hof.obligation
    · exact preStartExhausted_advances hsound hof h
    · exact postStartAmbiguous_advances hsound hof h

end Reclamation

variable {run : RunRecord} {job : JobRecord} {now : Instant} {db db' : Database}
  {o : Obligation} {rules : Nat → Discipline}

def ActiveAmong (attempts : List JobAttemptRecord) : Option JobAttemptRecord → Prop
  | none => ∀ attempt ∈ attempts, ¬ attempt.status.IsActive
  | some attempt => attempt ∈ attempts ∧ attempt.status.IsActive

theorem activeAttempt_among {jobId : Nat} (ho : db.1.obligation jobId = some o) :
    ActiveAmong o.attempts (db.1.activeAttempt jobId) := by
  cases hactive : db.1.activeAttempt jobId with
  | none =>
    intro attempt hattempt hstill
    obtain ⟨hrow, howner⟩ := (mem_attempts ho).mp hattempt
    have hnil := List.argmax_eq_none.mp hactive
    rw [List.filter_eq_nil_iff] at hnil
    exact hnil attempt hrow (decide_eq_true ⟨howner, hstill⟩)
  | some attempt =>
    have hmem := List.argmax_mem hactive
    rw [List.mem_filter, decide_eq_true_eq] at hmem
    exact ⟨(mem_attempts ho).mpr ⟨hmem.1, hmem.2.1⟩, hmem.2.2⟩

variable {active : Option JobAttemptRecord} {value : Unit}

theorem cancelAttempts (hsound : o.Sound) {o₁ : Obligation} (ho₁ : db.1.obligation job.id = some o₁)
    (hattempts : o₁.attempts = o.attempts) (hactive : ActiveAmong o.attempts active)
    (h : (cancelActiveAttempt job.id active now).Commits db value db') :
    ∃ attempts', AttemptsMove (fun attempt attempt' => ¬ attempt'.status.IsActive ∧
        attempt'.executionStartedAt = attempt.executionStartedAt) o.attempts attempts' ∧
      db'.1.obligation job.id = some { o₁ with attempts := attempts' } := by
  cases active with
  | none =>
    obtain ⟨-, rfl⟩ := Tx.commits_pure.mp h
    refine ⟨o.attempts, ?_, by rw [ho₁, ← hattempts]⟩
    exact List.forall₂_same.mpr fun attempt hattempt => ⟨SameAttempt.refl attempt,
      fun hstill => absurd hstill (hactive attempt hattempt), fun _ => rfl⟩
  | some attempt =>
    obtain ⟨hcount, hupdates⟩ := Tx.commits_updateOne.mp h
    obtain ⟨row, hrow, hfence⟩ := fence_attempt ho₁ hcount fun _ hp => hp.2.1
    have ho₂ := attempts_updated ho₁ hupdates fun _ => rfl
    rw [hattempts] at hrow ho₂
    exact ⟨_, attempts_moved hsound hrow hfence (fun _ hp => hp.2.2)
      ⟨rfl, rfl, rfl, rfl, rfl, rfl⟩ ⟨id, rfl⟩, ho₂⟩

variable {ambiguousCalls : List Nat}

theorem cancelCalls (hsound : o.Sound) {o₁ : Obligation} (ho₁ : db.1.obligation job.id = some o₁)
    (hcalls : o₁.calls = o.calls) (hactive : ActiveAmong o.attempts active)
    (h : (reconcileActiveAttempt active now).Commits db ambiguousCalls db') :
    ∃ calls', CallsMove o.attempts o.calls calls' ∧ Settled o.attempts calls' ∧
      db'.1.obligation job.id = some { o₁ with calls := calls' } := by
  cases active with
  | none =>
    obtain ⟨-, rfl⟩ := Tx.commits_pure.mp h
    refine ⟨o.calls, CallsMove.refl _ _, ?_, by rw [ho₁, ← hcalls]⟩
    rintro call - ⟨attempt, hattempt, -, hstill⟩
    exact absurd hstill (hactive attempt hattempt)
  | some attempt =>
    obtain ⟨calls', hreconciled, ho'⟩ := reconciled ho₁ h
    rw [hcalls] at hreconciled
    exact ⟨calls', callsMove_of_reconciled hreconciled hactive.1 rfl hactive.2,
      settled_of_reconciled hsound hreconciled hactive.1 rfl hactive.2, ho'⟩

theorem Local.cancelAttempts {runId attemptId : Nat}
    (h : (cancelActiveAttempt job.id active now).Commits db value db') :
    Local (Foreign job.id runId attemptId) db db' := by
  cases active with
  | none =>
    obtain ⟨-, rfl⟩ := Tx.commits_pure.mp h
    exact Local.refl _
  | some attempt =>
    obtain ⟨-, hupdates⟩ := Tx.commits_updateOne.mp h
    exact Local.ofAttempt hupdates (fun _ => rfl) fun _ hp => hp.2.1

theorem Local.cancelCalls {jobId runId : Nat} (next : Nat)
    (h : (reconcileActiveAttempt active now).Commits db ambiguousCalls db') :
    Local (Foreign jobId runId (active.elim next (·.id))) db db' := by
  cases active with
  | none =>
    obtain ⟨-, rfl⟩ := Tx.commits_pure.mp h
    exact Local.refl _
  | some attempt => exact Local.reconcile h

theorem requestCancel_job (ho : db.1.obligation o.job.id = some o)
    (h : Tx.Updates (fun row : JobRecord => row.id = o.job.id ∧ row.cancelRequestedAt = none)
      (JobRecord.requestCancel now) db db') :
    ∃ job₁, SameJob o.job job₁ ∧ job₁.attemptCount = o.job.attemptCount ∧
      db'.1.obligation o.job.id = some { o with job := job₁ } := by
  have ho₁ := obligation_updateJobs h (fun _ => rfl) (fun _ => rfl) o.job.id
  rw [ho, Option.map_some] at ho₁
  refine ⟨_, ?_, ?_, ho₁⟩
  · unfold Table.amend
    split
    · exact ⟨rfl, rfl, rfl, rfl, rfl, rfl⟩
    · exact SameJob.refl o.job
  · unfold Table.amend
    split <;> rfl

theorem cancelOnConnection_advances (hsound : AllSound db) (ho : db.1.obligation job.id = some o)
    (hjob : o.job = job) (hrun : o.run = run) (hopen : ¬ run.status.IsTerminal)
    (h : (cancelOnConnection run job now).Commits db value db') :
    Advances rules now db db' := by
  obtain ⟨db₁, db₂, db₃, db₄, db₅, db₆, db₇, active, ambiguousCalls, next, hrequest, hactive,
    hattempt, hjobCount, hcancelJob, hrunCount, hcancelRun, hreconcile, hrequested,
    hambiguous, hcancelled⟩ := commits_cancelOnConnection h
  subst hjob hrun
  obtain ⟨job₁, hsame, hcount, ho₁⟩ := requestCancel_job ho hrequest
  have hstill := activeAttempt_among ho₁
  rw [← hactive] at hstill
  obtain ⟨attempts', hmoved, ho₂⟩ := cancelAttempts (hsound _ o ho) ho₁ rfl hstill hattempt
  have hjobFence := fence_job ho₂ hjobCount fun _ hp => hp.1
  have ho₃ := job_updated ho₂ hcancelJob hjobFence (fun _ => rfl) fun _ => rfl
  have hrunFence := fence_run ho₃ hrunCount fun _ hp =>
    hp.1.trans ((obligation_runId ho).trans hsame.runId.symm)
  have ho₄ := run_updated ho₃ hcancelRun hrunFence fun _ => rfl
  obtain ⟨calls', hcalls, hsettled, ho₅⟩ :=
    cancelCalls (hsound _ o ho) ho₄ rfl hstill hreconcile
  have hbase := timeline_eq ho₅ hsame.runId
  obtain ⟨timeline₆, htold₆, ho₆⟩ := event_told ho₅ hrequested hsame.runId.symm
    (Appends.nil o.timeline) (by rw [← hbase]; rfl)
  obtain ⟨types, timeline₇, hordinary, htold₇, hnext, ho₇⟩ :=
    ambiguous_told ho₆ hsame.runId.symm htold₆
      (List.forall_mem_singleton.mpr
        (show ¬ RunEventType.cancellationRequested.IsTerminal by decide))
      (by rw [← hbase]; rfl) hambiguous
  obtain ⟨timeline', htold, ho'⟩ :=
    event_told ho₇ hcancelled hsame.runId.symm htold₇ hnext
  have hlocal : Local (Foreign o.job.id o.job.runId
      (active.elim db.1.jobAttempts.next (·.id))) db db' :=
    (Local.ofJob hrequest (fun _ => rfl) (fun _ => rfl) fun _ hp => hp.1).trans <|
      (Local.cancelAttempts hattempt).trans <|
        (Local.ofJob hcancelJob (fun _ => rfl) (fun _ => rfl) fun _ hp => hp.1).trans <|
          (Local.ofRun hcancelRun (fun _ => rfl) fun _ hp =>
            hp.1.trans (obligation_runId ho)).trans <|
            (Local.cancelCalls _ hreconcile).trans <| (Local.ofEvent hrequested rfl).trans <|
              (Local.ambiguous rfl hambiguous).trans <| Local.ofEvent hcancelled rfl
  have howner : ∀ attempt ∈ db.1.jobAttempts.rows,
      attempt.id = active.elim db.1.jobAttempts.next (·.id) →
      attempt.jobId = o.job.id := by
    intro attempt hrow hid
    cases active with
    | none => exact absurd hid (Nat.ne_of_lt (db.1.jobAttempts.lawful.fresh attempt hrow))
    | some own =>
      obtain ⟨hownRow, hownJob⟩ := (mem_attempts ho).mp hstill.1
      rw [Table.eq_of_key_eq hrow hownRow hid, hownJob]
  exact Advances.of_local hsound ho rfl howner hlocal ho' (Step.close
    (job_open hopen (hsound _ o ho).agrees) (hsame.trans ⟨rfl, rfl, rfl, rfl, rfl, rfl⟩)
    trivial hcount ⟨rfl, rfl, rfl, rfl⟩ ⟨rfl, rfl⟩ List.mem_cons_self hmoved hcalls
    (fun _ => hsettled) hordinary rfl htold)

theorem cancelRun_advances {userId runId : Nat} {outcome : CancellationOutcome}
    (hsound : AllSound db) (h : (cancelRun userId runId now).Commits db outcome db') :
    Advances rules now db db' := by
  rcases commits_cancelRun h with rfl | ⟨run, job, hfind, hopen, hjob, hcancel⟩
  · exact Advances.refl db'
  · obtain ⟨o, ho, hsame⟩ := exists_obligation (List.mem_of_find?_eq_some hjob)
    have hrunId : job.runId = runId := by simpa using List.find?_some hjob
    have hrun := obligation_run ho
    rw [hsame, hrunId, hfind] at hrun
    exact cancelOnConnection_advances hsound ho hsame (Option.some.inj hrun).symm hopen hcancel

end NervOS
