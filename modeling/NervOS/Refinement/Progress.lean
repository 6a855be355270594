/-
What goes through: on a sound obligation the statements of a reclamation match their
rows and commit, as long as the clock stands behind the instants that they order.
-/
import NervOS.Database.Integrity
import NervOS.Refinement.Recovery

namespace NervOS

open Relational

section Statements

variable {db : Database} {jobId : Nat} {o : Obligation}

section

variable (ho : db.1.obligation jobId = some o)

include ho

theorem exists_jobUpdate {p : JobRecord → Prop} [DecidablePred p] {f : JobRecord → JobRecord}
    (hp : p o.job) (hpin : ∀ job, p job → job.id = jobId) (hsame : ∀ job, SameJob job (f job))
    (hcheck : (f o.job).Check) :
    ∃ db', db.1.jobs.rows.countP p = 1 ∧ Tx.Updates p f db db' ∧
      db'.1.obligation jobId = some { o with job := f o.job } := by
  obtain ⟨hrow, hid⟩ := Table.find_eq_some.mp (obligation_job ho)
  have hpinned : ∀ other, p other → key other = key o.job :=
    fun other hother => (hpin other hother).trans hid.symm
  have hclash : ∀ other ∈ db.1.jobs.rows, (Clash other (f o.job) → Clash other o.job) ∧
      (Clash (f o.job) other → Clash o.job other) :=
    fun other _ => ⟨fun h => Eq.trans h (hsame o.job).runId,
      fun h => Eq.trans (hsame o.job).runId.symm h⟩
  have hupdate : ∃ db', db.1.jobs.rows.countP p = 1 ∧ Tx.Updates p f db db' :=
    Tx.exists_updates hrow hp hpinned (hsame o.job).id hcheck hclash fun t ht =>
      db.2.updateJobs ht (fun job => (hsame job).id) (fun job => (hsame job).runId)
        fun job => (hsame job).agentInstanceId
  obtain ⟨db', hcount, hupdates⟩ := hupdate
  exact ⟨db', hcount, hupdates, job_updated ho hupdates hp (fun job => (hsame job).id)
    fun job => (hsame job).runId⟩

theorem exists_runUpdate {p : RunRecord → Prop} [DecidablePred p] {f : RunRecord → RunRecord}
    (hp : p o.run) (hpin : ∀ run, p run → run.id = o.job.runId) (hid : ∀ run, (f run).id = run.id)
    (hagent : ∀ run, (f run).agentInstanceId = run.agentInstanceId) (hcheck : (f o.run).Check) :
    ∃ db', db.1.runs.rows.countP p = 1 ∧ Tx.Updates p f db db' ∧
      db'.1.obligation jobId = some { o with run := f o.run } := by
  obtain ⟨hrow, hkey⟩ := Table.find_eq_some.mp (obligation_run ho)
  have hpinned : ∀ other, p other → key other = key o.run :=
    fun other hother => (hpin other hother).trans hkey.symm
  have hupdate : ∃ db', db.1.runs.rows.countP p = 1 ∧ Tx.Updates p f db db' :=
    Tx.exists_updates hrow hp hpinned (hid o.run) hcheck
      (fun _ _ => ⟨fun h => h, fun h => h⟩) fun t ht => db.2.updateRuns ht hid hagent
  obtain ⟨db', hcount, hupdates⟩ := hupdate
  exact ⟨db', hcount, hupdates, run_updated ho hupdates hp hid⟩

theorem exists_attemptUpdate {attempt : JobAttemptRecord} (hattempt : attempt ∈ o.attempts)
    {p : JobAttemptRecord → Prop} [DecidablePred p] {f : JobAttemptRecord → JobAttemptRecord}
    (hp : p attempt) (hpin : ∀ other, p other → other.id = attempt.id)
    (hsame : ∀ other, SameAttempt other (f other)) (hclosed : ¬ (f attempt).status.IsActive)
    (hcheck : (f attempt).Check) :
    ∃ db' attempts', db.1.jobAttempts.rows.countP p = 1 ∧ Tx.Updates p f db db' ∧
      attempts'.map (·.id) = o.attempts.map (·.id) ∧
      db'.1.obligation jobId = some { o with attempts := attempts' } := by
  have hrow := ((mem_attempts ho).mp hattempt).1
  have hclash : ∀ other ∈ db.1.jobAttempts.rows,
      (Clash other (f attempt) → Clash other attempt) ∧
        (Clash (f attempt) other → Clash attempt other) := by
    intro other _
    constructor
    · rintro ⟨hjob, hnumber | hactive⟩
      · exact ⟨hjob.trans (hsame attempt).jobId,
          Or.inl (hnumber.trans (hsame attempt).attemptNumber)⟩
      · exact absurd hactive.2 hclosed
    · rintro ⟨hjob, hnumber | hactive⟩
      · exact ⟨(hsame attempt).jobId.symm.trans hjob,
          Or.inl ((hsame attempt).attemptNumber.symm.trans hnumber)⟩
      · exact absurd hactive.1 hclosed
  have hupdate : ∃ db', db.1.jobAttempts.rows.countP p = 1 ∧ Tx.Updates p f db db' :=
    Tx.exists_updates hrow hp hpin (hsame attempt).id hcheck hclash fun t ht =>
      db.2.updateAttempts ht (fun other => (hsame other).id) fun other => (hsame other).jobId
  obtain ⟨db', hcount, hupdates⟩ := hupdate
  exact ⟨db', o.attempts.map (Table.amend p f), hcount, hupdates,
    map_column_amend (fun other => (hsame other).id) o.attempts,
    attempts_updated ho hupdates fun other => (hsame other).jobId⟩

end

theorem exists_callUpdate {call : ToolInvocationRecord}
    (hcall : call ∈ db.1.toolInvocations.rows) {p : ToolInvocationRecord → Prop}
    [DecidablePred p] {f : ToolInvocationRecord → ToolInvocationRecord} (hp : p call)
    (hpin : ∀ other, p other → other.id = call.id)
    (hsame : ∀ other, SameParents other (f other))
    (hsequence : (f call).toolSequence = call.toolSequence) (hcheck : (f call).Check) :
    ∃ db', db.1.toolInvocations.rows.countP p = 1 ∧ Tx.Updates p f db db' := by
  have hclash : ∀ other ∈ db.1.toolInvocations.rows,
      (Clash other (f call) → Clash other call) ∧ (Clash (f call) other → Clash call other) :=
    fun other _ => ⟨fun h => ⟨h.1.trans (hsame call).attemptId, h.2.trans hsequence⟩,
      fun h => ⟨(hsame call).attemptId.symm.trans h.1, hsequence.symm.trans h.2⟩⟩
  exact Tx.exists_updates hcall hp hpin (hsame call).id hcheck hclash fun t ht =>
    db.2.updateCalls ht hsame

structure EventOf (o : Obligation) (event : RunEventRecord) : Prop where
  run : event.runId = o.job.runId
  job : event.jobId = o.job.id
  attempt : ∃ id ∈ o.attempts.map (·.id), event.attemptId = some id
  call : ∀ id ∈ event.toolInvocationId, ∃ call ∈ o.calls, call.id = id ∧
    call.runId = o.job.runId ∧ event.attemptId = some call.attemptId

variable {types : List RunEventType}

theorem Appends.lastSequence {timeline timeline' : List RunEventRecord}
    (h : Appends types timeline timeline') :
    NervOS.lastSequence timeline' = NervOS.lastSequence timeline + types.length := by
  obtain ⟨events, rfl, rfl, hsequences⟩ := h
  rw [List.length_map] at hsequences ⊢
  exact lastSequence_append hsequences

theorem exists_told (ho : db.1.obligation jobId = some o) {event : RunEventRecord}
    {base : List RunEventRecord} (hof : EventOf o event) (htold : Appends types base o.timeline)
    (hsequence : event.sequence = lastSequence base + types.length + 1) (hcheck : event.Check) :
    ∃ db' timeline', (appendEventOnConnection event).Commits db () db' ∧
      Appends (types ++ [event.eventType]) base timeline' ∧
      db'.1.obligation jobId = some { o with timeline := timeline' } := by
  obtain ⟨attemptId, hattempt, heventAttempt⟩ := hof.attempt
  obtain ⟨attempt, hmem, rfl⟩ := List.mem_map.mp hattempt
  have hcalls : ∀ id ∈ event.toolInvocationId, ∃ call ∈ o.calls,
      db.1.toolInvocations.find id = some call ∧ call.runId = o.job.runId ∧
        event.attemptId = some call.attemptId := by
    intro id hid
    obtain ⟨call, hcall, hcallId, howned⟩ := hof.call id hid
    exact ⟨call, hcall, Table.find_eq_some.mpr ⟨((mem_calls ho).mp hcall).1, hcallId⟩, howned⟩
  have howns : InvocationOwnership db.1 event := by
    intro id hid
    obtain ⟨call, hcall, hfind, hcallRun, hcallAttempt⟩ := hcalls id hid
    refine ⟨call.attemptId, hcallAttempt, call, hfind, hcallRun.trans hof.run.symm, ?_, rfl⟩
    rw [hof.job, obligation_jobId ho, ((mem_calls ho).mp hcall).2]
  have hclash : ∀ other ∈ db.1.runEvents.rows, ∀ id, ¬ Clash other (event.withId id) := by
    rintro other hother id ⟨hrun, hsame⟩
    have hmem : other ∈ o.timeline := by
      rw [obligation_timeline ho]
      exact List.mem_filter.mpr ⟨hother, decide_eq_true (Eq.trans hrun hof.run)⟩
    have hle := lastSequence_le hmem
    have hlast := htold.lastSequence
    have hnew : other.sequence = event.sequence := hsame
    omega
  have hrun : (db.1.runs.find event.runId).isSome := by
    rw [hof.run, obligation_run ho, Option.isSome_some]
  have hjob : (db.1.jobs.find event.jobId).isSome := by
    rw [hof.job, obligation_jobId ho, obligation_job ho, Option.isSome_some]
  have hattempts : ∀ id ∈ event.attemptId, (db.1.jobAttempts.find id).isSome := by
    rw [heventAttempt]
    exact forall_mem_some (Option.isSome_of_eq_some (Table.find_key ((mem_attempts ho).mp hmem).1))
  have hinvocations : ∀ id ∈ event.toolInvocationId, (db.1.toolInvocations.find id).isSome := by
    intro id hid
    obtain ⟨call, -, hfind, -⟩ := hcalls id hid
    exact Option.isSome_of_eq_some hfind
  have hinserts : ∃ db', Tx.Inserts event.withId db db' :=
    Tx.exists_inserts (fun _ => rfl)
      (fun _ => ⟨hcheck.1, hcheck.2, hcheck.3, hcheck.4, hcheck.5⟩) hclash
      fun t ht => db.2.insertEvent ht hrun hjob hattempts hinvocations
  obtain ⟨db', hinsert⟩ := hinserts
  obtain ⟨timeline', htold', ho'⟩ := event_told ho hinsert hof.run htold hsequence
  exact ⟨db', timeline', commits_appendEvent.mpr ⟨howns, hinsert⟩, htold', ho'⟩

end Statements

section Abandoned

variable {db : Database} {attemptId jobId : Nat} {now : Instant} {o : Obligation}
  (status : InvocationStatus)

theorem abandon_parents (now : Instant) (call : ToolInvocationRecord) :
    SameParents call (call.abandon status now) := by
  unfold ToolInvocationRecord.abandon
  split <;> exact ⟨rfl, rfl, rfl, rfl, rfl⟩

theorem abandon_toolSequence (now : Instant) (call : ToolInvocationRecord) :
    (call.abandon status now).toolSequence = call.toolSequence := by
  unfold ToolInvocationRecord.abandon
  split <;> rfl

def ToolInvocationRecord.begunAt (call : ToolInvocationRecord) : Instant :=
  call.startedAt.getD call.requestedAt

theorem abandon_finished (now : Instant) (call : ToolInvocationRecord) :
    (call.abandon status now).finishedAt = some now ∧
      (call.abandon status now).begunAt = call.begunAt := by
  unfold ToolInvocationRecord.abandon
  split <;> exact ⟨rfl, rfl⟩

variable {rows : List ToolInvocationRecord}

theorem exists_abandonCalls (hdistinct : (rows.map (·.id)).Nodup)
    (hrows : ∀ seen ∈ rows, seen ∈ db.1.toolInvocations.rows ∧ seen.OpenFor attemptId ∧
      seen.begunAt ≤ now) :
    ∃ ambiguous db', (abandonCalls attemptId now rows).Commits db ambiguous db' := by
  induction rows generalizing db with
  | nil => exact ⟨[], db, Tx.commits_pure.mpr ⟨rfl, rfl⟩⟩
  | cons seen rest ih =>
    obtain ⟨hmem, hopen, hbegan⟩ := hrows seen List.mem_cons_self
    rw [List.map_cons, List.nodup_cons] at hdistinct
    have hfence : AbandonFence attemptId seen seen := ⟨rfl, hopen.1, rfl⟩
    obtain ⟨db₁, hcount, hupdates⟩ := exists_callUpdate hmem hfence (fun _ hp => hp.1)
      (abandon_parents seen.status now) (abandon_toolSequence seen.status now seen)
      (ToolInvocationRecord.abandon_check (db.1.toolInvocations.lawful.checked seen hmem)
        hopen.2 hbegan)
    have hrest : ∀ other ∈ rest, other ∈ db₁.1.toolInvocations.rows ∧
        other.OpenFor attemptId ∧ other.begunAt ≤ now := by
      intro other hother
      obtain ⟨hold, hfacts⟩ := hrows other (List.mem_cons_of_mem _ hother)
      refine ⟨?_, hfacts⟩
      have hne : ¬ AbandonFence attemptId seen other := fun hp =>
        hdistinct.1 (hp.1 ▸ List.mem_map_of_mem hother)
      have hrows₁ := hupdates.rows
      simp only [table_toolInvocation] at hrows₁
      rw [hrows₁]
      exact List.mem_map.mpr ⟨other, hold, Table.amend_of_neg hne⟩
    obtain ⟨ambiguous, db', hcommits⟩ := ih hdistinct.2 hrest
    refine ⟨if seen.status = .started then seen.id :: ambiguous else ambiguous, db', ?_⟩
    simp only [abandonCalls, Tx.commits_bind, Tx.commits_updateOne, Tx.commits_pure]
    exact ⟨(), db₁, ⟨hcount, hupdates⟩, ambiguous, db', hcommits, rfl, rfl⟩

theorem abandonCalls_ids {ambiguous : List Nat} {db' : Database}
    (h : (abandonCalls attemptId now rows).Commits db ambiguous db') :
    ∀ id ∈ ambiguous, ∃ seen ∈ rows, seen.id = id := by
  induction rows generalizing db ambiguous with
  | nil =>
    obtain ⟨rfl, -⟩ := Tx.commits_pure.mp h
    exact List.forall_mem_nil _
  | cons seen rest ih =>
    simp only [abandonCalls, Tx.commits_bind, Tx.commits_updateOne, Tx.commits_pure] at h
    obtain ⟨_, db₁, -, others, _, hrest, rfl, rfl⟩ := h
    have htail : ∀ id ∈ others, ∃ other ∈ seen :: rest, other.id = id := by
      intro id hid
      obtain ⟨other, hother, hsame⟩ := ih hrest id hid
      exact ⟨other, List.mem_cons_of_mem _ hother, hsame⟩
    intro id hid
    split at hid
    · rcases List.mem_cons.mp hid with rfl | hid
      · exact ⟨seen, List.mem_cons_self, rfl⟩
      · exact htail id hid
    · exact htail id hid

theorem mem_openCalls {db : Tables} {call : ToolInvocationRecord} :
    call ∈ db.openCalls attemptId ↔
      call ∈ db.toolInvocations.rows ∧ call.OpenFor attemptId := by
  rw [Tables.openCalls, List.mem_insertionSort, List.mem_filter, decide_eq_true_eq]

theorem openCalls_distinct (db : Tables) : ((db.openCalls attemptId).map (·.id)).Nodup := by
  have hfilter : ((db.toolInvocations.rows.filter fun invocation =>
      invocation.OpenFor attemptId).map (·.id)).Nodup := by
    rw [List.nodup_iff_pairwise_ne, List.pairwise_map]
    exact (db.toolInvocations.lawful.ascending.filter _).imp fun hlt => Nat.ne_of_lt hlt
  exact ((List.perm_insertionSort _ _).map _).nodup_iff.mpr hfilter

theorem exists_reconciled
    (hbegan : ∀ call ∈ db.1.toolInvocations.rows, call.OpenFor attemptId → call.begunAt ≤ now) :
    ∃ ambiguous db',
      (reconcileAbandonedToolInvocations attemptId now).Commits db ambiguous db' ∧
      ∀ id ∈ ambiguous, ∃ call ∈ db.1.toolInvocations.rows,
        call.id = id ∧ call.attemptId = attemptId := by
  obtain ⟨ambiguous, db', hcommits⟩ := exists_abandonCalls (openCalls_distinct db.1)
    fun seen hseen => by
      obtain ⟨hmem, hopen⟩ := mem_openCalls.mp hseen
      exact ⟨hmem, hopen, hbegan seen hmem hopen⟩
  refine ⟨ambiguous, db', ?_, fun id hid => ?_⟩
  · simp only [reconcileAbandonedToolInvocations, Tx.commits_bind, Tx.commits_query]
    exact ⟨_, db, ⟨rfl, rfl⟩, hcommits⟩
  · obtain ⟨seen, hseen, hsame⟩ := abandonCalls_ids hcommits id hid
    obtain ⟨hmem, hopen⟩ := mem_openCalls.mp hseen
    exact ⟨seen, hmem, hsame, hopen.1⟩

theorem exists_ambiguous_told {template : RunEventRecord} {ambiguous : List Nat}
    {sequence : Nat} {types : List RunEventType} {base : List RunEventRecord}
    (ho : db.1.obligation jobId = some o)
    (hof : ∀ id ∈ ambiguous, EventOf o { template with toolInvocationId := some id })
    (hnumber : ∀ number ∈ template.attemptNumber, 0 < number)
    (htold : Appends types base o.timeline)
    (hsequence : sequence = lastSequence base + types.length + 1) :
    ∃ next db' types' timeline',
      (appendAmbiguousCalls template ambiguous sequence).Commits db next db' ∧
      Appends types' base timeline' ∧ next = lastSequence base + types'.length + 1 ∧
      db'.1.obligation jobId = some { o with timeline := timeline' } := by
  induction ambiguous generalizing db o types sequence with
  | nil =>
    exact ⟨sequence, db, types, o.timeline, Tx.commits_pure.mpr ⟨rfl, rfl⟩, htold, hsequence,
      ho⟩
  | cons invocationId rest ih =>
    have hfirst := hof invocationId List.mem_cons_self
    have hevent : EventOf o { template with
        toolInvocationId := some invocationId
        sequence := sequence
        eventType := .toolAmbiguous
        code := some toolOutcomeUnknown
        message := some (safeErrorMessage toolOutcomeUnknown) } :=
      ⟨hfirst.run, hfirst.job, hfirst.attempt, hfirst.call⟩
    obtain ⟨db₁, timeline₁, happends, htold₁, ho₁⟩ := exists_told ho hevent htold hsequence
      ⟨by rw [hsequence]; exact Nat.succ_pos _, rfl, errorBounds_safe toolOutcomeUnknown_bounds,
        hnumber, nofun⟩
    have hrestOf : ∀ id ∈ rest,
        EventOf { o with timeline := timeline₁ } { template with toolInvocationId := some id } := by
      intro id hid
      have hother := hof id (List.mem_cons_of_mem _ hid)
      exact ⟨hother.run, hother.job, hother.attempt, hother.call⟩
    have hsequence₁ : sequence + 1 =
        lastSequence base + (types ++ [RunEventType.toolAmbiguous]).length + 1 := by
      rw [hsequence, List.length_append]
      rfl
    obtain ⟨next, db', types', timeline', hrest, htold', hnext, ho'⟩ :=
      ih ho₁ hrestOf htold₁ hsequence₁
    refine ⟨next, db', types', timeline', ?_, htold', hnext, ho'⟩
    simp only [appendAmbiguousCalls, Tx.commits_bind]
    exact ⟨(), db₁, happends, hrest⟩

end Abandoned

theorem calls_of_updates {db db₁ db₂ db₃ : Database} {p : JobAttemptRecord → Prop}
    {q : JobRecord → Prop} {r : RunRecord → Prop} [DecidablePred p] [DecidablePred q]
    [DecidablePred r] {f : JobAttemptRecord → JobAttemptRecord} {g : JobRecord → JobRecord}
    {k : RunRecord → RunRecord} (hattempt : Tx.Updates p f db db₁)
    (hjob : Tx.Updates q g db₁ db₂) (hrun : Tx.Updates r k db₂ db₃) :
    db₃.1.toolInvocations = db.1.toolInvocations := by
  obtain ⟨_, -, hdb₁⟩ := hattempt
  obtain ⟨_, -, hdb₂⟩ := hjob
  obtain ⟨_, -, hdb₃⟩ := hrun
  rw [hdb₃, setTable_run, hdb₂, setTable_job, hdb₁, setTable_jobAttempt]

variable {expired : ExpiredClaim} {now : Instant} {backoff : Duration} {db : Database}
  {o : Obligation}

structure ExpiredClaim.Lapsed (expired : ExpiredClaim) (now : Instant) (db : Database)
    (o : Obligation) : Prop extends expired.Of db o where
  sound : AllSound db
  attempt : expired.attempt ∈ o.attempts
  carries : Carries expired.job expired.attempt
  reclaimable : Reclaimable now expired.job expired.attempt

namespace ExpiredClaim.Lapsed

variable (h : expired.Lapsed now db o)

include h

theorem lapsed :
    expired.attempt.leaseExpiresAt ≤ now := by
  obtain ⟨lease, hlease, hover⟩ := h.reclaimable.2.1
  rw [h.carries.lease, Option.mem_some] at hlease
  rwa [hlease]

theorem attempt_check : expired.attempt.Check :=
  db.1.jobAttempts.lawful.checked _ ((mem_attempts h.obligation).mp h.attempt).1

theorem job_check : o.job.Check :=
  db.1.jobs.lawful.checked _ (Table.find_eq_some.mp (obligation_job h.obligation)).1

theorem run_check : o.run.Check :=
  db.1.runs.lawful.checked _ (Table.find_eq_some.mp (obligation_run h.obligation)).1

theorem claimed : expired.attempt.claimedAt ≤ now :=
  Int.le_trans (Int.le_of_lt h.attempt_check.leaseOrder.1) h.lapsed

theorem created : o.job.createdAt ≤ now :=
  Int.le_trans ((h.sound _ o h.obligation).dated.2 expired.attempt h.attempt) h.claimed

theorem holdsAttempt {status : AttemptStatus} (hstatus : expired.attempt.status = status)
    (hstarted : expired.attempt.executionStartedAt.isSome ↔ status = .running) :
    expired.HoldsAttempt status now expired.attempt :=
  ⟨rfl, h.reclaimable.1, hstatus, hstarted, h.carries.worker.symm, h.carries.token.symm,
    h.lapsed⟩

theorem holdsJob {status : JobStatus} (hstatus : expired.job.status = status) :
    expired.HoldsJob status now o.job := by
  rw [h.job]
  exact ⟨rfl, hstatus, rfl, rfl, h.reclaimable.2.1⟩

theorem runId : o.job.runId = expired.job.runId :=
  congrArg JobRecord.runId h.job

theorem eventOf (o' : Obligation) (hjob : SameJob o.job o'.job)
    (hattempts : o'.attempts.map (·.id) = o.attempts.map (·.id)) (eventType : RunEventType)
    (sequence : Nat) (code message : Option String) :
    EventOf o' (expired.event eventType sequence now code message) where
  run := by
    rw [hjob.runId, h.job]
    rfl
  job := by
    rw [hjob.id, h.job]
    rfl
  attempt := ⟨expired.attempt.id, hattempts ▸ List.mem_map_of_mem h.attempt, rfl⟩
  call := nofun

theorem numbered :
    ∀ number ∈ some expired.attempt.attemptNumber, 0 < number :=
  forall_mem_some h.attempt_check.attemptNumberPositive

theorem exists_recovery {db₁ : Database} {o' : Obligation}
    (ho' : db₁.1.obligation expired.job.id = some o') (hjob : SameJob o.job o'.job)
    (hattempts : o'.attempts.map (·.id) = o.attempts.map (·.id)) {eventType : RunEventType}
    (htype : eventType ≠ .retryScheduled) :
    ∃ db' timeline',
      (appendRecoveryEvents expired now (lastSequence (db₁.1.timeline expired.job.runId))
        eventType).Commits db₁ () db' ∧
      Appends [.attemptExpired, eventType] o'.timeline timeline' ∧
      db'.1.obligation expired.job.id = some { o' with timeline := timeline' } := by
  have hrun : o'.job.runId = expired.job.runId := by rw [hjob.runId, h.job]
  rw [timeline_eq ho' hrun]
  obtain ⟨db₂, timeline₂, hexpired, htold₂, ho₂⟩ := exists_told ho'
    (h.eventOf o' hjob hattempts .attemptExpired (lastSequence o'.timeline + 1) none none)
    (Appends.nil o'.timeline) rfl ⟨Nat.succ_pos _, rfl, errorBounds_none, h.numbered, nofun⟩
  have hsecond : EventOf { o' with timeline := timeline₂ }
      (expired.event eventType (lastSequence o'.timeline + 2) now none none) :=
    h.eventOf { o' with timeline := timeline₂ } hjob hattempts eventType
      (lastSequence o'.timeline + 2) none none
  obtain ⟨db', timeline', hrecovery, htold', ho''⟩ := exists_told ho₂ hsecond htold₂ rfl
    ⟨Nat.succ_pos _, rfl, errorBounds_none, h.numbered, fun hretry => absurd hretry htype⟩
  refine ⟨db', timeline', ?_, htold', ho''⟩
  simp only [appendRecoveryEvents, Tx.commits_bind]
  exact ⟨(), db₂, hexpired, hrecovery⟩

theorem exists_runFailed {db₁ : Database} {o' : Obligation}
    (ho' : db₁.1.obligation expired.job.id = some o') (hjob : SameJob o.job o'.job)
    (hattempts : o'.attempts.map (·.id) = o.attempts.map (·.id)) {types : List RunEventType}
    {base : List RunEventRecord} (htold : Appends types base o'.timeline) {sequence : Nat}
    (hsequence : sequence = lastSequence base + types.length + 1) {code : String}
    (hcode : LengthBetween 1 64 code) :
    ∃ db' o'', (appendEventOnConnection (expired.event .runFailed sequence now (some code)
        (some (safeErrorMessage code)))).Commits db₁ () db' ∧
      db'.1.obligation expired.job.id = some o'' ∧ o''.job = o'.job := by
  have hpositive : 0 < sequence := by
    rw [hsequence]
    exact Nat.succ_pos _
  obtain ⟨db', timeline', hfailed, -, ho''⟩ := exists_told ho'
    (h.eventOf o' hjob hattempts .runFailed sequence (some code) (some (safeErrorMessage code)))
    htold hsequence ⟨hpositive, rfl, errorBounds_safe hcode, h.numbered, nofun⟩
  exact ⟨db', _, hfailed, ho'', rfl⟩

theorem exists_expired {status : AttemptStatus} (hstatus : expired.attempt.status = status)
    (hstarted : expired.attempt.executionStartedAt.isSome ↔ status = .running)
    (hbegan : expired.attempt.executionStartedAt.getD expired.attempt.claimedAt ≤ now)
    (disposition : RetryDisposition) {code message : Option String} (hpair : Paired code message)
    (hbounds : ErrorBounds code message) :
    ∃ db' attempts', db.1.jobAttempts.rows.countP (expired.HoldsAttempt status now) = 1 ∧
      Tx.Updates (expired.HoldsAttempt status now)
        (JobAttemptRecord.expire disposition code message now) db db' ∧
      attempts'.map (·.id) = o.attempts.map (·.id) ∧
      db'.1.obligation expired.job.id = some { o with attempts := attempts' } :=
  exists_attemptUpdate h.obligation h.attempt (h.holdsAttempt hstatus hstarted)
    (fun _ hp => hp.1) (fun _ => ⟨rfl, rfl, rfl, rfl, rfl, rfl⟩) (fun hactive => hactive)
    (JobAttemptRecord.expire_check disposition h.attempt_check hbegan hpair hbounds)

end ExpiredClaim.Lapsed

theorem exists_preStartRequeue (h : expired.Lapsed now db o) (hbackoff : 0 ≤ backoff)
    (hclaimed : expired.job.status = .claimed) (hattempt : expired.attempt.status = .claimed)
    (hunstarted : expired.attempt.executionStartedAt = none) :
    ∃ reclaimed db', (reclaimPreStartRequeue expired now backoff).Commits db reclaimed db' ∧
      reclaimed.jobId = expired.job.id ∧
      ∃ o', db'.1.obligation expired.job.id = some o' ∧ ¬ o'.job.status.IsActive := by
  have hstarted : expired.attempt.executionStartedAt.isSome ↔
      AttemptStatus.claimed = .running := by simp [hunstarted]
  have hbegan : expired.attempt.executionStartedAt.getD expired.attempt.claimedAt ≤ now := by
    rw [hunstarted]
    exact h.claimed
  obtain ⟨db₁, attempts₁, hcount₁, hupdates₁, hids, ho₁⟩ :=
    h.exists_expired hattempt hstarted hbegan .safeToRetry rfl errorBounds_none
  obtain ⟨db₂, hcount₂, hupdates₂, ho₂⟩ := exists_jobUpdate (f := JobRecord.requeue now backoff)
    ho₁ (h.holdsJob hclaimed) (fun _ hp => hp.1) (fun _ => ⟨rfl, rfl, rfl, rfl, rfl, rfl⟩)
    (JobRecord.requeue_check h.job_check h.created hbackoff)
  obtain ⟨db', timeline', hrecovery, -, ho'⟩ :=
    h.exists_recovery ho₂ ⟨rfl, rfl, rfl, rfl, rfl, rfl⟩ hids
      (show RunEventType.recoveryPreStart ≠ .retryScheduled by decide)
  refine ⟨expired.reclaimed .preStartRequeued, db', ?_, rfl, _, ho', fun hactive => hactive⟩
  simp only [reclaimPreStartRequeue, expirePreStartAttempt, sequenceBase, Tx.commits_bind,
    Tx.commits_updateOne, Tx.commits_query, Tx.commits_pure]
  exact ⟨(), db₁, ⟨hcount₁, hupdates₁⟩, (), db₂, ⟨hcount₂, hupdates₂⟩, _, db₂, ⟨rfl, rfl⟩,
    (), db', hrecovery, trivial, rfl⟩

theorem exists_preStartExhausted (h : expired.Lapsed now db o)
    (hclaimed : expired.job.status = .claimed) (hattempt : expired.attempt.status = .claimed)
    (hunstarted : expired.attempt.executionStartedAt = none) (hrun : o.run.status = .created) :
    ∃ reclaimed db', (reclaimPreStartExhausted expired now).Commits db reclaimed db' ∧
      reclaimed.jobId = expired.job.id ∧
      ∃ o', db'.1.obligation expired.job.id = some o' ∧ ¬ o'.job.status.IsActive := by
  have hstarted : expired.attempt.executionStartedAt.isSome ↔
      AttemptStatus.claimed = .running := by simp [hunstarted]
  have hbegan : expired.attempt.executionStartedAt.getD expired.attempt.claimedAt ≤ now := by
    rw [hunstarted]
    exact h.claimed
  have hcreated : o.run.createdAt ≤ now := by
    rw [(h.sound _ o h.obligation).dated.1]
    exact h.created
  have hholdsRun : expired.HoldsRun .created o.run := by
    have hshape := h.run_check.lifecycleShape
    rw [RunRecord.LifecycleShape, hrun] at hshape
    refine ⟨?_, hrun, by simp [hshape.1]⟩
    rw [obligation_runId h.obligation, h.job]
  obtain ⟨db₁, attempts₁, hcount₁, hupdates₁, hids, ho₁⟩ :=
    h.exists_expired hattempt hstarted hbegan .safeToRetry rfl errorBounds_none
  obtain ⟨db₂, hcount₂, hupdates₂, ho₂⟩ := exists_jobUpdate
    (f := JobRecord.fail workerRecoveryExhausted (safeErrorMessage workerRecoveryExhausted) now)
    ho₁ (h.holdsJob hclaimed) (fun _ hp => hp.1) (fun _ => ⟨rfl, rfl, rfl, rfl, rfl, rfl⟩)
    (JobRecord.fail_check h.job_check h.created workerRecoveryExhausted_bounds)
  obtain ⟨db₃, hcount₃, hupdates₃, ho₃⟩ := exists_runUpdate (f := RunRecord.exhaust now) ho₂
    hholdsRun (fun _ hp => hp.1.trans h.runId.symm) (fun _ => rfl)
    (fun _ => rfl) (RunRecord.exhaust_check h.run_check hrun hcreated)
  obtain ⟨db₄, timeline₄, hrecovery, htold₄, ho₄⟩ :=
    h.exists_recovery ho₃ ⟨rfl, rfl, rfl, rfl, rfl, rfl⟩ hids
      (show RunEventType.recoveryPreStart ≠ .retryScheduled by decide)
  have hbase : lastSequence (db₃.1.timeline expired.job.runId) = lastSequence o.timeline := by
    rw [timeline_eq ho₃ h.runId]
  obtain ⟨db', o', hfailed, ho', hjob⟩ := h.exists_runFailed ho₄ ⟨rfl, rfl, rfl, rfl, rfl, rfl⟩
    hids htold₄ rfl workerRecoveryExhausted_bounds
  rw [← hbase] at hfailed
  refine ⟨expired.reclaimed .preStartExhausted, db', ?_, rfl, o', ho', by rw [hjob]; exact id⟩
  simp only [reclaimPreStartExhausted, expirePreStartAttempt, sequenceBase, Tx.commits_bind,
    Tx.commits_updateOne, Tx.commits_query, Tx.commits_pure]
  exact ⟨(), db₁, ⟨hcount₁, hupdates₁⟩, (), db₂, ⟨hcount₂, hupdates₂⟩, (), db₃,
    ⟨hcount₃, hupdates₃⟩, _, db₃, ⟨rfl, rfl⟩, (), db₄, hrecovery, (), db', hfailed, trivial, rfl⟩

theorem exists_postStartAmbiguous (h : expired.Lapsed now db o)
    (hrunning : expired.job.status = .running) (hattempt : expired.attempt.status = .running)
    (hbegan : ∀ started ∈ expired.attempt.executionStartedAt, started ≤ now)
    (hrunBegan : ∀ started ∈ o.run.startedAt, started ≤ now)
    (hcallsBegan : ∀ call ∈ db.1.toolInvocations.rows, call.OpenFor expired.attempt.id →
      call.begunAt ≤ now) :
    ∃ reclaimed db', (reclaimPostStartAmbiguous expired now).Commits db reclaimed db' ∧
      reclaimed.jobId = expired.job.id ∧
      ∃ o', db'.1.obligation expired.job.id = some o' ∧ ¬ o'.job.status.IsActive := by
  have hsound := h.sound _ o h.obligation
  have hexecuting := h.attempt_check.runningShape hattempt
  have hstarted : expired.attempt.executionStartedAt.isSome ↔
      AttemptStatus.running = .running :=
    iff_of_true (Option.isSome_iff_ne_none.mpr hexecuting) rfl
  obtain ⟨startedAt, hstartedAt⟩ := Option.ne_none_iff_exists'.mp hexecuting
  have hattemptBegan : expired.attempt.executionStartedAt.getD expired.attempt.claimedAt ≤ now := by
    rw [hstartedAt]
    exact hbegan startedAt hstartedAt
  have hrun : o.run.status = .running := by
    have hagrees := hsound.agrees
    rw [h.job, hrunning] at hagrees
    exact List.mem_singleton.mp hagrees
  have hholdsRun : expired.HoldsRun .running o.run := by
    have hshape := h.run_check.lifecycleShape
    rw [RunRecord.LifecycleShape, hrun] at hshape
    exact ⟨(obligation_runId h.obligation).trans h.runId, hrun,
      iff_of_true (Option.isSome_iff_ne_none.mpr hshape.1) rfl⟩
  obtain ⟨db₁, attempts₁, hcount₁, hupdates₁, hids, ho₁⟩ := h.exists_expired hattempt hstarted
    hattemptBegan .ambiguous (paired_some _ _)
    (errorBounds_safe executionOutcomeAmbiguous_bounds)
  obtain ⟨db₂, hcount₂, hupdates₂, ho₂⟩ := exists_jobUpdate
    (f := JobRecord.fail executionOutcomeAmbiguous
      (safeErrorMessage executionOutcomeAmbiguous) now)
    ho₁ (h.holdsJob hrunning) (fun _ hp => hp.1) (fun _ => ⟨rfl, rfl, rfl, rfl, rfl, rfl⟩)
    (JobRecord.fail_check h.job_check h.created executionOutcomeAmbiguous_bounds)
  obtain ⟨db₃, hcount₃, hupdates₃, ho₃⟩ := exists_runUpdate (f := RunRecord.closeAmbiguous now)
    ho₂ hholdsRun (fun _ hp => hp.1.trans h.runId.symm) (fun _ => rfl) (fun _ => rfl)
    (RunRecord.closeAmbiguous_check h.run_check hrun hrunBegan)
  have hcalls := calls_of_updates hupdates₁ hupdates₂ hupdates₃
  rw [← hcalls] at hcallsBegan
  obtain ⟨ambiguous, db₄, hreconcile, hambiguous⟩ := exists_reconciled hcallsBegan
  obtain ⟨calls₄, hmoved, ho₄⟩ := reconciled ho₃ hreconcile
  obtain ⟨db₅, timeline₅, hrecovery, htold₅, ho₅⟩ :=
    h.exists_recovery ho₄ ⟨rfl, rfl, rfl, rfl, rfl, rfl⟩ hids
      (show RunEventType.recoveryAmbiguous ≠ .retryScheduled by decide)
  have hof : ∀ id ∈ ambiguous,
      EventOf ⟨JobRecord.fail executionOutcomeAmbiguous
          (safeErrorMessage executionOutcomeAmbiguous) now o.job,
          RunRecord.closeAmbiguous now o.run, attempts₁, calls₄, timeline₅⟩
        { expired.event .toolAmbiguous 0 now none none with toolInvocationId := some id } := by
    intro id hid
    have htemplate := h.eventOf ⟨JobRecord.fail executionOutcomeAmbiguous
      (safeErrorMessage executionOutcomeAmbiguous) now o.job,
      RunRecord.closeAmbiguous now o.run, attempts₁, calls₄, timeline₅⟩
      ⟨rfl, rfl, rfl, rfl, rfl, rfl⟩ hids .toolAmbiguous 0 none none
    obtain ⟨call, hcall, hcallId, howner⟩ := hambiguous id hid
    rw [hcalls] at hcall
    have hmem := mem_calls_of_owner h.sound h.obligation h.owner hcall howner
    obtain ⟨call', hcall', hsame, -⟩ := exists_after hmoved hmem
    refine ⟨htemplate.run, htemplate.job, htemplate.attempt, forall_mem_some
      ⟨call', hcall', hsame.id.trans hcallId, ?_, ?_⟩⟩
    · exact hsame.runId.trans (hsound.reported call hmem)
    · rw [hsame.attemptId, howner]
      rfl
  have hbase : lastSequence (db₄.1.timeline expired.job.runId) = lastSequence o.timeline := by
    rw [timeline_eq ho₄ h.runId]
  obtain ⟨next, db₆, types₆, timeline₆, happend, htold₆, hnext, ho₆⟩ :=
    exists_ambiguous_told ho₅ hof h.numbered htold₅ rfl
  obtain ⟨db', o', hfailed, ho', hjob⟩ := h.exists_runFailed ho₆ ⟨rfl, rfl, rfl, rfl, rfl, rfl⟩
    hids htold₆ hnext executionOutcomeAmbiguous_bounds
  refine ⟨expired.reclaimed .postStartAmbiguous, db', ?_, rfl, o', ho', by rw [hjob]; exact id⟩
  simp only [reclaimPostStartAmbiguous, sequenceBase, Tx.commits_bind, Tx.commits_updateOne,
    Tx.commits_query, Tx.commits_pure]
  refine ⟨(), db₁, ⟨hcount₁, hupdates₁⟩, (), db₂, ⟨hcount₂, hupdates₂⟩, (), db₃,
    ⟨hcount₃, hupdates₃⟩, ambiguous, db₄, hreconcile, _, db₄, ⟨rfl, rfl⟩, (), db₅, hrecovery,
    next, db₆, ?_, (), db', hfailed, trivial, rfl⟩
  rw [hbase]
  exact happend

end NervOS
