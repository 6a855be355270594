/-
Work conservation: a poll that finds room and an eligible Job claims one exactly if some
partition's head is eligible itself.  The head of a partition is chosen before the
saturated providers are taken out.
-/
import NervOS.Guarantees.Fairness
import NervOS.Refinement.Progress

namespace NervOS

open Relational

section References

variable {db : Tables}

theorem Tables.References.insertAttempt (h : db.References) {row : Nat → JobAttemptRecord}
    {t : Table JobAttemptRecord} (ht : db.jobAttempts.insert? row = some t)
    (hkey : ∀ id, (row id).id = id)
    (hjob : (db.jobs.find (row db.jobAttempts.next).jobId).isSome) :
    Tables.References { db with jobAttempts := t } := by
  have hrows : ∀ {P : JobAttemptRecord → Prop}, (∀ other ∈ db.jobAttempts.rows, P other) →
      P (row db.jobAttempts.next) → ∀ other ∈ t.rows, P other := by
    intro P hold hnew other hother
    rw [(Table.insert?_rows ht).1] at hother
    rcases List.mem_append.mp hother with hmem | hmem
    · exact hold other hmem
    · rw [List.mem_singleton.mp hmem]
      exact hnew
  have hfound : ∀ {id : Nat}, (db.jobAttempts.find id).isSome → (t.find id).isSome := by
    intro id hid
    rw [Table.find_insert ht (hkey _)]
    by_cases hnew : id = db.jobAttempts.next
    · rw [if_pos hnew]
      rfl
    · rw [if_neg hnew]
      exact hid
  exact {
    h with
    attemptJob := hrows h.attemptJob hjob
    eventAttempt := fun event hevent id hid => hfound (h.eventAttempt event hevent id hid)
    invocationAttempt := fun call hcall => hfound (h.invocationAttempt call hcall)
    approvalAttempt := fun approval happroval => hfound (h.approvalAttempt approval happroval) }

theorem map_agent_serve (agentInstanceId attemptId : Nat) (rows : List QueuePartitionRecord) :
    (serve agentInstanceId attemptId rows).map (·.agentInstanceId) =
      if agentInstanceId ∈ rows.map (·.agentInstanceId) then rows.map (·.agentInstanceId)
      else rows.map (·.agentInstanceId) ++ [agentInstanceId] := by
  have hany : rows.any (·.agentInstanceId = agentInstanceId) = true ↔
      agentInstanceId ∈ rows.map (·.agentInstanceId) := by
    simp [List.any_eq_true]
  unfold serve
  by_cases hserved : rows.any (·.agentInstanceId = agentInstanceId) = true
  · rw [if_pos hserved, if_pos (hany.1 hserved), List.map_map]
    apply List.map_congr_left
    intro row _
    by_cases hrow : row.agentInstanceId = agentInstanceId
    · simp [hrow]
    · simp [hrow]
  · rw [if_neg hserved, if_neg fun hmem => hserved (hany.2 hmem), List.map_append]
    rfl

theorem Tables.References.serve (h : db.References) {agentInstanceId attemptId : Nat}
    (hagent : (db.configuration.agentInstance? agentInstanceId).isSome) :
    Tables.References
      { db with queuePartitions := NervOS.serve agentInstanceId attemptId db.queuePartitions } := by
  have hkeys := map_agent_serve agentInstanceId attemptId db.queuePartitions
  exact {
    h with
    partitionAgent := by
      intro partition hpartition
      have hmem : partition.agentInstanceId ∈
          (NervOS.serve agentInstanceId attemptId db.queuePartitions).map (·.agentInstanceId) :=
        List.mem_map_of_mem hpartition
      rw [hkeys] at hmem
      have hold : ∀ id ∈ db.queuePartitions.map (·.agentInstanceId),
          (db.configuration.agentInstance? id).isSome := by
        intro id hid
        obtain ⟨row, hrow, rfl⟩ := List.mem_map.mp hid
        exact h.partitionAgent row hrow
      split_ifs at hmem
      · exact hold _ hmem
      · rcases List.mem_append.mp hmem with hmem | hmem
        · exact hold _ hmem
        · rw [List.mem_singleton.mp hmem]
          exact hagent
    partitionKey := by
      change ((NervOS.serve agentInstanceId attemptId db.queuePartitions).map
        (·.agentInstanceId)).Nodup
      rw [hkeys]
      split_ifs with hserved
      · exact h.partitionKey
      · rw [List.nodup_append]
        refine ⟨h.partitionKey, List.nodup_singleton _, ?_⟩
        intro id hid other hother heq
        rw [List.mem_singleton.mp hother] at heq
        exact hserved (heq ▸ hid) }

end References

section Commit

variable {request : ClaimRequest} {db : Database} {o : Obligation}

structure ClaimRequest.Valid (request : ClaimRequest) : Prop where
  worker : LengthBetween 1 128 request.workerId
  lease : 0 < request.leaseDuration

theorem ClaimRequest.Valid.lease_later (hvalid : request.Valid) :
    request.now < request.leaseExpiresAt := by
  have hlease := hvalid.lease
  exact Int.lt_add_of_pos_right request.now hlease

theorem JobRecord.claim_check {job : JobRecord} (h : job.Check) (hvalid : request.Valid)
    (hopen : ¬ job.status.IsTerminal) (hdue : job.availableAt ≤ request.now)
    (hbudget : job.attemptCount < job.maxAttempts) : (job.claim request).Check where
  attemptBounds := ⟨hbudget, h.attemptBounds.2⟩
  modelProviderShape := h.modelProviderShape
  claimShape := by
    apply Or.inr
    refine ⟨⟨request.workerId, rfl, hvalid.worker⟩, ?_, ?_, ?_⟩
    · simp [JobRecord.claim]
    · simp [JobRecord.claim]
    · simp [JobRecord.claim]
  errorPair := h.errorPair
  errorBounds := h.errorBounds
  timestampOrder := ⟨h.timestampOrder.2.1.trans hdue, h.timestampOrder.2⟩
  terminalFinish := by
    have hfinish : job.finishedAt = none := by
      by_contra hsome
      exact hopen (h.terminalFinish.2 hsome)
    change JobStatus.claimed.IsTerminal ↔ job.finishedAt ≠ none
    rw [hfinish]
    simp [JobStatus.IsTerminal]
  terminalError := by
    have herror : job.errorCode = none := by
      by_contra hsome
      rcases h.terminalError.2 hsome with hstatus | hstatus
      · exact hopen (by rw [hstatus]; trivial)
      · exact hopen (by rw [hstatus]; trivial)
    change (JobStatus.claimed = .failed ∨ JobStatus.claimed = .cancelled) ↔ job.errorCode ≠ none
    rw [herror]
    simp
  cancelledRequest := by
    intro hstatus
    cases hstatus

theorem ClaimRequest.attempt_check (hvalid : request.Valid) (job : JobRecord) (id : Nat) :
    (request.attempt job id).Check where
  attemptNumberPositive := Nat.succ_pos _
  ownerShape := hvalid.worker
  leaseOrder := ⟨hvalid.lease_later, le_refl _, le_refl _⟩
  startOrder := by simp [ClaimRequest.attempt]
  finishOrder := by simp [ClaimRequest.attempt]
  errorPair := by simp [ClaimRequest.attempt, Paired]
  errorBounds := errorBounds_none
  terminalFinish := by simp [ClaimRequest.attempt, AttemptStatus.IsActive]
  activeShape := by simp [ClaimRequest.attempt]
  claimedShape := by simp [ClaimRequest.attempt]
  runningShape := by simp [ClaimRequest.attempt]
  failureDisposition := by simp [ClaimRequest.attempt]
  successShape := by simp [ClaimRequest.attempt]

theorem exists_attemptInsert (ho : db.1.obligation o.job.id = some o) (hvalid : request.Valid)
    {count : Nat} (hcount : Numbered (o.attempts.map (·.attemptNumber)) count)
    (hidle : ∀ attempt ∈ o.attempts, ¬ attempt.status.IsActive) {job : JobRecord}
    (hjob : job.id = o.job.id) (hnumber : job.attemptCount = count) :
    ∃ db', Tx.Inserts (request.attempt job) db db' := by
  apply Tx.exists_inserts
  · intro id
    rfl
  · exact request.attempt_check hvalid job
  · rintro other hother id ⟨hsame, hmeets⟩
    have hmem : other ∈ o.attempts :=
      (mem_attempts ho).mpr ⟨hother, Eq.trans hsame hjob⟩
    rcases hmeets with hnumbers | ⟨hactive, -⟩
    · have hle := hcount.mem.mp (List.mem_map_of_mem (f := (·.attemptNumber)) hmem)
      have hnext : other.attemptNumber = job.attemptCount + 1 := hnumbers
      omega
    · exact hidle other hmem hactive
  · intro t ht
    apply db.2.insertAttempt ht
    · intro id
      rfl
    · change (db.1.jobs.find job.id).isSome
      rw [hjob, obligation_job ho]
      rfl

theorem ClaimRequest.event_check (job : JobRecord) (attemptId sequence : Nat) :
    (request.event job attemptId (sequence + 1)).Check where
  sequencePositive := Nat.succ_pos _
  messagePair := by simp [ClaimRequest.event, Paired]
  messageBounds := errorBounds_none
  attemptNumberPositive := by simp [ClaimRequest.event]
  retryAvailable := by simp [ClaimRequest.event]

theorem exists_claim (hsound : AllSound db) (hvalid : request.Valid)
    (ho : db.1.obligation o.job.id = some o) (hclaimable : Claimable db.1 request o.job) :
    ∃ claim db', (claimOnConnection request o.job).Commits db claim db' := by
  obtain ⟨⟨run, hrun, hsource⟩, hdue, hbudget, -⟩ := hclaimable
  have hstatus : o.job.status = .queued ∨ o.job.status = .retryWait := by
    simp only [claimableSources, List.mem_cons, Prod.mk.injEq, List.not_mem_nil, or_false]
      at hsource
    rcases hsource with ⟨hjob, -⟩ | ⟨hjob, -⟩
    · exact Or.inl hjob
    · exact Or.inr hjob
  have hopen : ¬ o.job.status.IsTerminal := by
    rcases hstatus with h | h <;> rw [h] <;> exact id
  have hidle : ¬ o.job.status.IsActive := by
    rcases hstatus with h | h <;> rw [h] <;> exact id
  obtain ⟨hrow, -⟩ := Table.find_eq_some.mp (obligation_job ho)
  have hcheck : o.job.Check := db.1.jobs.lawful.checked _ hrow
  have hmine := hsound _ _ ho
  obtain ⟨db₁, hcount, hupdated, ho₁⟩ := exists_jobUpdate ho (p := ClaimFence o.job)
    (f := JobRecord.claim request) ⟨rfl, rfl, hbudget⟩ (fun _ hp => hp.1)
    (fun _ => ⟨rfl, rfl, rfl, rfl, rfl, rfl⟩)
    (JobRecord.claim_check hcheck hvalid hopen hdue hbudget)
  obtain ⟨db₂, hinserted⟩ : ∃ db₂, Tx.Inserts (request.attempt o.job) db₁ db₂ :=
    exists_attemptInsert (o := { o with job := o.job.claim request }) ho₁ hvalid hmine.numbered
      (hmine.idle hidle).2 rfl rfl
  have ho₂ := obligation_insertAttempt hinserted o.job.id
  rw [ho₁, Option.map_some,
    if_pos (show (request.attempt o.job _).jobId = o.job.id from rfl)] at ho₂
  have hagent : (db₂.1.configuration.agentInstance? o.job.agentInstanceId).isSome := by
    obtain ⟨hrow₂, -⟩ := Table.find_eq_some.mp (obligation_job ho₂)
    exact db₂.2.jobAgent (o.job.claim request) hrow₂
  have hserved : Tables.References { db₂.1 with
      queuePartitions := serve o.job.agentInstanceId db₁.1.jobAttempts.next
        db₂.1.queuePartitions } := db₂.2.serve hagent
  obtain ⟨db₃, hdb₃⟩ : ∃ db₃ : Database, db₃.1 = { db₂.1 with
      queuePartitions := serve o.job.agentInstanceId db₁.1.jobAttempts.next
        db₂.1.queuePartitions } := ⟨⟨_, hserved⟩, rfl⟩
  have ho₃ : db₃.1.obligation o.job.id = db₂.1.obligation o.job.id := by
    rw [hdb₃]
    rfl
  rw [ho₂] at ho₃
  have htimeline := obligation_timeline ho₃
  have hof : EventOf
      { o with
        job := o.job.claim request
        attempts := o.attempts ++ [request.attempt o.job db₁.1.jobAttempts.next] }
      (request.event o.job db₁.1.jobAttempts.next
        (lastSequence (db₃.1.timeline o.job.runId) + 1)) :=
    ⟨rfl, rfl, ⟨_, List.mem_map_of_mem (List.mem_append_right _ (List.mem_singleton_self _)), rfl⟩,
      by simp [ClaimRequest.event]⟩
  obtain ⟨db₄, timeline, htold, -⟩ := exists_told ho₃ hof (Appends.nil o.timeline)
    (by rw [htimeline]; rfl) (ClaimRequest.event_check _ _ _)
  refine ⟨request.handle o.job db₁.1.jobAttempts.next, db₄, ?_⟩
  simp only [claimOnConnection, Tx.commits_bind, Tx.commits_updateOne, Tx.commits_insert,
    Tx.commits_write, sequenceBase, Tx.commits_query, Tx.commits_pure]
  exact ⟨(), db₁, ⟨hcount, hupdated⟩, _, db₂, ⟨rfl, hinserted⟩, (), db₃, by rw [hdb₃]; rfl,
    _, db₃, ⟨rfl, rfl⟩, (), db₄, htold, rfl, rfl⟩

end Commit

variable {policy : QueuePolicy} {system : System} {request : ClaimRequest}

def QueueReady (policy : QueuePolicy) (request : ClaimRequest) (db : Tables) : Prop :=
  db.active request.now (fun _ => True) < policy.globalActiveLimit ∧
    ∃ job ∈ db.jobs.rows, Claimable db request job ∧ Admitted db policy request job

instance (policy : QueuePolicy) (request : ClaimRequest) :
    DecidablePred (QueueReady policy request) := fun _ =>
  inferInstanceAs (Decidable (_ ∧ ∃ job ∈ _, _))

def PollClaims (policy : QueuePolicy) (request : ClaimRequest) (db : Database) : Prop :=
  ∃ claim db', (claimNext policy request).Commits db (some claim) db'

/-- The Worker's own budget leaves room, and the oldest due Job of some partition passes
every limit. -/
def HeadReady (policy : QueuePolicy) (request : ClaimRequest) (db : Tables) : Prop :=
  (db.active request.now (fun _ => True) : Int) < request.maxActive ∧
    ∃ job ∈ db.jobs.rows, IsHead db request job ∧ Admitted db policy request job

theorem exists_claimCandidate {db : Tables}
    (hroom : db.active request.now (fun _ => True) < policy.globalActiveLimit)
    (hhead : HeadReady policy request db) :
    ∃ job, claimCandidate db policy request = some job ∧ request.providerIds ≠ [] := by
  obtain ⟨hbudget, job, hrow, hishead, hadmitted⟩ := hhead
  have hmem : job ∈ eligibleHeads db policy request :=
    mem_eligibleHeads.mpr ⟨hrow, hishead, hadmitted⟩
  have hnotFull : ¬ min (policy.globalActiveLimit : Int) request.maxActive ≤
      (db.active request.now fun _ => True : Nat) := by omega
  rw [claimCandidate, if_neg hnotFull]
  cases hcandidate : (eligibleHeads db policy request).argmin (turn db) with
  | none =>
    rw [List.argmin_eq_none] at hcandidate
    rw [hcandidate] at hmem
    cases hmem
  | some candidate =>
    refine ⟨candidate, rfl, ?_⟩
    intro hnone
    have hprovider := hishead.1.2.2.2
    rw [hnone] at hprovider
    cases hprovider

/-- In every reachable state a poll of a ready queue claims a Job exactly if the Worker has
budget left and the head of some partition is ready itself. -/
theorem work_conserving (hreachable : (engine policy).Reachable system)
    (hvalid : request.Valid) :
    (QueueReady policy request system.db.1 → PollClaims policy request system.db) ↔
      (QueueReady policy request system.db.1 → HeadReady policy request system.db.1) := by
  have hsound := (reachable_sound hreachable).obligations
  constructor
  · intro hclaims hready
    obtain ⟨claim, db', hcommits⟩ := hclaims hready
    rcases commits_claimNext hcommits with ⟨hnone, -⟩ | ⟨job, _, _, _, hcandidate, -, -⟩
    · cases hnone
    · obtain ⟨hroom, hhead, -⟩ := claimCandidate_eq_some hcandidate
      exact ⟨lt_of_lt_of_le hroom (min_le_right _ _), job, mem_eligibleHeads.mp hhead⟩
  · intro hheads hready
    obtain ⟨job, hcandidate, hproviders⟩ := exists_claimCandidate hready.1 (hheads hready)
    obtain ⟨-, hhead, -⟩ := claimCandidate_eq_some hcandidate
    obtain ⟨hrow, ⟨hclaimable, -⟩, -⟩ := mem_eligibleHeads.mp hhead
    obtain ⟨o, ho, rfl⟩ := exists_obligation hrow
    obtain ⟨claim, db', hclaim⟩ := exists_claim hsound hvalid ho hclaimable
    refine ⟨claim, db', ?_⟩
    simp only [claimNext, Tx.commits_bind, Tx.commits_query]
    refine ⟨some o.job, system.db, ⟨?_, rfl⟩, ?_⟩
    · rw [if_neg hproviders, hcandidate]
    · simp only [Tx.commits_bind, Tx.commits_pure]
      exact ⟨claim, db', hclaim, rfl, rfl⟩

/-- The shared queue is ready, and its first partition's head is. -/
theorem work_conserving_sharedQueue :
    (QueueReady productionQueuePolicy (sharedPoll 1) (sampleRun sharedQueue).db.1 →
        PollClaims productionQueuePolicy (sharedPoll 1) (sampleRun sharedQueue).db) ↔
      (QueueReady productionQueuePolicy (sharedPoll 1) (sampleRun sharedQueue).db.1 →
        HeadReady productionQueuePolicy (sharedPoll 1) (sampleRun sharedQueue).db.1) :=
  work_conserving (sampleRun_reachable sharedQueue) ⟨by decide, by decide⟩

theorem narrow_bounds : minActiveLimit ≤ 1 ∧ 1 ≤ maxActiveLimit := by decide

/-- One execution at a time for each provider. -/
def narrowPolicy : QueuePolicy :=
  { productionQueuePolicy with
    perProviderActiveLimit := 1
    perProviderBounds := narrow_bounds }

def movedConfiguration : Configuration :=
  { sharedConfiguration with
    agentInstances := sharedConfiguration.agentInstances.map fun row =>
      if row.id = 1 then { row with modelProvider := "other" } else row }

def widePoll (number : Nat) : ClaimRequest :=
  { sharedPoll number with providerIds := ["provider", "other"] }

/-- The second instance occupies the provider of the first one's older Job, and the younger
one is on another provider. -/
def movedQueue : List Op :=
  [.configure sharedConfiguration 0, .submit "hello" (sharedSubmission 2),
    .claimNext (sharedPoll 1), .submit "hello" (sharedSubmission 1),
    .configure movedConfiguration 0, .submit "hello" (sharedSubmission 1)]

def movedSystem : System :=
  (engine narrowPolicy).run movedQueue (engine narrowPolicy).init

/-- The Job on the saturated provider hides the one on the idle provider. -/
theorem work_not_conserved :
    ¬ ∀ (policy : QueuePolicy) (system : System) (request : ClaimRequest),
      (engine policy).Reachable system → request.Valid →
        (system.db.1.active request.now (fun _ => True) : Int) < request.maxActive →
          QueueReady policy request system.db.1 → PollClaims policy request system.db := by
  intro hconserving
  have hready : QueueReady narrowPolicy (widePoll 2) movedSystem.db.1 := by
    decide +kernel
  obtain ⟨claim, db', hclaim⟩ := hconserving narrowPolicy movedSystem (widePoll 2)
    ⟨movedQueue, rfl⟩ ⟨by decide, by decide⟩ (by decide +kernel) hready
  have hidle : (claimCandidate movedSystem.db.1 narrowPolicy (widePoll 2)).isNone = true := by
    decide +kernel
  rcases commits_claimNext hclaim with ⟨hnone, -⟩ | ⟨job, _, _, _, hcandidate, -, -⟩
  · cases hnone
  · rw [hcandidate] at hidle
    cases hidle

end NervOS
