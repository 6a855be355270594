/-
The Worker's transactions refine the protocol: start, heartbeat, usage, and the
three settlements, each presented with a handle that is held.
-/
import NervOS.Database.Execution
import NervOS.Obligation.History
import NervOS.Obligation.Local

namespace NervOS

open Relational

structure Obligation.Held (o : Obligation) (claim : ClaimedAttempt) : Prop where
  run : o.job.runId = claim.runId
  attempt : ∃ attempt ∈ o.attempts, attempt.id = claim.attemptId ∧
    attempt.workerId = claim.workerId ∧ attempt.claimToken = claim.claimToken

theorem Obligation.Held.later {claim : ClaimedAttempt} {o o' : Obligation}
    (h : o.Held claim) (hlater : History o o') : o'.Held claim where
  run := hlater.job.runId.trans h.run
  attempt := by
    obtain ⟨attempt, hattempt, hid, hworker, htoken⟩ := h.attempt
    obtain ⟨attempt', hattempt', hsame, -⟩ := hlater.attempts attempt hattempt
    exact ⟨attempt', hattempt', hsame.id.trans hid, hsame.workerId.trans hworker,
      hsame.claimToken.trans htoken⟩

def SettlesCleanly (db : Tables) (claim : ClaimedAttempt) (now : Instant) : Prop :=
  (∃ attempt ∈ db.jobAttempts.rows, claim.HoldsAttempt .running now attempt) →
    ∀ call ∈ db.toolInvocations.rows, call.attemptId = claim.attemptId →
      ¬ call.status.IsOpen

instance (db : Tables) (claim : ClaimedAttempt) (now : Instant) :
    Decidable (SettlesCleanly db claim now) :=
  inferInstanceAs (Decidable ((∃ attempt ∈ db.jobAttempts.rows, _) →
    ∀ call ∈ db.toolInvocations.rows, _))

variable {claim : ClaimedAttempt} {now : Instant} {db db' : Database} {o : Obligation}
  {rules : Nat → Discipline}

/-- What the claim's statements leave alone. -/
abbrev ClaimedAttempt.Spares (claim : ClaimedAttempt) : Obligation → Prop :=
  Foreign claim.jobId claim.runId claim.attemptId

theorem Obligation.Held.owner (hheld : o.Held claim)
    (ho : db.1.obligation claim.jobId = some o) :
    ∀ attempt ∈ db.1.jobAttempts.rows, attempt.id = claim.attemptId →
      attempt.jobId = claim.jobId := by
  intro attempt hattempt hid
  obtain ⟨own, hown, hownId, -⟩ := hheld.attempt
  obtain ⟨hrow, hjob⟩ := (mem_attempts ho).mp hown
  rw [Table.eq_of_key_eq hattempt hrow (hid.trans hownId.symm), hjob]

theorem HoldsAttempt.active {status : AttemptStatus} (hactive : status.IsActive)
    (attempt : JobAttemptRecord) (h : claim.HoldsAttempt status now attempt) :
    attempt.status.IsActive := by
  rw [h.2.2.1]
  exact hactive

theorem Advances.of_held (hsound : AllSound db)
    (ho : db.1.obligation claim.jobId = some o) (hheld : o.Held claim)
    (hlocal : Local claim.Spares db db') {o' : Obligation}
    (ho' : db'.1.obligation claim.jobId = some o')
    (hstep : Step (rules claim.jobId) now o o') : Advances rules now db db' :=
  Advances.of_local hsound ho hheld.run (hheld.owner ho) hlocal ho' hstep

variable {value : Unit}

theorem startOnce_advances (hsound : AllSound db) (ho : db.1.obligation claim.jobId = some o)
    (hheld : o.Held claim) (h : (startOnce claim now).Commits db value db') :
    Advances rules now db db' := by
  obtain ⟨db₁, db₂, db₃, hattemptCount, hattempt, hjobCount, hjob, hrun, hexecuting,
    hevent⟩ := commits_startOnce h
  obtain ⟨attempt, hmem, hfence⟩ := fence_attempt ho hattemptCount fun _ hp => hp.2.1
  have ho₁ := attempts_updated ho hattempt fun _ => rfl
  have hjobFence := fence_job ho₁ hjobCount fun _ hp => hp.1.1.1
  have ho₂ := job_updated ho₁ hjob hjobFence (fun _ => rfl) fun _ => rfl
  have ho₃ := obligation_updateRuns hrun (fun _ => rfl) claim.jobId
  rw [ho₂, Option.map_some] at ho₃
  obtain ⟨timeline', htold, ho'⟩ := event_told ho₃ hevent hheld.run.symm
    (Appends.nil o.timeline) (by rw [← timeline_eq ho₃ hheld.run]; rfl)
  have hlocal : Local claim.Spares db db' :=
    (Local.ofAttempt hattempt (fun _ => rfl) fun _ hp => hp.2.1).trans <|
      (Local.ofJob hjob (fun _ => rfl) (fun _ => rfl) fun _ hp => hp.1.1.1).trans <|
        (Local.ofRun hrun (fun _ => rfl) fun _ hp => hp.1.1).trans <|
          Local.ofEvent hevent rfl
  obtain ⟨run, hfind, hrunning, -⟩ := hexecuting
  have hsame : some run = some (Table.amend claim.HoldsUnstartedRun (RunRecord.start now)
      o.run) := by
    rw [← hfind, ← hheld.run]
    exact obligation_run ho₃
  refine Advances.of_held hsound ho hheld hlocal ho' (Step.start hjobFence.1.1.2.1
    ⟨rfl, rfl, rfl, rfl, rfl, rfl⟩ rfl rfl rfl rfl rfl ?_ ?_ ?_ htold)
  · exact sameRun_amend (p := claim.HoldsUnstartedRun) (f := RunRecord.start now)
      (fun _ => ⟨rfl, rfl⟩) o.run
  · rw [← Option.some.inj hsame, hrunning]
  · exact attempts_moved (hsound _ o ho) hmem hfence (HoldsAttempt.active trivial)
      ⟨rfl, rfl, rfl, rfl, rfl, rfl⟩ ⟨rfl, rfl, rfl⟩

theorem renewLease_advances {leaseDuration : Duration} (hsound : AllSound db)
    (ho : db.1.obligation claim.jobId = some o) (hheld : o.Held claim)
    (h : (renewLease claim now leaseDuration).Commits db value db') :
    Advances rules now db db' := by
  obtain ⟨db₁, hjobCount, hjob, hattemptCount, hattempt⟩ := commits_renewLease h
  have hjobFence := fence_job ho hjobCount fun _ hp => hp.1.1
  have ho₁ := job_updated ho hjob hjobFence (fun _ => rfl) fun _ => rfl
  obtain ⟨attempt, hmem, hfence⟩ := fence_attempt ho₁ hattemptCount fun _ hp => hp.2.1
  have ho' := attempts_updated ho₁ hattempt fun _ => rfl
  have hlocal : Local claim.Spares db db' :=
    (Local.ofJob hjob (fun _ => rfl) (fun _ => rfl) fun _ hp => hp.1.1).trans <|
      Local.ofAttempt hattempt (fun _ => rfl) fun _ hp => hp.2.1
  exact Advances.of_held hsound ho hheld hlocal ho' (Step.renew hjobFence.1.2.1
    hjobFence.2 ⟨rfl, rfl, rfl, rfl, rfl, rfl⟩ hjobFence.1.2.1 rfl rfl rfl rfl
    (attempts_moved (hsound _ o ho) hmem hfence (HoldsAttempt.active trivial)
      ⟨rfl, rfl, rfl, rfl, rfl, rfl⟩ ⟨rfl, rfl, rfl⟩))

theorem persistAttemptUsage_advances {usage : ModelUsage} (hsound : AllSound db)
    (ho : db.1.obligation claim.jobId = some o) (hheld : o.Held claim)
    (h : (persistAttemptUsage claim usage now).Commits db value db') :
    Advances rules now db db' := by
  obtain ⟨⟨_, -, job, hfind, hjobFence⟩, hcount, hattempt⟩ := commits_persistAttemptUsage h
  obtain ⟨attempt, hmem, hfence⟩ := fence_attempt ho hcount fun _ hp => hp.2.1
  have ho' := attempts_updated ho hattempt fun _ => rfl
  have hlocal : Local claim.Spares db db' := Local.ofAttempt hattempt (fun _ => rfl) fun _ hp =>
      hp.2.1
  have hrunning : o.job.status = .running := by
    have hrow := Table.find_eq_some.mp (obligation_job ho)
    have hjob := (Table.find_eq_some.mp hfind).1
    rw [Table.eq_of_key_eq hrow.1 hjob (hrow.2.trans hjobFence.1.symm), hjobFence.2.1]
  exact Advances.of_held hsound ho hheld hlocal ho' (Step.working hrunning
    (attempts_moved (hsound _ o ho) hmem hfence (HoldsAttempt.active trivial)
      ⟨rfl, rfl, rfl, rfl, rfl, rfl⟩ ⟨rfl, rfl, rfl⟩)
    (CallsMove.refl _ _) (List.forall_mem_nil _) (Appends.nil o.timeline))

theorem settled_of_clean (hsound : o.Sound) (ho : db.1.obligation claim.jobId = some o)
    {attempt : JobAttemptRecord} (hmem : attempt ∈ o.attempts)
    (hfence : claim.HoldsAttempt .running now attempt)
    (hclean : SettlesCleanly db.1 claim now) : Settled o.attempts o.calls := by
  intro call hcall ⟨active, hactiveMem, hid, hactive⟩
  have hrunning : attempt.status.IsActive := by
    rw [hfence.2.2.1]
    trivial
  apply hclean ⟨attempt, ((mem_attempts ho).mp hmem).1, hfence⟩ call
    ((mem_calls ho).mp hcall).1
  rw [← hid, hsound.only hactiveMem hactive hmem hrunning, hfence.1]

theorem succeed_advances {completion : Completion} (hsound : AllSound db)
    (ho : db.1.obligation claim.jobId = some o) (hheld : o.Held claim)
    (htidy : (rules claim.jobId).tidy → SettlesCleanly db.1 claim now)
    (h : (succeed claim completion now).Commits db value db') :
    Advances rules now db db' := by
  obtain ⟨db₁, db₂, db₃, hattemptCount, hattempt, hjobCount, hjob, hrunCount, hrun,
    hevent⟩ := commits_succeed h
  obtain ⟨attempt, hmem, hfence⟩ := fence_attempt ho hattemptCount fun _ hp => hp.2.1
  have ho₁ := attempts_updated ho hattempt fun _ => rfl
  have hjobFence := fence_job ho₁ hjobCount fun _ hp => hp.1
  have ho₂ := job_updated ho₁ hjob hjobFence (fun _ => rfl) fun _ => rfl
  have hrunFence := fence_run ho₂ hrunCount fun _ hp => hp.1.trans hheld.run.symm
  have ho₃ := run_updated ho₂ hrun hrunFence fun _ => rfl
  obtain ⟨timeline', htold, ho'⟩ := event_told ho₃ hevent hheld.run.symm
    (Appends.nil o.timeline) (by rw [← timeline_eq ho₃ hheld.run]; rfl)
  have hlocal : Local claim.Spares db db' :=
    (Local.ofAttempt hattempt (fun _ => rfl) fun _ hp => hp.2.1).trans <|
      (Local.ofJob hjob (fun _ => rfl) (fun _ => rfl) fun _ hp => hp.1).trans <|
        (Local.ofRun hrun (fun _ => rfl) fun _ hp => hp.1).trans <|
          Local.ofEvent hevent rfl
  have hopen : ¬ o.job.status.IsTerminal := by
    rw [hjobFence.2.1]
    exact id
  refine Advances.of_held hsound ho hheld hlocal ho' (Step.close hopen
    ⟨rfl, rfl, rfl, rfl, rfl, rfl⟩ trivial rfl ⟨rfl, rfl, rfl, rfl⟩ ⟨rfl, rfl⟩
    List.mem_cons_self ?_ (CallsMove.refl _ _)
    (fun tidy => settled_of_clean (hsound _ o ho) ho hmem hfence (htidy tidy))
    (List.forall_mem_nil _) rfl htold)
  exact attempts_moved (hsound _ o ho) hmem hfence (HoldsAttempt.active trivial)
    ⟨rfl, rfl, rfl, rfl, rfl, rfl⟩ ⟨id, rfl⟩

variable {failure : Failure}

theorem closeTerminal_advances {db₁ : Database} (hsound : AllSound db)
    (ho : db.1.obligation claim.jobId = some o) (hheld : o.Held claim)
    (htidy : (rules claim.jobId).tidy → SettlesCleanly db.1 claim now)
    (hattemptCount : db.1.jobAttempts.rows.countP (claim.HoldsAttempt .running now) = 1)
    (hattempt : Tx.Updates (claim.HoldsAttempt .running now)
      (JobAttemptRecord.fail failure now) db db₁)
    (h : (closeTerminalOnConnection claim failure now).Commits db₁ value db') :
    Advances rules now db db' := by
  obtain ⟨db₂, db₃, db₄, hjobCount, hjob, hrunCount, hrun, hattemptFailed, hrunFailed⟩ :=
    commits_closeTerminal h
  obtain ⟨attempt, hmem, hfence⟩ := fence_attempt ho hattemptCount fun _ hp => hp.2.1
  have ho₁ := attempts_updated ho hattempt fun _ => rfl
  have hjobFence := fence_job ho₁ hjobCount fun _ hp => hp.1.1
  have ho₂ := job_updated ho₁ hjob hjobFence (fun _ => rfl) fun _ => rfl
  have hrunFence := fence_run ho₂ hrunCount fun _ hp => hp.1.trans hheld.run.symm
  have ho₃ := run_updated ho₂ hrun hrunFence fun _ => rfl
  have hbase := timeline_eq ho₃ hheld.run
  obtain ⟨timeline₁, htold₁, ho₄⟩ := event_told ho₃ hattemptFailed hheld.run.symm
    (Appends.nil o.timeline) (by rw [← hbase]; rfl)
  obtain ⟨timeline', htold, ho'⟩ := event_told ho₄ hrunFailed hheld.run.symm htold₁
    (by rw [← hbase]; rfl)
  have hlocal : Local claim.Spares db db' :=
    (Local.ofAttempt hattempt (fun _ => rfl) fun _ hp => hp.2.1).trans <|
      (Local.ofJob hjob (fun _ => rfl) (fun _ => rfl) fun _ hp => hp.1.1).trans <|
        (Local.ofRun hrun (fun _ => rfl) fun _ hp => hp.1).trans <|
          (Local.ofEvent hattemptFailed rfl).trans <| Local.ofEvent hrunFailed rfl
  have hopen : ¬ o.job.status.IsTerminal := by
    rw [hjobFence.1.2.1]
    exact id
  refine Advances.of_held hsound ho hheld hlocal ho' (Step.close hopen
    ⟨rfl, rfl, rfl, rfl, rfl, rfl⟩ trivial rfl ⟨rfl, rfl, rfl, rfl⟩ ⟨rfl, rfl⟩
    List.mem_cons_self ?_ (CallsMove.refl _ _)
    (fun tidy => settled_of_clean (hsound _ o ho) ho hmem hfence (htidy tidy))
    (List.forall_mem_singleton.mpr
      (show ¬ RunEventType.attemptFailed.IsTerminal by decide)) rfl htold)
  exact attempts_moved (hsound _ o ho) hmem hfence (HoldsAttempt.active trivial)
    ⟨rfl, rfl, rfl, rfl, rfl, rfl⟩ ⟨id, rfl⟩

theorem fail_advances (hsound : AllSound db) (ho : db.1.obligation claim.jobId = some o)
    (hheld : o.Held claim) (htidy : (rules claim.jobId).tidy → SettlesCleanly db.1 claim now)
    (h : (fail claim failure now).Commits db value db') : Advances rules now db db' := by
  obtain ⟨db₁, hcount, hattempt, hclose⟩ := commits_fail h
  exact closeTerminal_advances hsound ho hheld htidy hcount hattempt hclose

theorem scheduleRetry_advances {anchorAt : Instant} {policy : RetryPolicy} {db₁ : Database}
    (hsound : AllSound db) (ho : db.1.obligation claim.jobId = some o) (hheld : o.Held claim)
    (htidy : (rules claim.jobId).tidy → SettlesCleanly db.1 claim now)
    (hattemptCount : db.1.jobAttempts.rows.countP (claim.HoldsAttempt .running now) = 1)
    (hattempt : Tx.Updates (claim.HoldsAttempt .running now)
      (JobAttemptRecord.fail failure now) db db₁) (hretryable : failure.Retryable)
    (hbudget : o.job.attemptCount < o.job.maxAttempts)
    (hundispatched : ¬ DispatchedToolCall db₁.1 claim.attemptId)
    (h : (scheduleRetryOnConnection claim failure anchorAt policy now).Commits db₁ value db') :
    Advances rules now db db' := by
  obtain ⟨dueAt, db₂, db₃, -, hjobCount, hjob, -, hattemptFailed, hscheduled⟩ :=
    commits_scheduleRetry h
  obtain ⟨attempt, hmem, hfence⟩ := fence_attempt ho hattemptCount fun _ hp => hp.2.1
  have ho₁ := attempts_updated ho hattempt fun _ => rfl
  have hjobFence := fence_job ho₁ hjobCount fun _ hp => hp.1.1
  have ho₂ := job_updated ho₁ hjob hjobFence (fun _ => rfl) fun _ => rfl
  have hbase := timeline_eq ho₂ hheld.run
  obtain ⟨timeline₁, htold₁, ho₃⟩ := event_told ho₂ hattemptFailed hheld.run.symm
    (Appends.nil o.timeline) (by rw [← hbase]; rfl)
  obtain ⟨timeline', htold, ho'⟩ := event_told ho₃ hscheduled hheld.run.symm htold₁
    (by rw [← hbase]; rfl)
  have hlocal : Local claim.Spares db db' :=
    (Local.ofAttempt hattempt (fun _ => rfl) fun _ hp => hp.2.1).trans <|
      (Local.ofJob hjob (fun _ => rfl) (fun _ => rfl) fun _ hp => hp.1.1).trans <|
        (Local.ofEvent hattemptFailed rfl).trans <| Local.ofEvent hscheduled rfl
  have hrunning : attempt.status.IsActive := by
    rw [hfence.2.2.1]
    trivial
  refine Advances.of_held hsound ho hheld hlocal ho' (Step.retry hjobFence.1.2.1 hbudget
    ?_ ⟨rfl, rfl, rfl, rfl, rfl, rfl⟩ rfl rfl ⟨rfl, rfl, rfl, rfl⟩ ?_
    (fun tidy => settled_of_clean (hsound _ o ho) ho hmem hfence (htidy tidy))
    htold)
  · rintro call hcall ⟨active, hactiveMem, hid, hactive⟩ hdispatched
    refine hundispatched ⟨call, ((mem_calls ho₁).mp hcall).1, ?_, hdispatched⟩
    rw [← hid, (hsound _ o ho).only hactiveMem hactive hmem hrunning, hfence.1]
  · exact attempts_moved (hsound _ o ho) hmem hfence (HoldsAttempt.active trivial)
      ⟨rfl, rfl, rfl, rfl, rfl, rfl⟩ ⟨rfl, congrArg some hretryable.2,
        congrArg some hretryable.1, rfl⟩

theorem recordFailure_advances {anchorAt : Instant} {policy : RetryPolicy}
    {outcome : FailureOutcome} (hsound : AllSound db) (ho : db.1.obligation claim.jobId = some o)
    (hheld : o.Held claim) (htidy : (rules claim.jobId).tidy → SettlesCleanly db.1 claim now)
    (h : (recordFailure claim failure anchorAt policy now).Commits db outcome db') :
    Advances rules now db db' := by
  obtain ⟨db₁, hcount, hattempt, job, hfind, -, ⟨hretryable, hundispatched, hbudget, -,
    hschedule⟩ | ⟨-, hclose⟩⟩ := commits_recordFailure h
  · have hread := obligation_job (attempts_updated ho hattempt fun _ => rfl)
    obtain rfl := Option.some.inj (hfind.symm.trans hread)
    exact scheduleRetry_advances hsound ho hheld htidy hcount hattempt hretryable hbudget
      hundispatched hschedule
  · exact closeTerminal_advances hsound ho hheld htidy hcount hattempt hclose

end NervOS
