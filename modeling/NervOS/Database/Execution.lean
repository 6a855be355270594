/-
The execution boundary of one claim: start, heartbeat, usage, and the three ways
in which a Worker settles its Attempt.
-/
import NervOS.Database.Submission

namespace NervOS

open Relational

section Fences

variable (claim : ClaimedAttempt)

def ClaimedAttempt.HoldsAttempt (status : AttemptStatus) (now : Instant)
    (attempt : JobAttemptRecord) : Prop :=
  attempt.id = claim.attemptId ∧ attempt.jobId = claim.jobId ∧
    attempt.status = status ∧ attempt.workerId = claim.workerId ∧
    attempt.claimToken = claim.claimToken ∧ now < attempt.leaseExpiresAt

instance (status : AttemptStatus) (now : Instant) :
    DecidablePred (claim.HoldsAttempt status now) := fun _ =>
  inferInstanceAs (Decidable (_ ∧ _ ∧ _ ∧ _ ∧ _ ∧ _))

/-- The Job is in the given state and carries the claim. -/
def ClaimedAttempt.HoldsJob (status : JobStatus) (job : JobRecord) : Prop :=
  job.id = claim.jobId ∧ job.status = status ∧
    job.claimedBy = some claim.workerId ∧ job.claimToken = some claim.claimToken

instance (status : JobStatus) : DecidablePred (claim.HoldsJob status) := fun _ =>
  inferInstanceAs (Decidable (_ ∧ _ ∧ _ ∧ _))

def ClaimedAttempt.HoldsLiveJob (status : JobStatus) (now : Instant) (job : JobRecord) :
    Prop :=
  claim.HoldsJob status job ∧ ∃ lease ∈ job.leaseExpiresAt, now < lease

instance (status : JobStatus) (now : Instant) :
    DecidablePred (claim.HoldsLiveJob status now) := fun job =>
  inferInstanceAs (Decidable (_ ∧ ∃ lease ∈ job.leaseExpiresAt, _))

/-- No cancellation of the Job was accepted either. -/
def ClaimedAttempt.HoldsUncancelledJob (status : JobStatus) (now : Instant)
    (job : JobRecord) : Prop :=
  claim.HoldsLiveJob status now job ∧ job.cancelRequestedAt = none

instance (status : JobStatus) (now : Instant) :
    DecidablePred (claim.HoldsUncancelledJob status now) := fun _ =>
  inferInstanceAs (Decidable (_ ∧ _))

def ClaimedAttempt.HoldsRun (status : RunStatus) (run : RunRecord) : Prop :=
  run.id = claim.runId ∧ run.status = status

instance (status : RunStatus) : DecidablePred (claim.HoldsRun status) := fun _ =>
  inferInstanceAs (Decidable (_ ∧ _))

def ClaimedAttempt.event (eventType : RunEventType) (sequence : Nat) (now : Instant)
    (code message : Option String) : RunEventRecord where
  runId := claim.runId
  jobId := claim.jobId
  attemptId := some claim.attemptId
  sequence := sequence
  eventType := eventType
  code := code
  message := message
  attemptNumber := some claim.attemptNumber
  createdAt := now

end Fences

/-- Release every claim column of a Job. -/
def JobRecord.clearClaim (now : Instant) (job : JobRecord) : JobRecord :=
  { job with
    updatedAt := now
    claimedBy := none
    claimToken := none
    leaseExpiresAt := none
    lastHeartbeatAt := none }

def JobAttemptRecord.start (now : Instant) (attempt : JobAttemptRecord) :
    JobAttemptRecord :=
  { attempt with status := .running, executionStartedAt := some now }

def JobRecord.start (now : Instant) (job : JobRecord) : JobRecord :=
  { job with status := .running, updatedAt := now }

def RunRecord.start (now : Instant) (run : RunRecord) : RunRecord :=
  { run with status := .running, startedAt := some now }

/-- The Run is executing, as its first start left it. -/
def RunRecord.Executing (run : RunRecord) : Prop :=
  run.status = .running ∧ run.startedAt ≠ none

instance : DecidablePred RunRecord.Executing := fun _ =>
  inferInstanceAs (Decidable (_ ∧ _))

def ClaimedAttempt.HoldsUnstartedRun (claim : ClaimedAttempt) (run : RunRecord) : Prop :=
  claim.HoldsRun .created run ∧ run.startedAt = none

instance (claim : ClaimedAttempt) : DecidablePred claim.HoldsUnstartedRun := fun _ =>
  inferInstanceAs (Decidable (_ ∧ _))

def startOnce (claim : ClaimedAttempt) (now : Instant) : Connection Unit := do
  Tx.updateOne .fenced (claim.HoldsAttempt .claimed now) (JobAttemptRecord.start now)
  Tx.updateOne .fenced (claim.HoldsUncancelledJob .claimed now) (JobRecord.start now)
  let started ← Tx.update claim.HoldsUnstartedRun (RunRecord.start now)
  let executing ← Tx.query fun db =>
    decide (∃ run ∈ db.runs.find claim.runId, run.Executing)
  Tx.require (started = 1 ∨ executing = true) .fenced
  let base ← sequenceBase claim.runId
  appendEventOnConnection (claim.event .attemptStarted (base + 1) now none none)

theorem commits_startOnce {claim : ClaimedAttempt} {now : Instant} {db db' : Database}
    {value : Unit} (h : (startOnce claim now).Commits db value db') :
    ∃ db₁ db₂ db₃,
      db.1.jobAttempts.rows.countP (claim.HoldsAttempt .claimed now) = 1 ∧
      Tx.Updates (claim.HoldsAttempt .claimed now) (JobAttemptRecord.start now) db db₁ ∧
      db₁.1.jobs.rows.countP (claim.HoldsUncancelledJob .claimed now) = 1 ∧
      Tx.Updates (claim.HoldsUncancelledJob .claimed now) (JobRecord.start now) db₁ db₂ ∧
      Tx.Updates claim.HoldsUnstartedRun (RunRecord.start now) db₂ db₃ ∧
      (∃ run ∈ db₃.1.runs.find claim.runId, run.Executing) ∧
      Tx.Inserts (claim.event .attemptStarted
        (lastSequence (db₃.1.timeline claim.runId) + 1) now none none).withId db₃ db' := by
  simp only [startOnce, sequenceBase, Tx.commits_bind, Tx.commits_updateOne,
    Tx.commits_update, Tx.commits_query, Tx.commits_require, commits_appendEvent] at h
  obtain ⟨_, db₁, ⟨hattemptCount, hattempt⟩, _, db₂, ⟨hjobCount, hjob⟩, started, db₃,
    ⟨hstarted, hrun⟩, executing, db₃, ⟨rfl, rfl⟩, _, db₃, ⟨hexecuting, rfl⟩, _, db₃,
    ⟨rfl, rfl⟩, -, hevent⟩ := h
  refine ⟨db₁, db₂, db₃, hattemptCount, hattempt, hjobCount, hjob, hrun, ?_, hevent⟩
  rcases hexecuting with hone | hread
  · obtain ⟨run, hmem, hfence, -⟩ := Table.exists_unique_of_countP (hstarted ▸ hone)
    have hfind : db₂.1.runs.find claim.runId = some run :=
      Table.find_eq_some.mpr ⟨hmem, hfence.1.1⟩
    have hupdated := hrun.find (fun _ => rfl) claim.runId
    simp only [table_run, hfind, Option.map_some, Table.amend_of_pos hfence] at hupdated
    exact ⟨run.start now, hupdated, rfl, Option.some_ne_none now⟩
  · exact of_decide_eq_true hread

def JobRecord.renew (now : Instant) (leaseDuration : Duration) (job : JobRecord) :
    JobRecord :=
  { job with
    leaseExpiresAt := some (now + leaseDuration)
    lastHeartbeatAt := some now
    updatedAt := now }

def JobAttemptRecord.renew (now : Instant) (leaseDuration : Duration)
    (attempt : JobAttemptRecord) : JobAttemptRecord :=
  { attempt with leaseExpiresAt := now + leaseDuration, lastHeartbeatAt := now }

def renewLease (claim : ClaimedAttempt) (now : Instant) (leaseDuration : Duration) :
    Connection Unit := do
  Tx.updateOne .fenced (claim.HoldsLiveJob .running now) (JobRecord.renew now leaseDuration)
  Tx.updateOne .fenced (claim.HoldsAttempt .running now)
    (JobAttemptRecord.renew now leaseDuration)

theorem commits_renewLease {claim : ClaimedAttempt} {now : Instant}
    {leaseDuration : Duration} {db db' : Database} {value : Unit}
    (h : (renewLease claim now leaseDuration).Commits db value db') :
    ∃ db₁,
      db.1.jobs.rows.countP (claim.HoldsLiveJob .running now) = 1 ∧
      Tx.Updates (claim.HoldsLiveJob .running now) (JobRecord.renew now leaseDuration)
        db db₁ ∧
      db₁.1.jobAttempts.rows.countP (claim.HoldsAttempt .running now) = 1 ∧
      Tx.Updates (claim.HoldsAttempt .running now)
        (JobAttemptRecord.renew now leaseDuration) db₁ db' := by
  simp only [renewLease, Tx.commits_bind, Tx.commits_updateOne] at h
  obtain ⟨_, db₁, ⟨hjobCount, hjob⟩, hattemptCount, hattempt⟩ := h
  exact ⟨db₁, hjobCount, hjob, hattemptCount, hattempt⟩

/-- What a Worker reports about a completed execution.  `committed` is the outcome
of the memory and workflow writes that join the same transaction. -/
structure Completion where
  outputText : String
  finishReason : Option String
  usage : ModelUsage
  elapsedMs : Int
  committed : Except PersistenceError Unit

def JobAttemptRecord.succeed (now : Instant) (attempt : JobAttemptRecord) :
    JobAttemptRecord :=
  { attempt with status := .succeeded, finishedAt := some now }

def JobRecord.succeed (now : Instant) (job : JobRecord) : JobRecord :=
  { job.clearClaim now with status := .succeeded, finishedAt := some now }

def RunRecord.succeed (completion : Completion) (now : Instant) (run : RunRecord) :
    RunRecord :=
  { run with
    status := .succeeded
    outputText := some completion.outputText
    finishReason := completion.finishReason
    usage := completion.usage
    elapsedMs := some completion.elapsedMs
    finishedAt := some now }

def succeed (claim : ClaimedAttempt) (completion : Completion) (now : Instant) :
    Connection Unit := do
  Tx.updateOne .fenced (claim.HoldsAttempt .running now) (JobAttemptRecord.succeed now)
  Tx.updateOne .fenced (claim.HoldsJob .running) (JobRecord.succeed now)
  Tx.updateOne .fenced (claim.HoldsRun .running) (RunRecord.succeed completion now)
  Tx.ofExcept completion.committed
  let base ← sequenceBase claim.runId
  appendEventOnConnection (claim.event .runSucceeded (base + 1) now none none)

theorem commits_succeed {claim : ClaimedAttempt} {completion : Completion} {now : Instant}
    {db db' : Database} {value : Unit}
    (h : (succeed claim completion now).Commits db value db') :
    ∃ db₁ db₂ db₃,
      db.1.jobAttempts.rows.countP (claim.HoldsAttempt .running now) = 1 ∧
      Tx.Updates (claim.HoldsAttempt .running now) (JobAttemptRecord.succeed now) db db₁ ∧
      db₁.1.jobs.rows.countP (claim.HoldsJob .running) = 1 ∧
      Tx.Updates (claim.HoldsJob .running) (JobRecord.succeed now) db₁ db₂ ∧
      db₂.1.runs.rows.countP (claim.HoldsRun .running) = 1 ∧
      Tx.Updates (claim.HoldsRun .running) (RunRecord.succeed completion now) db₂ db₃ ∧
      Tx.Inserts (claim.event .runSucceeded
        (lastSequence (db₃.1.timeline claim.runId) + 1) now none none).withId db₃ db' := by
  simp only [succeed, sequenceBase, Tx.commits_bind, Tx.commits_updateOne,
    Tx.commits_ofExcept, Tx.commits_query, commits_appendEvent] at h
  obtain ⟨_, db₁, ⟨hattemptCount, hattempt⟩, _, db₂, ⟨hjobCount, hjob⟩, _, db₃,
    ⟨hrunCount, hrun⟩, _, db₃, ⟨-, rfl⟩, _, db₃, ⟨rfl, rfl⟩, -, hevent⟩ := h
  exact ⟨db₁, db₂, db₃, hattemptCount, hattempt, hjobCount, hjob, hrunCount, hrun, hevent⟩

/-- A normalized execution failure, as the Worker reports it. -/
structure Failure where
  errorCode : String
  errorMessage : String
  retryDisposition : RetryDisposition
  usage : ModelUsage
  elapsedMs : Int

def Failure.event (failure : Failure) (claim : ClaimedAttempt) (eventType : RunEventType)
    (sequence : Nat) (now : Instant) : RunEventRecord :=
  claim.event eventType sequence now (some failure.errorCode) (some failure.errorMessage)

def JobAttemptRecord.fail (failure : Failure) (now : Instant) (attempt : JobAttemptRecord) :
    JobAttemptRecord :=
  { attempt with
    status := .failed
    finishedAt := some now
    retryDisposition := some failure.retryDisposition
    errorCode := some failure.errorCode
    errorMessage := some failure.errorMessage }

def JobRecord.fail (errorCode errorMessage : String) (now : Instant) (job : JobRecord) :
    JobRecord :=
  { job.clearClaim now with
    status := .failed
    finishedAt := some now
    errorCode := some errorCode
    errorMessage := some errorMessage }

def RunRecord.fail (failure : Failure) (now : Instant) (run : RunRecord) : RunRecord :=
  { run with
    status := .failed
    finishedAt := some now
    elapsedMs := some failure.elapsedMs
    errorCode := some failure.errorCode
    errorMessage := some failure.errorMessage
    usage := failure.usage }

/-- Close the current Attempt as failed evidence. -/
def failAttemptOnConnection (claim : ClaimedAttempt) (failure : Failure) (now : Instant) :
    Connection Unit :=
  Tx.updateOne .fenced (claim.HoldsAttempt .running now) (JobAttemptRecord.fail failure now)

def closeTerminalOnConnection (claim : ClaimedAttempt) (failure : Failure)
    (now : Instant) : Connection Unit := do
  Tx.updateOne .fenced (claim.HoldsLiveJob .running now)
    (JobRecord.fail failure.errorCode failure.errorMessage now)
  Tx.updateOne .fenced (claim.HoldsRun .running) (RunRecord.fail failure now)
  let base ← sequenceBase claim.runId
  appendEventOnConnection (failure.event claim .attemptFailed (base + 1) now)
  appendEventOnConnection (failure.event claim .runFailed (base + 2) now)

theorem commits_closeTerminal {claim : ClaimedAttempt} {failure : Failure} {now : Instant}
    {db db' : Database} {value : Unit}
    (h : (closeTerminalOnConnection claim failure now).Commits db value db') :
    ∃ db₁ db₂ db₃,
      db.1.jobs.rows.countP (claim.HoldsLiveJob .running now) = 1 ∧
      Tx.Updates (claim.HoldsLiveJob .running now)
        (JobRecord.fail failure.errorCode failure.errorMessage now) db db₁ ∧
      db₁.1.runs.rows.countP (claim.HoldsRun .running) = 1 ∧
      Tx.Updates (claim.HoldsRun .running) (RunRecord.fail failure now) db₁ db₂ ∧
      Tx.Inserts (failure.event claim .attemptFailed
        (lastSequence (db₂.1.timeline claim.runId) + 1) now).withId db₂ db₃ ∧
      Tx.Inserts (failure.event claim .runFailed
        (lastSequence (db₂.1.timeline claim.runId) + 2) now).withId db₃ db' := by
  simp only [closeTerminalOnConnection, sequenceBase, Tx.commits_bind,
    Tx.commits_updateOne, Tx.commits_query, commits_appendEvent] at h
  obtain ⟨_, db₁, ⟨hjobCount, hjob⟩, _, db₂, ⟨hrunCount, hrun⟩, _, db₂, ⟨rfl, rfl⟩, _, db₃,
    ⟨-, hattemptFailed⟩, -, hrunFailed⟩ := h
  exact ⟨db₁, db₂, db₃, hjobCount, hjob, hrunCount, hrun, hattemptFailed, hrunFailed⟩

def fail (claim : ClaimedAttempt) (failure : Failure) (now : Instant) :
    Connection Unit := do
  Tx.require (validateErrorMessage failure.errorMessage = true) .invalidArgument
  failAttemptOnConnection claim failure now
  closeTerminalOnConnection claim failure now

theorem commits_fail {claim : ClaimedAttempt} {failure : Failure} {now : Instant}
    {db db' : Database} {value : Unit} (h : (fail claim failure now).Commits db value db') :
    ∃ db₁,
      db.1.jobAttempts.rows.countP (claim.HoldsAttempt .running now) = 1 ∧
      Tx.Updates (claim.HoldsAttempt .running now) (JobAttemptRecord.fail failure now)
        db db₁ ∧
      (closeTerminalOnConnection claim failure now).Commits db₁ value db' := by
  simp only [fail, failAttemptOnConnection, Tx.commits_bind, Tx.commits_updateOne,
    Tx.commits_require] at h
  obtain ⟨_, db, ⟨-, rfl⟩, _, db₁, ⟨hcount, hattempt⟩, hclose⟩ := h
  exact ⟨db₁, hcount, hattempt, hclose⟩

/-- The exact failure that may be replayed: the disposition alone never is. -/
def Failure.Retryable (failure : Failure) : Prop :=
  failure.retryDisposition = .safeToRetry ∧ failure.errorCode = modelRateLimited

instance : DecidablePred Failure.Retryable := fun _ =>
  inferInstanceAs (Decidable (_ ∧ _))

def DispatchedToolCall (db : Tables) (attemptId : Nat) : Prop :=
  ∃ invocation ∈ db.toolInvocations.rows,
    invocation.attemptId = attemptId ∧ invocation.status.IsDispatched

instance (db : Tables) (attemptId : Nat) : Decidable (DispatchedToolCall db attemptId) :=
  inferInstanceAs (Decidable (∃ invocation ∈ db.toolInvocations.rows, _))

def Tables.retryOrdinal (db : Tables) (jobId : Nat) : Nat :=
  db.jobAttempts.rows.countP fun attempt =>
    attempt.jobId = jobId ∧ attempt.status = .failed ∧
      attempt.retryDisposition = some .safeToRetry ∧ attempt.executionStartedAt ≠ none

def JobRecord.retry (dueAt now : Instant) (job : JobRecord) : JobRecord :=
  { job.clearClaim now with
    status := .retryWait
    availableAt := dueAt
    finishedAt := none
    errorCode := none
    errorMessage := none }

def Failure.retryEvent (failure : Failure) (claim : ClaimedAttempt) (dueAt : Instant)
    (sequence : Nat) (now : Instant) : RunEventRecord :=
  { failure.event claim .retryScheduled sequence now with availableAt := some dueAt }

def scheduleRetryOnConnection (claim : ClaimedAttempt) (failure : Failure)
    (anchorAt : Instant) (policy : RetryPolicy) (now : Instant) : Connection Unit := do
  let ordinal ← Tx.query (Tables.retryOrdinal · claim.jobId)
  let dueAt := retryDueAt policy anchorAt (max ordinal 1)
  Tx.updateOne .fenced (claim.HoldsLiveJob .running now) (JobRecord.retry dueAt now)
  let executing ← Tx.query fun db =>
    decide (∃ run ∈ db.runs.find claim.runId, run.Executing)
  Tx.require (executing = true) .fenced
  let base ← sequenceBase claim.runId
  appendEventOnConnection (failure.event claim .attemptFailed (base + 1) now)
  appendEventOnConnection (failure.retryEvent claim dueAt (base + 2) now)

theorem commits_scheduleRetry {claim : ClaimedAttempt} {failure : Failure}
    {anchorAt : Instant} {policy : RetryPolicy} {now : Instant} {db db' : Database}
    {value : Unit}
    (h : (scheduleRetryOnConnection claim failure anchorAt policy now).Commits db value db') :
    ∃ dueAt db₁ db₂,
      dueAt = retryDueAt policy anchorAt (max (db.1.retryOrdinal claim.jobId) 1) ∧
      db.1.jobs.rows.countP (claim.HoldsLiveJob .running now) = 1 ∧
      Tx.Updates (claim.HoldsLiveJob .running now) (JobRecord.retry dueAt now) db db₁ ∧
      (∃ run ∈ db₁.1.runs.find claim.runId, run.Executing) ∧
      Tx.Inserts (failure.event claim .attemptFailed
        (lastSequence (db₁.1.timeline claim.runId) + 1) now).withId db₁ db₂ ∧
      Tx.Inserts (failure.retryEvent claim dueAt
        (lastSequence (db₁.1.timeline claim.runId) + 2) now).withId db₂ db' := by
  simp only [scheduleRetryOnConnection, sequenceBase, Tx.commits_bind,
    Tx.commits_updateOne, Tx.commits_query, Tx.commits_require, commits_appendEvent] at h
  obtain ⟨_, db, ⟨rfl, rfl⟩, _, db₁, ⟨hcount, hjob⟩, executing, db₁, ⟨rfl, rfl⟩, _, db₁,
    ⟨hexecuting, rfl⟩, _, db₁, ⟨rfl, rfl⟩, _, db₂, ⟨-, hfailed⟩, -, hscheduled⟩ := h
  exact ⟨_, db₁, db₂, rfl, hcount, hjob, of_decide_eq_true hexecuting, hfailed, hscheduled⟩

def recordFailure (claim : ClaimedAttempt) (failure : Failure) (anchorAt : Instant)
    (policy : RetryPolicy) (now : Instant) : Connection FailureOutcome := do
  Tx.require (validateErrorMessage failure.errorMessage = true) .invalidArgument
  failAttemptOnConnection claim failure now
  let job ← Tx.query fun db =>
    (db.jobs.find claim.jobId).filter fun job => claim.HoldsUncancelledJob .running now job
  let job ← Tx.ofExcept (job.elim (.error .fenced) .ok)
  let dispatched ← Tx.query fun db => decide (DispatchedToolCall db claim.attemptId)
  if failure.Retryable ∧ dispatched = false ∧ job.attemptCount < job.maxAttempts then do
    scheduleRetryOnConnection claim failure anchorAt policy now
    pure .retryScheduled
  else do
    closeTerminalOnConnection claim failure now
    pure .terminalFailed

theorem commits_recordFailure {claim : ClaimedAttempt} {failure : Failure}
    {anchorAt : Instant} {policy : RetryPolicy} {now : Instant} {db db' : Database}
    {outcome : FailureOutcome}
    (h : (recordFailure claim failure anchorAt policy now).Commits db outcome db') :
    ∃ db₁,
      db.1.jobAttempts.rows.countP (claim.HoldsAttempt .running now) = 1 ∧
      Tx.Updates (claim.HoldsAttempt .running now) (JobAttemptRecord.fail failure now)
        db db₁ ∧
      ∃ job, db₁.1.jobs.find claim.jobId = some job ∧
        claim.HoldsUncancelledJob .running now job ∧
        ((failure.Retryable ∧ ¬ DispatchedToolCall db₁.1 claim.attemptId ∧
            job.attemptCount < job.maxAttempts ∧ outcome = .retryScheduled ∧
            (scheduleRetryOnConnection claim failure anchorAt policy now).Commits
              db₁ () db') ∨
          (outcome = .terminalFailed ∧
            (closeTerminalOnConnection claim failure now).Commits db₁ () db')) := by
  simp only [recordFailure, failAttemptOnConnection, Tx.commits_bind, Tx.commits_updateOne,
    Tx.commits_require, Tx.commits_query, Tx.commits_ofExcept, Tx.commits_ite,
    Tx.commits_pure] at h
  obtain ⟨_, db, ⟨-, rfl⟩, _, db₁, ⟨hcount, hattempt⟩, row, db₁, ⟨hrow, rfl⟩, job, db₁,
    ⟨hjob, rfl⟩, dispatched, db₁, ⟨rfl, rfl⟩, hbranch⟩ := h
  cases row with
  | none => cases hjob
  | some row =>
    obtain rfl : row = job := Except.ok.inj hjob
    obtain ⟨hfind, hfence⟩ := Option.filter_eq_some_iff.mp hrow.symm
    refine ⟨db₁, hcount, hattempt, row, hfind, of_decide_eq_true hfence, ?_⟩
    rcases hbranch with ⟨⟨hretry, hnone, hbudget⟩, _, db', hschedule, rfl, rfl⟩ |
      ⟨-, _, db', hclose, rfl, rfl⟩
    · exact Or.inl ⟨hretry, of_decide_eq_false hnone, hbudget, rfl, hschedule⟩
    · exact Or.inr ⟨rfl, hclose⟩

def JobAttemptRecord.withUsage (usage : ModelUsage) (attempt : JobAttemptRecord) :
    JobAttemptRecord :=
  { attempt with usage := usage }

def persistAttemptUsage (claim : ClaimedAttempt) (usage : ModelUsage) (now : Instant) :
    Connection Unit := do
  let current ← Tx.query fun db =>
    decide (∃ attempt ∈ db.jobAttempts.find claim.attemptId,
      ∃ job ∈ db.jobs.find attempt.jobId, claim.HoldsJob .running job)
  Tx.require (current = true) .fenced
  Tx.updateOne .fenced (claim.HoldsAttempt .running now)
    (JobAttemptRecord.withUsage usage)

theorem commits_persistAttemptUsage {claim : ClaimedAttempt} {usage : ModelUsage}
    {now : Instant} {db db' : Database} {value : Unit}
    (h : (persistAttemptUsage claim usage now).Commits db value db') :
    (∃ attempt ∈ db.1.jobAttempts.find claim.attemptId,
      ∃ job ∈ db.1.jobs.find attempt.jobId, claim.HoldsJob .running job) ∧
    db.1.jobAttempts.rows.countP (claim.HoldsAttempt .running now) = 1 ∧
    Tx.Updates (claim.HoldsAttempt .running now) (JobAttemptRecord.withUsage usage)
      db db' := by
  simp only [persistAttemptUsage, Tx.commits_bind, Tx.commits_query, Tx.commits_require,
    Tx.commits_updateOne] at h
  obtain ⟨_, db, ⟨rfl, rfl⟩, _, db, ⟨hcurrent, rfl⟩, hcount, hupdates⟩ := h
  exact ⟨of_decide_eq_true hcurrent, hcount, hupdates⟩

/-- Whole milliseconds of a started execution, zero on a clock that went back. -/
def elapsedMsSince (startedAt : Option Instant) (now : Instant) : Int :=
  match startedAt with
  | none => 0
  | some started => max 0 ((now - started) / 1000)

def RunRecord.closeAmbiguous (now : Instant) (run : RunRecord) : RunRecord :=
  { run with
    status := .failed
    errorCode := some executionOutcomeAmbiguous
    errorMessage := some (safeErrorMessage executionOutcomeAmbiguous)
    elapsedMs := some (elapsedMsSince run.startedAt now)
    finishedAt := some now }

def closeLegacyNonterminalRuns (now : Instant) : Connection Nat := do
  let candidates ← Tx.query fun db =>
    (db.runs.rows.filter fun run => run.status = .running ∧
      ∀ job ∈ db.jobs.rows, job.runId ≠ run.id).map (·.id)
  Tx.update (fun run : RunRecord => run.id ∈ candidates ∧ run.status = .running)
    (RunRecord.closeAmbiguous now)

theorem commits_closeLegacy {now : Instant} {db db' : Database} {count : Nat}
    (h : (closeLegacyNonterminalRuns now).Commits db count db') :
    ∃ candidates : List Nat,
      (∀ id ∈ candidates, ∀ job ∈ db.1.jobs.rows, job.runId ≠ id) ∧
      Tx.Updates (fun run : RunRecord => run.id ∈ candidates ∧ run.status = .running)
        (RunRecord.closeAmbiguous now) db db' := by
  simp only [closeLegacyNonterminalRuns, Tx.commits_bind, Tx.commits_query,
    Tx.commits_update] at h
  obtain ⟨_, db, ⟨rfl, rfl⟩, -, hupdates⟩ := h
  refine ⟨_, ?_, hupdates⟩
  intro id hid job hjob
  obtain ⟨run, hrun, rfl⟩ := List.mem_map.mp hid
  have hfilter := (List.mem_filter.mp hrun).2
  exact (of_decide_eq_true hfilter).2 job hjob

end NervOS
