/-
Reclamation of expired claims, one candidate per transaction, and the
reconciliation of the tool calls that an abandoned Attempt left open.
-/
import Mathlib.Data.List.Sort
import NervOS.Database.Claim
import NervOS.Database.Execution

namespace NervOS

open Relational

def ToolInvocationRecord.OpenFor (attemptId : Nat) (invocation : ToolInvocationRecord) :
    Prop :=
  invocation.attemptId = attemptId ∧ invocation.status.IsOpen

instance (attemptId : Nat) : DecidablePred (ToolInvocationRecord.OpenFor attemptId) :=
  fun _ => inferInstanceAs (Decidable (_ ∧ _))

/-- A dispatched call may have had an effect, so it closes as ambiguous; any
other open call provably never ran. -/
def ToolInvocationRecord.abandon (status : InvocationStatus) (now : Instant)
    (invocation : ToolInvocationRecord) : ToolInvocationRecord :=
  if status = .started then
    { invocation with
      status := .ambiguous
      finishedAt := some now
      errorCode := some toolOutcomeUnknown
      errorMessage := some (safeErrorMessage toolOutcomeUnknown) }
  else { invocation with status := .cancelled, finishedAt := some now }

/-- The row is still as the reconciliation read it. -/
def AbandonFence (attemptId : Nat) (seen invocation : ToolInvocationRecord) : Prop :=
  invocation.id = seen.id ∧ invocation.attemptId = attemptId ∧
    invocation.status = seen.status

instance (attemptId : Nat) (seen : ToolInvocationRecord) :
    DecidablePred (AbandonFence attemptId seen) := fun _ =>
  inferInstanceAs (Decidable (_ ∧ _ ∧ _))

def abandonCalls (attemptId : Nat) (now : Instant) :
    List ToolInvocationRecord → Connection (List Nat)
  | [] => pure []
  | seen :: rest => do
    Tx.updateOne .fenced (AbandonFence attemptId seen)
      (ToolInvocationRecord.abandon seen.status now)
    let ambiguous ← abandonCalls attemptId now rest
    pure (if seen.status = .started then seen.id :: ambiguous else ambiguous)

def Tables.openCalls (db : Tables) (attemptId : Nat) : List ToolInvocationRecord :=
  (db.toolInvocations.rows.filter fun invocation =>
    invocation.OpenFor attemptId).insertionSort fun left right =>
      left.toolSequence ≤ right.toolSequence

def reconcileAbandonedToolInvocations (attemptId : Nat) (now : Instant) :
    Connection (List Nat) := do
  let rows ← Tx.query (Tables.openCalls · attemptId)
  abandonCalls attemptId now rows

/-- One `tool.ambiguous` event for each dispatched call, from `sequence` on;
returns the sequence that follows the last one. -/
def appendAmbiguousCalls (template : RunEventRecord) :
    List Nat → Nat → Connection Nat
  | [], sequence => pure sequence
  | invocationId :: rest, sequence => do
    appendEventOnConnection
      { template with
        toolInvocationId := some invocationId
        sequence := sequence
        eventType := .toolAmbiguous
        code := some toolOutcomeUnknown
        message := some (safeErrorMessage toolOutcomeUnknown) }
    appendAmbiguousCalls template rest (sequence + 1)

structure ExpiredClaim where
  job : JobRecord
  attempt : JobAttemptRecord

def Reclaimable (now : Instant) (job : JobRecord) (attempt : JobAttemptRecord) : Prop :=
  attempt.jobId = job.id ∧ (∃ lease ∈ job.leaseExpiresAt, lease ≤ now) ∧
    ((job.status = .claimed ∧ attempt.status = .claimed ∧
        attempt.executionStartedAt = none) ∨
      (job.status = .running ∧ attempt.status = .running ∧
        attempt.executionStartedAt ≠ none))

instance (now : Instant) (job : JobRecord) : DecidablePred (Reclaimable now job) :=
  fun _ => inferInstanceAs (Decidable (_ ∧ (∃ lease ∈ job.leaseExpiresAt, _) ∧ _))

def Tables.expiredClaims (db : Tables) (now : Instant) : List ExpiredClaim :=
  db.jobs.rows.flatMap fun job =>
    (db.jobAttempts.rows.filter fun attempt => Reclaimable now job attempt).map
      fun attempt => ⟨job, attempt⟩

/-- Oldest lease first, with the stable Job id as tie-break. -/
def ExpiredClaim.age (expired : ExpiredClaim) : Instant ×ₗ Nat :=
  toLex (expired.job.leaseExpiresAt.getD 0, expired.job.id)

def reclaimCandidate (db : Tables) (now : Instant) : Option ExpiredClaim :=
  (db.expiredClaims now).argmin ExpiredClaim.age

theorem mem_expiredClaims {db : Tables} {now : Instant} {expired : ExpiredClaim} :
    expired ∈ db.expiredClaims now ↔
      expired.job ∈ db.jobs.rows ∧ expired.attempt ∈ db.jobAttempts.rows ∧
        Reclaimable now expired.job expired.attempt := by
  simp only [Tables.expiredClaims, List.mem_flatMap, List.mem_map, List.mem_filter,
    decide_eq_true_eq]
  constructor
  · rintro ⟨job, hjob, attempt, ⟨hattempt, hexpired⟩, rfl⟩
    exact ⟨hjob, hattempt, hexpired⟩
  · rintro ⟨hjob, hattempt, hexpired⟩
    exact ⟨expired.job, hjob, expired.attempt, ⟨hattempt, hexpired⟩, rfl⟩

theorem reclaimCandidate_mem {db : Tables} {now : Instant} {expired : ExpiredClaim}
    (h : reclaimCandidate db now = some expired) : expired ∈ db.expiredClaims now :=
  List.argmin_mem h

section Fences

variable (expired : ExpiredClaim)

def ExpiredClaim.HoldsAttempt (status : AttemptStatus) (now : Instant)
    (attempt : JobAttemptRecord) : Prop :=
  attempt.id = expired.attempt.id ∧ attempt.jobId = expired.job.id ∧
    attempt.status = status ∧
    (attempt.executionStartedAt.isSome ↔ status = .running) ∧
    some attempt.workerId = expired.job.claimedBy ∧
    some attempt.claimToken = expired.job.claimToken ∧ attempt.leaseExpiresAt ≤ now

instance (status : AttemptStatus) (now : Instant) :
    DecidablePred (expired.HoldsAttempt status now) := fun _ =>
  inferInstanceAs (Decidable (_ ∧ _ ∧ _ ∧ _ ∧ _ ∧ _ ∧ _))

def ExpiredClaim.HoldsJob (status : JobStatus) (now : Instant) (job : JobRecord) : Prop :=
  job.id = expired.job.id ∧ job.status = status ∧
    job.claimedBy = expired.job.claimedBy ∧ job.claimToken = expired.job.claimToken ∧
    ∃ lease ∈ job.leaseExpiresAt, lease ≤ now

instance (status : JobStatus) (now : Instant) :
    DecidablePred (expired.HoldsJob status now) := fun job =>
  inferInstanceAs (Decidable (_ ∧ _ ∧ _ ∧ _ ∧ ∃ lease ∈ job.leaseExpiresAt, _))

def ExpiredClaim.HoldsRun (status : RunStatus) (run : RunRecord) : Prop :=
  run.id = expired.job.runId ∧ run.status = status ∧
    (run.startedAt.isSome ↔ status = .running)

instance (status : RunStatus) : DecidablePred (expired.HoldsRun status) := fun _ =>
  inferInstanceAs (Decidable (_ ∧ _ ∧ _))

def ExpiredClaim.event (eventType : RunEventType) (sequence : Nat) (now : Instant)
    (code message : Option String) : RunEventRecord where
  runId := expired.job.runId
  jobId := expired.job.id
  attemptId := some expired.attempt.id
  sequence := sequence
  eventType := eventType
  code := code
  message := message
  attemptNumber := some expired.attempt.attemptNumber
  createdAt := now

def ExpiredClaim.reclaimed (kind : ReclamationKind) : ReclaimedClaim where
  kind := kind
  runId := expired.job.runId
  jobId := expired.job.id
  attemptId := expired.attempt.id
  attemptNumber := expired.attempt.attemptNumber

end Fences

def JobAttemptRecord.expire (disposition : RetryDisposition) (code message : Option String)
    (now : Instant) (attempt : JobAttemptRecord) : JobAttemptRecord :=
  { attempt with
    status := .expired
    finishedAt := some now
    retryDisposition := some disposition
    errorCode := code
    errorMessage := message }

def JobRecord.requeue (now : Instant) (backoff : Duration) (job : JobRecord) : JobRecord :=
  { job.clearClaim now with
    status := .queued
    availableAt := now + backoff
    finishedAt := none
    errorCode := none
    errorMessage := none }

def RunRecord.exhaust (now : Instant) (run : RunRecord) : RunRecord :=
  { run with
    status := .failed
    finishedAt := some now
    errorCode := some workerRecoveryExhausted
    errorMessage := some (safeErrorMessage workerRecoveryExhausted) }

section Branches

def expirePreStartAttempt (expired : ExpiredClaim) (now : Instant) : Connection Unit :=
  Tx.updateOne .fenced (expired.HoldsAttempt .claimed now)
    (JobAttemptRecord.expire .safeToRetry none none now)

/-- `attempt.expired` and the classification event, from one high-water read. -/
def appendRecoveryEvents (expired : ExpiredClaim) (now : Instant) (base : Nat)
    (eventType : RunEventType) : Connection Unit := do
  appendEventOnConnection (expired.event .attemptExpired (base + 1) now none none)
  appendEventOnConnection (expired.event eventType (base + 2) now none none)

/-- Case A: the boundary never committed and another claim is available. -/
def reclaimPreStartRequeue (expired : ExpiredClaim) (now : Instant) (backoff : Duration) :
    Connection ReclaimedClaim := do
  expirePreStartAttempt expired now
  Tx.updateOne .fenced (expired.HoldsJob .claimed now) (JobRecord.requeue now backoff)
  let base ← sequenceBase expired.job.runId
  appendRecoveryEvents expired now base .recoveryPreStart
  pure (expired.reclaimed .preStartRequeued)

/-- Case B: the boundary never committed and the claim budget is spent. -/
def reclaimPreStartExhausted (expired : ExpiredClaim) (now : Instant) :
    Connection ReclaimedClaim := do
  expirePreStartAttempt expired now
  Tx.updateOne .fenced (expired.HoldsJob .claimed now)
    (JobRecord.fail workerRecoveryExhausted (safeErrorMessage workerRecoveryExhausted) now)
  Tx.updateOne .fenced (expired.HoldsRun .created) (RunRecord.exhaust now)
  let base ← sequenceBase expired.job.runId
  appendRecoveryEvents expired now base .recoveryPreStart
  appendEventOnConnection
    (expired.event .runFailed (base + 3) now (some workerRecoveryExhausted)
      (some (safeErrorMessage workerRecoveryExhausted)))
  pure (expired.reclaimed .preStartExhausted)

/-- The start boundary committed, so a provider call may have been issued: never
replay.  The Attempt's open calls are reconciled in the same transaction. -/
def reclaimPostStartAmbiguous (expired : ExpiredClaim) (now : Instant) :
    Connection ReclaimedClaim := do
  Tx.updateOne .fenced (expired.HoldsAttempt .running now)
    (JobAttemptRecord.expire .ambiguous (some executionOutcomeAmbiguous)
      (some (safeErrorMessage executionOutcomeAmbiguous)) now)
  Tx.updateOne .fenced (expired.HoldsJob .running now)
    (JobRecord.fail executionOutcomeAmbiguous (safeErrorMessage executionOutcomeAmbiguous)
      now)
  Tx.updateOne .fenced (expired.HoldsRun .running) (RunRecord.closeAmbiguous now)
  let ambiguousCalls ← reconcileAbandonedToolInvocations expired.attempt.id now
  let base ← sequenceBase expired.job.runId
  appendRecoveryEvents expired now base .recoveryAmbiguous
  let next ← appendAmbiguousCalls (expired.event .toolAmbiguous 0 now none none)
    ambiguousCalls (base + 3)
  appendEventOnConnection
    (expired.event .runFailed next now (some executionOutcomeAmbiguous)
      (some (safeErrorMessage executionOutcomeAmbiguous)))
  pure (expired.reclaimed .postStartAmbiguous)

def RecoveryEvents (expired : ExpiredClaim) (now : Instant) (eventType : RunEventType)
    (db db' : Database) : Prop :=
  ∃ middle,
    Tx.Inserts (expired.event .attemptExpired
      (lastSequence (db.1.timeline expired.job.runId) + 1) now none none).withId db middle ∧
    Tx.Inserts (expired.event eventType
      (lastSequence (db.1.timeline expired.job.runId) + 2) now none none).withId middle db'

variable {expired : ExpiredClaim} {now : Instant} {db db' : Database} {value : ReclaimedClaim}

theorem commits_preStartRequeue {backoff : Duration}
    (h : (reclaimPreStartRequeue expired now backoff).Commits db value db') :
    ∃ db₁ db₂,
      db.1.jobAttempts.rows.countP (expired.HoldsAttempt .claimed now) = 1 ∧
      Tx.Updates (expired.HoldsAttempt .claimed now)
        (JobAttemptRecord.expire .safeToRetry none none now) db db₁ ∧
      db₁.1.jobs.rows.countP (expired.HoldsJob .claimed now) = 1 ∧
      Tx.Updates (expired.HoldsJob .claimed now) (JobRecord.requeue now backoff) db₁ db₂ ∧
      RecoveryEvents expired now .recoveryPreStart db₂ db' := by
  simp only [reclaimPreStartRequeue, expirePreStartAttempt, appendRecoveryEvents,
    sequenceBase, Tx.commits_bind, Tx.commits_updateOne, Tx.commits_query,
    commits_appendEvent, Tx.commits_pure] at h
  obtain ⟨_, db₁, ⟨hattemptCount, hattempt⟩, _, db₂, ⟨hjobCount, hjob⟩, _, db₂, ⟨rfl, rfl⟩,
    _, db', ⟨_, db₃, ⟨-, hexpired⟩, -, hrecovery⟩, -, rfl⟩ := h
  exact ⟨db₁, db₂, hattemptCount, hattempt, hjobCount, hjob, db₃, hexpired, hrecovery⟩

theorem commits_preStartExhausted (h : (reclaimPreStartExhausted expired now).Commits db value db')
    :
    ∃ db₁ db₂ db₃ db₄,
      db.1.jobAttempts.rows.countP (expired.HoldsAttempt .claimed now) = 1 ∧
      Tx.Updates (expired.HoldsAttempt .claimed now)
        (JobAttemptRecord.expire .safeToRetry none none now) db db₁ ∧
      db₁.1.jobs.rows.countP (expired.HoldsJob .claimed now) = 1 ∧
      Tx.Updates (expired.HoldsJob .claimed now) (JobRecord.fail workerRecoveryExhausted
        (safeErrorMessage workerRecoveryExhausted) now) db₁ db₂ ∧
      db₂.1.runs.rows.countP (expired.HoldsRun .created) = 1 ∧
      Tx.Updates (expired.HoldsRun .created) (RunRecord.exhaust now) db₂ db₃ ∧
      RecoveryEvents expired now .recoveryPreStart db₃ db₄ ∧
      Tx.Inserts (expired.event .runFailed
        (lastSequence (db₃.1.timeline expired.job.runId) + 3) now
        (some workerRecoveryExhausted)
        (some (safeErrorMessage workerRecoveryExhausted))).withId db₄ db' := by
  simp only [reclaimPreStartExhausted, expirePreStartAttempt, appendRecoveryEvents,
    sequenceBase, Tx.commits_bind, Tx.commits_updateOne, Tx.commits_query,
    commits_appendEvent, Tx.commits_pure] at h
  obtain ⟨_, db₁, ⟨hattemptCount, hattempt⟩, _, db₂, ⟨hjobCount, hjob⟩, _, db₃,
    ⟨hrunCount, hrun⟩, _, db₃, ⟨rfl, rfl⟩, _, db₄, ⟨_, middle, ⟨-, hexpired⟩, -, hrecovery⟩,
    _, db', ⟨-, hfailed⟩, -, rfl⟩ := h
  exact ⟨db₁, db₂, db₃, db₄, hattemptCount, hattempt, hjobCount, hjob, hrunCount, hrun,
    ⟨middle, hexpired, hrecovery⟩, hfailed⟩

theorem commits_postStartAmbiguous
    (h : (reclaimPostStartAmbiguous expired now).Commits db value db') :
    ∃ db₁ db₂ db₃ db₄ db₅ db₆, ∃ (ambiguousCalls : List Nat) (next : Nat),
      db.1.jobAttempts.rows.countP (expired.HoldsAttempt .running now) = 1 ∧
      Tx.Updates (expired.HoldsAttempt .running now)
        (JobAttemptRecord.expire .ambiguous (some executionOutcomeAmbiguous)
          (some (safeErrorMessage executionOutcomeAmbiguous)) now) db db₁ ∧
      db₁.1.jobs.rows.countP (expired.HoldsJob .running now) = 1 ∧
      Tx.Updates (expired.HoldsJob .running now) (JobRecord.fail executionOutcomeAmbiguous
        (safeErrorMessage executionOutcomeAmbiguous) now) db₁ db₂ ∧
      db₂.1.runs.rows.countP (expired.HoldsRun .running) = 1 ∧
      Tx.Updates (expired.HoldsRun .running) (RunRecord.closeAmbiguous now) db₂ db₃ ∧
      (reconcileAbandonedToolInvocations expired.attempt.id now).Commits
        db₃ ambiguousCalls db₄ ∧
      RecoveryEvents expired now .recoveryAmbiguous db₄ db₅ ∧
      (appendAmbiguousCalls (expired.event .toolAmbiguous 0 now none none) ambiguousCalls
        (lastSequence (db₄.1.timeline expired.job.runId) + 3)).Commits db₅ next db₆ ∧
      Tx.Inserts (expired.event .runFailed next now (some executionOutcomeAmbiguous)
        (some (safeErrorMessage executionOutcomeAmbiguous))).withId db₆ db' := by
  simp only [reclaimPostStartAmbiguous, appendRecoveryEvents, sequenceBase,
    Tx.commits_bind, Tx.commits_updateOne, Tx.commits_query, commits_appendEvent,
    Tx.commits_pure] at h
  obtain ⟨_, db₁, ⟨hattemptCount, hattempt⟩, _, db₂, ⟨hjobCount, hjob⟩, _, db₃,
    ⟨hrunCount, hrun⟩, ambiguousCalls, db₄, hreconcile, _, db₄, ⟨rfl, rfl⟩, _, db₅,
    ⟨_, middle, ⟨-, hexpired⟩, -, hrecovery⟩, next, db₆, hambiguous, _, db', ⟨-, hfailed⟩,
    -, rfl⟩ := h
  exact ⟨db₁, db₂, db₃, db₄, db₅, db₆, ambiguousCalls, next, hattemptCount, hattempt,
    hjobCount, hjob, hrunCount, hrun, hreconcile, ⟨middle, hexpired, hrecovery⟩,
    hambiguous, hfailed⟩

def reclaimOnConnection (expired : ExpiredClaim) (now : Instant) (backoff : Duration) :
    Connection ReclaimedClaim :=
  if expired.job.status = .claimed then
    if expired.job.attemptCount < expired.job.maxAttempts then
      reclaimPreStartRequeue expired now backoff
    else reclaimPreStartExhausted expired now
  else reclaimPostStartAmbiguous expired now

end Branches

def reclaimNextExpiredClaim (now : Instant) (backoff : Duration) :
    Connection (Option ReclaimedClaim) := do
  let candidate ← Tx.query (reclaimCandidate · now)
  match candidate with
  | none => pure none
  | some expired => do
    let reclaimed ← reclaimOnConnection expired now backoff
    pure (some reclaimed)

theorem commits_reclaimNext {now : Instant} {backoff : Duration} {db db' : Database}
    {outcome : Option ReclaimedClaim}
    (h : (reclaimNextExpiredClaim now backoff).Commits db outcome db') :
    (reclaimCandidate db.1 now = none ∧ outcome = none ∧ db' = db) ∨
      ∃ expired reclaimed, reclaimCandidate db.1 now = some expired ∧
        outcome = some reclaimed ∧
        (reclaimOnConnection expired now backoff).Commits db reclaimed db' := by
  simp only [reclaimNextExpiredClaim, Tx.commits_bind, Tx.commits_query] at h
  obtain ⟨candidate, db, ⟨hcandidate, rfl⟩, h⟩ := h
  cases candidate with
  | none =>
    obtain ⟨rfl, rfl⟩ := Tx.commits_pure.mp h
    exact Or.inl ⟨hcandidate.symm, rfl, rfl⟩
  | some expired =>
    simp only [Tx.commits_bind, Tx.commits_pure] at h
    obtain ⟨reclaimed, db', hreclaimed, rfl, rfl⟩ := h
    exact Or.inr ⟨expired, reclaimed, hcandidate.symm, rfl, hreclaimed⟩

/-- The reclaimer's own call, with the fixed backoff. -/
def reclaimExpired (now : Instant) : Connection (Option ReclaimedClaim) :=
  reclaimNextExpiredClaim now reclaimBackoff

end NervOS
