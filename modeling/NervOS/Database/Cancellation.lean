/-
Owner cancellation: one authoritative transaction that closes Attempt, Job and
Run, whether or not a Worker is alive.
-/
import NervOS.Database.Reclamation

namespace NervOS

open Relational

def JobRecord.requestCancel (now : Instant) (job : JobRecord) : JobRecord :=
  { job with cancelRequestedAt := some now }

def JobAttemptRecord.cancel (now : Instant) (attempt : JobAttemptRecord) :
    JobAttemptRecord :=
  { attempt with status := .cancelled, finishedAt := some now }

def JobRecord.cancel (now : Instant) (job : JobRecord) : JobRecord :=
  { job.clearClaim now with
    status := .cancelled
    finishedAt := some now
    errorCode := some executionCancelled
    errorMessage := some (safeErrorMessage executionCancelled) }

/-- A Run that never started has no duration to report. -/
def RunRecord.cancel (now : Instant) (run : RunRecord) : RunRecord :=
  { run with
    status := .cancelled
    finishedAt := some now
    elapsedMs := run.startedAt.map fun _ => elapsedMsSince run.startedAt now }

def ActiveFor (jobId : Nat) (attempt : JobAttemptRecord) : Prop :=
  attempt.jobId = jobId ∧ attempt.status.IsActive

instance (jobId : Nat) : DecidablePred (ActiveFor jobId) := fun _ =>
  inferInstanceAs (Decidable (_ ∧ _))

/-- The active Attempt of the Job, the highest-numbered one if there were more. -/
def Tables.activeAttempt (db : Tables) (jobId : Nat) : Option JobAttemptRecord :=
  (db.jobAttempts.rows.filter fun attempt => ActiveFor jobId attempt).argmax
    (·.attemptNumber)

def Tables.ownedRun (db : Tables) (userId runId : Nat) : Option RunRecord :=
  (db.runs.find runId).filter fun run =>
    ((db.configuration.agentInstance? run.agentInstanceId).map (·.ownerUserId)) = some userId

/-- The one Job behind a Run. -/
def Tables.jobOfRun (db : Tables) (runId : Nat) : Option JobRecord :=
  db.jobs.rows.find? (·.runId = runId)

def cancellationEvent (job : JobRecord) (active : Option JobAttemptRecord)
    (eventType : RunEventType) (sequence : Nat) (now : Instant) : RunEventRecord where
  runId := job.runId
  jobId := job.id
  attemptId := active.map (·.id)
  sequence := sequence
  eventType := eventType
  code := some executionCancelled
  message := some (safeErrorMessage executionCancelled)
  attemptNumber := active.map (·.attemptNumber)
  createdAt := now

def cancelActiveAttempt (jobId : Nat) (active : Option JobAttemptRecord) (now : Instant) :
    Connection Unit :=
  match active with
  | none => pure ()
  | some attempt =>
    Tx.updateOne .fenced
      (fun row : JobAttemptRecord => row.id = attempt.id ∧ ActiveFor jobId row)
      (JobAttemptRecord.cancel now)

def reconcileActiveAttempt (active : Option JobAttemptRecord) (now : Instant) :
    Connection (List Nat) :=
  match active with
  | none => pure []
  | some attempt => reconcileAbandonedToolInvocations attempt.id now

/-- Close a nonterminal Run through its Job. -/
def cancelOnConnection (run : RunRecord) (job : JobRecord) (now : Instant) :
    Connection Unit := do
  let _ ← Tx.update
    (fun row : JobRecord => row.id = job.id ∧ row.cancelRequestedAt = none)
    (JobRecord.requestCancel now)
  let active ← Tx.query (Tables.activeAttempt · job.id)
  cancelActiveAttempt job.id active now
  Tx.updateOne .fenced (fun row : JobRecord => row.id = job.id ∧ row.status = job.status)
    (JobRecord.cancel now)
  Tx.updateOne .fenced (fun row : RunRecord => row.id = run.id ∧ row.status = run.status)
    (RunRecord.cancel now)
  let ambiguousCalls ← reconcileActiveAttempt active now
  let base ← sequenceBase job.runId
  appendEventOnConnection (cancellationEvent job active .cancellationRequested (base + 1) now)
  let next ← appendAmbiguousCalls (cancellationEvent job active .toolAmbiguous 0 now)
    ambiguousCalls (base + 2)
  appendEventOnConnection (cancellationEvent job active .runCancelled next now)

theorem commits_cancelOnConnection {run : RunRecord} {job : JobRecord} {now : Instant}
    {db db' : Database} {value : Unit}
    (h : (cancelOnConnection run job now).Commits db value db') :
    ∃ db₁ db₂ db₃ db₄ db₅ db₆ db₇, ∃ (active : Option JobAttemptRecord)
      (ambiguousCalls : List Nat) (next : Nat),
      Tx.Updates (fun row : JobRecord => row.id = job.id ∧ row.cancelRequestedAt = none)
        (JobRecord.requestCancel now) db db₁ ∧
      active = db₁.1.activeAttempt job.id ∧
      (cancelActiveAttempt job.id active now).Commits db₁ () db₂ ∧
      db₂.1.jobs.rows.countP
        (fun row : JobRecord => row.id = job.id ∧ row.status = job.status) = 1 ∧
      Tx.Updates (fun row : JobRecord => row.id = job.id ∧ row.status = job.status)
        (JobRecord.cancel now) db₂ db₃ ∧
      db₃.1.runs.rows.countP
        (fun row : RunRecord => row.id = run.id ∧ row.status = run.status) = 1 ∧
      Tx.Updates (fun row : RunRecord => row.id = run.id ∧ row.status = run.status)
        (RunRecord.cancel now) db₃ db₄ ∧
      (reconcileActiveAttempt active now).Commits db₄ ambiguousCalls db₅ ∧
      Tx.Inserts (cancellationEvent job active .cancellationRequested
        (lastSequence (db₅.1.timeline job.runId) + 1) now).withId db₅ db₆ ∧
      (appendAmbiguousCalls (cancellationEvent job active .toolAmbiguous 0 now)
        ambiguousCalls (lastSequence (db₅.1.timeline job.runId) + 2)).Commits db₆ next db₇ ∧
      Tx.Inserts (cancellationEvent job active .runCancelled next now).withId db₇ db' := by
  simp only [cancelOnConnection, sequenceBase, Tx.commits_bind, Tx.commits_update,
    Tx.commits_updateOne, Tx.commits_query, commits_appendEvent] at h
  obtain ⟨_, db₁, ⟨-, hrequest⟩, active, db₁, ⟨hactive, rfl⟩, _, db₂, hcancel, _, db₃,
    ⟨hjobCount, hjob⟩, _, db₄, ⟨hrunCount, hrun⟩, ambiguousCalls, db₅, hreconcile, _, db₅,
    ⟨rfl, rfl⟩, _, db₆, ⟨-, hrequested⟩, next, db₇, hambiguous, -, hcancelled⟩ := h
  exact ⟨db₁, db₂, db₃, db₄, db₅, db₆, db₇, active, ambiguousCalls, next, hrequest, hactive,
    hcancel, hjobCount, hjob, hrunCount, hrun, hreconcile, hrequested, hambiguous,
    hcancelled⟩

/-- Durably cancel one owned Run; a repeat changes nothing, and a closed Run is
not rewritten. -/
def cancelRun (userId runId : Nat) (now : Instant) : Connection CancellationOutcome := do
  let owned ← Tx.query (Tables.ownedRun · userId runId)
  let job ← Tx.query (Tables.jobOfRun · runId)
  match owned, job with
  | none, _ => pure .notFound
  | some run, job =>
    if run.status = .cancelled then pure .cancelled
    else if run.status.IsTerminal then pure .notCancellable
    else
      match job with
      | none => pure .notCancellable
      | some job => do
        cancelOnConnection run job now
        pure .cancelled

theorem commits_cancelRun {userId runId : Nat} {now : Instant} {db db' : Database}
    {outcome : CancellationOutcome}
    (h : (cancelRun userId runId now).Commits db outcome db') :
    db' = db ∨
      ∃ run job, db.1.runs.find runId = some run ∧ ¬ run.status.IsTerminal ∧
        db.1.jobOfRun runId = some job ∧
        (cancelOnConnection run job now).Commits db () db' := by
  simp only [cancelRun, Tx.commits_bind, Tx.commits_query] at h
  obtain ⟨owned, db, ⟨howned, rfl⟩, behind, db, ⟨hbehind, rfl⟩, h⟩ := h
  cases owned with
  | none => exact Or.inl (Tx.commits_pure.mp h).2
  | some run =>
    simp only [Tx.commits_ite, Tx.commits_pure] at h
    rcases h with ⟨-, -, rfl⟩ | ⟨-, ⟨-, -, rfl⟩ | ⟨hopen, h⟩⟩
    · exact Or.inl rfl
    · exact Or.inl rfl
    · cases behind with
      | none => exact Or.inl (Tx.commits_pure.mp h).2
      | some job =>
        simp only [Tx.commits_bind, Tx.commits_pure] at h
        obtain ⟨_, db', hcancel, -, rfl⟩ := h
        exact Or.inr ⟨run, job, (Option.filter_eq_some_iff.mp howned.symm).1, hopen,
          hbehind.symm, hcancel⟩

end NervOS
