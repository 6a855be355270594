/-
The claim transaction: concurrency ceilings, the head Job of every partition,
least-recently-served selection, and the compare-and-set.
-/
import Mathlib.Data.Prod.Lex
import Mathlib.Order.WithBot
import NervOS.Database.Submission

namespace NervOS

open Relational

/-- The Job holds execution authority at `now`. -/
def JobRecord.Live (now : Instant) (job : JobRecord) : Prop :=
  job.status.IsActive ∧ ∃ lease ∈ job.leaseExpiresAt, now < lease

instance (now : Instant) : DecidablePred (JobRecord.Live now) := fun job =>
  inferInstanceAs (Decidable (_ ∧ ∃ lease ∈ job.leaseExpiresAt, _))

/-- Count the live Jobs that also meet `p`. -/
def Tables.active (db : Tables) (now : Instant) (p : JobRecord → Prop)
    [DecidablePred p] : Nat :=
  db.jobs.rows.countP fun job => job.Live now ∧ p job

/-- The arguments of one poll.  The lease end is computed from the caller's
clock before the transaction opens, and the token is drawn there too. -/
structure ClaimRequest where
  workerId : String
  providerIds : List String
  maxActive : Int
  now : Instant
  leaseDuration : Duration
  token : ClaimToken

def ClaimRequest.leaseExpiresAt (request : ClaimRequest) : Instant :=
  request.now + request.leaseDuration

section Selection

variable (db : Tables) (policy : QueuePolicy) (request : ClaimRequest)

/-- The (Job, Run) states that a claim may be taken from. -/
def claimableSources : List (JobStatus × RunStatus) :=
  [(.queued, .created), (.retryWait, .running)]

/-- The Job passes every filter of the ranking query. -/
def Claimable (job : JobRecord) : Prop :=
  (∃ run ∈ db.runs.find job.runId, (job.status, run.status) ∈ claimableSources) ∧
    job.availableAt ≤ request.now ∧ job.attemptCount < job.maxAttempts ∧
    job.modelProvider ∈ request.providerIds

instance : DecidablePred (Claimable db request) := fun job =>
  inferInstanceAs (Decidable ((∃ run ∈ db.runs.find job.runId, _) ∧ _ ∧ _ ∧ _))

instance : Preorder (Instant ×ₗ Nat) :=
  (inferInstance : LinearOrder (Instant ×ₗ Nat)).toPartialOrder.toPreorder

/-- Oldest due first, with the stable Job id as tie-break. -/
def JobRecord.rank (job : JobRecord) : Instant ×ₗ Nat :=
  toLex (job.availableAt, job.id)

/-- The Job is ranked first in its partition. -/
def IsHead (job : JobRecord) : Prop :=
  Claimable db request job ∧
    ∀ other ∈ db.jobs.rows, Claimable db request other →
      other.agentInstanceId = job.agentInstanceId → job.rank ≤ other.rank

instance : DecidablePred (IsHead db request) := fun _ =>
  inferInstanceAs (Decidable (_ ∧ ∀ other ∈ db.jobs.rows, _))

/-- Neither the partition nor the provider of the head is saturated. -/
def Admitted (job : JobRecord) : Prop :=
  db.active request.now (·.agentInstanceId = job.agentInstanceId) <
      policy.perAgentActiveLimit ∧
    db.active request.now (·.modelProvider = job.modelProvider) <
      policy.perProviderActiveLimit

instance : DecidablePred (Admitted db policy request) := fun _ =>
  inferInstanceAs (Decidable (_ ∧ _))

def eligibleHeads : List JobRecord :=
  db.jobs.rows.filter fun job => IsHead db request job ∧ Admitted db policy request job

/-- The durable marker of a partition; `⊥` was never served. -/
def Tables.lastServed (agentInstanceId : Nat) : WithBot Nat :=
  (db.queuePartitions.find? (·.agentInstanceId = agentInstanceId)).bind
    (·.lastServedAttemptId)

def turn (job : JobRecord) : WithBot Nat ×ₗ Nat :=
  toLex (db.lastServed job.agentInstanceId, job.agentInstanceId)

/-- The Job that the claim settles on, when the global ceiling leaves room. -/
def claimCandidate : Option JobRecord :=
  if min (policy.globalActiveLimit : Int) request.maxActive ≤
      (db.active request.now fun _ => True : Nat) then none
  else (eligibleHeads db policy request).argmin (turn db)

end Selection

/-- Advance the marker of a partition, inserting the partition when absent. -/
def serve (agentInstanceId attemptId : Nat) (partitions : List QueuePartitionRecord) :
    List QueuePartitionRecord :=
  if partitions.any (·.agentInstanceId = agentInstanceId) then
    partitions.map fun row =>
      if row.agentInstanceId = agentInstanceId then
        { row with lastServedAttemptId := some attemptId }
      else row
  else partitions ++ [⟨agentInstanceId, some attemptId⟩]

def JobRecord.claim (request : ClaimRequest) (job : JobRecord) : JobRecord :=
  { job with
    status := .claimed
    claimedBy := some request.workerId
    claimToken := some request.token
    leaseExpiresAt := some request.leaseExpiresAt
    lastHeartbeatAt := some request.now
    attemptCount := job.attemptCount + 1
    updatedAt := request.now }

def ClaimRequest.attempt (request : ClaimRequest) (job : JobRecord) (id : Nat) :
    JobAttemptRecord where
  id := id
  jobId := job.id
  attemptNumber := job.attemptCount + 1
  status := .claimed
  workerId := request.workerId
  claimToken := request.token
  claimedAt := request.now
  leaseExpiresAt := request.leaseExpiresAt
  lastHeartbeatAt := request.now
  createdAt := request.now

def ClaimRequest.handle (request : ClaimRequest) (job : JobRecord) (attemptId : Nat) :
    ClaimedAttempt where
  jobId := job.id
  runId := job.runId
  attemptId := attemptId
  attemptNumber := job.attemptCount + 1
  workerId := request.workerId
  claimToken := request.token
  leaseExpiresAt := request.leaseExpiresAt

def ClaimRequest.event (request : ClaimRequest) (job : JobRecord)
    (attemptId sequence : Nat) : RunEventRecord where
  runId := job.runId
  jobId := job.id
  attemptId := some attemptId
  sequence := sequence
  eventType := .attemptClaimed
  attemptNumber := some (job.attemptCount + 1)
  createdAt := request.now

/-- The compare-and-set pins the observed source status. -/
def ClaimFence (candidate job : JobRecord) : Prop :=
  job.id = candidate.id ∧ job.status = candidate.status ∧
    job.attemptCount < job.maxAttempts

instance (candidate : JobRecord) : DecidablePred (ClaimFence candidate) := fun _ =>
  inferInstanceAs (Decidable (_ ∧ _ ∧ _))

def claimOnConnection (request : ClaimRequest) (candidate : JobRecord) :
    Connection ClaimedAttempt := do
  Tx.updateOne .fenced (ClaimFence candidate) (JobRecord.claim request)
  let attemptId ← Tx.insert (request.attempt candidate)
  Tx.write fun db => some
    { db with
      queuePartitions := serve candidate.agentInstanceId attemptId db.queuePartitions }
  let base ← sequenceBase candidate.runId
  appendEventOnConnection (request.event candidate attemptId (base + 1))
  pure (request.handle candidate attemptId)

/-- Claim the fairest eligible Job, or return `none`; a Worker without providers
issues no query. -/
def claimNext (policy : QueuePolicy) (request : ClaimRequest) :
    Connection (Option ClaimedAttempt) := do
  let candidate ← Tx.query fun db =>
    if request.providerIds = [] then none else claimCandidate db policy request
  match candidate with
  | none => pure none
  | some job => do
    let claimed ← claimOnConnection request job
    pure (some claimed)

/-- The statements of a committed claim of `job`. -/
structure Claims (request : ClaimRequest) (job : JobRecord)
    (db db₁ db₂ db₃ db' : Database) : Prop where
  count : db.1.jobs.rows.countP (ClaimFence job) = 1
  updated : Tx.Updates (ClaimFence job) (JobRecord.claim request) db db₁
  inserted : Tx.Inserts (request.attempt job) db₁ db₂
  served : db₃.1 = { db₂.1 with
    queuePartitions := serve job.agentInstanceId db₁.1.jobAttempts.next
      db₂.1.queuePartitions }
  told : Tx.Inserts (request.event job db₁.1.jobAttempts.next
    (lastSequence (db₃.1.timeline job.runId) + 1)).withId db₃ db'

theorem commits_claimNext {policy : QueuePolicy} {request : ClaimRequest}
    {db db' : Database} {outcome : Option ClaimedAttempt}
    (h : (claimNext policy request).Commits db outcome db') :
    (outcome = none ∧ db' = db) ∨
      ∃ job db₁ db₂ db₃, claimCandidate db.1 policy request = some job ∧
        outcome = some (request.handle job db₁.1.jobAttempts.next) ∧
        Claims request job db db₁ db₂ db₃ db' := by
  simp only [claimNext, Tx.commits_bind, Tx.commits_query] at h
  obtain ⟨candidate, db, ⟨hcandidate, rfl⟩, h⟩ := h
  cases candidate with
  | none => exact Or.inl (Tx.commits_pure.mp h)
  | some job =>
    have hjob : claimCandidate db.1 policy request = some job := by
      split at hcandidate
      · cases hcandidate
      · exact hcandidate.symm
    simp only [claimOnConnection, Tx.commits_bind, Tx.commits_updateOne,
      Tx.commits_insert, Tx.commits_write, sequenceBase, Tx.commits_query,
      commits_appendEvent, Tx.commits_pure] at h
    obtain ⟨_, _, ⟨_, db₁, ⟨hcount, hupdates⟩, _, db₂, ⟨rfl, hattempt⟩, _, db₃, hserve,
      _, db₃, ⟨rfl, rfl⟩, _, db', ⟨-, hevent⟩, rfl, rfl⟩, rfl, rfl⟩ := h
    exact Or.inr ⟨job, db₁, db₂, db₃, hjob, rfl, hcount, hupdates, hattempt,
      (Option.some.inj hserve).symm, hevent⟩

end NervOS
