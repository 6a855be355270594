/-
What may happen to one obligation, as a protocol of its own: the moves that the
engine is meant to allow, stated without fences, tables or transactions.
-/
import Mathlib.Logic.Relation
import NervOS.Obligation.View

namespace NervOS

open Relational

/-- The columns of a Job that no move rewrites. -/
structure SameJob (job job' : JobRecord) : Prop where
  id : job'.id = job.id
  runId : job'.runId = job.runId
  agentInstanceId : job'.agentInstanceId = job.agentInstanceId
  modelProvider : job'.modelProvider = job.modelProvider
  maxAttempts : job'.maxAttempts = job.maxAttempts
  createdAt : job'.createdAt = job.createdAt

structure SameRun (run run' : RunRecord) : Prop where
  id : run'.id = run.id
  createdAt : run'.createdAt = run.createdAt

/-- The identity and the owner of an Attempt are immutable evidence. -/
structure SameAttempt (attempt attempt' : JobAttemptRecord) : Prop where
  id : attempt'.id = attempt.id
  jobId : attempt'.jobId = attempt.jobId
  attemptNumber : attempt'.attemptNumber = attempt.attemptNumber
  workerId : attempt'.workerId = attempt.workerId
  claimToken : attempt'.claimToken = attempt.claimToken
  claimedAt : attempt'.claimedAt = attempt.claimedAt

structure SameCall (call call' : ToolInvocationRecord) : Prop where
  id : call'.id = call.id
  runId : call'.runId = call.runId
  jobId : call'.jobId = call.jobId
  attemptId : call'.attemptId = call.attemptId

theorem SameJob.refl (job : JobRecord) : SameJob job job :=
  ⟨rfl, rfl, rfl, rfl, rfl, rfl⟩

theorem SameJob.trans {a b c : JobRecord} (hab : SameJob a b) (hbc : SameJob b c) :
    SameJob a c :=
  ⟨hbc.id.trans hab.id, hbc.runId.trans hab.runId,
    hbc.agentInstanceId.trans hab.agentInstanceId,
    hbc.modelProvider.trans hab.modelProvider, hbc.maxAttempts.trans hab.maxAttempts,
    hbc.createdAt.trans hab.createdAt⟩

theorem SameRun.refl (run : RunRecord) : SameRun run run :=
  ⟨rfl, rfl⟩

theorem sameRun_amend {p : RunRecord → Prop} [DecidablePred p] {f : RunRecord → RunRecord}
    (hsame : ∀ run, SameRun run (f run)) (run : RunRecord) :
    SameRun run (Table.amend p f run) := by
  unfold Table.amend
  split
  · exact hsame run
  · exact SameRun.refl run

theorem SameAttempt.refl (attempt : JobAttemptRecord) : SameAttempt attempt attempt :=
  ⟨rfl, rfl, rfl, rfl, rfl, rfl⟩

theorem SameAttempt.trans {a b c : JobAttemptRecord} (hab : SameAttempt a b)
    (hbc : SameAttempt b c) : SameAttempt a c :=
  ⟨hbc.id.trans hab.id, hbc.jobId.trans hab.jobId,
    hbc.attemptNumber.trans hab.attemptNumber, hbc.workerId.trans hab.workerId,
    hbc.claimToken.trans hab.claimToken, hbc.claimedAt.trans hab.claimedAt⟩

theorem SameCall.refl (call : ToolInvocationRecord) : SameCall call call :=
  ⟨rfl, rfl, rfl, rfl⟩

theorem SameCall.trans {a b c : ToolInvocationRecord} (hab : SameCall a b)
    (hbc : SameCall b c) : SameCall a c :=
  ⟨hbc.id.trans hab.id, hbc.runId.trans hab.runId, hbc.jobId.trans hab.jobId,
    hbc.attemptId.trans hab.attemptId⟩

structure Carries (job : JobRecord) (attempt : JobAttemptRecord) : Prop where
  worker : job.claimedBy = some attempt.workerId
  token : job.claimToken = some attempt.claimToken
  lease : job.leaseExpiresAt = some attempt.leaseExpiresAt

/-- Active Attempts move as `P` says; the others are history and stay. -/
def AttemptsMove (P : JobAttemptRecord → JobAttemptRecord → Prop) :
    List JobAttemptRecord → List JobAttemptRecord → Prop :=
  List.Forall₂ fun attempt attempt' =>
    SameAttempt attempt attempt' ∧ (attempt.status.IsActive → P attempt attempt') ∧
      (¬ attempt.status.IsActive → attempt' = attempt)

def KeepsAuthority (attempt attempt' : JobAttemptRecord) : Prop :=
  attempt'.status = attempt.status ∧
    attempt'.executionStartedAt = attempt.executionStartedAt ∧
    attempt'.leaseExpiresAt = attempt.leaseExpiresAt

section AttemptsMove

variable {P Q : JobAttemptRecord → JobAttemptRecord → Prop}
  {attempts attempts' : List JobAttemptRecord}

section

variable (h : AttemptsMove P attempts attempts')

include h

theorem AttemptsMove.before {attempt' : JobAttemptRecord} (hattempt : attempt' ∈ attempts') :
    ∃ attempt ∈ attempts, SameAttempt attempt attempt' ∧
      (attempt.status.IsActive → P attempt attempt') ∧
        (¬ attempt.status.IsActive → attempt' = attempt) :=
  exists_before h hattempt

theorem AttemptsMove.after {attempt : JobAttemptRecord} (hattempt : attempt ∈ attempts) :
    ∃ attempt' ∈ attempts', SameAttempt attempt attempt' ∧
      (attempt.status.IsActive → P attempt attempt') ∧
        (¬ attempt.status.IsActive → attempt' = attempt) :=
  exists_after h hattempt

theorem AttemptsMove.mono (himp : ∀ attempt attempt', P attempt attempt' → Q attempt attempt') :
    AttemptsMove Q attempts attempts' :=
  List.Forall₂.imp (fun attempt attempt' hmove =>
    ⟨hmove.1, fun hactive => himp attempt attempt' (hmove.2.1 hactive), hmove.2.2⟩) h

end

theorem AttemptsMove.refl (attempts : List JobAttemptRecord) :
    AttemptsMove (fun attempt attempt' => attempt' = attempt) attempts attempts :=
  List.forall₂_same.mpr fun attempt _ =>
    ⟨SameAttempt.refl attempt, fun _ => rfl, fun _ => rfl⟩

theorem AttemptsMove.column {β : Type} {column : JobAttemptRecord → β}
    (h : AttemptsMove P attempts attempts')
    (hkeep : ∀ attempt attempt', SameAttempt attempt attempt' →
      column attempt' = column attempt) :
    attempts'.map column = attempts.map column :=
  map_eq_of_forall₂ h fun attempt attempt' hmove => hkeep attempt attempt' hmove.1

theorem AttemptsMove.idle (h : AttemptsMove P attempts attempts')
    (hclosed : ∀ attempt attempt', P attempt attempt' → ¬ attempt'.status.IsActive) :
    ∀ attempt' ∈ attempts', ¬ attempt'.status.IsActive := by
  intro attempt' hattempt'
  obtain ⟨attempt, -, -, hmoves, hstays⟩ := h.before hattempt'
  by_cases hactive : attempt.status.IsActive
  · exact hclosed attempt attempt' (hmoves hactive)
  · rw [hstays hactive]
    exact hactive

end AttemptsMove

def OfActive (attempts : List JobAttemptRecord) (call : ToolInvocationRecord) : Prop :=
  ∃ attempt ∈ attempts, attempt.id = call.attemptId ∧ attempt.status.IsActive

def CallsMove (attempts : List JobAttemptRecord) :
    List ToolInvocationRecord → List ToolInvocationRecord → Prop :=
  List.Forall₂ fun call call' =>
    SameCall call call' ∧ (call' = call ∨ call.status.IsOpen ∧ OfActive attempts call)

theorem CallsMove.refl (attempts : List JobAttemptRecord) (calls : List ToolInvocationRecord) :
    CallsMove attempts calls calls :=
  List.forall₂_same.mpr fun call _ => ⟨SameCall.refl call, Or.inl rfl⟩

def Settled (attempts : List JobAttemptRecord) (calls : List ToolInvocationRecord) : Prop :=
  ∀ call ∈ calls, OfActive attempts call → ¬ call.status.IsOpen

def Appends (types : List RunEventType) (timeline timeline' : List RunEventRecord) : Prop :=
  ∃ events, timeline' = timeline ++ events ∧ events.map (·.eventType) = types ∧
    events.map (·.sequence) = List.range' (lastSequence timeline + 1) types.length

/-- The Run states that a Job state can go with. -/
def JobStatus.runStatuses : JobStatus → List RunStatus
  | .queued | .claimed => [.created, .running]
  | .running | .retryWait => [.running]
  | .succeeded => [.succeeded]
  | .failed => [.failed]
  | .cancelled => [.cancelled]

/-- The events that close a Run in this state. -/
def RunStatus.closing : RunStatus → List RunEventType
  | .created | .running => []
  | .succeeded => [.runSucceeded]
  | .failed => [.runFailed]
  | .cancelled => [.runCancelled]

structure FreshClaim (o : Obligation) (attempt : JobAttemptRecord) : Prop where
  budget : o.job.attemptCount < o.job.maxAttempts
  unseen : attempt.id ∉ o.attempts.map (·.id)
  owned : attempt.jobId = o.job.id
  number : attempt.attemptNumber = o.job.attemptCount + 1
  claimed : attempt.status = .claimed
  unstarted : attempt.executionStartedAt = none
  dated : o.job.createdAt ≤ attempt.claimedAt

/-- The conditions under which a run keeps the stronger promises: a poll settled
on this Job; a pre-start requeue finds an unstarted Run; a settlement leaves no
open call behind; an approval event finds an open Run. -/
structure Discipline where
  polled : Prop
  unstarted : Prop
  tidy : Prop
  quiet : Prop

/-- One move of an obligation at `now`. -/
inductive Step (rules : Discipline) (now : Instant) (o : Obligation) : Obligation → Prop where
  | claim {job' attempt timeline'}
      (polled : rules.polled)
      (source : o.job.status = .queued ∧ o.run.status = .created ∨
        o.job.status = .retryWait ∧ o.run.status = .running)
      (fresh : FreshClaim o attempt)
      (sameJob : SameJob o.job job')
      (status : job'.status = .claimed)
      (counted : job'.attemptCount = o.job.attemptCount + 1)
      (carries : Carries job' attempt)
      (told : Appends [.attemptClaimed] o.timeline timeline') :
      Step rules now o ⟨job', o.run, o.attempts ++ [attempt], o.calls, timeline'⟩
  | start {job' run' attempts' timeline'}
      (source : o.job.status = .claimed)
      (sameJob : SameJob o.job job')
      (status : job'.status = .running)
      (counted : job'.attemptCount = o.job.attemptCount)
      (worker : job'.claimedBy = o.job.claimedBy)
      (token : job'.claimToken = o.job.claimToken)
      (lease : job'.leaseExpiresAt = o.job.leaseExpiresAt)
      (sameRun : SameRun o.run run')
      (executing : run'.status = .running)
      (moved : AttemptsMove (fun attempt attempt' => attempt'.status = .running ∧
        attempt'.executionStartedAt = some now ∧
        attempt'.leaseExpiresAt = attempt.leaseExpiresAt) o.attempts attempts')
      (told : Appends [.attemptStarted] o.timeline timeline') :
      Step rules now o ⟨job', run', attempts', o.calls, timeline'⟩
  | renew {job' attempts' lease}
      (source : o.job.status = .running)
      (live : ∃ lease ∈ o.job.leaseExpiresAt, now < lease)
      (sameJob : SameJob o.job job')
      (status : job'.status = .running)
      (counted : job'.attemptCount = o.job.attemptCount)
      (worker : job'.claimedBy = o.job.claimedBy)
      (token : job'.claimToken = o.job.claimToken)
      (renewed : job'.leaseExpiresAt = some lease)
      (moved : AttemptsMove (fun attempt attempt' => attempt'.status = attempt.status ∧
        attempt'.executionStartedAt = attempt.executionStartedAt ∧
        attempt'.leaseExpiresAt = lease) o.attempts attempts') :
      Step rules now o ⟨job', o.run, attempts', o.calls, o.timeline⟩
  | work {attempts' calls' requested types timeline'}
      (source : o.job.status = .running)
      (moved : AttemptsMove KeepsAuthority o.attempts attempts')
      (called : CallsMove o.attempts o.calls calls')
      (requests : ∀ call ∈ requested, call.status = .requested ∧ call.runId = o.job.runId ∧
        ∃ attempt ∈ o.attempts, attempt.id = call.attemptId ∧ attempt.status.IsActive ∧
          attempt.executionStartedAt ≠ none)
      (ordinary : ∀ type ∈ types, ¬ type.IsTerminal)
      (told : Appends types o.timeline timeline') :
      Step rules now o ⟨o.job, o.run, attempts', calls' ++ requested, timeline'⟩
  | retry {job' attempts' timeline'}
      (source : o.job.status = .running)
      (budget : o.job.attemptCount < o.job.maxAttempts)
      (undispatched : ∀ call ∈ o.calls, OfActive o.attempts call →
        ¬ call.status.IsDispatched)
      (sameJob : SameJob o.job job')
      (status : job'.status = .retryWait)
      (counted : job'.attemptCount = o.job.attemptCount)
      (claimless : job'.Claimless)
      (moved : AttemptsMove (fun attempt attempt' => attempt'.status = .failed ∧
        attempt'.errorCode = some modelRateLimited ∧
        attempt'.retryDisposition = some .safeToRetry ∧
        attempt'.executionStartedAt = attempt.executionStartedAt) o.attempts attempts')
      (tidy : rules.tidy → Settled o.attempts o.calls)
      (told : Appends [.attemptFailed, .retryScheduled] o.timeline timeline') :
      Step rules now o ⟨job', o.run, attempts', o.calls, timeline'⟩
  | requeue {job' attempts' timeline'}
      (source : o.job.status = .claimed)
      (budget : o.job.attemptCount < o.job.maxAttempts)
      (unstarted : rules.unstarted → o.run.status = .created)
      (sameJob : SameJob o.job job')
      (status : job'.status = .queued)
      (counted : job'.attemptCount = o.job.attemptCount)
      (claimless : job'.Claimless)
      (moved : AttemptsMove (fun attempt attempt' => attempt'.status = .expired ∧
        attempt.executionStartedAt = none ∧ attempt'.executionStartedAt = none)
        o.attempts attempts')
      (told : Appends [.attemptExpired, .recoveryPreStart] o.timeline timeline') :
      Step rules now o ⟨job', o.run, attempts', o.calls, timeline'⟩
  | close {job' run' attempts' calls' types last timeline'}
      (source : ¬ o.job.status.IsTerminal)
      (sameJob : SameJob o.job job')
      (closed : job'.status.IsTerminal)
      (counted : job'.attemptCount = o.job.attemptCount)
      (claimless : job'.Claimless)
      (sameRun : SameRun o.run run')
      (agrees : run'.status ∈ job'.status.runStatuses)
      (moved : AttemptsMove (fun attempt attempt' => ¬ attempt'.status.IsActive ∧
        attempt'.executionStartedAt = attempt.executionStartedAt) o.attempts attempts')
      (called : CallsMove o.attempts o.calls calls')
      (tidy : rules.tidy → Settled o.attempts calls')
      (ordinary : ∀ type ∈ types, ¬ type.IsTerminal)
      (closing : run'.status.closing = [last])
      (told : Appends (types ++ [last]) o.timeline timeline') :
      Step rules now o ⟨job', run', attempts', calls', timeline'⟩
  | note {types timeline'}
      (quiet : rules.quiet → ¬ o.run.status.IsTerminal)
      (ordinary : ∀ type ∈ types, ¬ type.IsTerminal)
      (told : Appends types o.timeline timeline') :
      Step rules now o { o with timeline := timeline' }

theorem Step.working {rules : Discipline} {now : Instant} {o : Obligation}
    {attempts' : List JobAttemptRecord} {calls' : List ToolInvocationRecord}
    {types : List RunEventType} {timeline' : List RunEventRecord}
    (source : o.job.status = .running)
    (moved : AttemptsMove KeepsAuthority o.attempts attempts')
    (called : CallsMove o.attempts o.calls calls')
    (ordinary : ∀ type ∈ types, ¬ type.IsTerminal)
    (told : Appends types o.timeline timeline') :
    Step rules now o ⟨o.job, o.run, attempts', calls', timeline'⟩ := by
  have hstep : Step rules now o ⟨o.job, o.run, attempts', calls' ++ [], timeline'⟩ :=
    Step.work source moved called (List.forall_mem_nil _) ordinary told
  rwa [List.append_nil] at hstep

structure Submitted (o : Obligation) : Prop where
  job : o.job.status = .queued
  unclaimed : o.job.attemptCount = 0
  budget : 0 < o.job.maxAttempts
  claimless : o.job.Claimless
  run : o.run.status = .created
  dated : o.run.createdAt = o.job.createdAt
  attempts : o.attempts = []
  calls : o.calls = []
  told : Appends [.runCreated, .runQueued] [] o.timeline

/-- What one operation does to the obligation under one Job id. -/
inductive Evolves (rules : Discipline) (now : Instant) :
    Option Obligation → Option Obligation → Prop where
  | absent : Evolves rules now none none
  | submitted {o} (submitted : Submitted o) : Evolves rules now none (some o)
  | moves {o o'} (steps : Relation.ReflTransGen (Step rules now) o o') :
      Evolves rules now (some o) (some o')

end NervOS
