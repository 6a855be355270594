/-
Whether every nonterminal Job is in a shape that some operation can still move.
A pre-start requeue restores the queued state without looking at the Run, so a
retry that is lost before its start leaves a queued Job whose Run is running.
-/
import NervOS.Engine.Invariant

namespace NervOS

/-- Some operation can still move the Job: a waiting one is claimable once it is
due, and a claimed one can be reclaimed. -/
structure Movable (db : Tables) (job : JobRecord) : Prop where
  queued : job.status = .queued → ∃ run ∈ db.runs.find job.runId, run.status = .created
  retryWait : job.status = .retryWait → ∃ run ∈ db.runs.find job.runId, run.status = .running
  budget : job.status = .queued ∨ job.status = .retryWait → job.attemptCount < job.maxAttempts
  leased : job.status.IsActive → job.leaseExpiresAt ≠ none
  due : job.status = .queued ∨ job.status = .retryWait → ∀ request : ClaimRequest,
    job.availableAt ≤ request.now → job.modelProvider ∈ request.providerIds →
    Claimable db request job

section Movable

variable {db : Database} {jobId : Nat} {o : Obligation}

theorem Obligation.Sound.retryWait_running (hsound : o.Sound)
    (hwaiting : o.job.status = .retryWait) : o.run.status = .running := by
  have hagrees := hsound.agrees
  rw [hwaiting] at hagrees
  exact List.mem_singleton.mp hagrees

theorem movable_of_unstranded (ho : db.1.obligation jobId = some o) (hsound : o.Sound)
    (hunstranded : o.Unstranded) : Movable db.1 o.job := by
  have hrun := obligation_run ho
  refine ⟨fun hqueued => ⟨o.run, hrun, hunstranded hqueued⟩,
    fun hwaiting => ⟨o.run, hrun, hsound.retryWait_running hwaiting⟩, hsound.waiting,
    fun hactive => ?_, fun hwaiting request hdue hprovider => ?_⟩
  · obtain ⟨attempt, hexecutes⟩ := hsound.executing hactive
    rw [hexecutes.carries.lease]
    exact Option.some_ne_none _
  · refine ⟨⟨o.run, hrun, ?_⟩, hdue, hsound.waiting hwaiting, hprovider⟩
    rcases hwaiting with hqueued | hwaiting
    · simp [claimableSources, hqueued, hunstranded hqueued]
    · simp [claimableSources, hwaiting, hsound.retryWait_running hwaiting]

end Movable

variable {policy : QueuePolicy} {system : System}

/-- Along a run whose requeues find unstarted Runs, every Job stays movable. -/
theorem movable_of_unstarted_requeues
    (h : (engine policy).ReachableAlong
      (fun system op => op.RequeuesUnstarted system.db.1) system) :
    ∀ job ∈ system.db.1.jobs.rows, Movable system.db.1 job := by
  intro job hjob
  obtain ⟨o, ho, rfl⟩ := exists_obligation hjob
  obtain ⟨hsound, hunstranded⟩ := along_keeps (fun _ hnew => hnew.unstranded)
    (fun hok hstep _ hkept => hstep.unstranded hok hkept) h o.job.id o ho
  exact movable_of_unstranded ho hsound hunstranded

/-- A first claim that lapses before its start. -/
def lapsedClaim : List Op :=
  [.configure sampleConfiguration 0, .submit "hello" (sampleSubmission 3),
    .claimNext (samplePoll 1 0), .reclaim (seconds 60) reclaimBackoff]

/-- The requeued Job is movable. -/
theorem movable_lapsedClaim :
    ∃ job ∈ (sampleRun lapsedClaim).db.1.jobs.rows, job.status = .queued ∧
      Movable (sampleRun lapsedClaim).db.1 job := by
  have hqueued : ∃ job ∈ (sampleRun lapsedClaim).db.1.jobs.rows, job.status = .queued := by
    decide +kernel
  have halong : (engine productionQueuePolicy).Along
      (fun system op => op.RequeuesUnstarted system.db.1) lapsedClaim
      (engine productionQueuePolicy).init := by
    decide +kernel
  obtain ⟨job, hjob, hstatus⟩ := hqueued
  exact ⟨job, hjob, hstatus, movable_of_unstarted_requeues ⟨lapsedClaim, halong, rfl⟩ job hjob⟩

def lapsedRetry : List Op :=
  sampleStart 3 ++
    [.worker (sampleClaim 1 0) (.recordFailure sampleRateLimit 2 productionRetryPolicy) 2,
      .claimNext (samplePoll 2 (seconds 5)), .reclaim (seconds 65) reclaimBackoff]

/-- The requeued retry is stranded: it is queued behind a running Run, a pair that no
claimable source has. -/
theorem stranded_lapsedRetry :
    (engine productionQueuePolicy).Reachable (sampleRun lapsedRetry) ∧
      ∃ job ∈ (sampleRun lapsedRetry).db.1.jobs.rows,
        ¬ Movable (sampleRun lapsedRetry).db.1 job := by
  have hstranded : ∃ job ∈ (sampleRun lapsedRetry).db.1.jobs.rows, job.status = .queued ∧
      ¬ ∃ run ∈ (sampleRun lapsedRetry).db.1.runs.find job.runId, run.status = .created := by
    decide +kernel
  obtain ⟨job, hjob, hqueued, hstarted⟩ := hstranded
  exact ⟨sampleRun_reachable lapsedRetry, job, hjob, fun hmovable =>
    hstarted (hmovable.queued hqueued)⟩

end NervOS
