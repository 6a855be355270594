/-
What a Job, its Run, its Attempts and the Run's timeline agree on in every
reachable state.
-/
import NervOS.Engine.Invariant

namespace NervOS

open Relational

variable {policy : QueuePolicy} {system : System}

structure ExecutesUnder (db : Tables) (job : JobRecord) (status : AttemptStatus)
    (attempt : JobAttemptRecord) : Prop where
  state : attempt.status = status
  only : ∀ other ∈ db.attemptsOf job.id, other.status.IsActive ↔ other = attempt
  started : attempt.executionStartedAt = none ↔ status = .claimed
  carries : Carries job attempt

structure SameOutcome (job : JobStatus) (run : RunStatus) : Prop where
  terminal : job.IsTerminal ↔ run.IsTerminal
  succeeded : job = .succeeded ↔ run = .succeeded
  failed : job = .failed ↔ run = .failed
  cancelled : job = .cancelled ↔ run = .cancelled

structure JobAgreement (db : Tables) (job : JobRecord) : Prop where
  outcome : ∃ run ∈ db.runs.find job.runId, SameOutcome job.status run.status
  claimed : job.status = .claimed ↔
    ∃ attempt ∈ db.attemptsOf job.id, ExecutesUnder db job .claimed attempt
  running : job.status = .running ↔
    ∃ attempt ∈ db.attemptsOf job.id, ExecutesUnder db job .running attempt
  idle : ¬ job.status.IsActive → job.Claimless
  numbered : Numbered ((db.attemptsOf job.id).map (·.attemptNumber)) job.attemptCount
  budget : job.attemptCount ≤ job.maxAttempts

theorem sameOutcome_of_agrees {job : JobStatus} {run : RunStatus}
    (hagrees : run ∈ job.runStatuses) : SameOutcome job run := by
  cases job <;> simp only [JobStatus.runStatuses, List.mem_cons, List.not_mem_nil,
    or_false] at hagrees
  case queued | claimed =>
    rcases hagrees with rfl | rfl <;>
      exact ⟨by simp [JobStatus.IsTerminal, RunStatus.IsTerminal], by simp, by simp, by simp⟩
  case running | retryWait | succeeded | failed | cancelled =>
    subst hagrees
    exact ⟨by simp [JobStatus.IsTerminal, RunStatus.IsTerminal], by simp, by simp, by simp⟩

section Executing

variable {db : Database} {jobId : Nat} {o : Obligation}

theorem obligation_attempts (ho : db.1.obligation jobId = some o) :
    db.1.attemptsOf o.job.id = o.attempts := by
  rw [(obligation_eq_some.mp ho).2.2.1, obligation_jobId ho]

theorem Obligation.Executes.under {attempt : JobAttemptRecord} (h : o.Executes attempt)
    (ho : db.1.obligation jobId = some o) (hsound : o.Sound) (hjob : o.job.status.IsActive) :
    ExecutesUnder db.1 o.job attempt.status attempt := by
  have hactive := h.active hjob
  have hchecked : attempt.Check :=
    db.1.jobAttempts.lawful.checked attempt ((mem_attempts ho).mp h.mem).1
  refine ⟨rfl, ?_, ?_, h.carries⟩
  · rw [obligation_attempts ho]
    intro other hother
    constructor
    · exact fun hotherActive => hsound.only hother hotherActive h.mem hactive
    · rintro rfl
      exact hactive
  · constructor
    · intro hunstarted
      cases hattempt : attempt.status with
      | claimed => rfl
      | running => exact absurd hunstarted (hchecked.runningShape hattempt)
      | succeeded | failed | cancelled | expired =>
        rw [hattempt] at hactive
        exact hactive.elim
    · exact hchecked.claimedShape

theorem status_iff_executesUnder (ho : db.1.obligation jobId = some o) (hsound : o.Sound)
    {status : JobStatus} {state : AttemptStatus}
    (hpair : (status, state) = (.claimed, .claimed) ∨ (status, state) = (.running, .running)) :
    o.job.status = status ↔
      ∃ attempt ∈ db.1.attemptsOf o.job.id, ExecutesUnder db.1 o.job state attempt := by
  simp only [Prod.mk.injEq] at hpair
  constructor
  · intro hstatus
    have hactive : o.job.status.IsActive := by
      rcases hpair with ⟨rfl, -⟩ | ⟨rfl, -⟩ <;> rw [hstatus] <;> trivial
    obtain ⟨attempt, hexecutes⟩ := hsound.executing hactive
    have hstate : attempt.status = state := by
      rcases hpair with ⟨rfl, rfl⟩ | ⟨rfl, rfl⟩
      · exact hexecutes.claimed hstatus
      · exact hexecutes.running hstatus
    refine ⟨attempt, ?_, hstate ▸ hexecutes.under ho hsound hactive⟩
    rw [obligation_attempts ho]
    exact hexecutes.mem
  · rintro ⟨attempt, hattempt, hunder⟩
    rw [obligation_attempts ho] at hattempt
    have hactive : attempt.status.IsActive := by
      rw [hunder.state]
      rcases hpair with ⟨-, rfl⟩ | ⟨-, rfl⟩ <;> trivial
    have hjob : o.job.status.IsActive := by
      by_contra hidle
      exact (hsound.idle hidle).2 attempt hattempt hactive
    obtain ⟨executing, hexecutes⟩ := hsound.executing hjob
    have hsame : executing = attempt :=
      hsound.only hexecutes.mem (hexecutes.active hjob) hattempt hactive
    have hstate : executing.status = state := hsame ▸ hunder.state
    cases hstatus : o.job.status with
    | claimed =>
      rw [hexecutes.claimed hstatus] at hstate
      rcases hpair with ⟨rfl, -⟩ | ⟨-, rfl⟩
      · rfl
      · cases hstate
    | running =>
      rw [hexecutes.running hstatus] at hstate
      rcases hpair with ⟨-, rfl⟩ | ⟨rfl, -⟩
      · cases hstate
      · rfl
    | queued | retryWait | succeeded | failed | cancelled =>
      rw [hstatus] at hjob
      exact hjob.elim

end Executing

/-- In every reachable state every Job agrees with its Run and its Attempts. -/
theorem reachable_agreement (h : (engine policy).Reachable system) :
    ∀ job ∈ system.db.1.jobs.rows, JobAgreement system.db.1 job := by
  intro job hjob
  obtain ⟨o, ho, rfl⟩ := exists_obligation hjob
  have hsound := (reachable_sound h).obligations o.job.id o ho
  exact
    { outcome := ⟨o.run, obligation_run ho, sameOutcome_of_agrees hsound.agrees⟩
      claimed := status_iff_executesUnder ho hsound (Or.inl rfl)
      running := status_iff_executesUnder ho hsound (Or.inr rfl)
      idle := fun hidle => (hsound.idle hidle).1
      numbered := (obligation_attempts ho).symm ▸ hsound.numbered
      budget := hsound.budget }

/-- A started Job agrees with its Run and its Attempt. -/
theorem started_agreement :
    ∃ job ∈ (sampleRun (sampleStart 3)).db.1.jobs.rows, job.status = .running ∧
      JobAgreement (sampleRun (sampleStart 3)).db.1 job := by
  have hrunning : ∃ job ∈ (sampleRun (sampleStart 3)).db.1.jobs.rows,
      job.status = .running := by decide +kernel
  obtain ⟨job, hjob, hstatus⟩ := hrunning
  exact ⟨job, hjob, hstatus, reachable_agreement (sampleRun_reachable _) job hjob⟩

end NervOS
