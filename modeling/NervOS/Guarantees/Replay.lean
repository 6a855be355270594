/-
No unsafe replay: what a further Attempt of a Job says about all earlier ones.
-/
import NervOS.Engine.Invariant

namespace NervOS

open Relational

def JobAttemptRecord.Final (attempt : JobAttemptRecord) : Prop :=
  attempt.status = .succeeded ∨ attempt.status = .cancelled ∨
    (attempt.status = .failed ∧ attempt.errorCode ≠ some modelRateLimited) ∨
    (attempt.status = .expired ∧ attempt.executionStartedAt ≠ none)

theorem JobAttemptRecord.Final.not_replaySafe {attempt : JobAttemptRecord}
    (h : attempt.Final) (calls : List ToolInvocationRecord) : ¬ ReplaySafe calls attempt := by
  rintro (⟨hexpired, hunstarted⟩ | ⟨hfailed, hcode, -, -⟩)
  · rcases h with hstatus | hstatus | ⟨hstatus, -⟩ | ⟨-, hstarted⟩
    · simp [hexpired] at hstatus
    · simp [hexpired] at hstatus
    · simp [hexpired] at hstatus
    · exact hstarted hunstarted
  · rcases h with hstatus | hstatus | ⟨-, hother⟩ | ⟨hstatus, -⟩
    · simp [hfailed] at hstatus
    · simp [hfailed] at hstatus
    · exact hother hcode
    · simp [hfailed] at hstatus

theorem JobAttemptRecord.Final.inactive {attempt : JobAttemptRecord} (h : attempt.Final) :
    ¬ attempt.status.IsActive := by
  rcases h with hstatus | hstatus | ⟨hstatus, -⟩ | ⟨hstatus, -⟩ <;> rw [hstatus] <;>
    exact fun h => h

variable {policy : QueuePolicy} {system : System}

theorem replaySafe_of_claimable {o : Obligation} {db : Database} {request : ClaimRequest}
    (hsound : o.Sound) (hclaimable : Claimable db.1 request o.job) :
    ∀ earlier ∈ o.attempts, ReplaySafe o.calls earlier := by
  obtain ⟨⟨run, -, hsource⟩, -⟩ := hclaimable
  have hwaiting : ¬ o.job.status.IsActive ∧ ¬ o.job.status.IsTerminal := by
    simp only [claimableSources, List.mem_cons, Prod.mk.injEq, List.not_mem_nil,
      or_false] at hsource
    rcases hsource with ⟨hstatus, -⟩ | ⟨hstatus, -⟩ <;> rw [hstatus] <;> exact ⟨id, id⟩
  intro earlier hearlier
  exact hsound.replay earlier hearlier ((hsound.idle hwaiting.1).2 earlier hearlier)
    (Or.inl hwaiting.2)

variable {attempt : JobAttemptRecord}

theorem ReplaySafe.of_obligation {db : Database} (hsound : AllSound db) {jobId : Nat}
    {o : Obligation} (ho : db.1.obligation jobId = some o) (hattempt : attempt ∈ o.attempts)
    (h : ReplaySafe o.calls attempt) :
    ReplaySafe db.1.toolInvocations.rows attempt := by
  refine h.frozen fun call hcall howner => ?_
  obtain ⟨other, hother, hmem⟩ := exists_obligation_of_call hcall
  obtain ⟨own, hown, hid, -⟩ := (hsound _ _ hother).called call hmem
  obtain ⟨hownRow, hownJob⟩ := (mem_attempts hother).mp hown
  obtain ⟨hattemptRow, hattemptJob⟩ := (mem_attempts ho).mp hattempt
  have hsame := Table.eq_of_key_eq hownRow hattemptRow (hid.trans howner)
  exact (mem_calls ho).mpr ⟨hcall, by rw [← hownJob, hsame, hattemptJob]⟩

theorem exec_attempts (hsound : system.Sound) (op : Op)
    (hattempt : attempt ∈ (system.exec policy op).db.1.jobAttempts.rows) :
    (∃ old ∈ system.db.1.attemptsOf attempt.jobId, old.id = attempt.id) ∨
      ∃ request, op = .claimNext request ∧
        ∃ job ∈ claimCandidate system.db.1 policy request, job.id = attempt.jobId := by
  obtain ⟨o', ho', hmem⟩ := exists_obligation_of_attempt hattempt
  by_cases hpolled : (system.discipline policy op attempt.jobId).polled
  · exact Or.inr hpolled
  · have hevolves := exec_refines policy hsound op attempt.jobId
    obtain ⟨o, ho, old, hold, hsame⟩ := hevolves.attempts hpolled ho' hmem
    rw [(obligation_eq_some.mp ho).2.2.1] at hold
    exact Or.inl ⟨old, hold, hsame⟩

theorem exec_replaySafe (hsound : system.Sound) (op : Op)
    (hattempt : attempt ∈ (system.exec policy op).db.1.jobAttempts.rows)
    (hnew : ∀ old ∈ system.db.1.attemptsOf attempt.jobId, old.id ≠ attempt.id) :
    ∀ earlier ∈ system.db.1.attemptsOf attempt.jobId,
      ReplaySafe system.db.1.toolInvocations.rows earlier := by
  rcases exec_attempts hsound op hattempt with ⟨old, hold, hid⟩ | ⟨request, -, job, hjob, hid⟩
  · exact absurd hid (hnew old hold)
  · obtain ⟨-, hhead, -⟩ := claimCandidate_eq_some hjob
    obtain ⟨hrow, ⟨hclaimable, -⟩, -⟩ := mem_eligibleHeads.mp hhead
    obtain ⟨o, ho, rfl⟩ := exists_obligation hrow
    have hattempts := (obligation_eq_some.mp ho).2.2.1
    rw [← hid, ← hattempts]
    intro earlier hearlier
    exact (replaySafe_of_claimable (hsound.obligations _ o ho) hclaimable earlier
      hearlier).of_obligation hsound.obligations ho hearlier

variable (policy) in
theorem exec_frozen (hsound : system.Sound) (op : Op)
    (hattempt : attempt ∈ system.db.1.jobAttempts.rows) (hinactive : ¬ attempt.status.IsActive) :
    attempt ∈ (system.exec policy op).db.1.jobAttempts.rows := by
  obtain ⟨o, ho, hmem⟩ := exists_obligation_of_attempt hattempt
  obtain ⟨o', ho', hlater⟩ := exec_history policy hsound op ho
  exact ((mem_attempts ho').mp (hlater.frozen hmem hinactive)).1

theorem run_attempts (hsound : system.Sound) {last : JobAttemptRecord}
    (hlast : last ∈ system.db.1.jobAttempts.rows) (hfinal : last.Final) (ops : List Op) :
    ∀ attempt ∈ ((engine policy).run ops system).db.1.attemptsOf last.jobId,
      ∃ old ∈ system.db.1.attemptsOf last.jobId, old.id = attempt.id := by
  induction ops generalizing system with
  | nil => exact fun attempt hattempt => ⟨attempt, hattempt, rfl⟩
  | cons op rest ih =>
    intro attempt hattempt
    have hstays := exec_frozen policy hsound op hlast hfinal.inactive
    obtain ⟨middle, hmiddle, hid⟩ := ih (exec_sound policy hsound op) hstays attempt hattempt
    obtain ⟨hmiddleRow, hmiddleJob⟩ := List.mem_filter.mp hmiddle
    have hjob : middle.jobId = last.jobId := of_decide_eq_true hmiddleJob
    by_contra hnone
    have hsafe := exec_replaySafe hsound op hmiddleRow fun old hold hsame => by
      rw [hjob] at hold
      exact hnone ⟨old, hold, hsame.trans hid⟩
    rw [hjob] at hsafe
    exact hfinal.not_replaySafe _
      (hsafe last (List.mem_filter.mpr ⟨hlast, decide_eq_true rfl⟩))

/-- In every reachable state, an operation adds an Attempt to a Job only where every
earlier Attempt expired before its start or failed retryably without a dispatched
call, and no run adds one behind a final Attempt. -/
theorem no_unsafe_replay (h : (engine policy).Reachable system) :
    (∀ op, ∀ attempt ∈ ((engine policy).exec op system).db.1.jobAttempts.rows,
      (∀ old ∈ system.db.1.jobAttempts.rows, old.id ≠ attempt.id) →
      ∀ earlier ∈ system.db.1.attemptsOf attempt.jobId,
        ReplaySafe system.db.1.toolInvocations.rows earlier) ∧
    ∀ last ∈ system.db.1.jobAttempts.rows, last.Final → ∀ ops,
      ∀ attempt ∈ ((engine policy).run ops system).db.1.attemptsOf last.jobId,
        ∃ old ∈ system.db.1.attemptsOf last.jobId, old.id = attempt.id := by
  have hsound := reachable_sound h
  constructor
  · intro op attempt hattempt hnew
    exact exec_replaySafe hsound op hattempt fun old hold =>
      hnew old (List.mem_filter.mp hold).1
  · intro last hlast hfinal ops
    exact run_attempts hsound hlast hfinal ops

def rateLimitedRun : List Op :=
  sampleStart 3 ++
    [.worker (sampleClaim 1 0) (.recordFailure sampleRateLimit 2 productionRetryPolicy) 2]

/-- The retry's claim finds the rate-limited Attempt safe to replay. -/
theorem replaySafe_rateLimitedRun :
    ∃ earlier ∈ (sampleRun rateLimitedRun).db.1.attemptsOf 1, earlier.status = .failed ∧
      ReplaySafe (sampleRun rateLimitedRun).db.1.toolInvocations.rows earlier := by
  have hretry : ∃ attempt ∈ ((engine productionQueuePolicy).exec
      (.claimNext (samplePoll 2 (seconds 5))) (sampleRun rateLimitedRun)).db.1.jobAttempts.rows,
      attempt.jobId = 1 ∧
        ∀ old ∈ (sampleRun rateLimitedRun).db.1.jobAttempts.rows, old.id ≠ attempt.id := by
    decide +kernel
  have hfailed : ∃ earlier ∈ (sampleRun rateLimitedRun).db.1.attemptsOf 1,
      earlier.status = .failed := by
    decide +kernel
  obtain ⟨attempt, hattempt, hjob, hnew⟩ := hretry
  obtain ⟨earlier, hearlier, hstatus⟩ := hfailed
  have hsafe := (no_unsafe_replay (sampleRun_reachable rateLimitedRun)).1 _ attempt hattempt
    hnew
  rw [hjob] at hsafe
  exact ⟨earlier, hearlier, hstatus, hsafe earlier hearlier⟩

end NervOS
