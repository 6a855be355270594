/-
Lost authority is final: a handle whose claim was taken away never writes again.
-/
import NervOS.Engine.Invariant

namespace NervOS

open Relational

def ClaimedAttempt.Lost (claim : ClaimedAttempt) (db : Tables) : Prop :=
  (∃ attempt ∈ db.jobAttempts.find claim.attemptId, ¬ attempt.status.IsActive) ∨
    ∃ job ∈ db.jobs.find claim.jobId, job.claimToken ≠ some claim.claimToken

instance (claim : ClaimedAttempt) : DecidablePred claim.Lost := fun db =>
  inferInstanceAs (Decidable ((∃ attempt ∈ db.jobAttempts.find claim.attemptId, _) ∨
    ∃ job ∈ db.jobs.find claim.jobId, _))

def Obligation.Retired (o : Obligation) (claim : ClaimedAttempt) : Prop :=
  ∃ attempt ∈ o.attempts, attempt.id = claim.attemptId ∧ ¬ attempt.status.IsActive

section Retirement

variable {claim : ClaimedAttempt} {o o' : Obligation} {db : Database}

theorem retired_of_lost (ho : db.1.obligation claim.jobId = some o) (hsound : o.Sound)
    (hheld : o.Held claim) (hlost : claim.Lost db.1) : o.Retired claim := by
  obtain ⟨attempt, hattempt, hid, -, htoken⟩ := hheld.attempt
  refine ⟨attempt, hattempt, hid, fun hactive => ?_⟩
  rcases hlost with ⟨closed, hclosed, hinactive⟩ | ⟨job, hjob, hother⟩
  · obtain ⟨hrow, hclosedId⟩ := Table.find_eq_some.mp hclosed
    rw [Table.eq_of_key_eq hrow ((mem_attempts ho).mp hattempt).1
      (hclosedId.trans hid.symm)] at hinactive
    exact hinactive hactive
  · obtain rfl := Option.some.inj ((obligation_job ho).symm.trans hjob)
    have hjobActive : o.job.status.IsActive := by
      by_contra hidle
      exact (hsound.idle hidle).2 attempt hattempt hactive
    obtain ⟨executing, hexecutes⟩ := hsound.executing hjobActive
    have hsame := hsound.only hexecutes.mem (hexecutes.active hjobActive) hattempt hactive
    rw [hexecutes.carries.token, hsame, htoken] at hother
    exact hother rfl

theorem Obligation.Retired.later (h : o.Retired claim) (hlater : History o o') :
    o'.Retired claim := by
  obtain ⟨attempt, hattempt, hid, hinactive⟩ := h
  exact ⟨attempt, hlater.frozen hattempt hinactive, hid, hinactive⟩

section Fences

variable {now : Instant} {db' : Database}

section

variable (h : o.Retired claim) (hsound : o.Sound) (ho : db.1.obligation claim.jobId = some o)

include h hsound ho

theorem Obligation.Retired.fenced {status : AttemptStatus} (hactive : status.IsActive) :
    ¬ db.1.jobAttempts.rows.countP (claim.HoldsAttempt status now) = 1 := by
  intro hcount
  obtain ⟨closed, hclosed, hid, hinactive⟩ := h
  obtain ⟨attempt, hattempt, hfence⟩ := fence_attempt ho hcount fun _ hp => hp.2.1
  rw [eq_of_id hsound.distinct hclosed hattempt (hid.trans hfence.1.symm)] at hinactive
  exact hinactive (HoldsAttempt.active hactive attempt hfence)

theorem Obligation.Retired.not_live : ¬ Live db.1 claim now := by
  intro hlive
  obtain ⟨closed, hclosed, hid, hinactive⟩ := h
  obtain ⟨attempt, hattempt, hattemptId, hactive, -⟩ := (live_works ho hlive).attempt
  rw [eq_of_id hsound.distinct hclosed hattempt (hid.trans hattemptId.symm)] at hinactive
  exact hinactive hactive

end

theorem commit_refused {α : Type} {x : Connection α}
    (h : ∀ {value db'}, x.Commits db value db' → db' = db) : commit x db = db := by
  rcases commit_cases x db with ⟨value, hcommits⟩ | hsame
  · exact h hcommits
  · exact hsame

theorem refused (h : o.Retired claim) (hsound : o.Sound)
    (ho : db.1.obligation claim.jobId = some o) (action : WorkerAction) :
    runWorkerAction claim now action db = db := by
  have hfenced : ∀ {status : AttemptStatus}, status.IsActive →
      ¬ db.1.jobAttempts.rows.countP (claim.HoldsAttempt status now) = 1 :=
    fun hactive => h.fenced hsound ho hactive
  have hlive : ¬ Live db.1 claim now := h.not_live hsound ho
  have hmoved : ∀ {db' : Database},
      db' = db ∨ (Live db.1 claim now ∧ CallMoved claim now db db') → db' = db :=
    fun hcases => hcases.resolve_right fun hmove => hlive hmove.1
  cases action with
  | startAttempt =>
    refine commit_refused fun hcommits => ?_
    obtain ⟨_, _, _, hcount, -⟩ := commits_startOnce hcommits
    exact absurd hcount (hfenced trivial)
  | renewLease leaseDuration =>
    refine commit_refused fun hcommits => ?_
    obtain ⟨db₁, -, hjob, hcount, -⟩ := commits_renewLease hcommits
    obtain ⟨t, -, hdb₁⟩ := hjob
    rw [hdb₁] at hcount
    exact absurd hcount (hfenced trivial)
  | succeed completion =>
    refine commit_refused fun hcommits => ?_
    obtain ⟨_, _, _, hcount, -⟩ := commits_succeed hcommits
    exact absurd hcount (hfenced trivial)
  | fail failure =>
    refine commit_refused fun hcommits => ?_
    obtain ⟨_, hcount, -⟩ := commits_fail hcommits
    exact absurd hcount (hfenced trivial)
  | recordFailure failure anchorAt policy =>
    refine commit_refused fun hcommits => ?_
    obtain ⟨_, hcount, -⟩ := commits_recordFailure hcommits
    exact absurd hcount (hfenced trivial)
  | persistAttemptUsage usage =>
    refine commit_refused fun hcommits => ?_
    obtain ⟨-, hcount, -⟩ := commits_persistAttemptUsage hcommits
    exact absurd hcount (hfenced trivial)
  | recordRequested request =>
    refine commit_refused fun hcommits => ?_
    exact (commits_recordRequested hcommits).resolve_right
      fun ⟨_, hauthorized, _⟩ => hlive hauthorized.1
  | markStarted invocationId approval =>
    refine commit_refused fun hcommits => ?_
    exact (commits_markStarted hcommits).resolve_right fun hmove => hlive hmove.1
  | markDenied invocationId decision =>
    exact commit_refused fun hcommits => hmoved (commits_markDenied hcommits)
  | markCancelled invocationId =>
    exact commit_refused fun hcommits => hmoved (commits_markCancelled hcommits)
  | markSucceeded invocationId envelope =>
    exact commit_refused fun hcommits => hmoved (commits_markSucceeded hcommits)
  | markFailed invocationId errorCode errorMessage =>
    exact commit_refused fun hcommits => hmoved (commits_markFailed hcommits)
  | markAmbiguous invocationId errorCode errorMessage =>
    exact commit_refused fun hcommits => hmoved (commits_markAmbiguous hcommits)
  | recordPreDispatchRefusal =>
    refine commit_refused fun hcommits => ?_
    exact (commits_recordPreDispatchRefusal hcommits).resolve_right
      fun hmove => hlive hmove.1

end Fences

end Retirement

variable {policy : QueuePolicy} {system : System}

/-- Once the claim of an issued handle was taken away, no operation presented with it
changes the database, however the engine goes on before. -/
theorem lost_authority_is_final (h : (engine policy).Reachable system) {claim : ClaimedAttempt}
    (hissued : claim ∈ system.issued) (hlost : claim.Lost system.db.1) (ops : List Op)
    (action : WorkerAction) (now : Instant) :
    ((engine policy).exec (.worker claim action now) ((engine policy).run ops system)).db =
      ((engine policy).run ops system).db := by
  have hsound := reachable_sound h
  obtain ⟨o, ho, hheld⟩ := hsound.held claim hissued
  have hretired := retired_of_lost ho (hsound.obligations _ o ho) hheld hlost
  obtain ⟨o', ho', hlater⟩ := run_history policy hsound ops ho
  have hsound' := (run_sound policy hsound ops).obligations _ o' ho'
  simp only [engine, System.exec]
  split
  · exact refused (hretired.later hlater) hsound' ho' action
  · rfl

/-- The owner cancels the Run of a started Attempt. -/
def cancelledRun : List Op :=
  sampleStart 3 ++ [.cancelRun 1 1 2]

/-- A late success after the cancellation is refused. -/
theorem late_success_refused :
    ((engine productionQueuePolicy).exec (.worker (sampleClaim 1 0) (.succeed sampleCompletion) 3)
      (sampleRun cancelledRun)).db = (sampleRun cancelledRun).db :=
  lost_authority_is_final (sampleRun_reachable cancelledRun)
    (by decide +kernel) (by decide +kernel) [] (.succeed sampleCompletion) 3

variable {rules : Discipline} {now : Instant} {o o' : Obligation}

/-- Only the timeline of a terminal Job still grows. -/
theorem Step.finished (h : Step rules now o o') (hterminal : o.job.status.IsTerminal) :
    ∃ timeline, o' = { o with timeline := timeline } := by
  cases h with
  | note => exact ⟨_, rfl⟩
  | close source => exact absurd hterminal source
  | claim polled source =>
    rcases source with ⟨hjob, -⟩ | ⟨hjob, -⟩ <;> rw [hjob] at hterminal <;> exact hterminal.elim
  | start source | renew source | work source | retry source | requeue source =>
    rw [source] at hterminal
    exact hterminal.elim

/-- Each terminal Job, its Run, its Attempts and their tool calls are as they were. -/
def KeepsFinished (db later : Tables) : Prop :=
  ∀ jobId o, db.obligation jobId = some o → o.job.status.IsTerminal →
    ∃ timeline, later.obligation jobId = some { o with timeline := timeline }

theorem exec_keepsFinished (hsound : system.Sound) (op : Op) :
    KeepsFinished system.db.1 (System.exec policy op system).db.1 := by
  intro jobId o ho hterminal
  have hevolves := exec_refines policy hsound op jobId
  rw [ho] at hevolves
  generalize (System.exec policy op system).db.1.obligation jobId = after at hevolves ⊢
  cases hevolves with
  | moves steps =>
    induction steps with
    | refl => exact ⟨o.timeline, rfl⟩
    | tail _ step ih =>
      obtain ⟨timeline, hsame⟩ := ih
      obtain rfl := Option.some.inj hsame
      obtain ⟨timeline', rfl⟩ := step.finished hterminal
      exact ⟨timeline', rfl⟩

/-- What has ended is final, whatever operations follow. -/
theorem finished_is_final (policy : QueuePolicy) (ops later : List Op) :
    KeepsFinished ((engine policy).run ops (engine policy).init).db.1
      ((engine policy).run (ops ++ later) (engine policy).init).db.1 := by
  rw [Machine.run_append]
  refine Machine.run_related (M := engine policy) (I := System.Sound)
    (R := fun before after => KeepsFinished before.db.1 after.db.1)
    (fun _ _ o ho _ => ⟨o.timeline, ho⟩) ?_ (fun _ op hsound => exec_sound policy hsound op)
    (fun _ op hsound => exec_keepsFinished hsound op) (run_sound policy init_sound ops) later
  intro a b c hab hbc jobId o ho hterminal
  obtain ⟨_, hb⟩ := hab jobId o ho hterminal
  obtain ⟨timeline, hc⟩ := hbc jobId _ hb hterminal
  exact ⟨timeline, hc⟩

end NervOS
