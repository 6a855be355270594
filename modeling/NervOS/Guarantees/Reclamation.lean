/-
Whether reclamation can always move an expired claim.  Its candidate is the oldest
expired Job; the branches fence more narrowly than the selection, and a candidate
that a fence or a constraint refuses blocks every other one.
-/
import NervOS.Engine.Invariant
import NervOS.Refinement.Progress

namespace NervOS

open Relational

/-- The Job is claimed or running under a lease that is over. -/
def JobRecord.Expired (now : Instant) (job : JobRecord) : Prop :=
  job.status.IsActive ∧ ∃ lease ∈ job.leaseExpiresAt, lease ≤ now

instance (now : Instant) : DecidablePred (JobRecord.Expired now) := fun job =>
  inferInstanceAs (Decidable (_ ∧ ∃ lease ∈ job.leaseExpiresAt, _))

structure Oldest (db : Tables) (now : Instant) (job : JobRecord) : Prop where
  mem : job ∈ db.jobs.rows
  expired : job.Expired now
  first : ∀ other ∈ db.jobs.rows, other.Expired now →
    toLex (job.leaseExpiresAt.getD 0, job.id) ≤ toLex (other.leaseExpiresAt.getD 0, other.id)

/-- A spent budget is only given up for a Run that never started, and nothing that a
post-start reclamation closes began after the clock. -/
structure Obligation.Recoverable (now : Instant) (o : Obligation) : Prop where
  budget : o.job.status = .claimed →
    o.job.attemptCount < o.job.maxAttempts ∨ o.run.status = .created
  attempt : o.job.status = .running → ∀ attempt ∈ o.attempts, attempt.status.IsActive →
    ∀ started ∈ attempt.executionStartedAt, started ≤ now
  run : o.job.status = .running → ∀ started ∈ o.run.startedAt, started ≤ now
  calls : o.job.status = .running → ∀ call ∈ o.calls, OfActive o.attempts call →
    call.status.IsOpen → call.startedAt.getD call.requestedAt ≤ now

instance (attempts : List JobAttemptRecord) : DecidablePred (OfActive attempts) := fun _ =>
  inferInstanceAs (Decidable (∃ attempt ∈ attempts, _))

instance (now : Instant) : DecidablePred (Obligation.Recoverable now) := fun _ =>
  decidable_of_iff (_ ∧ _ ∧ _ ∧ _)
    ⟨fun ⟨hbudget, hattempt, hrun, hcalls⟩ => ⟨hbudget, hattempt, hrun, hcalls⟩,
      fun h => ⟨h.budget, h.attempt, h.run, h.calls⟩⟩

def Reclaims (db : Database) (now : Instant) : Prop :=
  ∃ reclaimed db', (reclaimNextExpiredClaim now reclaimBackoff).Commits db (some reclaimed) db' ∧
    ∃ job ∈ db.1.jobs.rows, job.Expired now ∧ job.id = reclaimed.jobId ∧
      ∃ job' ∈ db'.1.jobs.find job.id, ¬ job'.status.IsActive

section Candidate

variable {db : Database} {now : Instant} {o : Obligation} {expired : ExpiredClaim} {job : JobRecord}

theorem mem_expiredClaims_of_expired (hsound : AllSound db) (hjob : job ∈ db.1.jobs.rows)
    (hexpired : job.Expired now) :
    ∃ attempt, (⟨job, attempt⟩ : ExpiredClaim) ∈ db.1.expiredClaims now := by
  obtain ⟨o, ho, rfl⟩ := exists_obligation hjob
  obtain ⟨hactive, hlease⟩ := hexpired
  obtain ⟨attempt, hexecutes⟩ := (hsound _ o ho).executing hactive
  obtain ⟨hrow, howner⟩ := (mem_attempts ho).mp hexecutes.mem
  have hcheck := db.1.jobAttempts.lawful.checked attempt hrow
  refine ⟨attempt, mem_expiredClaims.mpr ⟨hjob, hrow, howner, hlease, ?_⟩⟩
  cases hstatus : o.job.status with
  | claimed =>
    have hclaimed := hexecutes.claimed hstatus
    exact Or.inl ⟨rfl, hclaimed, hcheck.claimedShape hclaimed⟩
  | running =>
    have hrunning := hexecutes.running hstatus
    exact Or.inr ⟨rfl, hrunning, hcheck.runningShape hrunning⟩
  | queued | retryWait | succeeded | failed | cancelled =>
    rw [hstatus] at hactive
    exact hactive.elim

variable {attempt : JobAttemptRecord}

theorem Reclaimable.jobExpired (h : Reclaimable now job attempt) :
    job.Expired now := by
  refine ⟨?_, h.2.1⟩
  rcases h.2.2 with ⟨hclaimed, -⟩ | ⟨hrunning, -⟩
  · rw [hclaimed]
    trivial
  · rw [hrunning]
    trivial

theorem Reclaimable.attemptActive (h : Reclaimable now job attempt) :
    attempt.status.IsActive := by
  rcases h.2.2 with ⟨-, hclaimed, -⟩ | ⟨-, hrunning, -⟩
  · rw [hclaimed]
    trivial
  · rw [hrunning]
    trivial

theorem reclaimCandidate_spec (hsound : AllSound db)
    (h : reclaimCandidate db.1 now = some expired) :
    Oldest db.1 now expired.job ∧ ∃ o, expired.Lapsed now db o := by
  obtain ⟨hjob, hattempt, hreclaimable⟩ := mem_expiredClaims.mp (reclaimCandidate_mem h)
  obtain ⟨o, hof⟩ := reclaimCandidate_of h
  have hmem : expired.attempt ∈ o.attempts :=
    (mem_attempts hof.obligation).mpr ⟨hattempt, hreclaimable.1⟩
  have hactive : o.job.status.IsActive := by
    rw [hof.job]
    exact hreclaimable.jobExpired.1
  obtain ⟨executing, hexecutes⟩ := (hsound _ o hof.obligation).executing hactive
  have hsame := (hsound _ o hof.obligation).only hexecutes.mem (hexecutes.active hactive) hmem
    hreclaimable.attemptActive
  have hcarries := hexecutes.carries
  rw [hsame, hof.job] at hcarries
  refine ⟨⟨hjob, hreclaimable.jobExpired, fun other hother hexpired => ?_⟩,
    o, hof, hsound, hmem, hcarries, hreclaimable⟩
  obtain ⟨attempt, hclaim⟩ := mem_expiredClaims_of_expired hsound hother hexpired
  have hage : expired.age ≤ ExpiredClaim.age ⟨other, attempt⟩ := List.le_of_mem_argmin hclaim h
  exact hage

theorem Oldest.unique {left right : JobRecord} (hleft : Oldest db.1 now left)
    (hright : Oldest db.1 now right) : left = right := by
  have hage := le_antisymm (hleft.first right hright.mem hright.expired)
    (hright.first left hleft.mem hleft.expired)
  exact Table.eq_of_key_eq hleft.mem hright.mem (Prod.mk.inj (toLex.injective hage)).2

theorem exists_reclaimCandidate (hsound : AllSound db)
    (hexpired : ∃ job ∈ db.1.jobs.rows, job.Expired now) :
    ∃ expired o, reclaimCandidate db.1 now = some expired ∧ Oldest db.1 now expired.job ∧
      expired.Lapsed now db o := by
  obtain ⟨job, hjob, hlapsed⟩ := hexpired
  obtain ⟨attempt, hclaim⟩ := mem_expiredClaims_of_expired hsound hjob hlapsed
  cases hcandidate : reclaimCandidate db.1 now with
  | none =>
    rw [List.argmin_eq_none.mp hcandidate] at hclaim
    cases hclaim
  | some expired =>
    obtain ⟨holdest, o, hof⟩ := reclaimCandidate_spec hsound hcandidate
    exact ⟨expired, o, rfl, holdest, hof⟩

end Candidate

section Branches

variable {db db' : Database} {now : Instant} {backoff : Duration} {o : Obligation}
  {expired : ExpiredClaim} {reclaimed : ReclaimedClaim}

section

variable (h : expired.Lapsed now db o)

include h

theorem ExpiredClaim.Lapsed.call {call : ToolInvocationRecord} :
    call ∈ db.1.toolInvocations.rows ∧ call.OpenFor expired.attempt.id ↔
      call ∈ o.calls ∧ OfActive o.attempts call ∧ call.status.IsOpen := by
  have hactive := h.reclaimable.attemptActive
  constructor
  · rintro ⟨hcall, howner, hopen⟩
    exact ⟨mem_calls_of_owner h.sound h.obligation h.owner hcall howner,
      ⟨expired.attempt, h.attempt, howner.symm, hactive⟩, hopen⟩
  · rintro ⟨hcall, ⟨attempt, hattempt, howner, hstill⟩, hopen⟩
    rw [(h.sound _ o h.obligation).only hattempt hstill h.attempt hactive] at howner
    exact ⟨((mem_calls h.obligation).mp hcall).1, howner.symm, hopen⟩

theorem exists_reclaimed (hbackoff : 0 ≤ backoff) (hrecoverable : o.Recoverable now) :
    ∃ reclaimed db', (reclaimOnConnection expired now backoff).Commits db reclaimed db' ∧
      reclaimed.jobId = expired.job.id ∧
      ∃ o', db'.1.obligation expired.job.id = some o' ∧ ¬ o'.job.status.IsActive := by
  obtain ⟨hbudget, hattempt, hrun, hcalls⟩ := hrecoverable
  rw [h.job] at hbudget hattempt hrun hcalls
  simp only [reclaimOnConnection, Tx.commits_ite]
  rcases h.reclaimable.2.2 with ⟨hclaimed, hattemptClaimed, hunstarted⟩ |
    ⟨hrunning, hattemptRunning, -⟩
  · by_cases hleft : expired.job.attemptCount < expired.job.maxAttempts
    · obtain ⟨reclaimed, db', hcommits, hclosed⟩ :=
        exists_preStartRequeue h hbackoff hclaimed hattemptClaimed hunstarted
      exact ⟨reclaimed, db', Or.inl ⟨hclaimed, Or.inl ⟨hleft, hcommits⟩⟩, hclosed⟩
    · have hcreated := (hbudget hclaimed).resolve_left hleft
      obtain ⟨reclaimed, db', hcommits, hclosed⟩ :=
        exists_preStartExhausted h hclaimed hattemptClaimed hunstarted hcreated
      exact ⟨reclaimed, db', Or.inl ⟨hclaimed, Or.inr ⟨hleft, hcommits⟩⟩, hclosed⟩
  · have hstarted : expired.job.status ≠ .claimed := by
      rw [hrunning]
      decide
    have hcallsBegan : ∀ call ∈ db.1.toolInvocations.rows,
        call.OpenFor expired.attempt.id → call.begunAt ≤ now := by
      intro call hcall hopen
      obtain ⟨hmem, hactive, hstill⟩ := h.call.mp ⟨hcall, hopen⟩
      exact hcalls hrunning call hmem hactive hstill
    obtain ⟨reclaimed, db', hcommits, hclosed⟩ := exists_postStartAmbiguous h hrunning
      hattemptRunning (hattempt hrunning _ h.attempt h.reclaimable.attemptActive)
      (hrun hrunning) hcallsBegan
    exact ⟨reclaimed, db', Or.inr ⟨hstarted, hcommits⟩, hclosed⟩

theorem begun_of_postStartAmbiguous
    (hcommits : (reclaimPostStartAmbiguous expired now).Commits db reclaimed db') :
    (∀ started ∈ expired.attempt.executionStartedAt, started ≤ now) ∧
      (∀ started ∈ o.run.startedAt, started ≤ now) ∧
      ∀ call ∈ db.1.toolInvocations.rows, call.OpenFor expired.attempt.id →
        call.begunAt ≤ now := by
  obtain ⟨db₁, db₂, db₃, db₄, db₅, db₆, ambiguousCalls, next, hattemptCount, hattempt,
    hjobCount, hjob, hrunCount, hrun, hreconcile, -⟩ := commits_postStartAmbiguous hcommits
  have ho₁ := attempts_updated h.obligation hattempt fun _ => rfl
  have hjobFence := fence_job ho₁ hjobCount fun _ hp => hp.1
  have ho₂ := job_updated ho₁ hjob hjobFence (fun _ => rfl) fun _ => rfl
  have hrunFence := fence_run ho₂ hrunCount fun _ hp => hp.1.trans h.runId.symm
  have ho₃ := run_updated ho₂ hrun hrunFence fun _ => rfl
  refine ⟨?_, ?_, ?_⟩
  · obtain ⟨attempt, hmem, hfence⟩ :=
      fence_attempt h.obligation hattemptCount fun _ hp => hp.2.1
    have hsame := eq_of_id (h.sound _ o h.obligation).distinct hmem h.attempt hfence.1
    rw [hsame] at hfence
    have hrow : expired.attempt ∈ db.1.jobAttempts.rows :=
      ((mem_attempts h.obligation).mp h.attempt).1
    have hrows := hattempt.rows
    simp only [table_jobAttempt] at hrows
    have hclosed : JobAttemptRecord.expire .ambiguous (some executionOutcomeAmbiguous)
        (some (safeErrorMessage executionOutcomeAmbiguous)) now expired.attempt ∈
          db₁.1.jobAttempts.rows := by
      rw [hrows]
      exact List.mem_map.mpr ⟨expired.attempt, hrow, Table.amend_of_pos hfence⟩
    have horder := (db₁.1.jobAttempts.lawful.checked _ hclosed).finishOrder now rfl
    intro started hstarted
    have hgetD : expired.attempt.executionStartedAt.getD expired.attempt.claimedAt = started := by
      rw [Option.mem_def.mp hstarted]
      rfl
    rw [← hgetD]
    exact horder
  · have hrow := (Table.find_eq_some.mp (obligation_run ho₃)).1
    have horder := (db₃.1.runs.lawful.checked _ hrow).finishedOrder now rfl
    intro started hstarted
    rcases horder with ⟨first, hfirst, hle⟩ | ⟨hnone, -⟩
    · have hsome : o.run.startedAt = some first := hfirst
      rw [hsome] at hstarted
      rwa [← Option.mem_some.mp hstarted]
    · have hempty : o.run.startedAt = none := hnone
      rw [hempty] at hstarted
      cases hstarted
  · intro call hcall hopen
    rw [← calls_of_updates hattempt hjob hrun] at hcall
    obtain ⟨-, hmoved⟩ := reconcile_rows hreconcile
    obtain ⟨call', hcall', -, ⟨rfl, hclosed⟩ | ⟨-, rfl⟩⟩ := exists_after hmoved hcall
    · exact absurd hopen hclosed
    · obtain ⟨hfinished, hbegun⟩ := abandon_finished call.status now call
      have horder := (db₄.1.toolInvocations.lawful.checked _ hcall').finishOrder now hfinished
      rw [← hbegun]
      exact horder

theorem recoverable_of_reclaimed
    (hcommits : (reclaimOnConnection expired now backoff).Commits db reclaimed db') :
    o.Recoverable now := by
  simp only [reclaimOnConnection, Tx.commits_ite] at hcommits
  rcases hcommits with ⟨hclaimed, hclaimable⟩ | ⟨hunclaimed, hcommits⟩
  · have hidle : o.job.status ≠ .running := by
      rw [h.job, hclaimed]
      decide
    refine ⟨fun _ => ?_, fun hrunning => absurd hrunning hidle,
      fun hrunning => absurd hrunning hidle, fun hrunning => absurd hrunning hidle⟩
    rw [h.job]
    rcases hclaimable with ⟨hleft, -⟩ | ⟨-, hcommits⟩
    · exact Or.inl hleft
    · obtain ⟨db₁, db₂, db₃, db₄, -, hattempt, hjobCount, hjob, hrunCount, -⟩ :=
        commits_preStartExhausted hcommits
      have ho₁ := attempts_updated h.obligation hattempt fun _ => rfl
      have hjobFence := fence_job ho₁ hjobCount fun _ hp => hp.1
      have ho₂ := job_updated ho₁ hjob hjobFence (fun _ => rfl) fun _ => rfl
      have hrunFence := fence_run ho₂ hrunCount fun _ hp => hp.1.trans h.runId.symm
      exact Or.inr hrunFence.2.1
  · obtain ⟨hattempt, hrun, hcalls⟩ := begun_of_postStartAmbiguous h hcommits
    refine ⟨fun hclaimed => ?_, fun _ attempt hmem hactive => ?_, fun _ => hrun,
      fun _ call hcall hactive hopen => ?_⟩
    · rw [h.job] at hclaimed
      exact absurd hclaimed hunclaimed
    · rw [(h.sound _ o h.obligation).only hmem hactive h.attempt h.reclaimable.attemptActive]
      exact hattempt
    · obtain ⟨hrow, howner⟩ := h.call.mpr ⟨hcall, hactive, hopen⟩
      exact hcalls call hrow howner

end

theorem Local.reclaimOnConnection
    (h : (NervOS.reclaimOnConnection expired now backoff).Commits db reclaimed db') :
    Local expired.Spares db db' := by
  simp only [NervOS.reclaimOnConnection, Tx.commits_ite] at h
  rcases h with ⟨-, ⟨-, h⟩ | ⟨-, h⟩⟩ | ⟨-, h⟩
  · exact Local.preStartRequeue h
  · exact Local.preStartExhausted h
  · exact Local.postStartAmbiguous h

theorem reclaimed_elsewhere (h : expired.Lapsed now db o)
    (hcommits : (reclaimOnConnection expired now backoff).Commits db reclaimed db')
    {jobId : Nat} (hne : jobId ≠ expired.job.id) :
    db'.1.obligation jobId = db.1.obligation jobId := by
  have hlocal := Local.reclaimOnConnection hcommits
  cases hother : db.1.obligation jobId with
  | none => exact hlocal.absent jobId hother
  | some other =>
    exact hlocal.other jobId other hother
      (foreign_of_ne h.sound h.obligation h.runId h.owner jobId other hother hne)

end Branches

section Progress

variable {db : Database} {now : Instant}

structure Reclamation (db : Database) (now : Instant) (expired : ExpiredClaim)
    (o : Obligation) (reclaimed : ReclaimedClaim) (db' : Database) : Prop where
  oldest : Oldest db.1 now expired.job
  lapsed : expired.Lapsed now db o
  branch : (reclaimOnConnection expired now reclaimBackoff).Commits db reclaimed db'
  commits : (reclaimNextExpiredClaim now reclaimBackoff).Commits db (some reclaimed) db'
  jobId : reclaimed.jobId = expired.job.id
  released : ∃ o', db'.1.obligation expired.job.id = some o' ∧ ¬ o'.job.status.IsActive

section

variable (hsound : AllSound db) (hexpired : ∃ job ∈ db.1.jobs.rows, job.Expired now)

include hsound hexpired

theorem exists_reclamation
    (hrecoverable : ∀ o, Oldest db.1 now o.job → db.1.obligation o.job.id = some o →
      o.Recoverable now) :
    ∃ expired o reclaimed db', Reclamation db now expired o reclaimed db' := by
  obtain ⟨expired, o, hcandidate, holdest, hlapsed⟩ := exists_reclaimCandidate hsound hexpired
  have hbackoff : (0 : Duration) ≤ reclaimBackoff := by decide
  have hready : o.Recoverable now := by
    apply hrecoverable o
    · rwa [hlapsed.job]
    · rw [hlapsed.job]
      exact hlapsed.obligation
  obtain ⟨reclaimed, db', hbranch, hjobId, hreleased⟩ := exists_reclaimed hlapsed hbackoff hready
  refine ⟨expired, o, reclaimed, db', holdest, hlapsed, hbranch, ?_, hjobId, hreleased⟩
  simp only [reclaimNextExpiredClaim, Tx.commits_bind, Tx.commits_query]
  refine ⟨some expired, db, ⟨hcandidate.symm, rfl⟩, ?_⟩
  simp only [Tx.commits_bind, Tx.commits_pure]
  exact ⟨reclaimed, db', hbranch, rfl, rfl⟩

theorem reclaims_iff_oldest :
    Reclaims db now ↔ ∀ o, Oldest db.1 now o.job →
      db.1.obligation o.job.id = some o → o.Recoverable now := by
  constructor
  · rintro ⟨reclaimed, db', hcommits, -⟩ o holdest ho
    rcases commits_reclaimNext hcommits with ⟨-, hnone, -⟩ |
      ⟨expired, _, hcandidate, -, hbranch⟩
    · cases hnone
    · obtain ⟨hfirst, own, hlapsed⟩ := reclaimCandidate_spec hsound hcandidate
      have hsame := hlapsed.obligation
      rw [← holdest.unique hfirst, ho] at hsame
      rw [Option.some.inj hsame]
      exact recoverable_of_reclaimed hlapsed hbranch
  · intro hrecoverable
    obtain ⟨expired, o, reclaimed, db', h⟩ := exists_reclamation hsound hexpired hrecoverable
    obtain ⟨o', ho', hreleased⟩ := h.released
    exact ⟨reclaimed, db', h.commits, expired.job, h.oldest.mem, h.oldest.expired,
      h.jobId.symm, o'.job, obligation_job ho', hreleased⟩

end

variable {policy : QueuePolicy} {system : System}

/-- Every expired claim is recoverable at `now`. -/
def AllRecoverable (db : Tables) (now : Instant) : Prop :=
  ∀ o, db.obligation o.job.id = some o → o.job.Expired now → o.Recoverable now

theorem Reclamation.drains {expired : ExpiredClaim} {o : Obligation}
    {reclaimed : ReclaimedClaim} {db' : Database} (h : Reclamation db now expired o reclaimed db')
    (hall : AllRecoverable db.1 now) :
    AllRecoverable db'.1 now ∧
      db'.1.jobs.rows.countP (JobRecord.Expired now) <
        db.1.jobs.rows.countP (JobRecord.Expired now) := by
  obtain ⟨o', ho', hreleased⟩ := h.released
  have hother : ∀ {jobId job}, db'.1.jobs.find jobId = some job → job.Expired now →
      jobId ≠ expired.job.id := by
    rintro jobId job hjob hexpired rfl
    rw [obligation_job ho'] at hjob
    exact hreleased (Option.some.inj hjob ▸ hexpired.1)
  constructor
  · intro other hobligation hexpired
    rw [reclaimed_elsewhere h.lapsed h.branch
      (hother (obligation_job hobligation) hexpired)] at hobligation
    exact hall other hobligation hexpired
  · rw [← Table.card_keysWhere, ← Table.card_keysWhere]
    apply Finset.card_lt_card
    rw [Finset.ssubset_iff_of_subset]
    · refine ⟨expired.job.id, Table.mem_keysWhere.mpr
        ⟨expired.job, Table.find_key h.oldest.mem, h.oldest.expired⟩, fun hmem => ?_⟩
      obtain ⟨job, hjob, hexpired⟩ := Table.mem_keysWhere.mp hmem
      exact hother hjob hexpired rfl
    · intro jobId hmem
      obtain ⟨job, hjob, hexpired⟩ := Table.mem_keysWhere.mp hmem
      have hne := hother hjob hexpired
      obtain ⟨hrow, hid⟩ := Table.find_eq_some.mp hjob
      obtain ⟨other, hobligation, rfl⟩ := exists_obligation hrow
      rw [show other.job.id = jobId from hid,
        reclaimed_elsewhere h.lapsed h.branch hne] at hobligation
      exact Table.mem_keysWhere.mpr ⟨other.job, obligation_job hobligation, hexpired⟩

theorem run_drains (hsound : system.Sound) (hall : AllRecoverable system.db.1 now) :
    ∃ calls, ∀ job ∈ ((engine policy).run (List.replicate calls (.reclaim now reclaimBackoff))
      system).db.1.jobs.rows, ¬ job.Expired now := by
  generalize hcount : system.db.1.jobs.rows.countP (JobRecord.Expired now) = count
  induction count using Nat.strong_induction_on generalizing system with
  | _ count ih =>
    by_cases hexpired : ∃ job ∈ system.db.1.jobs.rows, job.Expired now
    · obtain ⟨expired, o, reclaimed, db', h⟩ := exists_reclamation hsound.obligations hexpired
        fun o holdest ho => hall o ho holdest.expired
      obtain ⟨hall', hlt⟩ := h.drains hall
      have hdb' : (system.exec policy (.reclaim now reclaimBackoff)).db = db' := by
        simp only [System.exec, commit, Tx.run_of_commits h.commits]
      rw [← hdb', hcount] at hlt
      rw [← hdb'] at hall'
      obtain ⟨calls, hdrained⟩ :=
        ih _ hlt (exec_sound policy hsound (.reclaim now reclaimBackoff)) hall' rfl
      exact ⟨calls + 1, hdrained⟩
    · refine ⟨0, fun job hjob hlapsed => hexpired ⟨job, hjob, hlapsed⟩⟩

/-- In every reachable state with an expired claim, a call moves one exactly when the
oldest is recoverable; where all are, repeated calls drain them. -/
theorem reclamation_progress (h : (engine policy).Reachable system)
    (hexpired : ∃ job ∈ system.db.1.jobs.rows, job.Expired now) :
    (Reclaims system.db now ↔ ∀ o, Oldest system.db.1 now o.job →
      system.db.1.obligation o.job.id = some o → o.Recoverable now) ∧
    (AllRecoverable system.db.1 now → ∃ calls,
      ∀ job ∈ ((engine policy).run (List.replicate calls (.reclaim now reclaimBackoff))
        system).db.1.jobs.rows, ¬ job.Expired now) := by
  have hsound := reachable_sound h
  exact ⟨reclaims_iff_oldest hsound.obligations hexpired, run_drains hsound⟩

end Progress

/-- A started Attempt whose lease lapses. -/
def lostWorker : List Op :=
  sampleStart 3

def spentRetry : List Op :=
  sampleStart 2 ++
    [.worker (sampleClaim 1 0) (.recordFailure sampleRateLimit 2 productionRetryPolicy) 2,
      .claimNext (samplePoll 2 (seconds 5))]

/-- The lost Attempt is recoverable at the end of its lease, so the call reclaims it. -/
theorem reclaims_lostWorker : Reclaims (sampleRun lostWorker).db (seconds 60) := by
  have hexpired : ∃ job ∈ (sampleRun lostWorker).db.1.jobs.rows,
      job.Expired (seconds 60) := by decide +kernel
  have hready : ∀ job ∈ (sampleRun lostWorker).db.1.jobs.rows,
      ∀ o ∈ (sampleRun lostWorker).db.1.obligation job.id, o.Recoverable (seconds 60) := by
    decide +kernel
  apply (reclamation_progress (sampleRun_reachable lostWorker) hexpired).1.mpr
  intro o holdest ho
  exact hready o.job holdest.mem o ho

/-- The call on a spent retry is refused by the fence on the Run's state. -/
theorem stuck_spentRetry :
    (engine productionQueuePolicy).Reachable (sampleRun spentRetry) ∧
      (∃ job ∈ (sampleRun spentRetry).db.1.jobs.rows, job.Expired (seconds 65)) ∧
      ¬ Reclaims (sampleRun spentRetry).db (seconds 65) := by
  refine ⟨sampleRun_reachable spentRetry, by decide +kernel, ?_⟩
  rintro ⟨reclaimed, db', hcommits, -⟩
  have hfenced : ((reclaimNextExpiredClaim (seconds 65) reclaimBackoff).run
      (sampleRun spentRetry).db).1 = .error (.raised .fenced) := by
    decide +kernel
  rw [Tx.run_of_commits hcommits] at hfenced
  cases hfenced

end NervOS
