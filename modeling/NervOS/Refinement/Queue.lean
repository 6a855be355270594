/-
Submission and claim refine the protocol: the one brings a new obligation, the
other gives an idle obligation its next Attempt.
-/
import NervOS.Database.Claim
import NervOS.Refinement.Execution

namespace NervOS

open Relational

section Submission

variable {submission : Submission} {db db' : Database} {runId : Nat}
  {rules : Nat → Discipline} {now : Instant}

theorem obligation_jobs_next (db : Database) : db.1.obligation db.1.jobs.next = none := by
  rw [Tables.obligation, Table.find_next, Option.bind_none]

theorem inserted_obligation {runRow : Nat → RunRecord} {jobRow : Nat → JobRecord}
    {db₁ : Database} (hrun : Tx.Inserts runRow db db₁) (hkey : ∀ id, (runRow id).id = id)
    (hjob : Tx.Inserts jobRow db₁ db') (hjobKey : ∀ id, (jobRow id).id = id)
    (hbehind : ∀ id, (jobRow id).runId = db.1.runs.next) :
    db'.1.obligation db₁.1.jobs.next =
      some ⟨jobRow db₁.1.jobs.next, runRow db.1.runs.next, [], [], []⟩ := by
  have hfind := hrun.find hkey db.1.runs.next
  simp only [table_run, if_true] at hfind
  have htimeline : db₁.1.timeline db.1.runs.next = [] := by
    obtain ⟨t', -, hdb₁⟩ := hrun
    rw [hdb₁]
    exact timeline_next db
  rw [obligation_insertJob hjob hjobKey, if_pos rfl, hbehind, hfind, htimeline,
    Option.map_some]

section

variable (h : (insertRunAndJobOnConnection submission).Commits db runId db')

include h

theorem submission_refines :
    Refines rules now db db' := by
  obtain ⟨instanceRow, inputText, cutoff, db₁, db₂, db₃, -, hrun, hjob, hcreated, hqueued⟩ :=
    commits_insertRunAndJob h
  have hbefore : ∀ jobId, db₁.1.obligation jobId = db.1.obligation jobId :=
    obligation_insertRun hrun fun _ => rfl
  have hevents : Local (fun o => o.job.runId ≠ db.1.runs.next) db₂ db' :=
    (Local.event hcreated fun _ hP howns => hP howns.symm).trans <|
      Local.event hqueued fun _ hP howns => hP howns.symm
  intro jobId
  by_cases hid : jobId = db₁.1.jobs.next
  · subst hid
    have ho₂ := inserted_obligation hrun (fun _ => rfl) hjob (fun _ => rfl) fun _ => rfl
    obtain ⟨timeline₃, htold₃, ho₃⟩ := event_told ho₂ hcreated rfl (Appends.nil []) rfl
    obtain ⟨timeline', htold, ho'⟩ := event_told ho₃ hqueued rfl htold₃ rfl
    have hchecked := (Table.find_eq_some.mp (obligation_job ho₂)).1
    have hbudget := (db₂.1.jobs.lawful.checked _ hchecked).attemptBounds.2.1
    rw [ho', ← hbefore, obligation_jobs_next]
    exact .submitted ⟨rfl, rfl, hbudget, ⟨rfl, rfl, rfl, rfl⟩, rfl, rfl, rfl, rfl, htold⟩
  · have hmiddle := obligation_insertJob hjob (fun _ => rfl) jobId
    rw [if_neg hid, hbefore] at hmiddle
    cases ho : db.1.obligation jobId with
    | none =>
      rw [hevents.absent jobId (hmiddle.trans ho)]
      exact .absent
    | some o =>
      have hfree : o.job.runId ≠ db.1.runs.next := by
        intro hnext
        have hfind := obligation_run ho
        rw [hnext, Table.find_next] at hfind
        cases hfind
      rw [hevents.other jobId o (hmiddle.trans ho) hfree]
      exact .moves .refl

theorem submission_rows :
    ∃ instanceRow inputText cutoff, runId = db.1.runs.next ∧
      db'.1.runs.rows =
        db.1.runs.rows ++ [submission.run instanceRow inputText cutoff db.1.runs.next] ∧
      db'.1.jobs.rows =
        db.1.jobs.rows ++ [submission.job instanceRow db.1.runs.next db.1.jobs.next] := by
  obtain ⟨instanceRow, inputText, cutoff, db₁, db₂, db₃, hrunId, hrun, hjob, hcreated, hqueued⟩ :=
    commits_insertRunAndJob h
  have hrows := hrun.rows
  have hjobRows := hjob.rows
  obtain ⟨t₁, -, hdb₁⟩ := hrun
  obtain ⟨t₂, -, hdb₂⟩ := hjob
  obtain ⟨t₃, -, hdb₃⟩ := hcreated
  obtain ⟨t₄, -, hdb'⟩ := hqueued
  simp only [table_run, table_job] at hrows hjobRows
  have hruns : db'.1.runs = db₁.1.runs := by rw [hdb', hdb₃, hdb₂]; rfl
  have hjobs : db'.1.jobs = db₂.1.jobs := by rw [hdb', hdb₃]; rfl
  have hbefore : db₁.1.jobs = db.1.jobs := by rw [hdb₁]; rfl
  refine ⟨instanceRow, inputText, cutoff, hrunId, ?_, ?_⟩
  · rw [hruns, hrows]
  · rw [hjobs, hjobRows, hbefore]

theorem submission_cutoff :
    ∀ run ∈ db'.1.runs.rows, run ∈ db.1.runs.rows ∨
      run.toolGrantCutoffId = db.1.grantCutoff run.agentInstanceId run.limits := by
  simp only [insertRunAndJobOnConnection, Tx.commits_bind, Tx.commits_query,
    Tx.commits_ofExcept, Tx.commits_require, Tx.commits_insert, Tx.commits_pure,
    commits_appendEvent] at h
  obtain ⟨named, db, ⟨-, rfl⟩, instanceRow, _, ⟨-, rfl⟩, _, _, ⟨-, rfl⟩, -, _, ⟨-, rfl⟩,
    _, _, ⟨-, rfl⟩, -, _, ⟨-, rfl⟩, _, _, ⟨-, rfl⟩, -, _, ⟨-, rfl⟩, cutoff, _, ⟨rfl, rfl⟩,
    inputText, _, ⟨-, rfl⟩, _, db₁, ⟨rfl, hrun⟩, _, db₂, ⟨rfl, t₂, -, hdb₂⟩, -, db₃,
    ⟨-, t₃, -, hdb₃⟩, -, _, ⟨-, t₄, -, hdb₄⟩, rfl, rfl⟩ := h
  have hrows := hrun.rows
  have hruns : db'.1.runs = db₁.1.runs := by rw [hdb₄, hdb₃, hdb₂]; rfl
  intro run hmem
  rw [hruns] at hmem
  simp only [table_run] at hrows
  rw [hrows, List.mem_append, List.mem_singleton] at hmem
  refine hmem.imp_right ?_
  rintro rfl
  rfl

theorem submission_kept :
    db'.1.queuePartitions = db.1.queuePartitions ∧
      db'.1.jobAttempts.next = db.1.jobAttempts.next ∧
      ∀ run ∈ db'.1.runs.rows, run ∈ db.1.runs.rows ∨
        ∃ job ∈ db'.1.jobs.rows, job.runId = run.id := by
  obtain ⟨_, _, _, -, hruns, hjobs⟩ := submission_rows h
  obtain ⟨_, _, _, db₁, db₂, db₃, -, ⟨t₁, -, hdb₁⟩, ⟨t₂, -, hdb₂⟩, ⟨t₃, -, hdb₃⟩,
    ⟨t₄, -, hdb'⟩⟩ := commits_insertRunAndJob h
  refine ⟨by rw [hdb', hdb₃, hdb₂, hdb₁]; rfl, by rw [hdb', hdb₃, hdb₂, hdb₁]; rfl, ?_⟩
  intro run hmem
  rw [hruns, List.mem_append, List.mem_singleton] at hmem
  refine hmem.imp_right fun hnew => ?_
  rw [hjobs, hnew]
  exact ⟨_, List.mem_append_right _ (List.mem_singleton_self _), rfl⟩

end

end Submission

variable {policy : QueuePolicy} {request : ClaimRequest} {db db' : Database}
  {rules : Nat → Discipline} {outcome : Option ClaimedAttempt}

theorem claimCandidate_eq_some {db : Tables} {job : JobRecord}
    (h : claimCandidate db policy request = some job) :
    db.active request.now (fun _ => True) < min (policy.globalActiveLimit : Int)
        request.maxActive ∧
      job ∈ eligibleHeads db policy request ∧
      ∀ other ∈ eligibleHeads db policy request, turn db job ≤ turn db other := by
  unfold claimCandidate at h
  split at h
  · cases h
  · rename_i hroom
    exact ⟨lt_of_not_ge hroom, List.argmin_mem h,
      fun other hother => List.le_of_mem_argmin hother h⟩

theorem mem_eligibleHeads {db : Tables} {job : JobRecord} :
    job ∈ eligibleHeads db policy request ↔
      job ∈ db.jobs.rows ∧ IsHead db request job ∧ Admitted db policy request job := by
  rw [eligibleHeads, List.mem_filter, decide_eq_true_eq]

variable {db₁ db₂ db₃ : Database} {o : Obligation}

theorem Claims.elsewhere (h : Claims request o.job db db₁ db₂ db₃ db') :
    Elsewhere (Foreign o.job.id o.job.runId db.1.jobAttempts.next) db db' := by
  have hserved : Elsewhere (Foreign o.job.id o.job.runId db.1.jobAttempts.next) db₂ db₃ :=
    ⟨fun _ hnone => by rw [h.served]; exact hnone,
      fun _ _ hother _ => by rw [h.served]; exact hother⟩
  exact (Local.ofJob h.updated (fun _ => rfl) (fun _ => rfl) fun _ hp => hp.1).toElsewhere.trans
    <| (Elsewhere.attempt h.inserted fun _ hP _ howns => hP.job howns.symm).trans <|
      hserved.trans (Local.ofEvent h.told rfl).toElsewhere

theorem Claims.step (h : Claims request o.job db db₁ db₂ db₃ db')
    (ho : db.1.obligation o.job.id = some o) (hpolled : (rules o.job.id).polled)
    (hclaimable : Claimable db.1 request o.job) :
    ∃ o', db'.1.obligation o.job.id = some o' ∧ Step (rules o.job.id) request.now o o' ∧
      o'.Held (request.handle o.job db₁.1.jobAttempts.next) := by
  have hfence := fence_job ho h.count fun _ hp => hp.1
  have ho₁ := job_updated ho h.updated hfence (fun _ => rfl) fun _ => rfl
  have ho₂ := obligation_insertAttempt h.inserted o.job.id
  rw [ho₁, Option.map_some,
    if_pos (show (request.attempt o.job _).jobId = o.job.id from rfl)] at ho₂
  have ho₃ : db₃.1.obligation o.job.id = db₂.1.obligation o.job.id := by
    rw [h.served]
    rfl
  rw [ho₂] at ho₃
  have hbase : db₃.1.timeline o.job.runId = o.timeline :=
    (obligation_eq_some.mp ho₃).2.2.2.2.symm
  obtain ⟨timeline', htold, ho'⟩ := event_told ho₃ h.told rfl (Appends.nil o.timeline)
    (by rw [← hbase]; rfl)
  have hnow : o.job.createdAt ≤ request.now :=
    (db₁.1.jobs.lawful.checked _
      (Table.find_eq_some.mp (obligation_job ho₁)).1).timestampOrder.1
  have hunseen : db₁.1.jobAttempts.next ∉ o.attempts.map (·.id) := by
    intro hmem
    obtain ⟨attempt, hattempt, hid⟩ := List.mem_map.mp hmem
    have hrow := ((mem_attempts ho₁).mp hattempt).1
    exact Nat.ne_of_lt (db₁.1.jobAttempts.lawful.fresh attempt hrow) hid
  refine ⟨_, ho', Step.claim hpolled ?_ ⟨hfence.2.2, hunseen, rfl, rfl, rfl, rfl, hnow⟩
    ⟨rfl, rfl, rfl, rfl, rfl, rfl⟩ rfl rfl ⟨rfl, rfl, rfl⟩ htold, rfl, _,
    List.mem_append_right _ (List.mem_singleton_self _), rfl, rfl, rfl⟩
  obtain ⟨⟨run, hfind, hsource⟩, -⟩ := hclaimable
  rw [obligation_run ho] at hfind
  obtain rfl := Option.some.inj hfind
  simpa [claimableSources] using hsource

theorem claim_refines (hsound : AllSound db)
    (hpolled : ∀ job ∈ claimCandidate db.1 policy request, (rules job.id).polled)
    (h : (claimNext policy request).Commits db outcome db') :
    Refines rules request.now db db' ∧
      ∀ claim ∈ outcome, ∃ o, db'.1.obligation claim.jobId = some o ∧ o.Held claim := by
  rcases commits_claimNext h with ⟨rfl, rfl⟩ | ⟨job, db₁, db₂, db₃, hcandidate, rfl, hclaims⟩
  · exact ⟨Refines.refl _, fun claim hclaim => nomatch hclaim⟩
  · obtain ⟨-, hhead, -⟩ := claimCandidate_eq_some hcandidate
    obtain ⟨hmem, ⟨hclaimable, -⟩, -⟩ := mem_eligibleHeads.mp hhead
    obtain ⟨o, ho, rfl⟩ := exists_obligation hmem
    obtain ⟨o', ho', hstep, hheld⟩ :=
      hclaims.step ho (hpolled o.job hcandidate) hclaimable
    have hunused : ∀ attempt ∈ db.1.jobAttempts.rows, attempt.id = db.1.jobAttempts.next →
        attempt.jobId = o.job.id := fun attempt hrow hid =>
      absurd hid (Nat.ne_of_lt (db.1.jobAttempts.lawful.fresh attempt hrow))
    refine ⟨Refines.of_elsewhere hclaims.elsewhere (foreign_of_ne hsound ho rfl hunused) ho ho'
      hstep, ?_⟩
    rintro claim hclaim
    obtain rfl := Option.some.inj hclaim
    exact ⟨o', ho', hheld⟩

end NervOS
