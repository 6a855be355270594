/-
Every operation of the engine refines the protocol, and the invariant that makes
the refinement go through holds in every reachable state.
-/
import NervOS.Engine
import NervOS.Refinement.Queue
import NervOS.Refinement.Recovery
import NervOS.Refinement.Tools
import NervOS.Refinement.Approvals
import NervOS.Obligation.Disciplined

namespace NervOS

open Relational

def ApprovalAction.touchedRuns (db : Tables) (now : Instant) : ApprovalAction → List Nat
  | .request asked => if (db.resolvedOwner asked).isSome then [asked.runId] else []
  | .approve owner approvalId =>
    if ∃ row ∈ db.actionApprovals.find approvalId,
        row.ownerUserId = owner ∧ row.state.IsOpen then
      (db.openApprovals owner).map (·.runId)
    else []
  | .deny owner approvalId | .cancel owner approvalId =>
    ((db.actionApprovals.find approvalId).filter fun row =>
      row.ownerUserId = owner ∧ row.state = .pending).toList.map (·.runId)
  | .listPending owner => (db.openApprovals owner).map (·.runId)
  | .gateAdmit asked =>
    ((db.resolvedOwner asked).toList.flatMap fun owner =>
      (db.openApprovals owner).map (·.runId)) ++
    if LiveRequest db asked now then [asked.runId] else []
  | .abandon asked => (db.openApprovalsOf asked).map (·.runId)
  | .consume asked _ => if LiveRequest db asked now then [asked.runId] else []

/-- A reclamation only requeues Jobs of Runs that never started. -/
def Op.RequeuesUnstarted (db : Tables) : Op → Prop
  | .reclaim now _ => NervOS.RequeuesUnstarted db now
  | _ => True

/-- A settlement finds no open call of its Attempt. -/
def Op.SettlesCleanly (db : Tables) : Op → Prop
  | .worker claim (.succeed _) now | .worker claim (.fail _) now
  | .worker claim (.recordFailure _ _ _) now => NervOS.SettlesCleanly db claim now
  | _ => True

instance (db : Tables) : DecidablePred (Op.RequeuesUnstarted db)
  | .reclaim now _ => inferInstanceAs (Decidable (∀ expired ∈ reclaimCandidate db now, _))
  | .submit .. | .insertRunAndJob .. | .claimNext .. | .worker .. | .cancelRun ..
  | .approval .. | .closeLegacy .. | .configure .. => isTrue trivial

instance (db : Tables) : DecidablePred (Op.SettlesCleanly db)
  | .worker claim (.succeed _) now | .worker claim (.fail _) now
  | .worker claim (.recordFailure _ _ _) now =>
    inferInstanceAs (Decidable (NervOS.SettlesCleanly db claim now))
  | .worker _ .startAttempt _ | .worker _ (.renewLease _) _
  | .worker _ (.persistAttemptUsage _) _ | .worker _ (.recordRequested _) _
  | .worker _ (.markStarted _ _) _ | .worker _ (.markDenied _ _) _
  | .worker _ (.markCancelled _) _ | .worker _ (.markSucceeded _ _) _
  | .worker _ (.markFailed _ _ _) _ | .worker _ (.markAmbiguous _ _ _) _
  | .worker _ .recordPreDispatchRefusal _ => isTrue trivial
  | .submit .. | .insertRunAndJob .. | .claimNext .. | .reclaim .. | .cancelRun ..
  | .approval .. | .closeLegacy .. | .configure .. => isTrue trivial

def Op.NotesOpenRuns (db : Tables) : Op → Prop
  | .approval action now => ∀ runId ∈ action.touchedRuns db now,
      ∀ run ∈ db.runs.find runId, ¬ run.status.IsTerminal
  | _ => True

instance (db : Tables) : DecidablePred (Op.NotesOpenRuns db)
  | .approval action now => inferInstanceAs (Decidable (∀ runId ∈ action.touchedRuns db now, _))
  | .submit .. | .insertRunAndJob .. | .claimNext .. | .worker .. | .reclaim ..
  | .cancelRun .. | .closeLegacy .. | .configure .. => isTrue trivial

/-- What an operation observes of the conditions on one Job. -/
def System.discipline (policy : QueuePolicy) (system : System) (op : Op) (jobId : Nat) :
    Discipline where
  polled := ∃ request, op = .claimNext request ∧
    ∃ job ∈ claimCandidate system.db.1 policy request, job.id = jobId
  unstarted := op.RequeuesUnstarted system.db.1
  tidy := op.SettlesCleanly system.db.1
  quiet := op.NotesOpenRuns system.db.1

/-- The invariant of the engine. -/
structure System.Sound (system : System) : Prop where
  obligations : AllSound system.db
  held : ∀ claim ∈ system.issued, ∃ o,
    system.db.1.obligation claim.jobId = some o ∧ o.Held claim
  rooted : ∀ run ∈ system.db.1.runs.rows, ∃ job ∈ system.db.1.jobs.rows, job.runId = run.id

section Operations

variable {policy : QueuePolicy} {system : System} {rules : Nat → Discipline} {now : Instant}
  {db : Database}

theorem commit_advances {α : Type} {x : Connection α}
    (h : ∀ {value db'}, x.Commits db value db' → Advances rules now db db') :
    Advances rules now db (commit x db) := by
  rcases commit_cases x db with ⟨value, hcommits⟩ | hsame
  · exact h hcommits
  · rw [hsame]
    exact Advances.refl db

variable {db' : Database}

theorem moved_advances {claim : ClaimedAttempt} {o : Obligation} (hsound : AllSound db)
    (ho : db.1.obligation claim.jobId = some o) (hheld : o.Held claim)
    (h : db' = db ∨ (Live db.1 claim now ∧ CallMoved claim now db db')) :
    Advances rules now db db' := by
  rcases h with rfl | ⟨hlive, hmoved⟩
  · exact Advances.refl _
  · exact callMoved_advances hsound ho hheld hlive (Or.inl rfl) hmoved

theorem worker_advances {claim : ClaimedAttempt} {action : WorkerAction}
    (hsound : system.Sound) (hissued : claim ∈ system.issued) :
    Advances (system.discipline policy (.worker claim action now)) now system.db
      (runWorkerAction claim now action system.db) := by
  obtain ⟨o, ho, hheld⟩ := hsound.held claim hissued
  have hall := hsound.obligations
  cases action with
  | startAttempt => exact commit_advances (startOnce_advances hall ho hheld)
  | renewLease leaseDuration => exact commit_advances (renewLease_advances hall ho hheld)
  | succeed completion => exact commit_advances (succeed_advances hall ho hheld id)
  | fail failure => exact commit_advances (fail_advances hall ho hheld id)
  | recordFailure failure anchorAt policy =>
    exact commit_advances (recordFailure_advances hall ho hheld id)
  | persistAttemptUsage usage =>
    exact commit_advances (persistAttemptUsage_advances hall ho hheld)
  | recordRequested request => exact commit_advances (recordRequested_advances hall ho hheld)
  | markStarted invocationId approval =>
    exact commit_advances (markStarted_advances hall ho hheld)
  | markDenied invocationId decision =>
    exact commit_advances fun h => moved_advances hall ho hheld (commits_markDenied h)
  | markCancelled invocationId =>
    exact commit_advances fun h => moved_advances hall ho hheld (commits_markCancelled h)
  | markSucceeded invocationId envelope =>
    exact commit_advances fun h => moved_advances hall ho hheld (commits_markSucceeded h)
  | markFailed invocationId errorCode errorMessage =>
    exact commit_advances fun h => moved_advances hall ho hheld (commits_markFailed h)
  | markAmbiguous invocationId errorCode errorMessage =>
    exact commit_advances fun h => moved_advances hall ho hheld (commits_markAmbiguous h)
  | recordPreDispatchRefusal => exact commit_advances (refusal_advances hall ho hheld)

theorem approval_moved {action : ApprovalAction} :
    ApprovalsMoved (action.touchedRuns db.1 now) db (runApprovalAction now action db) := by
  have hcommit : ∀ {α : Type} {x : Connection α} {runs : List Nat},
      (∀ {value db'}, x.Commits db value db' → ApprovalsMoved runs db db') →
      ApprovalsMoved runs db (commit x db) := by
    intro α x runs h
    rcases commit_cases x db with ⟨value, hcommits⟩ | hsame
    · exact h hcommits
    · rw [hsame]
      exact ApprovalsMoved.refl db
  cases action with
  | request asked =>
    refine hcommit (requestApproval_moved fun hresolved => ?_)
    simp [ApprovalAction.touchedRuns, hresolved]
  | approve owner approvalId =>
    refine hcommit (approve_moved fun old hold howner hopen approval happroval => ?_)
    rw [ApprovalAction.touchedRuns, if_pos ⟨old, hold, howner, hopen⟩]
    exact List.mem_map_of_mem happroval
  | deny | cancel =>
    refine hcommit (closePending_moved fun old hold howner hpending => ?_)
    simp [ApprovalAction.touchedRuns, hold, Option.filter, howner, hpending]
  | listPending owner =>
    exact hcommit (reconcilePending_moved fun approval happroval =>
      List.mem_map_of_mem happroval)
  | gateAdmit asked =>
    refine hcommit (admit_moved (fun owner howner approval happroval => ?_) fun hlive => ?_)
    · rw [ApprovalAction.touchedRuns, howner]
      exact List.mem_append_left _ (List.mem_flatMap.mpr
        ⟨owner, List.mem_singleton_self _, List.mem_map_of_mem happroval⟩)
    · rw [ApprovalAction.touchedRuns, if_pos hlive]
      exact List.mem_append_right _ (List.mem_singleton_self _)
  | abandon asked =>
    exact hcommit (abandon_moved fun approval happroval => List.mem_map_of_mem happroval)
  | consume asked consumingAttemptId =>
    refine hcommit (consume_moved fun hlive => ?_)
    rw [ApprovalAction.touchedRuns, if_pos hlive]
    exact List.mem_singleton_self _

theorem closeLegacy_advances {count : Nat}
    (h : (closeLegacyNonterminalRuns now).Commits db count db') :
    Advances rules now db db' := by
  obtain ⟨candidates, hlegacy, hupdates⟩ := commits_closeLegacy h
  have hlocal : Local (fun o => o.job ∈ db.1.jobs.rows) db db' :=
    Local.runs hupdates (fun _ => rfl) fun o howns hjob hp =>
      hlegacy _ hp.1 o.job hjob howns.symm
  refine ⟨fun jobId => ?_, hlocal.kept⟩
  cases ho : db.1.obligation jobId with
  | none =>
    rw [hlocal.absent jobId ho]
    exact .absent
  | some o =>
    rw [hlocal.other jobId o ho (Table.find_eq_some.mp (obligation_job ho)).1]
    exact .moves .refl

theorem configure_advances {configuration : Configuration} {value : Unit}
    (h : (configure configuration).Commits db value db') : Advances rules now db db' := by
  simp only [configure, Tx.commits_write, Option.some.injEq] at h
  refine ⟨fun jobId => ?_, by rw [← h]; exact ⟨rfl, rfl, rfl⟩⟩
  have hsame : db'.1.obligation jobId = db.1.obligation jobId := by
    rw [← h]
    rfl
  rw [hsame]
  exact Refines.refl db jobId

theorem commits_submit {inputText : String} {submission : Submission} {runId : Nat}
    (h : (submit inputText submission).Commits db runId db') :
    (insertRunAndJobOnConnection submission).Commits db runId db' := by
  simp only [submit, Tx.commits_bind, Tx.commits_require] at h
  obtain ⟨_, db, ⟨-, rfl⟩, _, db, ⟨-, rfl⟩, _, db, ⟨-, rfl⟩, h⟩ := h
  exact h

def Op.Inserts : Op → Prop
  | .submit .. | .insertRunAndJob .. | .claimNext .. => True
  | _ => False

variable (policy) in
theorem exec_advances {op : Op} (hsound : system.Sound) (hop : ¬ op.Inserts) :
    Advances (system.discipline policy op) op.now system.db (system.exec policy op).db := by
  cases op with
  | submit | insertRunAndJob | claimNext => exact absurd trivial hop
  | worker claim action now =>
    simp only [System.exec]
    split
    · rename_i hissued
      exact worker_advances hsound hissued
    · exact Advances.refl _
  | reclaim now backoff =>
    exact commit_advances (reclaimNext_advances hsound.obligations fun _ => id)
  | cancelRun userId runId now =>
    exact commit_advances (cancelRun_advances hsound.obligations)
  | approval action now => exact approval_moved.advances fun _ => id
  | closeLegacy now => exact commit_advances closeLegacy_advances
  | configure configuration now =>
    exact commit_advances configure_advances

theorem commit_refines {α : Type} {x : Connection α}
    (h : ∀ {value db'}, x.Commits db value db' → Refines rules now db db') :
    Refines rules now db (commit x db) := by
  rcases commit_cases x db with ⟨value, hcommits⟩ | hsame
  · exact h hcommits
  · rw [hsame]
    exact Refines.refl db

variable (policy) in
theorem exec_refines (hsound : system.Sound) (op : Op) :
    Refines (system.discipline policy op) op.now system.db (system.exec policy op).db := by
  by_cases hop : op.Inserts
  · cases op with
    | submit inputText submission =>
      exact commit_refines fun h => submission_refines (commits_submit h)
    | insertRunAndJob submission => exact commit_refines submission_refines
    | claimNext request =>
      refine commit_refines fun h => (claim_refines hsound.obligations ?_ h).1
      exact fun job hjob => ⟨request, rfl, job, hjob, rfl⟩
    | worker | reclaim | cancelRun | approval | closeLegacy | configure => exact hop.elim
  · exact (exec_advances policy hsound hop).refines

variable (policy) in
theorem exec_history (hsound : system.Sound) (op : Op) {jobId : Nat} {o : Obligation}
    (ho : system.db.1.obligation jobId = some o) :
    ∃ o', (system.exec policy op).db.1.obligation jobId = some o' ∧ History o o' := by
  obtain ⟨o', ho', hlater⟩ := (exec_refines policy hsound op jobId).history ho
    (hsound.obligations jobId o ho)
  exact ⟨o', ho', hlater⟩

theorem claim_runs {request : ClaimRequest} {outcome : Option ClaimedAttempt}
    (h : (claimNext policy request).Commits db outcome db') :
    db'.1.runs = db.1.runs := by
  rcases commits_claimNext h with ⟨-, rfl⟩ | ⟨job, db₁, db₂, db₃, -, -, hclaims⟩
  · rfl
  · obtain ⟨t₁, -, hdb₁⟩ := hclaims.updated
    obtain ⟨t₂, -, hdb₂⟩ := hclaims.inserted
    obtain ⟨t₄, -, hdb'⟩ := hclaims.told
    rw [hdb', setTable_runEvent, hclaims.served, hdb₂, setTable_jobAttempt, hdb₁,
      setTable_job]

variable (policy) in
theorem exec_runs (hsound : system.Sound) (op : Op) :
    ∀ run ∈ (system.exec policy op).db.1.runs.rows,
      (∃ old ∈ system.db.1.runs.rows, old.id = run.id) ∨
        ∃ job ∈ (system.exec policy op).db.1.jobs.rows, job.runId = run.id := by
  have hcommit : ∀ {α : Type} {x : Connection α},
      (∀ {value db'}, x.Commits system.db value db' → ∀ run ∈ db'.1.runs.rows,
        (∃ old ∈ system.db.1.runs.rows, old.id = run.id) ∨
          ∃ job ∈ db'.1.jobs.rows, job.runId = run.id) →
      ∀ run ∈ (commit x system.db).1.runs.rows,
        (∃ old ∈ system.db.1.runs.rows, old.id = run.id) ∨
          ∃ job ∈ (commit x system.db).1.jobs.rows, job.runId = run.id := by
    intro α x h run hrun
    rcases commit_cases x system.db with ⟨value, hcommits⟩ | hsame
    · exact h hcommits run hrun
    · rw [hsame] at hrun
      exact Or.inl ⟨run, hrun, rfl⟩
  by_cases hop : op.Inserts
  · cases op with
    | submit inputText submission =>
      refine hcommit fun h run hrun => ?_
      exact ((submission_kept (commits_submit h)).2.2 run hrun).imp_left
        fun hold => ⟨run, hold, rfl⟩
    | insertRunAndJob submission =>
      refine hcommit fun h run hrun => ?_
      exact ((submission_kept h).2.2 run hrun).imp_left fun hold => ⟨run, hold, rfl⟩
    | claimNext request =>
      refine hcommit fun h run hrun => ?_
      rw [claim_runs h] at hrun
      exact Or.inl ⟨run, hrun, rfl⟩
    | worker | reclaim | cancelRun | approval | closeLegacy | configure => exact hop.elim
  · intro run hrun
    have hids := (exec_advances policy hsound hop).kept.runIds
    have hmem : run.id ∈ system.db.1.runs.rows.map (·.id) := by
      rw [← hids]
      exact List.mem_map_of_mem hrun
    exact Or.inl (List.mem_map.mp hmem)

variable (policy) in
theorem exec_issued (hsound : system.Sound) (op : Op) :
    ∀ claim ∈ (system.exec policy op).issued, claim ∈ system.issued ∨
      ∃ o, (system.exec policy op).db.1.obligation claim.jobId = some o ∧ o.Held claim := by
  intro claim hclaim
  cases op with
  | claimNext request =>
    simp only [System.exec, List.mem_append] at hclaim ⊢
    refine hclaim.imp_right fun hnew => ?_
    rcases Tx.run_cases (claimNext policy request) system.db with
      ⟨outcome, db', hcommits, hrun⟩ | ⟨abort, hrun⟩
    · rw [commit, hrun]
      have hrules : ∀ job ∈ claimCandidate system.db.1 policy request,
          (system.discipline policy (.claimNext request) job.id).polled :=
        fun job hjob => ⟨request, rfl, job, hjob, rfl⟩
      have hissued := (claim_refines hsound.obligations hrules hcommits).2
      cases outcome with
      | none => simp [hrun, claimedHandle] at hnew
      | some handle =>
        simp only [hrun, claimedHandle, List.mem_singleton] at hnew
        exact hissued claim (hnew ▸ rfl)
    · simp [hrun, claimedHandle] at hnew
  | worker other action now =>
    simp only [System.exec] at hclaim
    split at hclaim <;> exact Or.inl hclaim
  | submit | insertRunAndJob | reclaim | cancelRun | approval | closeLegacy | configure =>
    exact Or.inl hclaim

variable (policy) in
theorem exec_sound (hsound : system.Sound) (op : Op) : (system.exec policy op).Sound where
  obligations jobId o ho :=
    (exec_refines policy hsound op jobId).sound
      (fun o ho => hsound.obligations jobId o ho) o ho
  held claim hclaim := by
    rcases exec_issued policy hsound op claim hclaim with hold | hnew
    · obtain ⟨o, ho, hheld⟩ := hsound.held claim hold
      obtain ⟨o', ho', hlater⟩ := exec_history policy hsound op ho
      exact ⟨o', ho', hheld.later hlater⟩
    · exact hnew
  rooted run hrun := by
    rcases exec_runs policy hsound op run hrun with ⟨old, hold, hid⟩ | hnew
    · obtain ⟨job, hjob, hbehind⟩ := hsound.rooted old hold
      obtain ⟨o, ho, rfl⟩ := exists_obligation hjob
      obtain ⟨o', ho', hlater⟩ := exec_history policy hsound op ho
      exact ⟨o'.job, (Table.find_eq_some.mp (obligation_job ho')).1,
        hlater.job.runId.trans (hbehind.trans hid)⟩
    · exact hnew

end Operations

variable {policy : QueuePolicy} {system : System}

theorem init_obligation (jobId : Nat) :
    (engine policy).init.db.1.obligation jobId = none :=
  rfl

theorem init_sound : (engine policy).init.Sound where
  obligations _ _ ho := nomatch ho
  held _ hclaim := nomatch hclaim
  rooted _ hrun := nomatch hrun

theorem reachable_sound (h : (engine policy).Reachable system) : system.Sound :=
  h.invariant init_sound fun _ op hsound => exec_sound policy hsound op

variable (policy) in
theorem run_sound (hsound : system.Sound) (ops : List Op) :
    ((engine policy).run ops system).Sound :=
  Machine.run_invariant (M := engine policy) (I := System.Sound)
    (fun _ op hsound => exec_sound policy hsound op) hsound ops

variable (policy) in
theorem run_history (hsound : system.Sound) (ops : List Op) {jobId : Nat} {o : Obligation}
    (ho : system.db.1.obligation jobId = some o) :
    ∃ o', ((engine policy).run ops system).db.1.obligation jobId = some o' ∧ History o o' := by
  induction ops generalizing system o with
  | nil => exact ⟨o, ho, History.refl o⟩
  | cons op rest ih =>
    obtain ⟨o₁, ho₁, hlater₁⟩ := exec_history policy hsound op ho
    obtain ⟨o₂, ho₂, hlater₂⟩ := ih (exec_sound policy hsound op) ho₁
    exact ⟨o₂, ho₂, hlater₁.trans hlater₂⟩

theorem along_keeps {ok : System → Op → Prop} {Q : Obligation → Prop}
    (hsubmitted : ∀ o, Submitted o → Q o)
    (hstep : ∀ {system op jobId o o'}, ok system op →
      Step (system.discipline policy op jobId) op.now o o' → o.Sound → Q o → Q o')
    (h : (engine policy).ReachableAlong ok system) :
    ∀ jobId o, system.db.1.obligation jobId = some o → o.Sound ∧ Q o := by
  have hboth : system.Sound ∧ ∀ jobId o, system.db.1.obligation jobId = some o → Q o := by
    refine h.invariant (I := fun system => system.Sound ∧
      ∀ jobId o, system.db.1.obligation jobId = some o → Q o)
      ⟨init_sound, fun jobId o ho => ?_⟩ ?_
    · rw [init_obligation] at ho
      cases ho
    rintro system op ⟨hsound, hkept⟩ hok
    refine ⟨exec_sound policy hsound op, fun jobId => ?_⟩
    refine (exec_refines policy hsound op jobId).keeps hsubmitted (hstep hok) ?_
    exact fun o ho => ⟨hsound.obligations jobId o ho, hkept jobId o ho⟩
  exact fun jobId o ho => ⟨hboth.1.obligations jobId o ho, hboth.2 jobId o ho⟩

end NervOS
