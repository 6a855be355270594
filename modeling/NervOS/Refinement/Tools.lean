/-
The tool-call transactions refine the protocol: a Worker moves only the open calls
of the Attempt that it executes.
-/
import NervOS.Database.ToolInvocations
import NervOS.Refinement.Execution

namespace NervOS

open Relational

variable {claim : ClaimedAttempt} {now : Instant} {db db' : Database} {o : Obligation}
  {rules : Nat → Discipline}

theorem authorityRows_eq_some {db : Tables} {attempt : JobAttemptRecord} {job : JobRecord}
    (h : db.authorityRows claim = some (attempt, job)) :
    db.jobAttempts.find claim.attemptId = some attempt ∧
      db.jobs.find attempt.jobId = some job ∧ attempt.jobId = claim.jobId ∧
      claim.HoldsJob .running job := by
  simp only [Tables.authorityRows, Option.bind_eq_some_iff, Option.ite_none_right_eq_some,
    Option.some.injEq, Prod.mk.injEq] at h
  obtain ⟨_, hattempt, _, hjob, ⟨howner, -, -, -, hholds⟩, rfl, rfl⟩ := h
  exact ⟨hattempt, hjob, howner, hholds⟩

structure Obligation.Works (o : Obligation) (claim : ClaimedAttempt) : Prop where
  running : o.job.status = .running
  attempt : ∃ attempt ∈ o.attempts, attempt.id = claim.attemptId ∧
    attempt.status.IsActive ∧ attempt.executionStartedAt ≠ none

theorem live_works (ho : db.1.obligation claim.jobId = some o) (h : Live db.1 claim now) :
    o.Works claim := by
  obtain ⟨⟨attempt, job⟩, hrows, hrunning, hstarted, -⟩ := h
  obtain ⟨hattempt, hjob, howner, hholds⟩ := authorityRows_eq_some hrows
  rw [howner, obligation_job ho] at hjob
  obtain rfl := Option.some.inj hjob
  obtain ⟨hrow, hid⟩ := Table.find_eq_some.mp hattempt
  refine ⟨hholds.2.1, attempt, (mem_attempts ho).mpr ⟨hrow, howner⟩, hid, ?_, hstarted⟩
  rw [hrunning]
  trivial

theorem ConsumesApproval.local {P : Obligation → Prop} (h : ConsumesApproval db db') :
    Local P db db' := by
  rcases h with rfl | ⟨approvalId, now, hupdates⟩
  · exact Local.refl _
  · exact Local.approvals hupdates

theorem ConsumesApproval.obligation (h : ConsumesApproval db db') (jobId : Nat) :
    db'.1.obligation jobId = db.1.obligation jobId := by
  rcases h with rfl | ⟨approvalId, now, hupdates⟩
  · rfl
  · exact obligation_updateApprovals hupdates jobId

theorem callsMove_of_fence (hworks : o.Works claim) (invocationId : Nat)
    {source : InvocationStatus} (hopen : source.IsOpen)
    {move : ToolInvocationRecord → ToolInvocationRecord}
    (hmove : ∀ call, SameCall call (move call)) :
    CallsMove o.attempts o.calls
      (o.calls.map (Table.amend (claim.HoldsCall invocationId source) move)) := by
  obtain ⟨attempt, hattempt, hid, hactive, -⟩ := hworks.attempt
  refine forall₂_amend fun call _ => ?_
  by_cases hp : claim.HoldsCall invocationId source call
  · rw [Table.amend_of_pos hp]
    refine ⟨hmove call, Or.inr ⟨?_, attempt, hattempt, hid.trans hp.2.1.symm, hactive⟩⟩
    rw [hp.2.2]
    exact hopen
  · rw [Table.amend_of_neg hp]
    exact ⟨SameCall.refl call, Or.inl rfl⟩

theorem keepsAuthority (attempts : List JobAttemptRecord) :
    AttemptsMove KeepsAuthority attempts attempts :=
  (AttemptsMove.refl attempts).mono fun attempt attempt' heq => by
    rw [heq]
    exact ⟨rfl, rfl, rfl⟩

section

variable (hsound : AllSound db) (ho : db.1.obligation claim.jobId = some o) (hheld : o.Held claim)

include hsound ho hheld

theorem callMoved_advances {db₁ : Database} (hlive : Live db.1 claim now)
    (hconsumes : ConsumesApproval db db₁) (h : CallMoved claim now db₁ db') :
    Advances rules now db db' := by
  obtain ⟨invocationId, source, move, db₂, hopen, hmove, hupdates, hevent⟩ := h
  have hworks := live_works ho hlive
  have ho₁ : db₁.1.obligation claim.jobId = some o := by rw [hconsumes.obligation, ho]
  have ho₂ := calls_updated ho₁ hupdates fun call => (hmove call).2.2.1
  have hcalls := callsMove_of_fence hworks invocationId hopen fun call =>
    ⟨(hmove call).1, (hmove call).2.1, (hmove call).2.2.1, (hmove call).2.2.2⟩
  have hlocal : Local claim.Spares db db₂ :=
    hconsumes.local.trans <|
      Local.ofCalls hupdates (fun call => (hmove call).2.2.1) fun _ hp => hp.2.1
  rcases hevent with rfl | ⟨eventType, hordinary, _, _, _, hinsert⟩
  · exact Advances.of_held hsound ho hheld hlocal ho₂ (Step.working hworks.running
      (keepsAuthority _) hcalls (List.forall_mem_nil _) (Appends.nil o.timeline))
  · obtain ⟨timeline', htold, ho'⟩ := event_told ho₂ hinsert hheld.run.symm
      (Appends.nil o.timeline) (by rw [← timeline_eq ho₂ hheld.run]; rfl)
    exact Advances.of_held hsound ho hheld (hlocal.trans (Local.ofEvent hinsert rfl)) ho'
      (Step.working hworks.running (keepsAuthority _) hcalls
        (List.forall_mem_singleton.mpr hordinary) htold)

theorem markStarted_advances {invocationId : Nat} {approval : Option ApprovalRequest}
    {outcome : StartOutcome}
    (h : (markStarted claim invocationId approval now).Commits db outcome db') :
    Advances rules now db db' := by
  rcases commits_markStarted h with rfl | ⟨hlive, db₁, hconsumes, hmoved⟩
  · exact Advances.refl _
  · exact callMoved_advances hsound ho hheld hlive hconsumes hmoved

theorem recordRequested_advances {request : InvocationRequest} {outcome : RecordOutcome}
    (h : (recordRequested claim request now).Commits db outcome db') :
    Advances rules now db db' := by
  rcases commits_recordRequested h with rfl | ⟨db₁, hauthorized, hrun, hjob, hattempt,
    hinsert, _, _, _, hevent⟩
  · exact Advances.refl _
  · have hworks := live_works ho hauthorized.1
    have ho₁ := obligation_insertCall hinsert claim.jobId
    rw [ho, Option.map_some, if_pos (show (request.row now _).jobId = claim.jobId from hjob)]
      at ho₁
    obtain ⟨timeline', htold, ho'⟩ := event_told ho₁ hevent hheld.run.symm
      (Appends.nil o.timeline) (by rw [← timeline_eq ho₁ hheld.run]; rfl)
    have hlocal : Local claim.Spares db db' :=
      (Local.call hinsert fun other hP _ howns => hP.job (howns.symm.trans hjob)).trans <|
        Local.ofEvent hevent rfl
    obtain ⟨attempt, hmem, hid, hactive, hstarted⟩ := hworks.attempt
    refine Advances.of_held hsound ho hheld hlocal ho' (Step.work hworks.running
      (keepsAuthority _) (CallsMove.refl _ _) ?_ (List.forall_mem_singleton.mpr
        (show ¬ RunEventType.toolRequested.IsTerminal by decide)) htold)
    intro call hcall
    rw [List.mem_singleton.mp hcall]
    exact ⟨rfl, hrun.trans hheld.run.symm, attempt, hmem, hid.trans hattempt.symm, hactive,
      hstarted⟩

theorem refusal_advances {outcome : RefusalOutcome}
    (h : (recordPreDispatchRefusal claim now).Commits db outcome db') :
    Advances rules now db db' := by
  rcases commits_recordPreDispatchRefusal h with rfl | ⟨hlive, _, _, _, hevent⟩
  · exact Advances.refl _
  · have hworks := live_works ho hlive
    obtain ⟨timeline', htold, ho'⟩ := event_told ho hevent hheld.run.symm
      (Appends.nil o.timeline) (by rw [← timeline_eq ho hheld.run]; rfl)
    exact Advances.of_held hsound ho hheld (Local.ofEvent hevent rfl) ho'
      (Step.working hworks.running (keepsAuthority _) (CallsMove.refl _ _)
        (List.forall_mem_singleton.mpr (show ¬ RunEventType.toolDenied.IsTerminal by decide))
        htold)

end

end NervOS
