/-
What goes through: updates that keep a row's keys leave no foreign key dangling, and
the rows that a reclamation writes pass their CHECKs.
-/
import NervOS.Database.Reclamation

namespace NervOS

open Relational

section References

variable {ρ : Type} [Record ρ] {t t' : Table ρ} {p : ρ → Prop} [DecidablePred p] {f : ρ → ρ}

theorem isSome_find_update (h : t.update? p f = some t') (hkey : ∀ row, key (f row) = key row)
    {id : Nat} (hfind : (t.find id).isSome) : (t'.find id).isSome := by
  rw [Table.find_update h hkey, Option.isSome_map]
  exact hfind

theorem forall_column_update {β : Type} {column : ρ → β} {P : β → Prop}
    (h : t.update? p f = some t') (hkeep : ∀ row, column (f row) = column row)
    (hall : ∀ row ∈ t.rows, P (column row)) : ∀ row ∈ t'.rows, P (column row) := by
  intro row' hrow'
  rw [(Table.update?_rows h).1] at hrow'
  obtain ⟨row, hrow, rfl⟩ := List.mem_map.mp hrow'
  rw [Table.amend_column hkeep]
  exact hall row hrow

variable {db : Tables}

theorem Tables.References.updateJobs (h : db.References) {p : JobRecord → Prop}
    [DecidablePred p] {f : JobRecord → JobRecord} {t : Table JobRecord}
    (ht : db.jobs.update? p f = some t) (hid : ∀ job, (f job).id = job.id)
    (hrun : ∀ job, (f job).runId = job.runId)
    (hagent : ∀ job, (f job).agentInstanceId = job.agentInstanceId) :
    Tables.References { db with jobs := t } where
  __ := h
  jobRun := forall_column_update (P := fun id => (db.runs.find id).isSome) ht hrun h.jobRun
  jobAgent :=
    forall_column_update (P := fun id => (db.configuration.agentInstance? id).isSome) ht hagent
      h.jobAgent
  attemptJob attempt hattempt := isSome_find_update ht hid (h.attemptJob attempt hattempt)
  eventJob event hevent := isSome_find_update ht hid (h.eventJob event hevent)
  invocationJob call hcall := isSome_find_update ht hid (h.invocationJob call hcall)
  approvalJob approval happroval :=
    isSome_find_update ht hid (h.approvalJob approval happroval)

theorem Tables.References.updateRuns (h : db.References) {p : RunRecord → Prop}
    [DecidablePred p] {f : RunRecord → RunRecord} {t : Table RunRecord}
    (ht : db.runs.update? p f = some t) (hid : ∀ run, (f run).id = run.id)
    (hagent : ∀ run, (f run).agentInstanceId = run.agentInstanceId) :
    Tables.References { db with runs := t } where
  __ := h
  runAgent :=
    forall_column_update (P := fun id => (db.configuration.agentInstance? id).isSome) ht hagent
      h.runAgent
  jobRun job hjob := isSome_find_update ht hid (h.jobRun job hjob)
  eventRun event hevent := isSome_find_update ht hid (h.eventRun event hevent)
  invocationRun call hcall := isSome_find_update ht hid (h.invocationRun call hcall)
  approvalRun approval happroval :=
    isSome_find_update ht hid (h.approvalRun approval happroval)

theorem Tables.References.updateAttempts (h : db.References) {p : JobAttemptRecord → Prop}
    [DecidablePred p] {f : JobAttemptRecord → JobAttemptRecord} {t : Table JobAttemptRecord}
    (ht : db.jobAttempts.update? p f = some t) (hid : ∀ attempt, (f attempt).id = attempt.id)
    (hjob : ∀ attempt, (f attempt).jobId = attempt.jobId) :
    Tables.References { db with jobAttempts := t } where
  __ := h
  attemptJob :=
    forall_column_update (P := fun id => (db.jobs.find id).isSome) ht hjob h.attemptJob
  eventAttempt event hevent id hattempt :=
    isSome_find_update ht hid (h.eventAttempt event hevent id hattempt)
  invocationAttempt call hcall := isSome_find_update ht hid (h.invocationAttempt call hcall)
  approvalAttempt approval happroval :=
    isSome_find_update ht hid (h.approvalAttempt approval happroval)

/-- The columns of a call that reference other rows. -/
structure SameParents (call call' : ToolInvocationRecord) : Prop where
  id : call'.id = call.id
  runId : call'.runId = call.runId
  jobId : call'.jobId = call.jobId
  attemptId : call'.attemptId = call.attemptId
  toolDefinitionId : call'.toolDefinitionId = call.toolDefinitionId

theorem Tables.References.updateCalls (h : db.References) {p : ToolInvocationRecord → Prop}
    [DecidablePred p] {f : ToolInvocationRecord → ToolInvocationRecord}
    {t : Table ToolInvocationRecord} (ht : db.toolInvocations.update? p f = some t)
    (hsame : ∀ call, SameParents call (f call)) :
    Tables.References { db with toolInvocations := t } where
  __ := h
  eventInvocation event hevent id hcall :=
    isSome_find_update ht (fun call => (hsame call).id) (h.eventInvocation event hevent id hcall)
  invocationRun :=
    forall_column_update (P := fun id => (db.runs.find id).isSome) ht
      (fun call => (hsame call).runId) h.invocationRun
  invocationJob :=
    forall_column_update (P := fun id => (db.jobs.find id).isSome) ht
      (fun call => (hsame call).jobId) h.invocationJob
  invocationAttempt :=
    forall_column_update (P := fun id => (db.jobAttempts.find id).isSome) ht
      (fun call => (hsame call).attemptId) h.invocationAttempt
  invocationDefinition :=
    forall_column_update (P := fun id => (db.configuration.toolDefinition? id).isSome) ht
      (fun call => (hsame call).toolDefinitionId) h.invocationDefinition

theorem Tables.References.insertEvent (h : db.References) {event : RunEventRecord}
    {t : Table RunEventRecord} (ht : db.runEvents.insert? event.withId = some t)
    (hrun : (db.runs.find event.runId).isSome) (hjob : (db.jobs.find event.jobId).isSome)
    (hattempt : ∀ id ∈ event.attemptId, (db.jobAttempts.find id).isSome)
    (hcall : ∀ id ∈ event.toolInvocationId, (db.toolInvocations.find id).isSome) :
    Tables.References { db with runEvents := t } := by
  have hrows : ∀ {P : RunEventRecord → Prop}, (∀ other ∈ db.runEvents.rows, P other) →
      P (event.withId db.runEvents.next) → ∀ other ∈ t.rows, P other := by
    intro P hold hnew other hother
    rw [(Table.insert?_rows ht).1] at hother
    rcases List.mem_append.mp hother with hmem | hmem
    · exact hold other hmem
    · rw [List.mem_singleton.mp hmem]
      exact hnew
  exact {
    h with
    eventRun := hrows h.eventRun hrun
    eventJob := hrows h.eventJob hjob
    eventAttempt := hrows h.eventAttempt hattempt
    eventInvocation := hrows h.eventInvocation hcall }

end References

variable {now : Instant} {code : String}

theorem forall_mem_some {α : Type} {P : α → Prop} {value : α} (h : P value) :
    ∀ other ∈ some value, P other := by
  intro other hother
  rwa [← Option.mem_some.mp hother]

theorem safeErrorMessage_bounds (code : String) : LengthBetween 1 512 (safeErrorMessage code) :=
  validateErrorMessage_bounds (safeErrorMessage_valid code)

theorem errorBounds_safe (hcode : LengthBetween 1 64 code) :
    ErrorBounds (some code) (some (safeErrorMessage code)) :=
  forall_mem_some ⟨hcode, forall_mem_some (safeErrorMessage_bounds code)⟩

theorem paired_some (code message : String) : Paired (some code) (some message) :=
  rfl

theorem errorBounds_none : ErrorBounds none none :=
  nofun

theorem safeErrorMessage_hasText (code : String) :
    (some (safeErrorMessage code)).any (HasText ·) = true :=
  decide_eq_true (validateErrorMessage_hasText (safeErrorMessage_valid code))

theorem workerRecoveryExhausted_bounds : LengthBetween 1 64 workerRecoveryExhausted := by
  decide +kernel

theorem executionOutcomeAmbiguous_bounds : LengthBetween 1 64 executionOutcomeAmbiguous := by
  decide +kernel

theorem executionOutcomeAmbiguous_ne : executionOutcomeAmbiguous ≠ workerRecoveryExhausted := by
  decide

theorem toolOutcomeUnknown_bounds : LengthBetween 1 64 toolOutcomeUnknown := by
  decide +kernel

theorem JobRecord.fail_check {job : JobRecord} (h : job.Check) (hcreated : job.createdAt ≤ now)
    (hcode : LengthBetween 1 64 code) :
    (job.fail code (safeErrorMessage code) now).Check where
  attemptBounds := h.attemptBounds
  modelProviderShape := h.modelProviderShape
  claimShape := Or.inl ⟨rfl, rfl, rfl, rfl⟩
  errorPair := rfl
  errorBounds := errorBounds_safe hcode
  timestampOrder :=
    ⟨hcreated, h.timestampOrder.2.1, forall_mem_some hcreated, h.timestampOrder.2.2.2⟩
  terminalFinish := iff_of_true trivial (Option.some_ne_none now)
  terminalError := iff_of_true (Or.inl rfl) (Option.some_ne_none code)
  cancelledRequest hcancelled := nomatch hcancelled

theorem JobRecord.requeue_check {job : JobRecord} {backoff : Duration} (h : job.Check)
    (hcreated : job.createdAt ≤ now) (hbackoff : 0 ≤ backoff) :
    (job.requeue now backoff).Check where
  attemptBounds := h.attemptBounds
  modelProviderShape := h.modelProviderShape
  claimShape := Or.inl ⟨rfl, rfl, rfl, rfl⟩
  errorPair := rfl
  errorBounds := nofun
  timestampOrder :=
    ⟨hcreated, Int.le_trans hcreated (Int.le_add_of_nonneg_right hbackoff), nofun,
      h.timestampOrder.2.2.2⟩
  terminalFinish := iff_of_false (fun hterminal => hterminal) fun hfinished => hfinished rfl
  terminalError := iff_of_false nofun fun herror => herror rfl
  cancelledRequest hcancelled := nomatch hcancelled

theorem JobAttemptRecord.expire_check {attempt : JobAttemptRecord} {code message : Option String}
    (disposition : RetryDisposition) (h : attempt.Check)
    (hbegan : attempt.executionStartedAt.getD attempt.claimedAt ≤ now)
    (hpair : Paired code message) (hbounds : ErrorBounds code message) :
    (attempt.expire disposition code message now).Check where
  attemptNumberPositive := h.attemptNumberPositive
  ownerShape := h.ownerShape
  leaseOrder := h.leaseOrder
  startOrder := h.startOrder
  finishOrder := forall_mem_some hbegan
  errorPair := hpair
  errorBounds := hbounds
  terminalFinish := iff_of_true (fun hactive => hactive) (Option.some_ne_none now)
  activeShape hactive := hactive.elim
  claimedShape hclaimed := nomatch hclaimed
  runningShape hrunning := nomatch hrunning
  failureDisposition _ := Option.some_ne_none disposition
  successShape hsucceeded := nomatch hsucceeded

theorem RunRecord.exhaust_check {run : RunRecord} (h : run.Check) (hopen : run.status = .created)
    (hcreated : run.createdAt ≤ now) : (run.exhaust now).Check := by
  have hshape := h.lifecycleShape
  rw [RunRecord.LifecycleShape, hopen] at hshape
  obtain ⟨hstarted, -, houtput, hreason, -, -, husage, helapsed⟩ := hshape
  have hcode : ∀ code ∈ (run.exhaust now).errorCode, code = workerRecoveryExhausted :=
    forall_mem_some rfl
  exact {
    agentInstancePositive := h.agentInstancePositive
    inputBounds := h.inputBounds
    outputBounds := h.outputBounds
    elapsedNonnegative := h.elapsedNonnegative
    startedOrder := h.startedOrder
    finishedOrder := forall_mem_some (Or.inr ⟨hstarted, hcreated, Or.inl hcode⟩)
    lifecycleShape := Or.inr ⟨hstarted, Option.some_ne_none now, houtput, hreason, hcode,
      safeErrorMessage_hasText _, husage,
      helapsed⟩ }

theorem elapsedMsSince_nonneg (startedAt : Option Instant) (now : Instant) :
    0 ≤ elapsedMsSince startedAt now := by
  cases startedAt with
  | none => exact Int.le_refl 0
  | some started => exact Int.le_max_left ..

theorem RunRecord.closeAmbiguous_check {run : RunRecord} (h : run.Check)
    (hrunning : run.status = .running) (hstarted : ∀ started ∈ run.startedAt, started ≤ now) :
    (run.closeAmbiguous now).Check := by
  have hshape := h.lifecycleShape
  rw [RunRecord.LifecycleShape, hrunning] at hshape
  obtain ⟨hbegan, -, houtput, hreason, -⟩ := hshape
  obtain ⟨started, hfirst⟩ := Option.ne_none_iff_exists'.mp hbegan
  exact {
    agentInstancePositive := h.agentInstancePositive
    inputBounds := h.inputBounds
    outputBounds := h.outputBounds
    elapsedNonnegative := forall_mem_some (elapsedMsSince_nonneg run.startedAt now)
    startedOrder := h.startedOrder
    finishedOrder := forall_mem_some (Or.inl ⟨started, hfirst, hstarted started hfirst⟩)
    lifecycleShape := Or.inl ⟨hbegan, Option.some_ne_none now, houtput, hreason,
      decide_eq_true executionOutcomeAmbiguous_ne, safeErrorMessage_hasText _,
      Option.some_ne_none _⟩ }

theorem ToolInvocationRecord.abandon_check {call : ToolInvocationRecord} (h : call.Check)
    (hopen : call.status.IsOpen) (hbegan : call.startedAt.getD call.requestedAt ≤ now) :
    (call.abandon call.status now).Check := by
  have hresult := h.resultShape
  have hdispatched := h.dispatchedShape
  unfold ToolInvocationRecord.abandon
  cases hstatus : call.status with
  | requested =>
    rw [hstatus] at hresult hdispatched
    exact {
      toolSequencePositive := h.toolSequencePositive
      sourceShape := h.sourceShape
      upstreamNameShape := h.upstreamNameShape
      modelNameShape := h.modelNameShape
      providerCallIdBounds := h.providerCallIdBounds
      dispatchedShape := hdispatched
      lifecycleShape := iff_of_false (fun hstill => hstill) (Option.some_ne_none now)
      startOrder := h.startOrder
      finishOrder := forall_mem_some hbegan
      resultShape := hresult
      successShape := nofun
      failureError := nofun
      errorPair := h.errorPair
      errorBounds := h.errorBounds }
  | started =>
    rw [hstatus] at hresult hdispatched
    exact {
      toolSequencePositive := h.toolSequencePositive
      sourceShape := h.sourceShape
      upstreamNameShape := h.upstreamNameShape
      modelNameShape := h.modelNameShape
      providerCallIdBounds := h.providerCallIdBounds
      dispatchedShape := hdispatched
      lifecycleShape := iff_of_false (fun hstill => hstill) (Option.some_ne_none now)
      startOrder := h.startOrder
      finishOrder := forall_mem_some hbegan
      resultShape := hresult
      successShape := nofun
      failureError := fun _ => Option.some_ne_none toolOutcomeUnknown
      errorPair := rfl
      errorBounds := errorBounds_safe toolOutcomeUnknown_bounds }
  | denied | succeeded | failed | ambiguous | cancelled =>
    rw [hstatus] at hopen
    exact hopen.elim

end NervOS
