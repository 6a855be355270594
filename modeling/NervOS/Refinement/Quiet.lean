/-
What no operation takes back: a closed Run stays as it is, and outside of a start no
approval moves and no gated call starts.
-/
import NervOS.Relational.Evolution
import NervOS.Refinement.Approvals
import NervOS.Engine

namespace NervOS

open Relational

/-- The columns of a Run that no transition writes. -/
def RunRecord.frozen (run : RunRecord) : RunRecord :=
  { run with
    status := .created
    outputText := none
    finishReason := none
    errorCode := none
    errorMessage := none
    usage := {}
    elapsedMs := none
    startedAt := none
    finishedAt := none }

/-- A Run keeps what it was submitted with, and a closed one stays as it is. -/
structure RunMoves (run run' : RunRecord) : Prop where
  frozen : run'.frozen = run.frozen
  closed : run.status.IsTerminal → run' = run

instance : Std.Refl RunMoves where
  refl _ := ⟨rfl, fun _ => rfl⟩

instance : IsTrans RunRecord RunMoves where
  trans a b c h h' := by
    refine ⟨h'.frozen.trans h.frozen, fun hclosed => ?_⟩
    have hb : b = a := h.closed hclosed
    subst hb
    exact h'.closed hclosed

theorem RunMoves.column {β : Type} {run run' : RunRecord} (h : RunMoves run run')
    (column : RunRecord → β) (hcolumn : ∀ run, column run.frozen = column run) :
    column run' = column run := by
  rw [← hcolumn run', ← hcolumn run, h.frozen]

/-- The Runs of a database are only submitted, moved and closed. -/
def RunsMove (runs runs' : Table RunRecord) : Prop :=
  runs.Evolves RunMoves (·.status = .created) runs'

/-- The columns of a call that no transition writes. -/
def ToolInvocationRecord.identity (call : ToolInvocationRecord) : ToolInvocationRecord :=
  { call with
    status := .requested
    permissionDecision := .allowed
    startedAt := none
    finishedAt := none
    resultDigest := none
    resultBytes := none
    resultTruncated := none
    errorCode := none
    errorMessage := none }

def ToolInvocationRecord.GatedStart (call : ToolInvocationRecord) : Prop :=
  call.sourceKind = .mcp ∧ call.startedAt ≠ none

instance : DecidablePred ToolInvocationRecord.GatedStart := fun _ =>
  inferInstanceAs (Decidable (_ ∧ _))

structure CallKept (call call' : ToolInvocationRecord) : Prop where
  identity : call'.identity = call.identity
  startedAt : call.sourceKind = .mcp → call'.startedAt = call.startedAt

instance : Std.Refl CallKept where
  refl _ := ⟨rfl, fun _ => rfl⟩

variable {call call' : ToolInvocationRecord}

theorem ToolInvocationRecord.sourceKind_of_identity (h : call'.identity = call.identity) :
    call'.sourceKind = call.sourceKind :=
  congrArg (·.sourceKind) h

instance : IsTrans ToolInvocationRecord CallKept where
  trans _ _ _ h h' := by
    refine ⟨h'.identity.trans h.identity, fun hkind => ?_⟩
    have hkind' := (ToolInvocationRecord.sourceKind_of_identity h.identity).trans hkind
    rw [h'.startedAt hkind', h.startedAt hkind]

theorem CallKept.gatedStart_iff (h : CallKept call call') :
    call'.GatedStart ↔ call.GatedStart := by
  have hkind := ToolInvocationRecord.sourceKind_of_identity h.identity
  constructor
  · rintro ⟨hmcp, hstarted⟩
    rw [hkind] at hmcp
    exact ⟨hmcp, h.startedAt hmcp ▸ hstarted⟩
  · rintro ⟨hmcp, hstarted⟩
    exact ⟨hkind.trans hmcp, by rwa [h.startedAt hmcp]⟩

structure Undispatched (db db' : Tables) : Prop where
  approvals : db'.actionApprovals = db.actionApprovals
  calls : db.toolInvocations.Evolves CallKept (·.startedAt = none) db'.toolInvocations

instance : Std.Refl Undispatched where
  refl _ := ⟨rfl, .refl _⟩

instance : IsTrans Tables Undispatched where
  trans _ _ _ h h' := ⟨h'.approvals.trans h.approvals, h.calls.trans h'.calls⟩

theorem Undispatched.of_frame {db db' : Tables}
    (happrovals : db'.actionApprovals = db.actionApprovals)
    (hcalls : db'.toolInvocations = db.toolInvocations) : Undispatched db db' :=
  ⟨happrovals, hcalls ▸ .refl _⟩

structure Quiet (db db' : Tables) : Prop extends Undispatched db db' where
  runs : RunsMove db.runs db'.runs
  configuration : db'.configuration = db.configuration

instance : Std.Refl Quiet where
  refl _ := ⟨Std.Refl.refl _, .refl _, rfl⟩

instance : IsTrans Tables Quiet where
  trans _ _ _ h h' :=
    ⟨IsTrans.trans _ _ _ h.toUndispatched h'.toUndispatched, h.runs.trans h'.runs,
      h'.configuration.trans h.configuration⟩

theorem Quiet.of_frame {db db' : Tables}
    (happrovals : db'.actionApprovals = db.actionApprovals)
    (hcalls : db'.toolInvocations = db.toolInvocations) (hruns : db'.runs = db.runs)
    (hconfiguration : db'.configuration = db.configuration) : Quiet db db' :=
  ⟨.of_frame happrovals hcalls, hruns ▸ .refl _, hconfiguration⟩

/-- The table of `ρ` rows holds neither approvals nor calls nor Runs. -/
class Apart (ρ : Type) [Record ρ] [HasTable Tables ρ] : Prop where
  quiet : ∀ (t : Table ρ) (db : Tables), Quiet db (setTable t db)

instance : Apart JobRecord where
  quiet _ _ := .of_frame rfl rfl rfl rfl

instance : Apart JobAttemptRecord where
  quiet _ _ := .of_frame rfl rfl rfl rfl

instance : Apart RunEventRecord where
  quiet _ _ := .of_frame rfl rfl rfl rfl

section Rules

variable {ρ : Type} [Record ρ] [HasTable Tables ρ] [Apart ρ] {p : ρ → Prop}
  [DecidablePred p] {f : ρ → ρ}

theorem update_quiet : Tx.Preserves Quiet (Tx.update p f : Connection Nat) :=
  .update fun _ _ _ => Apart.quiet _ _

theorem updateOne_quiet {error : PersistenceError} :
    Tx.Preserves Quiet (Tx.updateOne error p f : Connection Unit) :=
  .updateOne fun _ _ _ => Apart.quiet _ _

theorem insert_quiet {row : Nat → ρ} :
    Tx.Preserves Quiet (Tx.insert row : Connection Nat) :=
  .insert fun _ _ _ => Apart.quiet _ _

end Rules

section RunRules

variable {p : RunRecord → Prop} [DecidablePred p] {f : RunRecord → RunRecord}

theorem runs_updated (hopen : ∀ run, p run → ¬ run.status.IsTerminal)
    (hfrozen : ∀ run, (f run).frozen = run.frozen) (db : Tables) {t : Table RunRecord}
    (h : db.runs.update? p f = some t) : Quiet db { db with runs := t } := by
  refine ⟨.of_frame rfl rfl, .of_update h ?_ ?_, rfl⟩
  · intro run
    exact congrArg (·.id) (hfrozen run)
  · intro run _ hp
    exact ⟨hfrozen run, fun hclosed => absurd hclosed (hopen run hp)⟩

theorem updateRuns_quiet (hopen : ∀ run, p run → ¬ run.status.IsTerminal)
    (hfrozen : ∀ run, (f run).frozen = run.frozen) :
    Tx.Preserves Quiet (Tx.update p f : Connection Nat) :=
  .update fun db _ => runs_updated hopen hfrozen db

theorem updateRun_quiet {error : PersistenceError}
    (hopen : ∀ run, p run → ¬ run.status.IsTerminal)
    (hfrozen : ∀ run, (f run).frozen = run.frozen) :
    Tx.Preserves Quiet (Tx.updateOne error p f : Connection Unit) :=
  .updateOne fun db _ => runs_updated hopen hfrozen db

theorem insertRun_quiet {row : Nat → RunRecord} (hid : ∀ id, (row id).id = id)
    (hcreated : ∀ id, (row id).status = .created) :
    Tx.Preserves Quiet (Tx.insert row : Connection Nat) := by
  apply Tx.Preserves.insert
  intro db t' ht'
  exact ⟨.of_frame rfl rfl, .of_insert ht' hid hcreated, rfl⟩

theorem not_terminal_of_eq {status status' : RunStatus} (h : status = status')
    (hopen : ¬ status'.IsTerminal) : ¬ status.IsTerminal := by
  rwa [h]

end RunRules

variable {move : ToolInvocationRecord → ToolInvocationRecord}

theorem moveUpdate_quiet {p : ToolInvocationRecord → Prop} [DecidablePred p]
    {error : PersistenceError} (hid : ∀ call, (move call).id = call.id)
    (hmove : ∀ call, p call → CallKept call (move call)) :
    Tx.Preserves Quiet (Tx.updateOne error p move : Connection Unit) := by
  apply Tx.Preserves.updateOne
  intro store t' ht'
  exact ⟨⟨rfl, .of_update ht' hid fun call _ => hmove call⟩, .refl _, rfl⟩

theorem appendEvent_quiet (event : RunEventRecord) :
    Tx.Preserves Quiet (appendEventOnConnection event) := by
  intro db value db' h
  obtain ⟨-, t', -, hdb'⟩ := commits_appendEvent.mp h
  rw [hdb']
  exact Apart.quiet t' db.1

variable {claim : ClaimedAttempt} {now : Instant} {eventType : RunEventType}

theorem appendToolEvent_quiet {invocationId : Option Nat} {code message : Option String} :
    Tx.Preserves Quiet (appendToolEvent claim invocationId eventType now code message) := by
  apply Tx.Preserves.query_bind
  intro base
  apply appendEvent_quiet

theorem startOnce_quiet : Tx.Preserves Quiet (startOnce claim now) := by
  apply Tx.Preserves.bind updateOne_quiet
  intro _
  apply Tx.Preserves.bind updateOne_quiet
  intro _
  refine .bind (updateRuns_quiet (fun _ hp => not_terminal_of_eq hp.1.2 id) fun _ => rfl) ?_
  intro started
  apply Tx.Preserves.query_bind
  intro executing
  apply Tx.Preserves.require_bind
  intro _
  apply Tx.Preserves.query_bind
  intro base
  apply appendEvent_quiet

theorem renewLease_quiet {leaseDuration : Duration} :
    Tx.Preserves Quiet (renewLease claim now leaseDuration) := by
  apply Tx.Preserves.bind updateOne_quiet
  intro _
  apply updateOne_quiet

theorem succeed_quiet {completion : Completion} :
    Tx.Preserves Quiet (succeed claim completion now) := by
  apply Tx.Preserves.bind updateOne_quiet
  intro _
  apply Tx.Preserves.bind updateOne_quiet
  intro _
  refine .bind (updateRun_quiet (fun _ hp => not_terminal_of_eq hp.2 id) fun _ => rfl) ?_
  intro _
  apply Tx.Preserves.ofExcept_bind
  intro _
  apply Tx.Preserves.query_bind
  intro base
  apply appendEvent_quiet

variable {failure : Failure}

theorem closeTerminal_quiet :
    Tx.Preserves Quiet (closeTerminalOnConnection claim failure now) := by
  apply Tx.Preserves.bind updateOne_quiet
  intro _
  refine .bind (updateRun_quiet (fun _ hp => not_terminal_of_eq hp.2 id) fun _ => rfl) ?_
  intro _
  apply Tx.Preserves.query_bind
  intro base
  apply Tx.Preserves.bind (appendEvent_quiet _)
  intro _
  apply appendEvent_quiet

theorem fail_quiet :
    Tx.Preserves Quiet (fail claim failure now) := by
  apply Tx.Preserves.require_bind
  intro _
  apply Tx.Preserves.bind updateOne_quiet
  intro _
  apply closeTerminal_quiet

theorem recordFailure_quiet {anchorAt : Instant} {policy : RetryPolicy} :
    Tx.Preserves Quiet (recordFailure claim failure anchorAt policy now) := by
  apply Tx.Preserves.require_bind
  intro _
  apply Tx.Preserves.bind updateOne_quiet
  intro _
  apply Tx.Preserves.query_bind
  intro row
  apply Tx.Preserves.ofExcept_bind
  intro job
  apply Tx.Preserves.query_bind
  intro dispatched
  apply Tx.Preserves.ite
  · apply Tx.Preserves.bind
    · apply Tx.Preserves.query_bind
      intro ordinal
      apply Tx.Preserves.bind updateOne_quiet
      intro _
      apply Tx.Preserves.query_bind
      intro executing
      apply Tx.Preserves.require_bind
      intro _
      apply Tx.Preserves.query_bind
      intro base
      apply Tx.Preserves.bind (appendEvent_quiet _)
      intro _
      apply appendEvent_quiet
    · intro _
      apply Tx.Preserves.pure
  · apply Tx.Preserves.bind closeTerminal_quiet
    intro _
    apply Tx.Preserves.pure

theorem persistAttemptUsage_quiet {usage : ModelUsage} :
    Tx.Preserves Quiet (persistAttemptUsage claim usage now) := by
  apply Tx.Preserves.query_bind
  intro current
  apply Tx.Preserves.require_bind
  intro _
  apply updateOne_quiet

theorem recordRequested_quiet {request : InvocationRequest} :
    Tx.Preserves Quiet (recordRequested claim request now) := by
  apply Tx.Preserves.query_bind
  intro authorized
  apply Tx.Preserves.ite
  · apply Tx.Preserves.pure
  · apply Tx.Preserves.bind
    · apply Tx.Preserves.insert
      intro db t' ht'
      exact ⟨⟨rfl, .of_insert ht' (fun _ => rfl) fun _ => rfl⟩, .refl _, rfl⟩
    · intro invocationId
      apply Tx.Preserves.bind appendToolEvent_quiet
      intro _
      apply Tx.Preserves.pure

variable {invocationId : Nat}

theorem moveCall_quiet {source : InvocationStatus} {append : Connection Unit}
    (hid : ∀ call, (move call).id = call.id) (hmove : ∀ call, CallKept call (move call))
    (happend : Tx.Preserves Quiet append) :
    Tx.Preserves Quiet (moveCall claim invocationId source move append now) := by
  apply Tx.Preserves.query_bind
  intro authorized
  apply Tx.Preserves.ite
  · apply Tx.Preserves.pure
  · apply Tx.Preserves.bind (moveUpdate_quiet hid fun call _ => hmove call)
    intro _
    apply Tx.Preserves.bind happend
    intro _
    apply Tx.Preserves.pure

theorem markDenied_quiet {decision : PermissionDecision} :
    Tx.Preserves Quiet (markDenied claim invocationId decision now) := by
  apply moveCall_quiet
  · exact fun _ => rfl
  · exact fun _ => ⟨rfl, fun _ => rfl⟩
  · apply appendToolEvent_quiet

theorem markCancelled_quiet :
    Tx.Preserves Quiet (markCancelled claim invocationId now) := by
  apply moveCall_quiet
  · exact fun _ => rfl
  · exact fun _ => ⟨rfl, fun _ => rfl⟩
  · apply Tx.Preserves.pure

theorem markSucceeded_quiet {envelope : ResultEnvelope} :
    Tx.Preserves Quiet (markSucceeded claim invocationId envelope now) := by
  apply moveCall_quiet
  · exact fun _ => rfl
  · exact fun _ => ⟨rfl, fun _ => rfl⟩
  · apply appendToolEvent_quiet

variable {errorCode errorMessage : String}

theorem markFailed_quiet :
    Tx.Preserves Quiet (markFailed claim invocationId errorCode errorMessage now) := by
  apply moveCall_quiet
  · exact fun _ => rfl
  · exact fun _ => ⟨rfl, fun _ => rfl⟩
  · apply appendToolEvent_quiet

theorem markAmbiguous_quiet :
    Tx.Preserves Quiet (markAmbiguous claim invocationId errorCode errorMessage now) := by
  apply moveCall_quiet
  · exact fun _ => rfl
  · exact fun _ => ⟨rfl, fun _ => rfl⟩
  · apply appendToolEvent_quiet

theorem refusal_quiet :
    Tx.Preserves Quiet (recordPreDispatchRefusal claim now) := by
  apply Tx.Preserves.query_bind
  intro live
  apply Tx.Preserves.query_bind
  intro cancelled
  apply Tx.Preserves.ite
  · apply Tx.Preserves.pure
  · apply Tx.Preserves.ite
    · apply Tx.Preserves.pure
    · apply Tx.Preserves.bind appendToolEvent_quiet
      intro _
      apply Tx.Preserves.pure

variable {submission : Submission}

theorem insertRunAndJob_quiet :
    Tx.Preserves Quiet (insertRunAndJobOnConnection submission) := by
  apply Tx.Preserves.query_bind
  intro named
  apply Tx.Preserves.ofExcept_bind
  intro instanceRow
  apply Tx.Preserves.query_bind
  intro pending
  apply Tx.Preserves.require_bind
  intro _
  apply Tx.Preserves.query_bind
  intro agentPending
  apply Tx.Preserves.require_bind
  intro _
  apply Tx.Preserves.query_bind
  intro providerPending
  apply Tx.Preserves.require_bind
  intro _
  apply Tx.Preserves.query_bind
  intro cutoff
  apply Tx.Preserves.ofExcept_bind
  intro inputText
  refine .bind (insertRun_quiet (fun _ => rfl) fun _ => rfl) ?_
  intro runId
  apply Tx.Preserves.bind insert_quiet
  intro jobId
  apply Tx.Preserves.bind (appendEvent_quiet _)
  intro _
  apply Tx.Preserves.bind (appendEvent_quiet _)
  intro _
  apply Tx.Preserves.pure

theorem submit_quiet {inputText : String} :
    Tx.Preserves Quiet (submit inputText submission) := by
  apply Tx.Preserves.require_bind
  intro _
  apply Tx.Preserves.require_bind
  intro _
  apply Tx.Preserves.require_bind
  intro _
  apply insertRunAndJob_quiet

theorem claimNext_quiet {policy : QueuePolicy} {request : ClaimRequest} :
    Tx.Preserves Quiet (claimNext policy request) := by
  apply Tx.Preserves.query_bind
  intro candidate
  cases candidate with
  | none => apply Tx.Preserves.pure
  | some job =>
    apply Tx.Preserves.bind
    · apply Tx.Preserves.bind updateOne_quiet
      intro _
      apply Tx.Preserves.bind insert_quiet
      intro attemptId
      apply Tx.Preserves.bind
      · apply Tx.Preserves.write
        intro db db' h
        obtain rfl := Option.some.inj h
        exact .of_frame rfl rfl rfl rfl
      · intro _
        apply Tx.Preserves.query_bind
        intro base
        apply Tx.Preserves.bind (appendEvent_quiet _)
        intro _
        apply Tx.Preserves.pure
    · intro claimed
      apply Tx.Preserves.pure

theorem abandon_kept (status : InvocationStatus) (call : ToolInvocationRecord) :
    CallKept call (call.abandon status now) := by
  unfold ToolInvocationRecord.abandon
  split
  · exact ⟨rfl, fun _ => rfl⟩
  · exact ⟨rfl, fun _ => rfl⟩

theorem abandonCalls_quiet {attemptId : Nat} (rows : List ToolInvocationRecord) :
    Tx.Preserves Quiet (abandonCalls attemptId now rows) := by
  induction rows with
  | nil => apply Tx.Preserves.pure
  | cons seen rest ih =>
    apply Tx.Preserves.bind
    · apply moveUpdate_quiet
      · intro call
        unfold ToolInvocationRecord.abandon
        split <;> rfl
      · exact fun call _ => abandon_kept seen.status call
    · intro _
      apply Tx.Preserves.bind ih
      intro ambiguous
      apply Tx.Preserves.pure

theorem reconcileAbandoned_quiet {attemptId : Nat} :
    Tx.Preserves Quiet (reconcileAbandonedToolInvocations attemptId now) := by
  apply Tx.Preserves.query_bind
  intro rows
  apply abandonCalls_quiet

theorem appendAmbiguous_quiet {template : RunEventRecord} (ids : List Nat)
    (sequence : Nat) :
    Tx.Preserves Quiet (appendAmbiguousCalls template ids sequence) := by
  induction ids generalizing sequence with
  | nil => apply Tx.Preserves.pure
  | cons invocationId rest ih =>
    apply Tx.Preserves.bind (appendEvent_quiet _)
    intro _
    apply ih

theorem recoveryEvents_quiet {expired : ExpiredClaim} {base : Nat} :
    Tx.Preserves Quiet (appendRecoveryEvents expired now base eventType) := by
  apply Tx.Preserves.bind (appendEvent_quiet _)
  intro _
  apply appendEvent_quiet

theorem reclaim_quiet {backoff : Duration} :
    Tx.Preserves Quiet (reclaimNextExpiredClaim now backoff) := by
  apply Tx.Preserves.query_bind
  intro candidate
  cases candidate with
  | none => apply Tx.Preserves.pure
  | some expired =>
    apply Tx.Preserves.bind
    · apply Tx.Preserves.ite
      · apply Tx.Preserves.ite
        · apply Tx.Preserves.bind updateOne_quiet
          intro _
          apply Tx.Preserves.bind updateOne_quiet
          intro _
          apply Tx.Preserves.query_bind
          intro base
          apply Tx.Preserves.bind recoveryEvents_quiet
          intro _
          apply Tx.Preserves.pure
        · apply Tx.Preserves.bind updateOne_quiet
          intro _
          apply Tx.Preserves.bind updateOne_quiet
          intro _
          refine .bind (updateRun_quiet (fun _ hp => not_terminal_of_eq hp.2.1 id)
            fun _ => rfl) ?_
          intro _
          apply Tx.Preserves.query_bind
          intro base
          apply Tx.Preserves.bind recoveryEvents_quiet
          intro _
          apply Tx.Preserves.bind (appendEvent_quiet _)
          intro _
          apply Tx.Preserves.pure
      · apply Tx.Preserves.bind updateOne_quiet
        intro _
        apply Tx.Preserves.bind updateOne_quiet
        intro _
        refine .bind (updateRun_quiet (fun _ hp => not_terminal_of_eq hp.2.1 id)
          fun _ => rfl) ?_
        intro _
        apply Tx.Preserves.bind reconcileAbandoned_quiet
        intro ambiguousCalls
        apply Tx.Preserves.query_bind
        intro base
        apply Tx.Preserves.bind recoveryEvents_quiet
        intro _
        apply Tx.Preserves.bind (appendAmbiguous_quiet _ _)
        intro next
        apply Tx.Preserves.bind (appendEvent_quiet _)
        intro _
        apply Tx.Preserves.pure
    · intro reclaimed
      apply Tx.Preserves.pure

theorem cancelOnConnection_quiet {run : RunRecord} {job : JobRecord}
    (hopen : ¬ run.status.IsTerminal) :
    Tx.Preserves Quiet (cancelOnConnection run job now) := by
  apply Tx.Preserves.bind update_quiet
  intro _
  apply Tx.Preserves.query_bind
  intro active
  have hattempt : Tx.Preserves Quiet (cancelActiveAttempt job.id active now) := by
    cases active with
    | none => apply Tx.Preserves.pure
    | some attempt => apply updateOne_quiet
  have hcalls : Tx.Preserves Quiet (reconcileActiveAttempt active now) := by
    cases active with
    | none => apply Tx.Preserves.pure
    | some attempt => apply reconcileAbandoned_quiet
  apply Tx.Preserves.bind hattempt
  intro _
  apply Tx.Preserves.bind updateOne_quiet
  intro _
  refine .bind (updateRun_quiet (fun _ hp => not_terminal_of_eq hp.2 hopen)
    fun _ => rfl) ?_
  intro _
  apply Tx.Preserves.bind hcalls
  intro ambiguousCalls
  apply Tx.Preserves.query_bind
  intro base
  apply Tx.Preserves.bind (appendEvent_quiet _)
  intro _
  apply Tx.Preserves.bind (appendAmbiguous_quiet _ _)
  intro next
  apply appendEvent_quiet

theorem cancelRun_quiet {userId runId : Nat} :
    Tx.Preserves Quiet (cancelRun userId runId now) := by
  intro db outcome db' h
  rcases commits_cancelRun h with rfl | ⟨run, job, -, hopen, -, hcancel⟩
  · exact Std.Refl.refl _
  · exact cancelOnConnection_quiet hopen _ _ _ hcancel

theorem closeLegacy_quiet :
    Tx.Preserves Quiet (closeLegacyNonterminalRuns now) := by
  apply Tx.Preserves.query_bind
  intro candidates
  exact updateRuns_quiet (fun _ hp => not_terminal_of_eq hp.2 id) fun _ => rfl

theorem commit_quiet {α : Type} {x : Connection α} (h : Tx.Preserves Quiet x)
    (db : Database) : Quiet db.1 (commit x db).1 := by
  rcases commit_cases x db with ⟨value, hcommits⟩ | hsame
  · exact h _ _ _ hcommits
  · rw [hsame]
    exact Std.Refl.refl _

theorem commit_configure (configuration : Configuration) (db : Database) :
    (commit (configure configuration) db).1 = db.1 ∨
      (commit (configure configuration) db).1 = { db.1 with configuration := configuration } := by
  rcases commit_cases (configure configuration) db with ⟨value, hcommits⟩ | hsame
  · simp only [configure, Tx.commits_write, Option.some.injEq] at hcommits
    exact Or.inr hcommits.symm
  · exact Or.inl (by rw [hsame])

theorem worker_quiet {action : WorkerAction} (db : Database)
    (hstart : ∀ invocationId approval, action ≠ .markStarted invocationId approval) :
    Quiet db.1 (runWorkerAction claim now action db).1 := by
  cases action with
  | startAttempt => exact commit_quiet startOnce_quiet db
  | renewLease leaseDuration => exact commit_quiet renewLease_quiet db
  | succeed completion => exact commit_quiet succeed_quiet db
  | fail failure => exact commit_quiet fail_quiet db
  | recordFailure failure anchorAt policy =>
    exact commit_quiet recordFailure_quiet db
  | persistAttemptUsage usage => exact commit_quiet persistAttemptUsage_quiet db
  | recordRequested request => exact commit_quiet recordRequested_quiet db
  | markStarted invocationId approval => exact absurd rfl (hstart invocationId approval)
  | recordPreDispatchRefusal => exact commit_quiet refusal_quiet db
  | markDenied invocationId decision => exact commit_quiet markDenied_quiet db
  | markCancelled invocationId => exact commit_quiet markCancelled_quiet db
  | markSucceeded invocationId envelope =>
    exact commit_quiet markSucceeded_quiet db
  | markFailed invocationId errorCode errorMessage =>
    exact commit_quiet markFailed_quiet db
  | markAmbiguous invocationId errorCode errorMessage =>
    exact commit_quiet markAmbiguous_quiet db

end NervOS
