/-
Whether an open tool call survives its Attempt.  Cancellation and reclamation
reconcile the calls that they find open; a settlement by the Worker does not look
for them.
-/
import NervOS.Engine.Invariant

namespace NervOS

open Relational

def NoOpenCallSurvives (db : Tables) : Prop :=
  ∀ attempt ∈ db.jobAttempts.rows, ¬ attempt.status.IsActive →
    ∀ call ∈ db.toolInvocations.rows, call.attemptId = attempt.id → ¬ call.status.IsOpen

instance (db : Tables) : Decidable (NoOpenCallSurvives db) :=
  inferInstanceAs (Decidable (∀ attempt ∈ db.jobAttempts.rows, _ →
    ∀ call ∈ db.toolInvocations.rows, _))

variable {policy : QueuePolicy} {system : System}

/-- Along a run whose settlements find no open call, none survives its Attempt. -/
theorem noOpenCallSurvives_of_clean_settlements
    (h : (engine policy).ReachableAlong
      (fun system op => op.SettlesCleanly system.db.1) system) :
    NoOpenCallSurvives system.db.1 := by
  intro attempt hattempt hinactive call hcall howner hopen
  obtain ⟨o, ho, hmem⟩ := exists_obligation_of_call hcall
  obtain ⟨-, htidy⟩ := along_keeps (fun _ hnew => hnew.tidy)
    (fun hok hstep hsound hkept => hstep.tidied hok hsound hkept) h call.jobId o ho
  obtain ⟨active, hactiveMem, hid, hactive⟩ := htidy call hmem hopen
  have hrow := ((mem_attempts ho).mp hactiveMem).1
  rw [Table.eq_of_key_eq hrow hattempt (hid.trans howner)] at hactive
  exact hinactive hactive

def sampleRequest : InvocationRequest where
  runId := 1
  jobId := 1
  attemptId := 1
  toolSequence := 1
  toolDefinitionId := 1
  sourceKind := .builtin
  sourceId := none
  upstreamName := "tool"
  modelName := "tool"
  definitionFingerprint := .text ""
  providerCallId := "call"
  permissionDecision := .allowed
  arguments := ⟨"{}"⟩

/-- The execution deadline: NervOS stopped waiting for the provider. -/
def sampleDeadline : Failure where
  errorCode := modelTimedOut
  errorMessage := "late"
  retryDisposition := .ambiguous
  usage := {}
  elapsedMs := 0

def dispatchedCall : List Op :=
  sampleStart 3 ++
    [.worker (sampleClaim 1 0) (.recordRequested sampleRequest) 2,
      .worker (sampleClaim 1 0) (.markStarted 1 none) 3]

/-- The call concludes before the Attempt does. -/
def concludedCall : List Op :=
  dispatchedCall ++
    [.worker (sampleClaim 1 0) (.markSucceeded 1 ⟨.text "", 0⟩) 4,
      .worker (sampleClaim 1 0) (.succeed sampleCompletion) 5]

def interruptedCall : List Op :=
  dispatchedCall ++
    [.worker (sampleClaim 1 0) (.recordFailure sampleDeadline 4 productionRetryPolicy) 4]

/-- A concluded call is closed when its Attempt is. -/
theorem noOpenCallSurvives_concludedCall :
    (∃ attempt ∈ (sampleRun concludedCall).db.1.jobAttempts.rows,
      attempt.status = .succeeded) ∧
    (∃ call ∈ (sampleRun concludedCall).db.1.toolInvocations.rows, call.attemptId = 1) ∧
      NoOpenCallSurvives (sampleRun concludedCall).db.1 := by
  have halong : (engine productionQueuePolicy).Along
      (fun system op => op.SettlesCleanly system.db.1) concludedCall
      (engine productionQueuePolicy).init := by
    decide +kernel
  refine ⟨by decide +kernel, by decide +kernel, ?_⟩
  exact noOpenCallSurvives_of_clean_settlements ⟨concludedCall, halong, rfl⟩

/-- A call in flight at the deadline stays open behind its failed Attempt. -/
theorem openCall_interruptedCall :
    (engine productionQueuePolicy).Reachable (sampleRun interruptedCall) ∧
      ¬ NoOpenCallSurvives (sampleRun interruptedCall).db.1 :=
  ⟨sampleRun_reachable interruptedCall, by decide +kernel⟩

/-- Each call was made by an Attempt that had started, of the Job and the Run that it names. -/
def CallsAccountable (db : Tables) : Prop :=
  ∀ call ∈ db.toolInvocations.rows, ∃ attempt ∈ db.jobAttempts.rows, ∃ job ∈ db.jobs.rows,
    attempt.id = call.attemptId ∧ attempt.executionStartedAt ≠ none ∧
      attempt.jobId = job.id ∧ job.createdAt ≤ attempt.claimedAt ∧
        call.jobId = job.id ∧ call.runId = job.runId

theorem calls_accountable (policy : QueuePolicy) (ops : List Op) :
    CallsAccountable ((engine policy).run ops (engine policy).init).db.1 := by
  intro call hcall
  obtain ⟨o, ho, hmem⟩ := exists_obligation_of_call hcall
  have hsound := (run_sound policy init_sound ops).obligations _ o ho
  obtain ⟨attempt, hattempt, hid, hstarted⟩ := hsound.called call hmem
  obtain ⟨hjob, hkey⟩ := Table.find_eq_some.mp (obligation_job ho)
  exact ⟨attempt, ((mem_attempts ho).mp hattempt).1, o.job, hjob, hid, hstarted,
    hsound.owned attempt hattempt, hsound.dated.2 attempt hattempt, hkey.symm,
    hsound.reported call hmem⟩

end NervOS
