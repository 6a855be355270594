/-
The execution vocabulary of the application layer: persistable codes and their
static messages, retry dispositions and delays, the queue policy, and the claim
handle that a Worker holds.
-/
import Mathlib.Algebra.Group.Int.Defs
import NervOS.Domain.Jobs
import NervOS.Domain.Runs

namespace NervOS

def modelAuthenticationFailed : String := "model_authentication_failed"
def modelPermissionDenied : String := "model_permission_denied"
def modelAccountUnavailable : String := "model_account_unavailable"
def modelRateLimited : String := "model_rate_limited"
def modelTimedOut : String := "model_timed_out"
def modelUnavailable : String := "model_unavailable"
def modelRequestRejected : String := "model_request_rejected"
def modelResponseInvalid : String := "model_response_invalid"
def modelOutputIncomplete : String := "model_output_incomplete"
def modelOutputTooLarge : String := "model_output_too_large"
def modelRefused : String := "model_refused"
def internalExecutionError : String := "internal_execution_error"
def sandboxUnavailable : String := "sandbox_unavailable"
def executionOutcomeAmbiguous : String := "execution_outcome_ambiguous"
def executionCancelled : String := "execution_cancelled"
def toolLoopLimit : String := "tool_loop_limit"
def toolOutcomeUnknown : String := "tool_outcome_unknown"
def toolCatalogInvalid : String := "tool_catalog_invalid"
def toolDenied : String := "tool_denied"

def safeErrorMessages : List (String × String) :=
  [(modelAuthenticationFailed, "The model provider rejected its configured credential."),
    (modelPermissionDenied, "The model provider denied access to this request."),
    (modelAccountUnavailable, "The model provider account cannot execute this request."),
    (modelRateLimited, "The model provider is temporarily rate limited."),
    (modelTimedOut, "The model request exceeded its time limit."),
    (modelUnavailable, "The model provider is temporarily unavailable."),
    (modelRequestRejected, "The model provider rejected the request configuration."),
    (modelResponseInvalid, "The model provider returned an unusable response."),
    (modelOutputIncomplete, "The model response ended before completion."),
    (modelOutputTooLarge, "The model response exceeded the configured limit."),
    (modelRefused, "The model could not complete this request."),
    (internalExecutionError, "The model execution failed safely."),
    (sandboxUnavailable, "Package filesystem and network isolation is unavailable; execution was refused."),
    (executionOutcomeAmbiguous, "NervOS could not determine whether this run's model request completed, so it was closed as failed rather than replayed."),
    (workerRecoveryExhausted, "NervOS could not start this run after repeated worker losses, so it was closed without invoking the model."),
    (executionCancelled, "This run was cancelled by its owner and was not executed any further."),
    (toolLoopLimit, "This run reached a configured execution limit before it could be completed."),
    (toolOutcomeUnknown, "NervOS could not determine whether this run's tool call completed, so it was closed as failed rather than replayed."),
    (toolCatalogInvalid, "NervOS could not present this agent's tools within the configured limits, so the run was closed before it reached the model."),
    (toolDenied, "This tool call was refused before it ran.")]

def safeErrorMessage (code : String) : String :=
  (safeErrorMessages.lookup code).getD "The model execution failed safely."

theorem safeErrorMessages_valid :
    ∀ entry ∈ safeErrorMessages, validateErrorMessage entry.2 = true := by
  simp only [safeErrorMessages, List.forall_mem_cons, List.not_mem_nil, false_implies,
    implies_true, and_true]
  refine ⟨?_, ?_, ?_, ?_, ?_, ?_, ?_, ?_, ?_, ?_, ?_, ?_, ?_, ?_, ?_, ?_, ?_, ?_, ?_, ?_⟩ <;>
    exact (validateErrorMessage_ofList _).trans (by decide)

theorem safeErrorMessage_valid (code : String) :
    validateErrorMessage (safeErrorMessage code) = true := by
  unfold safeErrorMessage
  cases hlookup : safeErrorMessages.lookup code with
  | none => exact (validateErrorMessage_ofList _).trans (by decide)
  | some message =>
    obtain ⟨before, after, hsplit, -⟩ := List.lookup_eq_some_iff.mp hlookup
    exact safeErrorMessages_valid (code, message) (by rw [hsplit]; simp)

def dispositionByCode : List (String × RetryDisposition) :=
  [(modelRateLimited, .safeToRetry),
    (modelTimedOut, .ambiguous),
    (modelUnavailable, .ambiguous),
    (internalExecutionError, .ambiguous),
    (modelAuthenticationFailed, .doNotRetry),
    (modelPermissionDenied, .doNotRetry),
    (modelAccountUnavailable, .doNotRetry),
    (modelRequestRejected, .doNotRetry),
    (modelRefused, .doNotRetry),
    (modelResponseInvalid, .doNotRetry),
    (modelOutputIncomplete, .doNotRetry),
    (modelOutputTooLarge, .doNotRetry)]

/-- An unrecognized code is ambiguous, never a claim that replay is safe. -/
def dispositionFor (errorCode : String) : RetryDisposition :=
  (dispositionByCode.lookup errorCode).getD .ambiguous

def minActiveLimit : Nat := 1
def maxActiveLimit : Nat := 64

/-- The authoritative concurrency ceilings that a claim must satisfy. -/
structure QueuePolicy where
  globalActiveLimit : Nat := 4
  perAgentActiveLimit : Nat := 4
  perProviderActiveLimit : Nat := 4
  globalBounds : minActiveLimit ≤ globalActiveLimit ∧
    globalActiveLimit ≤ maxActiveLimit := by decide
  perAgentBounds : minActiveLimit ≤ perAgentActiveLimit ∧
    perAgentActiveLimit ≤ maxActiveLimit := by decide
  perProviderBounds : minActiveLimit ≤ perProviderActiveLimit ∧
    perProviderActiveLimit ≤ maxActiveLimit := by decide

def productionQueuePolicy : QueuePolicy := {}

def seconds (count : Int) : Duration := count * 1000000

def retryBaseDelay : Duration := seconds 1
def retryMaxDelay : Duration := seconds 4
def retryMaxOrdinal : Nat := 10

/-- Any schedule of delays by the 1-based ordinal of a started failure. -/
structure RetryPolicy where
  delay : Nat → Duration

def retryDelay (ordinal : Nat) : Duration :=
  min (retryBaseDelay * 2 ^ (min ordinal retryMaxOrdinal - 1)) retryMaxDelay

def productionRetryPolicy : RetryPolicy := ⟨retryDelay⟩

def retryDueAt (policy : RetryPolicy) (anchorAt : Instant) (ordinal : Nat) : Instant :=
  anchorAt + policy.delay ordinal

/-- The fixed delay before a pre-start expired claim may be claimed again. -/
def reclaimBackoff : Duration := seconds 5

structure ClaimedAttempt where
  jobId : Nat
  runId : Nat
  attemptId : Nat
  attemptNumber : Nat
  workerId : String
  claimToken : ClaimToken
  leaseExpiresAt : Instant
deriving DecidableEq

inductive FailureOutcome where
  | retryScheduled
  | terminalFailed
deriving DecidableEq, Repr

inductive CancellationOutcome where
  | cancelled
  | notCancellable
  | notFound
deriving DecidableEq, Repr

inductive ReclamationKind where
  | preStartRequeued
  | preStartExhausted
  | postStartAmbiguous
deriving DecidableEq, Repr

structure ReclaimedClaim where
  kind : ReclamationKind
  runId : Nat
  jobId : Nat
  attemptId : Nat
  attemptNumber : Nat
deriving DecidableEq, Repr

end NervOS
