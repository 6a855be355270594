/-
The durable execution vocabulary: Job, Attempt and Run Event states, and the installation states of
package versions and of their environments.
-/
import Mathlib.Tactic.Common

namespace NervOS

/-- Microseconds since the epoch; every stored datetime is UTC. -/
abbrev Instant := Int

/-- Microseconds. -/
abbrev Duration := Int

inductive JobStatus where
  | queued
  | claimed
  | running
  | retryWait
  | succeeded
  | failed
  | cancelled
deriving DecidableEq, Repr

inductive AttemptStatus where
  | claimed
  | running
  | succeeded
  | failed
  | cancelled
  | expired
deriving DecidableEq, Repr

inductive RetryDisposition where
  | safeToRetry
  | doNotRetry
  | ambiguous
deriving DecidableEq, Repr

inductive RunEventType where
  | runCreated
  | runQueued
  | attemptClaimed
  | attemptStarted
  | attemptFailed
  | attemptExpired
  | retryScheduled
  | cancellationRequested
  | runCancelled
  | runSucceeded
  | runFailed
  | recoveryPreStart
  | recoveryAmbiguous
  | toolRequested
  | toolStarted
  | toolSucceeded
  | toolFailed
  | toolDenied
  | toolAmbiguous
  | toolApprovalRequested
  | toolApprovalDecided
deriving DecidableEq, Repr

def JobStatus.IsTerminal : JobStatus → Prop
  | .succeeded | .failed | .cancelled => True
  | .queued | .claimed | .running | .retryWait => False

instance : DecidablePred JobStatus.IsTerminal
  | .succeeded | .failed | .cancelled => isTrue trivial
  | .queued | .claimed | .running | .retryWait => isFalse id

/-- A Job in one of these states occupies execution concurrency while its lease
is live. -/
def JobStatus.IsActive : JobStatus → Prop
  | .claimed | .running => True
  | .queued | .retryWait | .succeeded | .failed | .cancelled => False

instance : DecidablePred JobStatus.IsActive
  | .claimed | .running => isTrue trivial
  | .queued | .retryWait | .succeeded | .failed | .cancelled => isFalse id

/-- An Attempt in one of these states still carries execution authority. -/
def AttemptStatus.IsActive : AttemptStatus → Prop
  | .claimed | .running => True
  | .succeeded | .failed | .cancelled | .expired => False

instance : DecidablePred AttemptStatus.IsActive
  | .claimed | .running => isTrue trivial
  | .succeeded | .failed | .cancelled | .expired => isFalse id

def RunEventType.IsTerminal (type : RunEventType) : Prop :=
  type = .runSucceeded ∨ type = .runFailed ∨ type = .runCancelled

instance : DecidablePred RunEventType.IsTerminal := fun _ =>
  inferInstanceAs (Decidable (_ ∨ _ ∨ _))

/-- 32 random bytes, drawn afresh for each claim. -/
abbrev ClaimToken := BitVec 256

inductive PackageInstallStatus where
  | installing
  | installed
  | active
  | failed
  | pendingRemoval
  | removed
deriving DecidableEq, Repr

inductive PackageEnvironmentStatus where
  | preparing
  | ready
  | failed
deriving DecidableEq, Repr

inductive RunExecutionKind where
  | builtin
  | package
deriving DecidableEq, Repr

end NervOS
