/-
The tool-call vocabulary of the application layer: invocation states, permission
decisions, content digests, and action approvals.
-/
import NervOS.Application.Execution

namespace NervOS

inductive InvocationStatus where
  | requested
  | started
  | succeeded
  | failed
  | cancelled
  | denied
  | ambiguous
deriving DecidableEq, Repr

/-- The call crossed the ambiguity boundary, so it may have had an effect. -/
def InvocationStatus.IsDispatched : InvocationStatus → Prop
  | .started | .succeeded | .failed | .ambiguous => True
  | .requested | .cancelled | .denied => False

instance : DecidablePred InvocationStatus.IsDispatched
  | .started | .succeeded | .failed | .ambiguous => isTrue trivial
  | .requested | .cancelled | .denied => isFalse id

/-- The call has no conclusion yet. -/
def InvocationStatus.IsOpen : InvocationStatus → Prop
  | .requested | .started => True
  | .succeeded | .failed | .cancelled | .denied | .ambiguous => False

instance : DecidablePred InvocationStatus.IsOpen
  | .requested | .started => isTrue trivial
  | .succeeded | .failed | .cancelled | .denied | .ambiguous => isFalse id

inductive ToolSourceKind where
  | builtin
  | mcp
deriving DecidableEq, Repr

inductive DefinitionStatus where
  | available
  | unavailable
  | unsupportedSchema
deriving DecidableEq, Repr

inductive Digest where
  | text (content : String)
  | action (toolDefinitionId : Nat) (upstreamName : String) (fingerprint : Digest)
deriving DecidableEq

structure Arguments where
  canonicalText : String
deriving DecidableEq

def argumentsDigest (arguments : Arguments) : Digest :=
  .text arguments.canonicalText

def inputDigest (arguments : Arguments) : Digest :=
  .text arguments.canonicalText

def actionFingerprint (toolDefinitionId : Nat) (upstreamName : String)
    (fingerprint : Digest) : Digest :=
  .action toolDefinitionId upstreamName fingerprint

inductive PermissionDenialReason where
  | notGranted
  | grantAfterRunCutoff
  | definitionChanged
  | definitionUnavailable
  | connectionDisabled
  | ownerMismatch
  | hardPolicyDenied
deriving DecidableEq, Repr

inductive PermissionDecision where
  | allowed
  | denied (reason : PermissionDenialReason)
deriving DecidableEq, Repr

structure ResultEnvelope where
  digest : Digest
  bytes : Nat
deriving DecidableEq

/-- Everything that a requested call carries before it has a durable id. -/
structure InvocationRequest where
  runId : Nat
  jobId : Nat
  attemptId : Nat
  toolSequence : Nat
  toolDefinitionId : Nat
  sourceKind : ToolSourceKind
  sourceId : Option Nat
  upstreamName : String
  modelName : String
  definitionFingerprint : Digest
  providerCallId : String
  permissionDecision : PermissionDecision
  arguments : Arguments
deriving DecidableEq

inductive RecordOutcome where
  | requested (invocationId : Nat)
  | fenced
deriving DecidableEq, Repr

inductive StartOutcome where
  | started (invocationId : Nat)
  | denied (invocationId : Nat) (decision : PermissionDecision)
  | cancelled (invocationId : Nat)
  | fenced
deriving DecidableEq, Repr

inductive RefusalOutcome where
  | recorded
  | cancelled
  | fenced
deriving DecidableEq, Repr

inductive ApprovalState where
  | pending
  | approved
  | consumed
  | denied
  | expired
  | cancelled
  | revoked
deriving DecidableEq, Repr

/-- The owner may still decide it, or a dispatch may still consume it. -/
def ApprovalState.IsOpen (state : ApprovalState) : Prop :=
  state = .pending ∨ state = .approved

instance : DecidablePred ApprovalState.IsOpen := fun state =>
  inferInstanceAs (Decidable (state = .pending ∨ state = .approved))

def defaultExpirySeconds : Int := 15 * 60
def minExpirySeconds : Int := 60
def maxExpirySeconds : Int := 24 * 60 * 60

theorem defaultExpiry_bounds :
    minExpirySeconds ≤ defaultExpirySeconds ∧ defaultExpirySeconds ≤ maxExpirySeconds := by
  decide

/-- Everything that one durable approval binds; there is no owner field, because
ownership is resolved from durable rows. -/
structure ApprovalRequest where
  agentInstanceId : Nat
  runId : Nat
  jobId : Nat
  attemptId : Nat
  toolSequence : Nat
  toolDefinitionId : Nat
  upstreamName : String
  fingerprint : Digest
  arguments : Arguments
  expiresInSeconds : Int := defaultExpirySeconds
  positive : 0 < toolSequence := by decide
  expiryBounds : minExpirySeconds ≤ expiresInSeconds ∧
    expiresInSeconds ≤ maxExpirySeconds := by decide
deriving DecidableEq

inductive ApprovalAdmission where
  | approved
  | requested
  | refused
  | unavailable
deriving DecidableEq, Repr

inductive ConsumeOutcome where
  | consumed
  | unavailable
deriving DecidableEq, Repr

end NervOS
