/-
The mediator of one tool call: permission, approval, the start boundary, the executor and the
settlement, each fenced write a transaction of its own, with anything else in between.
-/
import NervOS.Database.ToolInvocations
import NervOS.Relational.Machine

namespace NervOS

open Relational

/-- What one call is invoked with.  `argumentsValid` is what the tool's schema says of the
arguments; `approval` is there when the call is gated. -/
structure MediatorInput where
  claim : ClaimedAttempt
  request : InvocationRequest
  argumentsValid : Bool
  approval : Option ApprovalRequest

/-- The approval that the call must have: only an MCP action is gated. -/
def MediatorInput.gated (input : MediatorInput) : Option ApprovalRequest :=
  match input.request.sourceKind with
  | .mcp => input.approval
  | .builtin => none

inductive ExecutorOutcome where
  | result (envelope : ResultEnvelope)
  | failure (reason message : String)
  | unknown
  | timeout
  | exception
  | cancelled
deriving DecidableEq

/-- NervOS cannot know what the call did. -/
def ExecutorOutcome.EffectUnknown : ExecutorOutcome → Prop
  | .unknown | .timeout | .cancelled => True
  | .result _ | .failure _ _ | .exception => False

instance : DecidablePred ExecutorOutcome.EffectUnknown
  | .unknown | .timeout | .cancelled => isTrue trivial
  | .result _ | .failure _ _ | .exception => isFalse id

/-- What `invoke` returns to the loop. -/
inductive ToolInvocationOutcome where
  | succeeded (envelope : ResultEnvelope)
  | failed (message : String)
  | denied
  | invalidArguments
deriving DecidableEq

/-- How `invoke` ends. -/
inductive MediatorEnding where
  | returned (outcome : ToolInvocationOutcome)
  | raised (errorCode : String)
  | propagated
deriving DecidableEq

/-- The settlement of a call that the executor ended. -/
inductive Settlement where
  | succeeded (envelope : ResultEnvelope)
  | failed (message : String)
  | exception
  | ambiguous
deriving DecidableEq

/-- `MAX_DURABLE_ERROR_MESSAGE_CHARS`. -/
def maxDurableErrorMessageChars : Nat := 512

def durableErrorMessage (errorCode message : String) : String :=
  if 1 ≤ message.length ∧ message.length ≤ maxDurableErrorMessageChars then message
  else safeErrorMessage errorCode

def Settlement.status : Settlement → InvocationStatus
  | .succeeded _ => .succeeded
  | .failed _ | .exception => .failed
  | .ambiguous => .ambiguous

def Settlement.mark (claim : ClaimedAttempt) (invocationId : Nat) (reason : String)
    (now : Instant) : Settlement → Connection Bool
  | .succeeded envelope => markSucceeded claim invocationId envelope now
  | .failed message =>
    markFailed claim invocationId reason (durableErrorMessage reason message) now
  | .exception => markFailed claim invocationId reason (safeErrorMessage reason) now
  | .ambiguous => markAmbiguous claim invocationId reason (safeErrorMessage reason) now

/-- How `invoke` ends behind that write, accepted or refused. -/
def Settlement.ending : Settlement → Bool → MediatorEnding
  | .succeeded envelope, true => .returned (.succeeded envelope)
  | .failed message, true => .returned (.failed message)
  | .succeeded _, false | .failed _, false | .exception, _ => .raised internalExecutionError
  | .ambiguous, _ => .raised toolOutcomeUnknown

/-- Where `invoke` stands: before each of its reads, writes and waits. -/
inductive MediatorPhase where
  | validated
  | recording (decision : PermissionDecision)
  | denying (invocationId : Nat) (decision : PermissionDecision) (unavailable : Bool)
  | admitting (invocationId : Nat)
  | waiting (invocationId : Nat)
  | withdrawing (invocationId : Nat)
  | starting (invocationId : Nat)
  | executing (invocationId : Nat)
  | settling (invocationId : Nat) (reason : String) (settlement : Settlement)
  | ended (ending : MediatorEnding)
deriving DecidableEq

/-- Where a recorded call goes: a gated one asks for its approval first. -/
def MediatorInput.dispatch (input : MediatorInput) (invocationId : Nat) :
    PermissionDecision → MediatorPhase
  | .denied reason => .denying invocationId (.denied reason) false
  | .allowed =>
    match input.gated with
    | some _ => .admitting invocationId
    | none => .starting invocationId

/-- One step: something else commits, a port answers, the next write of `invoke` is tried or is
found unavailable, the executor ends, or the task is cancelled at an await. -/
inductive MediatorOp where
  | environment (db : Database)
  | permission (decision : PermissionDecision)
  | admission (answer : ApprovalAdmission)
  | write (now : Instant)
  | unavailable
  | executed (outcome : ExecutorOutcome)
  | cancelled

/-- The mediator and the database.  The last seven are history variables: the invocation that
was recorded, those for which the executor was entered, the row that the start left, what the
executor did, the status that the settlement wrote, the row when `invoke` returned, and the event
of a refusal. -/
structure MediatorSystem where
  db : Database
  phase : MediatorPhase
  invocation : Option Nat := none
  entered : List Nat := []
  started : Option ToolInvocationRecord := none
  effect : Option ExecutorOutcome := none
  written : Option InvocationStatus := none
  settled : Option ToolInvocationRecord := none
  refusal : Option RunEventRecord := none

/-- `_fenced`: a lost fence is a refusal, any other failure is an exception. -/
def fencedResult : Except (Abort PersistenceError) Bool → Option Bool
  | .ok result => some result
  | .error (.raised .fenced) | .error (.raised .eventOwnershipViolation) => some false
  | .error _ => none

/-- `mark_started` maps a lost fence to its fenced outcome. -/
def startResult : Except (Abort PersistenceError) StartOutcome → Option StartOutcome
  | .ok outcome => some outcome
  | .error (.raised .fenced) | .error (.raised .eventOwnershipViolation) => some .fenced
  | .error _ => none

namespace MediatorSystem

variable (input : MediatorInput) (system : MediatorSystem)

def finish (db : Database) (ending : MediatorEnding) : MediatorSystem :=
  { system with db, phase := .ended ending }

/-- Return an outcome about a call, whose row is looked up for the record. -/
def returnOutcome (db : Database) (invocationId : Nat) (outcome : ToolInvocationOutcome) :
    MediatorSystem :=
  { system with
    db
    phase := .ended (.returned outcome)
    settled := db.1.toolInvocations.find invocationId }

def refuse (now : Instant) : MediatorSystem :=
  match (recordPreDispatchRefusal input.claim now).run system.db with
  | (.ok .recorded, db) =>
    { system with
      db
      phase := .ended (.returned .invalidArguments)
      refusal := db.1.runEvents.rows.getLast? }
  | (.ok .cancelled, db) => system.finish db (.raised executionCancelled)
  | (.ok .fenced, db) => system.finish db (.raised internalExecutionError)
  | (.error _, db) => system.finish db .propagated

def record (decision : PermissionDecision) (now : Instant) : MediatorSystem :=
  match (recordRequested input.claim
      { input.request with permissionDecision := decision } now).run system.db with
  | (.ok (.requested invocationId), db) =>
    { system with
      db, phase := input.dispatch invocationId decision, invocation := some invocationId }
  | (.ok .fenced, db) => system.finish db (.raised internalExecutionError)
  | (.error _, db) => system.finish db .propagated

/-- `mark_denied`; whether it was refused is not looked at. -/
def deny (invocationId : Nat) (decision : PermissionDecision) (unavailable : Bool)
    (now : Instant) : MediatorSystem :=
  let written := (markDenied input.claim invocationId decision now).run system.db
  match fencedResult written.1 with
  | none => system.finish written.2 .propagated
  | some _ =>
    if unavailable then system.finish written.2 (.raised internalExecutionError)
    else system.returnOutcome written.2 invocationId .denied

/-- What the gate's answer leads to. -/
def afterAdmission (invocationId : Nat) : ApprovalAdmission → MediatorPhase
  | .approved => .starting invocationId
  | .requested => .waiting invocationId
  | .refused => .denying invocationId (.denied .hardPolicyDenied) false
  | .unavailable => .denying invocationId (.denied .hardPolicyDenied) true

def start (invocationId : Nat) (now : Instant) : MediatorSystem :=
  let written := (markStarted input.claim invocationId input.gated now).run system.db
  match startResult written.1 with
  | none => system.finish written.2 .propagated
  | some .fenced => system.finish written.2 (.raised internalExecutionError)
  | some (.cancelled _) => system.finish written.2 (.raised executionCancelled)
  | some (.denied _ _) => system.returnOutcome written.2 invocationId .denied
  | some (.started _) =>
    { system with
      db := written.2
      phase := .executing invocationId
      entered := system.entered ++ [invocationId]
      started := written.2.1.toolInvocations.find invocationId }

def conclude (invocationId : Nat) : ExecutorOutcome → MediatorPhase
  | .result envelope => .settling invocationId "" (.succeeded envelope)
  | .failure reason message => .settling invocationId reason (.failed message)
  | .exception => .settling invocationId internalExecutionError .exception
  | .unknown | .timeout => .settling invocationId toolOutcomeUnknown .ambiguous
  | .cancelled => .ended .propagated

def settle (invocationId : Nat) (reason : String) (settlement : Settlement) (now : Instant) :
    MediatorSystem :=
  let marked := (settlement.mark input.claim invocationId reason now).run system.db
  match fencedResult marked.1 with
  | none => system.finish marked.2 .propagated
  | some accepted =>
    { system with
      db := marked.2
      phase := .ended (settlement.ending accepted)
      written := if accepted then some settlement.status else none
      settled := marked.2.1.toolInvocations.find invocationId }

/-- The next write of `invoke`. -/
def write (now : Instant) : MediatorSystem :=
  match system.phase with
  | .validated => if input.argumentsValid then system else system.refuse input now
  | .recording decision => system.record input decision now
  | .denying invocationId decision unavailable =>
    system.deny input invocationId decision unavailable now
  | .withdrawing invocationId =>
    system.finish ((markCancelled input.claim invocationId now).run system.db).2 .propagated
  | .starting invocationId => system.start input invocationId now
  | .settling invocationId reason settlement =>
    system.settle input invocationId reason settlement now
  | .admitting _ | .waiting _ | .executing _ | .ended _ => system

def exec (op : MediatorOp) : MediatorSystem :=
  match op, system.phase with
  | .environment db, _ => { system with db }
  | .permission decision, .validated =>
    if input.argumentsValid then { system with phase := .recording decision } else system
  | .permission (.denied _), .waiting invocationId =>
    { system with phase := .denying invocationId (.denied .hardPolicyDenied) false }
  | .permission .allowed, .waiting invocationId =>
    { system with phase := .admitting invocationId }
  | .admission answer, .admitting invocationId =>
    { system with phase := afterAdmission invocationId answer }
  | .cancelled, .waiting invocationId => { system with phase := .withdrawing invocationId }
  | .executed outcome, .executing invocationId =>
    { system with phase := conclude invocationId outcome, effect := some outcome }
  | .cancelled, .executing _ =>
    { system with phase := .ended .propagated, effect := some .cancelled }
  | .unavailable, .ended _ => system
  | .unavailable, _ => { system with phase := .ended .propagated }
  | .write now, _ => system.write input now
  | _, _ => system

end MediatorSystem

/-- Every run of one `invoke`, from a database. -/
def mediator (input : MediatorInput) (db : Database) : Machine MediatorSystem MediatorOp where
  init := { db, phase := .validated }
  exec op system := system.exec input op

end NervOS
