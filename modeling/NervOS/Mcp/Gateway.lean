/-
The sessions of the MCP gateway: one owner task for each, which opens its client, publishes it
and closes it, and the callers that share them.  Between two awaits nothing else runs, so each
step leads from one await to the next.
-/
import NervOS.Domain.Jobs
import NervOS.Relational.Keyed
import NervOS.Relational.Machine

namespace NervOS

open Relational

/-- Where the owner of a session stands, `_own_session`. -/
inductive OwnerStage where
  | opening
  | abandoning
  | live
  | closing
  | done (raised : Bool)
deriving DecidableEq

/-- The future that the callers of a creation await. -/
inductive Ready where
  | pending
  | session
  | failed
  | cancelled
deriving DecidableEq

structure LiveSession where
  id : Nat
  connectionId : Nat
  stage : OwnerStage := .opening
  ready : Ready := .pending
  closable : Bool := false
  lastUsed : Instant
  bystander : Bool := false
deriving DecidableEq

def LiveSession.isDone (session : LiveSession) : Bool :=
  match session.stage with
  | .done _ => true
  | _ => false

/-- Why a task invalidates: it found the session idle, its call failed, it was asked to, or the
Worker shuts down. -/
inductive Purpose where
  | expiry
  | failure
  | invalidation
  | shutdown
deriving DecidableEq

inductive CallOutcome where
  | refused
  | returned
  | cancelled
  | toolOutcomeUnknown
  | creationFailed
  | closeFailed
deriving DecidableEq

/-- What a task awaits: the future of a creation, the client, or the owner of the session that it
took out of the cache under `newest`, on its way to `target`. -/
inductive TaskStage where
  | waiting (session : Nat)
  | calling (session : Nat)
  | closing (purpose : Purpose) (target : Nat) (concerned : Option Nat) (newest session : Nat)
  | ended (outcome : CallOutcome)
deriving DecidableEq

/-- A task of the gateway, whether its `client.call_tool` raised, and the sessions whose closing
was requested when it began. -/
structure GatewayTask where
  id : Nat
  connectionId : Nat
  stage : TaskStage
  failed : Bool := false
  requested : List Nat := []
deriving DecidableEq

/-- The gateway; `leftOpen` lists, for each `close_all` that returned, what was open then. -/
structure McpGateway where
  now : Instant := 0
  sessions : List (Nat × Nat) := []
  pending : List (Nat × Nat) := []
  owners : List LiveSession := []
  tasks : List GatewayTask := []
  leftOpen : List (List Nat) := []

/-- What `client.call_tool` came to. -/
inductive ToolAnswer where
  | returned
  | raised
  | cancelled
deriving DecidableEq

/-- A call or another task begins, goes on or is cancelled; an owner goes on. -/
inductive GatewayOp where
  | callTool (id connectionId : Nat) (available : Bool)
  | invalidate (id connectionId : Nat)
  | closeAll (id : Nat)
  | answered (id : Nat) (answer : ToolAnswer)
  | resume (id : Nat)
  | cancel (id : Nat)
  | opened (session : Nat)
  | openFailed (session : Nat)
  | abandoned (session : Nat) (raised : Bool)
  | leave (session : Nat)
  | closed (session : Nat) (raised : Bool)
  | tick (elapsed : Nat)

/-- `IDLE_EXPIRY_SECONDS` -/
def idleExpiry : Duration := 600 * 1000000

namespace McpGateway

variable (gateway : McpGateway)

def session? (connectionId : Nat) : Option Nat :=
  (Keyed.row? Prod.fst connectionId gateway.sessions).map Prod.snd

def pending? (connectionId : Nat) : Option Nat :=
  (Keyed.row? Prod.fst connectionId gateway.pending).map Prod.snd

def owner? (session : Nat) : Option LiveSession :=
  Keyed.row? LiveSession.id session gateway.owners

def task? (id : Nat) : Option GatewayTask :=
  Keyed.row? GatewayTask.id id gateway.tasks

def setOwner (session : Nat) (f : LiveSession → LiveSession) : McpGateway :=
  { gateway with owners := Keyed.update LiveSession.id session f gateway.owners }

def put (task : GatewayTask) : McpGateway :=
  { gateway with tasks := Keyed.update GatewayTask.id task.id (fun _ => task) gateway.tasks }

def enter (task : GatewayTask) (stage : TaskStage) : McpGateway :=
  gateway.put { task with stage := stage }

/-- `_usable`: the owner has not finished. -/
def usable (session : Nat) : Bool :=
  (gateway.owner? session).any (! ·.isDone)

/-- `last_used` is now, and the caller goes on to the client. -/
def useSession (task : GatewayTask) (session : Nat) : McpGateway :=
  (gateway.setOwner session ({ · with lastUsed := gateway.now })).enter task (.calling session)

def startCreation (task : GatewayTask) : McpGateway :=
  let session := gateway.owners.length
  let started : McpGateway :=
    { gateway with
      pending := gateway.pending ++ [(task.connectionId, session)]
      owners := gateway.owners ++
        [{ id := session, connectionId := task.connectionId, lastUsed := gateway.now }] }
  started.enter task (.waiting session)

/-- `_create_session`; nothing is awaited under the creation lock. -/
def createSession (task : GatewayTask) : McpGateway :=
  match (gateway.session? task.connectionId).filter gateway.usable with
  | some session => gateway.useSession task session
  | none =>
    match gateway.pending? task.connectionId with
    | some session => gateway.enter task (.waiting session)
    | none => gateway.startCreation task

/-- After `invalidate` has returned. -/
def finish (task : GatewayTask) : Purpose → McpGateway
  | .expiry => gateway.createSession task
  | .failure => gateway.enter task (.ended .toolOutcomeUnknown)
  | .invalidation => gateway.enter task (.ended .returned)
  | .shutdown =>
    let returned : McpGateway :=
      { gateway with
        leftOpen := gateway.leftOpen ++
          [(gateway.owners.filter fun owner => ! owner.isDone).map LiveSession.id] }
    returned.enter task (.ended .returned)

def closeNewest (task : GatewayTask) (purpose : Purpose) (target : Nat) (concerned : Option Nat) :
    McpGateway :=
  match gateway.sessions.getLast? with
  | none => gateway.finish task purpose
  | some (newest, session) =>
    let dropped : McpGateway := { gateway with sessions := gateway.sessions.dropLast }
    let asked := dropped.setOwner session fun owner =>
      { owner with
        closable := true
        bystander := decide (purpose ≠ Purpose.shutdown ∧ concerned ≠ some session) }
    asked.enter task (.closing purpose target concerned newest session)

/-- `invalidate`, for what concerns one session. -/
def startInvalidate (task : GatewayTask) (purpose : Purpose) (concerned : Option Nat) :
    McpGateway :=
  match gateway.session? task.connectionId with
  | none => gateway.finish task purpose
  | some _ => gateway.closeNewest task purpose task.connectionId concerned

/-- The loop of `invalidate`, or of `close_all` around it, after a session is closed. -/
def afterClose (task : GatewayTask) (purpose : Purpose) (target : Nat) (concerned : Option Nat)
    (newest : Nat) : McpGateway :=
  if purpose ≠ .shutdown ∧ newest = target then gateway.finish task purpose
  else gateway.closeNewest task purpose target concerned

def isIdle (session : Nat) : Bool :=
  (gateway.owner? session).any fun owner => idleExpiry ≤ gateway.now - owner.lastUsed

/-- `_session_for` -/
def sessionFor (task : GatewayTask) : McpGateway :=
  match gateway.session? task.connectionId with
  | some session =>
    if gateway.usable session = false ∨ gateway.isIdle session = true then
      gateway.startInvalidate task .expiry (some session)
    else gateway.useSession task session
  | none => gateway.createSession task

def newTask (id connectionId : Nat) : GatewayTask where
  id := id
  connectionId := connectionId
  stage := .ended .refused
  requested := (gateway.owners.filter LiveSession.closable).map LiveSession.id

def begin (id connectionId : Nat) (f : McpGateway → GatewayTask → McpGateway) : McpGateway :=
  if id ∈ gateway.tasks.map GatewayTask.id then gateway
  else
    let task := gateway.newTask id connectionId
    f { gateway with tasks := gateway.tasks ++ [task] } task

def answer (task : GatewayTask) (session : Nat) : ToolAnswer → McpGateway
  | .returned => gateway.enter task (.ended .returned)
  | .cancelled => gateway.enter task (.ended .cancelled)
  | .raised =>
    gateway.startInvalidate { task with failed := true } .failure (some session)

def resume (task : GatewayTask) : McpGateway :=
  match task.stage with
  | .waiting session =>
    match (gateway.owner? session).map LiveSession.ready with
    | some .session => gateway.enter task (.calling session)
    | some .failed => gateway.enter task (.ended .creationFailed)
    | some .cancelled => gateway.enter task (.ended .cancelled)
    | _ => gateway
  | .closing purpose target concerned newest session =>
    match (gateway.owner? session).map LiveSession.stage with
    | some (.done true) => gateway.enter task (.ended .closeFailed)
    | some (.done false) => gateway.afterClose task purpose target concerned newest
    | _ => gateway
  | _ => gateway

/-- A cancellation reaches what the task awaits: the future that it shares, or the owner. -/
def cancel (task : GatewayTask) : McpGateway :=
  match task.stage with
  | .waiting session =>
    (gateway.setOwner session fun owner =>
      if owner.ready = .pending then { owner with ready := .cancelled } else owner).enter task
      (.ended .cancelled)
  | .calling _ | .closing _ _ _ _ _ => gateway.enter task (.ended .cancelled)
  | .ended _ => gateway

def publish (owner : LiveSession) : McpGateway :=
  let published : McpGateway :=
    { gateway with
      sessions :=
        if owner.connectionId ∈ gateway.sessions.map Prod.fst then
          Keyed.update Prod.fst owner.connectionId (fun _ => (owner.connectionId, owner.id))
            gateway.sessions
        else gateway.sessions ++ [(owner.connectionId, owner.id)]
      pending := gateway.pending.filter (·.1 ≠ owner.connectionId) }
  published.setOwner owner.id fun owner =>
    { owner with
      stage := .live
      lastUsed := gateway.now
      ready := if owner.ready = Ready.pending then .session else owner.ready }

/-- A creation failed and what it opened is closed. -/
def abandon (owner : LiveSession) (raised : Bool) : McpGateway :=
  if raised = true then gateway.setOwner owner.id ({ · with stage := .done true })
  else
    let forgotten : McpGateway :=
      { gateway with pending := gateway.pending.filter (·.1 ≠ owner.connectionId) }
    forgotten.setOwner owner.id fun owner =>
      { owner with
        stage := .done false
        ready := if owner.ready = Ready.pending then .failed else owner.ready }

def leave (owner : LiveSession) : McpGateway :=
  let left : McpGateway :=
    { gateway with
      sessions := gateway.sessions.filter (· ≠ (owner.connectionId, owner.id)) }
  left.setOwner owner.id ({ · with stage := .closing })

def owned (session : Nat) (stage : OwnerStage) (f : LiveSession → McpGateway) : McpGateway :=
  match gateway.owner? session with
  | some owner => if owner.stage = stage then f owner else gateway
  | none => gateway

def exec : GatewayOp → McpGateway
  | .callTool id connectionId available =>
    gateway.begin id connectionId fun gateway task =>
      if available then gateway.sessionFor task else gateway
  | .invalidate id connectionId =>
    gateway.begin id connectionId fun gateway task =>
      gateway.startInvalidate task .invalidation (gateway.session? connectionId)
  | .closeAll id =>
    gateway.begin id 0 fun gateway task => gateway.closeNewest task .shutdown 0 none
  | .answered id answer =>
    match gateway.task? id with
    | some task =>
      match task.stage with
      | .calling session => gateway.answer task session answer
      | _ => gateway
    | none => gateway
  | .resume id =>
    match gateway.task? id with
    | some task => gateway.resume task
    | none => gateway
  | .cancel id =>
    match gateway.task? id with
    | some task => gateway.cancel task
    | none => gateway
  | .opened session => gateway.owned session .opening fun owner => gateway.publish owner
  | .openFailed session =>
    gateway.owned session .opening fun owner =>
      gateway.setOwner owner.id ({ · with stage := .abandoning })
  | .abandoned session raised =>
    gateway.owned session .abandoning fun owner => gateway.abandon owner raised
  | .leave session => gateway.owned session .live fun owner => gateway.leave owner
  | .closed session raised =>
    gateway.owned session .closing fun owner =>
      gateway.setOwner owner.id ({ · with stage := .done raised })
  | .tick elapsed => { gateway with now := gateway.now + (elapsed : Int) }

end McpGateway

/-- Every interleaving of callers and owners, in one process. -/
def mcpGateway : Machine McpGateway GatewayOp where
  init := {}
  exec op gateway := gateway.exec op

end NervOS
