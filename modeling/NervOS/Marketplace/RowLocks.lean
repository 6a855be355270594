/-
The row locks of the marketplace's transactions: which rows each service reads for update or
updates, in its order, while other transactions run.  A lock is held until the commit, and a
check may roll a transaction back wherever it stands.
-/
import NervOS.Marketplace.Authentication

namespace NervOS

open Relational

inductive MarketRow where
  | code (codeHash : Digest)
  | account (id : Nat)
  | credential (browser : Bool) (tokenHash : Digest)
  | authTransaction (stateHash : Digest)
  | publisher (id : Nat)
  | membership (publisherId accountId : Nat)
  | keyChallenge (id : Nat)
  | transfer (id : Nat)
  | project (id : Nat)
  | keyAuthorization (projectId keyId : Nat)
  | operation (id : Nat)
  | listing (projectId : Nat)
  | release (id : Nat)
  | signingKey (id : Nat)
  | admission
deriving DecidableEq

inductive Locking (α : Type) where
  | done (value : α)
  | lock (row : MarketRow) (next : Locking α)
  | readOwner (project : Nat) (next : Nat → Locking α)
  | readProjects (publisher : Nat) (next : List Nat → Locking α)
  | transferTo (project source destination : Nat) (next : Locking α)

namespace Locking

variable {α β : Type}

protected def bind : Locking α → (α → Locking β) → Locking β
  | .done value, f => f value
  | .lock row next, f => .lock row (next.bind f)
  | .readOwner project next, f => .readOwner project fun owner => (next owner).bind f
  | .readProjects publisher next, f =>
    .readProjects publisher fun projects => (next projects).bind f
  | .transferTo project source destination next, f =>
    .transferTo project source destination (next.bind f)

instance : Monad Locking where
  pure := .done
  bind := .bind

/-- `get` with its lock, and `update`. -/
def get (row : MarketRow) : Locking Unit := .lock row (.done ())

def update (row : MarketRow) : Locking Unit := .lock row (.done ())

def updateAll : List MarketRow → Locking Unit
  | [] => pure ()
  | row :: rows => do
    update row
    updateAll rows

/-- `tx.get("package_projects", …, lock=False)`, for its owner. -/
def ownerOf (project : Nat) : Locking Nat := .readOwner project .done

def projectsOf (publisher : Nat) : Locking (List Nat) := .readProjects publisher .done

/-- The check of the owner under its lock, and its change. -/
def handOver (project source destination : Nat) : Locking Unit :=
  .transferTo project source destination (.done ())

def getSorted (left right : Nat) : Locking Unit := do
  get (.publisher (min left right))
  get (.publisher (max left right))

end Locking

structure MarketData where
  credentialAccount : Bool → Digest → Nat
  codeAccount : Digest → Nat
  transferProject : Nat → Nat
  transferSource : Nat → Nat
  transferDestination : Nat → Nat
  operationProject : Nat → Nat

section Services

open Locking (get update updateAll ownerOf projectsOf handOver getSorted)

variable (data : MarketData)

def Actor.browser (actor : Actor) : Bool := actor.scope = "browser"

/-- The row that the actor was authenticated from. -/
def Actor.row (actor : Actor) : MarketRow := .credential actor.browser actor.credentialHash

namespace Authentication

/-- The first transaction of `callback`. -/
def callback (stateHash : Digest) : Locking Unit := do
  get (.authTransaction stateHash)
  update (.authTransaction stateHash)

def complete (account : Option Nat) (stateHash : Digest) : Locking Unit := do
  match account with
  | some account => get (.account account)
  | none => pure ()
  update (.authTransaction stateHash)

def authenticate (browser : Bool) (tokenHash : Digest) : Locking Unit := do
  get (.credential browser tokenHash)
  get (.account (data.credentialAccount browser tokenHash))
  if browser then update (.credential browser tokenHash) else pure ()

def csrf (actor : Actor) : Locking Unit :=
  get (.credential true actor.credentialHash)

def consent (actor : Actor) (stateHash : Digest) : Locking Unit := do
  get (.credential true actor.credentialHash)
  get (.authTransaction stateHash)
  update (.authTransaction stateHash)

def exchange (codeHash : Digest) : Locking Unit := do
  get (.code codeHash)
  get (.account (data.codeAccount codeHash))
  update (.code codeHash)

def logout (actor : Actor) : Locking Unit :=
  update actor.row

end Authentication

namespace Authorization

def account (actor : Actor) : Locking Unit := do
  get (.account actor.accountId)
  get actor.row

def publisher (actor : Actor) (publisherId : Nat) : Locking Unit := do
  account actor
  get (.publisher publisherId)

def project (actor : Actor) (projectId : Nat) : Locking Unit := do
  let owner ← ownerOf projectId
  publisher actor owner
  get (.project projectId)

def operator (actor : Actor) : Locking Unit :=
  account actor

end Authorization

namespace PublisherManagement

open Authorization (publisher project)

/-- `create` and `mine`. -/
def create (actor : Actor) : Locking Unit := Authorization.account actor

/-- `show`, `claim`, `challenge` and `keys`. -/
def showPublisher (actor : Actor) (publisherId : Nat) : Locking Unit := publisher actor publisherId

def update (actor : Actor) (publisherId : Nat) : Locking Unit := do
  publisher actor publisherId
  Locking.update (.publisher publisherId)

def membership (actor : Actor) (publisherId : Nat) (member : Option Nat) : Locking Unit := do
  publisher actor publisherId
  match member with
  | some accountId => Locking.update (.membership publisherId accountId)
  | none => pure ()

def moderate (actor : Actor) (publisherId : Nat) : Locking Unit := do
  Authorization.operator actor
  get (.publisher publisherId)
  Locking.update (.publisher publisherId)
  let projects ← projectsOf publisherId
  updateAll (projects.map .project)

def disableAccount (actor : Actor) (accountId : Nat) : Locking Unit := do
  Authorization.operator actor
  get (.account accountId)
  Locking.update (.account accountId)

def transfer (actor : Actor) (projectId destination : Nat) : Locking Unit := do
  let initial ← ownerOf projectId
  getSorted initial destination
  project actor projectId
  get (.publisher destination)

/-- `keys` are the key authorizations of the project. -/
def finishTransfer (actor : Actor) (transferId : Nat) (accept : Bool) (keys : List Nat) :
    Locking Unit := do
  let source := data.transferSource transferId
  let destination := data.transferDestination transferId
  let projectId := data.transferProject transferId
  Authorization.account actor
  getSorted source destination
  publisher actor (if accept then destination else source)
  get (.transfer transferId)
  get (.project projectId)
  if accept then do
    handOver projectId source destination
    Locking.update (.project projectId)
    updateAll (keys.map (.keyAuthorization projectId))
    Locking.update (.transfer transferId)
  else Locking.update (.transfer transferId)

def prove (actor : Actor) (publisherId challengeId : Nat) : Locking Unit := do
  publisher actor publisherId
  get (.keyChallenge challengeId)
  Locking.update (.keyChallenge challengeId)

def keyState (actor : Actor) (publisherId keyId : Nat) : Locking Unit := do
  publisher actor publisherId
  get (.signingKey keyId)
  Locking.update (.signingKey keyId)

def authorizeKey (actor : Actor) (projectId keyId : Nat) : Locking Unit := do
  project actor projectId
  get (.signingKey keyId)

end PublisherManagement

namespace Publication

open Authorization (project)

def createUpload (actor : Actor) (projectId : Nat) (existing : Option Nat) : Locking Unit := do
  project actor projectId
  match existing with
  | some operationId => get (.operation operationId)
  | none => pure ()

def operation (actor : Actor) (operationId : Nat) : Locking Unit := do
  project actor (data.operationProject operationId)
  get (.operation operationId)

/-- `status`, and with the update both transactions of `receive`. -/
def receive (actor : Actor) (operationId : Nat) : Locking Unit := do
  operation data actor operationId
  update (.operation operationId)

/-- The end of a `receive` or a verification that failed. -/
def interrupted (operationId : Nat) : Locking Unit := do
  get (.operation operationId)
  update (.operation operationId)

def verifyUpload (actor : Actor) (operationId : Nat) : Locking Unit := do
  operation data actor operationId
  get .admission
  update (.operation operationId)
  update .admission

def heartbeat (operationId : Nat) : Locking Unit := do
  get (.operation operationId)
  update (.operation operationId)
  get .admission
  update .admission

/-- The end of a verification leaves the gate. -/
def cleanup : Locking Unit := do
  get .admission
  update .admission

/-- The trigger of the release's row locks its project. -/
def reserve (actor : Actor) (operationId keyId : Nat) : Locking Unit := do
  operation data actor operationId
  get (.project (data.operationProject operationId))
  get (.signingKey keyId)
  get (.project (data.operationProject operationId))
  update (.operation operationId)

/-- The second transaction of `publish`; the first locks as `project` does. -/
def publish (actor : Actor) (projectId releaseId keyId : Nat) : Locking Unit := do
  project actor projectId
  get (.release releaseId)
  get (.signingKey keyId)
  update (.release releaseId)
  get (.project projectId)

def listing (actor : Actor) (projectId : Nat) : Locking Unit := do
  project actor projectId
  get (.listing projectId)
  update (.listing projectId)

def distribution (actor : Actor) (projectId releaseId : Nat) : Locking Unit := do
  if actor.scope = "operator" then do
    Authorization.operator actor
    get (.project projectId)
    get (.release releaseId)
    update (.release releaseId)
    get (.project projectId)
  else do
    project actor projectId
    get (.release releaseId)
    update (.release releaseId)
    get (.project projectId)

end Publication

end Services

/-- A transaction of a service, with its arguments. -/
inductive MarketCall where
  | callback (stateHash : Digest)
  | complete (account : Option Nat) (stateHash : Digest)
  | authenticate (browser : Bool) (tokenHash : Digest)
  | csrf (actor : Actor)
  | consent (actor : Actor) (stateHash : Digest)
  | exchange (codeHash : Digest)
  | logout (actor : Actor)
  | create (actor : Actor)
  | showPublisher (actor : Actor) (publisherId : Nat)
  | update (actor : Actor) (publisherId : Nat)
  | membership (actor : Actor) (publisherId : Nat) (member : Option Nat)
  | moderate (actor : Actor) (publisherId : Nat)
  | disableAccount (actor : Actor) (accountId : Nat)
  | project (actor : Actor) (projectId : Nat)
  | transfer (actor : Actor) (projectId destination : Nat)
  | finishTransfer (actor : Actor) (transferId : Nat) (accept : Bool) (keys : List Nat)
  | prove (actor : Actor) (publisherId challengeId : Nat)
  | keyState (actor : Actor) (publisherId keyId : Nat)
  | authorizeKey (actor : Actor) (projectId keyId : Nat)
  | createUpload (actor : Actor) (projectId : Nat) (existing : Option Nat)
  | receive (actor : Actor) (operationId : Nat)
  | interrupted (operationId : Nat)
  | verifyUpload (actor : Actor) (operationId : Nat)
  | heartbeat (operationId : Nat)
  | cleanup
  | reserve (actor : Actor) (operationId keyId : Nat)
  | publish (actor : Actor) (projectId releaseId keyId : Nat)
  | listing (actor : Actor) (projectId : Nat)
  | distribution (actor : Actor) (projectId releaseId : Nat)
deriving DecidableEq

namespace MarketCall

def actor? : MarketCall → Option Actor
  | callback _ | complete _ _ | authenticate _ _ | csrf _ | consent _ _ | exchange _ | logout _
  | interrupted _ | heartbeat _ | cleanup => none
  | create actor | showPublisher actor _ | update actor _ | membership actor _ _ | moderate actor _
  | disableAccount actor _ | project actor _ | transfer actor _ _ | finishTransfer actor _ _ _
  | prove actor _ _ | keyState actor _ _ | authorizeKey actor _ _ | createUpload actor _ _
  | receive actor _ | verifyUpload actor _ | reserve actor _ _ | publish actor _ _ _
  | listing actor _ | distribution actor _ _ => some actor

def program (data : MarketData) : MarketCall → Locking Unit
  | callback stateHash => Authentication.callback stateHash
  | complete account stateHash => Authentication.complete account stateHash
  | authenticate browser tokenHash => Authentication.authenticate data browser tokenHash
  | csrf actor => Authentication.csrf actor
  | consent actor stateHash => Authentication.consent actor stateHash
  | exchange codeHash => Authentication.exchange data codeHash
  | logout actor => Authentication.logout actor
  | create actor => PublisherManagement.create actor
  | showPublisher actor publisherId => PublisherManagement.showPublisher actor publisherId
  | update actor publisherId => PublisherManagement.update actor publisherId
  | membership actor publisherId member => PublisherManagement.membership actor publisherId member
  | moderate actor publisherId => PublisherManagement.moderate actor publisherId
  | disableAccount actor accountId => PublisherManagement.disableAccount actor accountId
  | project actor projectId => Authorization.project actor projectId
  | transfer actor projectId destination =>
    PublisherManagement.transfer actor projectId destination
  | finishTransfer actor transferId accept keys =>
    PublisherManagement.finishTransfer data actor transferId accept keys
  | prove actor publisherId challengeId => PublisherManagement.prove actor publisherId challengeId
  | keyState actor publisherId keyId => PublisherManagement.keyState actor publisherId keyId
  | authorizeKey actor projectId keyId => PublisherManagement.authorizeKey actor projectId keyId
  | createUpload actor projectId existing => Publication.createUpload actor projectId existing
  | receive actor operationId => Publication.receive data actor operationId
  | interrupted operationId => Publication.interrupted operationId
  | verifyUpload actor operationId => Publication.verifyUpload data actor operationId
  | heartbeat operationId => Publication.heartbeat operationId
  | cleanup => Publication.cleanup
  | reserve actor operationId keyId => Publication.reserve data actor operationId keyId
  | publish actor projectId releaseId keyId => Publication.publish actor projectId releaseId keyId
  | listing actor projectId => Publication.listing actor projectId
  | distribution actor projectId releaseId => Publication.distribution actor projectId releaseId

end MarketCall

/-- A running transaction: what it still does, the rows that it holds, the projects that it
listed, and the hand-over that its commit makes visible. -/
structure MarketTransaction where
  id : Nat
  call : MarketCall
  program : Locking Unit
  held : List MarketRow := []
  listed : List Nat := []
  pending : Option (Nat × Nat × Nat) := none

structure Marketplace where
  running : List MarketTransaction := []
  owner : Nat → Nat

inductive MarketOp where
  | begin (id : Nat) (call : MarketCall)
  | step (id : Nat) (projects : List Nat)
  | abort (id : Nat)

namespace Marketplace

variable (data : MarketData) (market : Marketplace)

/-- An actor carries the account of its credential, as `authenticate` read it. -/
def Authentic (call : MarketCall) : Prop :=
  ∀ actor ∈ call.actor?,
    actor.accountId = data.credentialAccount actor.browser actor.credentialHash

instance (call : MarketCall) : Decidable (Authentic data call) :=
  inferInstanceAs (Decidable (∀ actor ∈ call.actor?, _))

def begin (id : Nat) (call : MarketCall) : Marketplace :=
  if id ∉ market.running.map MarketTransaction.id ∧ Authentic data call then
    { market with
      running := market.running ++ [{ id := id, call := call, program := call.program data }] }
  else market

def transaction? (id : Nat) : Option MarketTransaction :=
  Keyed.row? MarketTransaction.id id market.running

def replace (tx : MarketTransaction) : Marketplace :=
  { market with running := Keyed.update MarketTransaction.id tx.id (fun _ => tx) market.running }

def remove (id : Nat) : Marketplace :=
  { market with running := market.running.filter (·.id ≠ id) }

/-- Another transaction holds the row. -/
def HeldByOther (id : Nat) (row : MarketRow) : Prop :=
  ∃ other ∈ market.running, other.id ≠ id ∧ row ∈ other.held

instance (id : Nat) (row : MarketRow) : Decidable (market.HeldByOther id row) :=
  inferInstanceAs (Decidable (∃ other ∈ market.running, _))

/-- What is pending becomes visible, and the locks are released. -/
def commit (tx : MarketTransaction) : Marketplace :=
  match tx.pending with
  | none => market.remove tx.id
  | some (project, _, destination) =>
    { market.remove tx.id with owner := Function.update market.owner project destination }

/-- One step of a transaction; `projects` are the rows that it finds, in any order. -/
def advance (tx : MarketTransaction) (projects : List Nat) : Marketplace :=
  match tx.program with
  | .done _ => market.commit tx
  | .lock row next =>
    if market.HeldByOther tx.id row then market
    else market.replace { tx with program := next, held := row :: tx.held }
  | .readOwner project next => market.replace { tx with program := next (market.owner project) }
  | .readProjects publisher next =>
    if ∀ project ∈ projects, market.owner project = publisher then
      market.replace { tx with program := next projects, listed := projects }
    else market
  | .transferTo project source destination next =>
    if market.owner project = source then
      market.replace { tx with program := next, pending := some (project, source, destination) }
    else market.remove tx.id

def exec : MarketOp → Marketplace
  | .begin id call => market.begin data id call
  | .step id projects =>
    match market.transaction? id with
    | none => market
    | some tx => market.advance tx projects
  | .abort id => market.remove id

end Marketplace

def marketTransactions (data : MarketData) (owner : Nat → Nat) : Machine Marketplace MarketOp where
  init := { owner := owner }
  exec op market := market.exec data op

end NervOS
