/-
Refreshes of MCP connections and the owner's operations on them, interleaved in any order.
A refresh reads its row, awaits discovery outside any transaction, and commits one verdict.
Beside the store stands the timeline: when each connection was last enabled, and when the
discoveries started that the catalog reflects.
-/
import NervOS.Database.McpConnections
import NervOS.Relational.Machine

namespace NervOS

open Relational

/-- A refresh between its read and its verdict. -/
structure Refresh where
  startedAt : Nat
  connectionId : Nat
  ownerUserId : Nat
  now : Instant
deriving DecidableEq

/-- One committed verdict, and the discovery that the catalog reflected before it. -/
structure CatalogVerdict where
  connectionId : Nat
  startedAt : Nat
  replaced : Option Nat
deriving DecidableEq

/-- `reflects` is forgotten when a connection is enabled again: its verdict is discarded. -/
structure CatalogHistory where
  enabledAt : Nat → Nat := fun _ => 0
  reflects : Nat → Option Nat := fun _ => none
  openedBy : Nat → Option Nat := fun _ => none
  verdicts : List CatalogVerdict := []

inductive CatalogOp where
  | createConnection (ownerUserId : Nat) (displayName : String) (transport : ConnectionTransport)
      (endpoint serverKey credentialRef : Option String) (now : Instant)
  | updateDisplayName (ownerUserId connectionId : Nat) (displayName : String) (now : Instant)
  | disableConnection (ownerUserId connectionId : Nat) (now : Instant)
  | enableConnection (ownerUserId connectionId : Nat) (now : Instant)
  | refresh (ownerUserId connectionId : Nat) (now : Instant)
  | discovered (startedAt : Nat)
      (response : Except DiscoveryError (List ToolDefinitionMaterial))
  | cancelled (startedAt : Nat)
  | grantTool (agentInstanceId toolDefinitionId : Nat) (reviewedFingerprint : Digest)
  | revokeTool (agentInstanceId toolDefinitionId : Nat)

structure CatalogSystem where
  db : CatalogDatabase
  clock : Nat
  refreshing : List Refresh
  history : CatalogHistory

def CatalogTables.Offers (db : CatalogTables) (definitionId : Nat) : Prop :=
  ∃ definition ∈ db.toolDefinitions.rows, definition.id = definitionId ∧
    definition.material.status = .available

instance (db : CatalogTables) : DecidablePred db.Offers :=
  fun _ => inferInstanceAs (Decidable (∃ definition ∈ db.toolDefinitions.rows, _))

namespace CatalogHistory

variable (history : CatalogHistory)

def enable (connectionId now : Nat) : CatalogHistory :=
  { history with
    enabledAt := Function.update history.enabledAt connectionId now
    reflects := Function.update history.reflects connectionId none }

def verdict (refresh : Refresh) (before after : CatalogTables) : CatalogHistory :=
  { history with
    reflects := Function.update history.reflects refresh.connectionId (some refresh.startedAt)
    openedBy := fun definitionId =>
      if after.Offers definitionId ∧ ¬ before.Offers definitionId then some refresh.startedAt
      else history.openedBy definitionId
    verdicts := history.verdicts ++ [⟨refresh.connectionId, refresh.startedAt,
      history.reflects refresh.connectionId⟩] }

end CatalogHistory

def admitRefresh (db : CatalogTables) (ownerUserId connectionId : Nat) :
    Except McpConnectionError McpConnectionRow :=
  match db.getConnection connectionId ownerUserId with
  | none => .error .mcpConnectionNotFound
  | some connection =>
    if connection.enabled = false then
      .error (.invalidMcpConnection "a disabled connection cannot be refreshed")
    else .ok connection

/-- The transaction that a finished discovery leads to. -/
def recordVerdict (refresh : Refresh)
    (response : Except DiscoveryError (List ToolDefinitionMaterial)) : CatalogConnection Bool :=
  match discoveredCatalog response with
  | .ok materials =>
    recordDiscoverySuccess refresh.connectionId refresh.ownerUserId materials refresh.now
  | .error error =>
    recordDiscoveryFailure refresh.connectionId refresh.ownerUserId error.safe.1 error.safe.2
      refresh.now

def insertToolGrant (agentInstanceId toolDefinitionId : Nat) (reviewedFingerprint : Digest) :
    CatalogConnection Nat :=
  Tx.insert fun id => ({
    id := id
    agentInstanceId := agentInstanceId
    toolDefinitionId := toolDefinitionId
    reviewedFingerprint := reviewedFingerprint } : AgentToolGrantRecord)

def deleteToolGrant (agentInstanceId toolDefinitionId : Nat) : CatalogConnection Unit :=
  Tx.delete fun grant : AgentToolGrantRecord =>
    grant.agentInstanceId = agentInstanceId ∧ grant.toolDefinitionId = toolDefinitionId

namespace CatalogSystem

def init : CatalogSystem where
  db := .empty
  clock := 1
  refreshing := []
  history := {}

/-- Run one transaction; what it returned is noted in the history. -/
def commit {α : Type} (system : CatalogSystem) (x : CatalogConnection α)
    (note : α → CatalogTables → CatalogHistory) : CatalogSystem :=
  match x.run system.db with
  | (.ok value, db) => { system with db := db, history := note value db.1 }
  | (.error _, db) => { system with db := db }

/-- A boolean verdict is noted when the statement met its row. -/
def noteIf (history noted : CatalogHistory) (met : Bool) : CatalogHistory :=
  if met then noted else history

def step (op : CatalogOp) (system : CatalogSystem) : CatalogSystem :=
  match op with
  | .createConnection ownerUserId displayName transport endpoint serverKey credentialRef now =>
    system.commit
      (createMcpConnection ownerUserId displayName transport endpoint serverKey credentialRef
        now)
      fun connectionId _ => system.history.enable connectionId system.clock
  | .updateDisplayName ownerUserId connectionId displayName now =>
    system.commit (setDisplayName connectionId ownerUserId displayName now)
      fun _ _ => system.history
  | .disableConnection ownerUserId connectionId now =>
    system.commit (setDisabled connectionId ownerUserId now) fun _ _ => system.history
  | .enableConnection ownerUserId connectionId now =>
    system.commit (setReenabled connectionId ownerUserId now)
      fun met _ => noteIf system.history (system.history.enable connectionId system.clock) met
  | .refresh ownerUserId connectionId now =>
    match admitRefresh system.db.1 ownerUserId connectionId with
    | .ok _ =>
      { system with refreshing :=
          system.refreshing ++ [⟨system.clock, connectionId, ownerUserId, now⟩] }
    | .error _ => system
  | .discovered startedAt response =>
    match system.refreshing.find? (·.startedAt = startedAt) with
    | some refresh =>
      { system.commit (recordVerdict refresh response) fun met after =>
          noteIf system.history (system.history.verdict refresh system.db.1 after) met with
        refreshing := system.refreshing.filter (·.startedAt ≠ startedAt) }
    | none => system
  | .cancelled startedAt =>
    { system with refreshing := system.refreshing.filter (·.startedAt ≠ startedAt) }
  | .grantTool agentInstanceId toolDefinitionId reviewedFingerprint =>
    system.commit (insertToolGrant agentInstanceId toolDefinitionId reviewedFingerprint)
      fun _ _ => system.history
  | .revokeTool agentInstanceId toolDefinitionId =>
    system.commit (deleteToolGrant agentInstanceId toolDefinitionId) fun _ _ => system.history

/-- Every step is one tick of the timeline. -/
def exec (op : CatalogOp) (system : CatalogSystem) : CatalogSystem :=
  { system.step op with clock := system.clock + 1 }

end CatalogSystem

def catalogEngine : Machine CatalogSystem CatalogOp where
  init := .init
  exec := CatalogSystem.exec

end NervOS
