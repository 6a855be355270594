/-
The owner's operations on tool authority: grants, their revocation and reconfirmation, and
the connections that tools come from.  A grant is a row, and its id is minted once.
-/
import NervOS.Database.ToolInvocations

namespace NervOS

open Relational

inductive ToolPermissionError where
  | toolDefinitionNotFound (message : String)
  | mcpConnectionNotFound (message : String)
  | ownershipMismatch (message : String)
  | grantAlreadyExists
deriving DecidableEq, Repr

structure GrantBook where
  configuration : Configuration := {}
  nextGrantId : Nat := 1

namespace GrantBook

variable (book : GrantBook) (ownerUserId agentInstanceId toolDefinitionId : Nat)

def OwnsAgent : Prop :=
  ∃ agent ∈ book.configuration.agentInstances,
    agent.id = agentInstanceId ∧ agent.ownerUserId = ownerUserId

instance : Decidable (book.OwnsAgent ownerUserId agentInstanceId) :=
  inferInstanceAs (Decidable (∃ agent ∈ book.configuration.agentInstances, _))

def IsPair (grant : AgentToolGrantRecord) : Prop :=
  grant.agentInstanceId = agentInstanceId ∧ grant.toolDefinitionId = toolDefinitionId

instance : DecidablePred (IsPair agentInstanceId toolDefinitionId) :=
  fun _ => inferInstanceAs (Decidable (_ ∧ _))

def reviewable : Except ToolPermissionError ToolDefinitionRecord :=
  if ¬ book.OwnsAgent ownerUserId agentInstanceId then
    .error (.toolDefinitionNotFound "Agent Instance not found or access denied")
  else
    match book.configuration.toolDefinition? toolDefinitionId with
    | none => .error (.toolDefinitionNotFound "Tool definition not found")
    | some definition =>
      match definition.sourceKind, definition.sourceId with
      | .builtin, _ => .ok definition
      | .mcp, none => .error (.toolDefinitionNotFound "MCP tool has NULL source_id")
      | .mcp, some sourceId =>
        match book.configuration.mcpConnection? sourceId with
        | none => .error (.mcpConnectionNotFound "MCP connection not found")
        | some connection =>
          if connection.ownerUserId ≠ ownerUserId then
            .error (.ownershipMismatch "MCP connection belongs to different owner")
          else if connection.enabled = false then
            .error (.mcpConnectionNotFound "MCP connection is disabled")
          else .ok definition

def insertGrant (reviewedFingerprint : Digest) : GrantBook where
  configuration :=
    { book.configuration with
      agentToolGrants := book.configuration.agentToolGrants ++
        [{ id := book.nextGrantId
           agentInstanceId := agentInstanceId
           toolDefinitionId := toolDefinitionId
           reviewedFingerprint := reviewedFingerprint }] }
  nextGrantId := book.nextGrantId + 1

/-- Delete the grants that meet `p`. -/
def deleteGrants (p : AgentToolGrantRecord → Prop) [DecidablePred p] : GrantBook :=
  { book with
    configuration :=
      { book.configuration with
        agentToolGrants := book.configuration.agentToolGrants.filter fun grant => ¬ p grant } }

/-- `_grant_tool_once`: a repeated grant changes nothing, a drifted one is refused. -/
def grantTool : Except ToolPermissionError GrantBook :=
  match book.reviewable ownerUserId agentInstanceId toolDefinitionId with
  | .error error => .error error
  | .ok definition =>
    match book.configuration.agentToolGrant? agentInstanceId toolDefinitionId with
    | some existing =>
      if existing.reviewedFingerprint = definition.fingerprint then .ok book
      else .error .grantAlreadyExists
    | none =>
      .ok (book.insertGrant agentInstanceId toolDefinitionId definition.fingerprint)

/-- `_revoke_tool_once`: deleting nothing is no error. -/
def revokeTool : Except ToolPermissionError GrantBook :=
  if ¬ book.OwnsAgent ownerUserId agentInstanceId then .ok book
  else .ok (book.deleteGrants (IsPair agentInstanceId toolDefinitionId))

/-- `_reconfirm_tool_once`: the old grant goes and a new one is minted. -/
def reconfirmTool : Except ToolPermissionError GrantBook :=
  (book.reviewable ownerUserId agentInstanceId toolDefinitionId).map fun definition =>
    (book.deleteGrants (IsPair agentInstanceId toolDefinitionId)).insertGrant agentInstanceId
      toolDefinitionId definition.fingerprint

def FromConnection (connectionId : Nat) (definition : ToolDefinitionRecord) : Prop :=
  definition.sourceKind = .mcp ∧ definition.sourceId = some connectionId

instance (connectionId : Nat) : DecidablePred (FromConnection connectionId) :=
  fun _ => inferInstanceAs (Decidable (_ ∧ _))

/-- `set_disabled` and `set_reenabled`: enabling again withdraws every definition. -/
def setEnabled (connectionId : Nat) (enabled : Bool) : GrantBook :=
  if ¬ ∃ connection ∈ book.configuration.mcpConnections,
      connection.id = connectionId ∧ connection.ownerUserId = ownerUserId then book
  else
    { book with
      configuration :=
        { book.configuration with
          mcpConnections := book.configuration.mcpConnections.map (Table.amend
            (fun connection => connection.id = connectionId)
            fun connection => { connection with enabled := enabled })
          toolDefinitions :=
            if enabled then book.configuration.toolDefinitions.map (Table.amend
              (FromConnection connectionId)
              fun definition => { definition with status := .unavailable })
            else book.configuration.toolDefinitions } }

inductive DeleteOutcome where
  | deleted
  | refusedHasHistory
  | refusedLiveRun
  | notFound
deriving DecidableEq, Repr

def HasInvocationHistory (db : Tables) (connectionId : Nat) : Prop :=
  ∃ invocation ∈ db.toolInvocations.rows, ∃ definition ∈ db.configuration.toolDefinitions,
    invocation.toolDefinitionId = definition.id ∧ FromConnection connectionId definition

instance (db : Tables) (connectionId : Nat) : Decidable (HasInvocationHistory db connectionId) :=
  inferInstanceAs (Decidable (∃ invocation ∈ db.toolInvocations.rows,
    ∃ definition ∈ db.configuration.toolDefinitions, _))

def HasLiveRun (db : Tables) (connectionId : Nat) : Prop :=
  ∃ run ∈ db.runs.rows, ¬ run.status.IsTerminal ∧
    (∃ agent ∈ db.configuration.agentInstances, agent.id = run.agentInstanceId ∧
      agent.ownerUserId = ownerUserId) ∧
    ∃ grant ∈ db.configuration.agentToolGrants, grant.agentInstanceId = run.agentInstanceId ∧
      ∃ definition ∈ db.configuration.toolDefinitions,
        grant.toolDefinitionId = definition.id ∧ FromConnection connectionId definition

instance (db : Tables) (connectionId : Nat) : Decidable (HasLiveRun ownerUserId db connectionId) :=
  inferInstanceAs (Decidable (∃ run ∈ db.runs.rows, _ ∧
    (∃ agent ∈ db.configuration.agentInstances, _) ∧
    ∃ grant ∈ db.configuration.agentToolGrants, _ ∧
      ∃ definition ∈ db.configuration.toolDefinitions, _))

def deleteConnection (db : Tables) (connectionId : Nat) : DeleteOutcome × GrantBook :=
  if ¬ ∃ connection ∈ book.configuration.mcpConnections,
      connection.id = connectionId ∧ connection.ownerUserId = ownerUserId then (.notFound, book)
  else if HasInvocationHistory db connectionId then (.refusedHasHistory, book)
  else if HasLiveRun ownerUserId db connectionId then (.refusedLiveRun, book)
  else
    let ungranted := book.deleteGrants fun grant =>
      ∃ definition ∈ book.configuration.toolDefinitions,
        grant.toolDefinitionId = definition.id ∧ FromConnection connectionId definition
    (.deleted,
      { ungranted with
        configuration :=
          { ungranted.configuration with
            toolDefinitions := book.configuration.toolDefinitions.filter fun definition =>
              ¬ FromConnection connectionId definition
            mcpConnections := book.configuration.mcpConnections.filter fun connection =>
              connection.id ≠ connectionId } })

end GrantBook

end NervOS
