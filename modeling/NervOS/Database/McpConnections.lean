/-
Durable MCP connections: their transports and catalog states, the material that a discovery
brings, and the error pairs that a failed one leaves.  The rows of connections, of the definitions
that they contributed and of the grants on those; the lifecycle of a connection, and the
reconciliation of a discovered catalog with the definitions contributed so far.
-/
import NervOS.Relational.Transaction
import NervOS.Database.Models
import NervOS.Text.Split

namespace NervOS

inductive ConnectionTransport where
  | stdio
  | http
deriving DecidableEq, Repr

inductive ConnectionStatus where
  | connected
  | unavailable
  | needsRefresh
  | definitionChanged
  | disabled
deriving DecidableEq, Repr

/-- The source's own claims about a tool. -/
structure RiskHints where
  readOnly : Bool := false
  destructive : Bool := true
  idempotent : Bool := false
  openWorld : Bool := true
deriving DecidableEq, Repr

structure ToolDefinitionMaterial where
  upstreamName : String
  modelName : String
  displayName : String
  description : String
  inputSchema : String
  outputSchema : Option String
  fingerprint : Digest
  status : DefinitionStatus
  riskHints : RiskHints
deriving DecidableEq

inductive McpConnectionError where
  | invalidMcpConnection (message : String)
  | mcpConnectionNotFound
deriving DecidableEq, Repr

/-- What a failed discovery says of itself, if anything. -/
structure DiscoveryError where
  code : Option String
  message : Option String
deriving DecidableEq, Repr

namespace DiscoveryError

def defaultErrorCode : String := "mcp_discovery_failed"

def defaultErrorMessage : String := "MCP discovery failed."

/-- `McpErrorCode.CATALOG_INVALID` and its fixed sentence. -/
def catalogInvalid : DiscoveryError where
  code := some "mcp_catalog_invalid"
  message := some "The MCP tool catalog is invalid."

/-- `[a-z0-9_]{1,64}`. -/
def SafeErrorCode (code : String) : Prop :=
  1 ≤ code.toList.length ∧ code.toList.length ≤ 64 ∧
    (code.toList.all fun ch => ch.isLower || ch.isDigit || ch == '_') = true

instance : DecidablePred SafeErrorCode :=
  fun _ => inferInstanceAs (Decidable (_ ∧ _ ∧ _ = true))

/-- `_safe_discovery_failure`: the failure's own pair where it is safe to persist. -/
def safe (error : DiscoveryError) : String × String :=
  match error.code, error.message with
  | some code, some message =>
    if SafeErrorCode code ∧ 1 ≤ message.toList.length ∧ message.toList.length ≤ 512 then
      (code, message)
    else (defaultErrorCode, defaultErrorMessage)
  | _, _ => (defaultErrorCode, defaultErrorMessage)

end DiscoveryError

def upstreamNames (materials : List ToolDefinitionMaterial) : List String :=
  materials.map (·.upstreamName)

@[simp] theorem upstreamNames_nil : upstreamNames [] = [] := rfl

@[simp] theorem upstreamNames_cons (material : ToolDefinitionMaterial)
    (materials : List ToolDefinitionMaterial) :
    upstreamNames (material :: materials) = material.upstreamName :: upstreamNames materials :=
  rfl

/-- The end of `discover_tools`: a catalog that lists a name twice is refused. -/
def discoveredCatalog (response : Except DiscoveryError (List ToolDefinitionMaterial)) :
    Except DiscoveryError (List ToolDefinitionMaterial) :=
  match response with
  | .error error => .error error
  | .ok materials =>
    if (upstreamNames materials).Nodup then .ok materials else .error .catalogInvalid

theorem discoveredCatalog_nodup
    {response : Except DiscoveryError (List ToolDefinitionMaterial)}
    {materials : List ToolDefinitionMaterial} (h : discoveredCatalog response = .ok materials) :
    (upstreamNames materials).Nodup := by
  cases response with
  | error error => cases h
  | ok reported =>
    by_cases hnodup : (upstreamNames reported).Nodup
    · simp only [discoveredCatalog, hnodup, if_true, Except.ok.injEq] at h
      rwa [← h]
    · simp [discoveredCatalog, hnodup] at h

open Relational

/-- `text = trim(text)`. -/
def Trimmed (text : String) : Prop :=
  Text.trim (· = ' ') text.toList = text.toList

instance : DecidablePred Trimmed := fun _ => inferInstanceAs (Decidable (_ = _))

/-- `length(CAST(text AS BLOB)) <= bytes`. -/
def BytesWithin (bytes : Nat) (text : String) : Prop :=
  text.utf8ByteSize ≤ bytes

instance (bytes : Nat) : DecidablePred (BytesWithin bytes) :=
  fun _ => inferInstanceAs (Decidable (_ ≤ _))

def DisplayNameShape (name : String) : Prop :=
  Trimmed name ∧ LengthBetween 1 100 name ∧ BytesWithin 400 name

instance : DecidablePred DisplayNameShape := fun _ => inferInstanceAs (Decidable (_ ∧ _ ∧ _))

def DeclaredNameShape (name : String) : Prop :=
  LengthBetween 1 128 name ∧
    (name.toList.all fun ch => ch.isLower || ch.isDigit || ch == '-') = true ∧
    (name.toList.head?.all (· != '-')) = true

instance : DecidablePred DeclaredNameShape :=
  fun _ => inferInstanceAs (Decidable (_ ∧ _ = true ∧ _ = true))

structure McpConnectionRow where
  id : Nat
  ownerUserId : Nat
  displayName : String
  transport : ConnectionTransport
  endpoint : Option String
  serverKey : Option String
  credentialRef : Option String
  enabled : Bool
  catalogStatus : ConnectionStatus
  lastDiscoveryAt : Option Instant
  lastErrorCode : Option String
  lastErrorMessage : Option String
  createdAt : Instant
  updatedAt : Instant
deriving DecidableEq

def McpConnectionRow.TargetShape (connection : McpConnectionRow) : Prop :=
  match connection.transport with
  | .http => connection.endpoint.isSome = true ∧ connection.serverKey.isNone = true
  | .stdio => connection.endpoint.isNone = true ∧ connection.serverKey.isSome = true

instance (connection : McpConnectionRow) : Decidable connection.TargetShape := by
  unfold McpConnectionRow.TargetShape
  cases connection.transport <;> infer_instance

structure McpConnectionRow.Check (connection : McpConnectionRow) : Prop where
  ownerPositive : 0 < connection.ownerUserId
  displayNameShape : DisplayNameShape connection.displayName
  targetShape : connection.TargetShape
  endpointBounds : ∀ endpoint ∈ connection.endpoint,
    LengthBetween 1 512 endpoint ∧ hasNul endpoint = false
  serverKeyShape : ∀ name ∈ connection.serverKey, DeclaredNameShape name
  credentialRefShape : ∀ name ∈ connection.credentialRef, DeclaredNameShape name
  errorPair : Paired connection.lastErrorCode connection.lastErrorMessage
  errorBounds : ErrorBounds connection.lastErrorCode connection.lastErrorMessage
  discoveryOrder : ∀ discovered ∈ connection.lastDiscoveryAt, connection.createdAt ≤ discovered
  timestampOrder : connection.createdAt ≤ connection.updatedAt

instance McpConnectionRow.decidableCheck (connection : McpConnectionRow) :
    Decidable connection.Check :=
  decidable_of_iff (0 < connection.ownerUserId ∧ DisplayNameShape connection.displayName ∧
      connection.TargetShape ∧
      (∀ endpoint ∈ connection.endpoint, LengthBetween 1 512 endpoint ∧ hasNul endpoint = false) ∧
      (∀ name ∈ connection.serverKey, DeclaredNameShape name) ∧
      (∀ name ∈ connection.credentialRef, DeclaredNameShape name) ∧
      Paired connection.lastErrorCode connection.lastErrorMessage ∧
      ErrorBounds connection.lastErrorCode connection.lastErrorMessage ∧
      (∀ discovered ∈ connection.lastDiscoveryAt, connection.createdAt ≤ discovered) ∧
      connection.createdAt ≤ connection.updatedAt)
    ⟨fun ⟨a, b, c, d, e, f, g, h, i, j⟩ => ⟨a, b, c, d, e, f, g, h, i, j⟩,
      fun ⟨a, b, c, d, e, f, g, h, i, j⟩ => ⟨a, b, c, d, e, f, g, h, i, j⟩⟩

instance : Record McpConnectionRow where
  key := McpConnectionRow.id
  Check := McpConnectionRow.Check
  Clash _ _ := False
  decCheck _ := inferInstance
  decClash _ _ := inferInstance

/-- One durable definition: its identity and the material that it was last given. -/
structure PersistedToolDefinition where
  id : Nat
  sourceKind : ToolSourceKind
  sourceId : Option Nat
  material : ToolDefinitionMaterial
  createdAt : Instant
  updatedAt : Instant
deriving DecidableEq

namespace PersistedToolDefinition

structure Check (definition : PersistedToolDefinition) : Prop where
  sourceShape : definition.sourceKind = .mcp ↔ definition.sourceId.isSome = true
  upstreamNameShape : LengthBetween 1 128 definition.material.upstreamName
  modelNameShape : ModelNameShape definition.material.modelName
  displayNameShape : DisplayNameShape definition.material.displayName
  descriptionBounds : BytesWithin 65536 definition.material.description
  inputSchemaBounds : 2 ≤ definition.material.inputSchema.utf8ByteSize ∧
    BytesWithin 65536 definition.material.inputSchema
  outputSchemaBounds : ∀ schema ∈ definition.material.outputSchema,
    2 ≤ schema.utf8ByteSize ∧ BytesWithin 65536 schema
  timestampOrder : definition.createdAt ≤ definition.updatedAt

instance decidableCheck (definition : PersistedToolDefinition) : Decidable definition.Check :=
  decidable_of_iff ((definition.sourceKind = .mcp ↔ definition.sourceId.isSome = true) ∧
      LengthBetween 1 128 definition.material.upstreamName ∧
      ModelNameShape definition.material.modelName ∧
      DisplayNameShape definition.material.displayName ∧
      BytesWithin 65536 definition.material.description ∧
      (2 ≤ definition.material.inputSchema.utf8ByteSize ∧
        BytesWithin 65536 definition.material.inputSchema) ∧
      (∀ schema ∈ definition.material.outputSchema,
        2 ≤ schema.utf8ByteSize ∧ BytesWithin 65536 schema) ∧
      definition.createdAt ≤ definition.updatedAt)
    ⟨fun ⟨a, b, c, d, e, f, g, h⟩ => ⟨a, b, c, d, e, f, g, h⟩,
      fun ⟨a, b, c, d, e, f, g, h⟩ => ⟨a, b, c, d, e, f, g, h⟩⟩

def Clash (left right : PersistedToolDefinition) : Prop :=
  left.material.modelName = right.material.modelName ∨
    left.sourceKind = right.sourceKind ∧ left.sourceId = right.sourceId ∧
      left.material.upstreamName = right.material.upstreamName

instance (left right : PersistedToolDefinition) : Decidable (left.Clash right) :=
  inferInstanceAs (Decidable (_ ∨ _ ∧ _ ∧ _))

end PersistedToolDefinition

instance : Record PersistedToolDefinition where
  key := PersistedToolDefinition.id
  Check := PersistedToolDefinition.Check
  Clash := PersistedToolDefinition.Clash
  decCheck _ := inferInstance
  decClash _ _ := inferInstance

instance : Record AgentToolGrantRecord where
  key := AgentToolGrantRecord.id
  Check grant := 0 < grant.agentInstanceId ∧ 0 < grant.toolDefinitionId
  Clash left right :=
    left.agentInstanceId = right.agentInstanceId ∧ left.toolDefinitionId = right.toolDefinitionId
  decCheck _ := inferInstance
  decClash _ _ := inferInstance

structure CatalogTables where
  mcpConnections : Table McpConnectionRow := .empty
  toolDefinitions : Table PersistedToolDefinition := .empty
  agentToolGrants : Table AgentToolGrantRecord := .empty

structure CatalogTables.References (db : CatalogTables) : Prop where
  definitionSource : ∀ definition ∈ db.toolDefinitions.rows, ∀ sourceId ∈ definition.sourceId,
    (db.mcpConnections.find sourceId).isSome
  grantDefinition : ∀ grant ∈ db.agentToolGrants.rows,
    (db.toolDefinitions.find grant.toolDefinitionId).isSome

instance CatalogTables.decidableReferences (db : CatalogTables) : Decidable db.References :=
  decidable_of_iff
    ((∀ definition ∈ db.toolDefinitions.rows, ∀ sourceId ∈ definition.sourceId,
        (db.mcpConnections.find sourceId).isSome) ∧
      ∀ grant ∈ db.agentToolGrants.rows, (db.toolDefinitions.find grant.toolDefinitionId).isSome)
    ⟨fun h => ⟨h.1, h.2⟩, fun h => ⟨h.1, h.2⟩⟩

instance : Schema CatalogTables where
  References := CatalogTables.References
  decReferences db := db.decidableReferences

instance : HasTable CatalogTables McpConnectionRow where
  table := CatalogTables.mcpConnections
  setTable t db := { db with mcpConnections := t }
  table_setTable _ _ := rfl

instance : HasTable CatalogTables PersistedToolDefinition where
  table := CatalogTables.toolDefinitions
  setTable t db := { db with toolDefinitions := t }
  table_setTable _ _ := rfl

instance : HasTable CatalogTables AgentToolGrantRecord where
  table := CatalogTables.agentToolGrants
  setTable t db := { db with agentToolGrants := t }
  table_setTable _ _ := rfl

variable (db : CatalogTables)

@[simp] theorem table_mcpConnection : table db = db.mcpConnections := rfl

abbrev CatalogDatabase := Consistent CatalogTables

theorem CatalogTables.references_empty : ({} : CatalogTables).References where
  definitionSource _ h := nomatch h
  grantDefinition _ h := nomatch h

def CatalogDatabase.empty : CatalogDatabase :=
  ⟨{}, CatalogTables.references_empty⟩

abbrev CatalogConnection := Tx CatalogTables McpConnectionError

end NervOS

namespace NervOS

open Relational

/-- `source_kind = 'mcp' AND source_id = connection_id`. -/
def PersistedToolDefinition.From (connectionId : Nat) (definition : PersistedToolDefinition) :
    Prop :=
  definition.sourceKind = .mcp ∧ definition.sourceId = some connectionId

instance (connectionId : Nat) : DecidablePred (PersistedToolDefinition.From connectionId) :=
  fun _ => inferInstanceAs (Decidable (_ ∧ _))

def McpConnectionRow.Owned (connectionId ownerUserId : Nat) (connection : McpConnectionRow) :
    Prop :=
  connection.id = connectionId ∧ connection.ownerUserId = ownerUserId

instance (connectionId ownerUserId : Nat) :
    DecidablePred (McpConnectionRow.Owned connectionId ownerUserId) :=
  fun _ => inferInstanceAs (Decidable (_ ∧ _))

/-- `get`: a foreign row is no row. -/
def CatalogTables.getConnection (db : CatalogTables) (connectionId ownerUserId : Nat) :
    Option McpConnectionRow :=
  (db.mcpConnections.find connectionId).filter fun connection =>
    connection.ownerUserId = ownerUserId

def CatalogTables.definitionsFrom (db : CatalogTables) (connectionId : Nat) :
    List PersistedToolDefinition :=
  db.toolDefinitions.rows.filter (PersistedToolDefinition.From connectionId)

def createMcpConnection (ownerUserId : Nat) (displayName : String) (transport : ConnectionTransport)
    (endpoint serverKey credentialRef : Option String) (now : Instant) :
    CatalogConnection Nat :=
  Tx.insert fun id => ({
    id := id
    ownerUserId := ownerUserId
    displayName := displayName
    transport := transport
    endpoint := endpoint
    serverKey := serverKey
    credentialRef := credentialRef
    enabled := true
    catalogStatus := .needsRefresh
    lastDiscoveryAt := none
    lastErrorCode := none
    lastErrorMessage := none
    createdAt := now
    updatedAt := now } : McpConnectionRow)

/-- One owner-scoped statement on a connection; `true` when it met the row. -/
def amendConnection (connectionId ownerUserId : Nat) (f : McpConnectionRow → McpConnectionRow) :
    CatalogConnection Bool := do
  let count ← Tx.update (McpConnectionRow.Owned connectionId ownerUserId) f
  return count = 1

def setDisplayName (connectionId ownerUserId : Nat) (displayName : String) (now : Instant) :
    CatalogConnection Bool :=
  amendConnection connectionId ownerUserId fun connection =>
    { connection with displayName := displayName, updatedAt := now }

def setDisabled (connectionId ownerUserId : Nat) (now : Instant) : CatalogConnection Bool :=
  amendConnection connectionId ownerUserId fun connection =>
    { connection with enabled := false, catalogStatus := .disabled, updatedAt := now }

/-- `_mark_definitions_unavailable`. -/
def markDefinitionsUnavailable (connectionId : Nat) (now : Instant) : CatalogConnection Unit := do
  let _ ← Tx.update
    (fun definition : PersistedToolDefinition =>
      definition.From connectionId ∧ definition.material.status ≠ .unavailable)
    fun definition =>
      { definition with
        material := { definition.material with status := .unavailable }
        updatedAt := now }

def amendAndWithdraw (connectionId ownerUserId : Nat) (now : Instant)
    (f : McpConnectionRow → McpConnectionRow) : CatalogConnection Bool := do
  let met ← amendConnection connectionId ownerUserId f
  if met then
    markDefinitionsUnavailable connectionId now
    return true
  else return false

def setReenabled (connectionId ownerUserId : Nat) (now : Instant) : CatalogConnection Bool :=
  amendAndWithdraw connectionId ownerUserId now fun connection =>
    { connection with
      enabled := true
      catalogStatus := .needsRefresh
      lastErrorCode := none
      lastErrorMessage := none
      updatedAt := now }

/-- What a reported definition changes of a row: all but the name that models know. -/
def PersistedToolDefinition.amended (definition : PersistedToolDefinition)
    (material : ToolDefinitionMaterial) (now : Instant) : PersistedToolDefinition :=
  { definition with
    material :=
      { definition.material with
        displayName := material.displayName
        description := material.description
        inputSchema := material.inputSchema
        outputSchema := material.outputSchema
        fingerprint := material.fingerprint
        status := material.status
        riskHints := material.riskHints }
    updatedAt := now }

/-- The row says what was reported, whatever its model name. -/
def PersistedToolDefinition.Tells (definition : PersistedToolDefinition)
    (material : ToolDefinitionMaterial) : Prop :=
  definition.material.displayName = material.displayName ∧
    definition.material.description = material.description ∧
    definition.material.inputSchema = material.inputSchema ∧
    definition.material.outputSchema = material.outputSchema ∧
    definition.material.fingerprint = material.fingerprint ∧
    definition.material.status = material.status ∧
    definition.material.riskHints = material.riskHints

instance (definition : PersistedToolDefinition) : DecidablePred definition.Tells :=
  fun _ => inferInstanceAs (Decidable (_ ∧ _ ∧ _ ∧ _ ∧ _ ∧ _ ∧ _))

/-- One reported definition: a new row, nothing where nothing changed, or an amended row. -/
def reconcileOne (existing : List PersistedToolDefinition) (connectionId : Nat) (now : Instant)
    (material : ToolDefinitionMaterial) : CatalogConnection Unit :=
  match existing.find? fun row => row.material.upstreamName = material.upstreamName with
  | none => do
    let _ ← Tx.insert fun id => ({
      id := id
      sourceKind := .mcp
      sourceId := some connectionId
      material := material
      createdAt := now
      updatedAt := now } : PersistedToolDefinition)
  | some row =>
    if row.Tells material then pure ()
    else do
      let _ ← Tx.update (fun definition : PersistedToolDefinition => definition.id = row.id)
        fun definition => definition.amended material now

def reconcileEach (existing : List PersistedToolDefinition) (connectionId : Nat) (now : Instant) :
    List ToolDefinitionMaterial → CatalogConnection Unit
  | [] => pure ()
  | material :: materials => do
    reconcileOne existing connectionId now material
    reconcileEach existing connectionId now materials

/-- The names that the connection had and that were not reported again. -/
def goneNames (existing : List PersistedToolDefinition)
    (materials : List ToolDefinitionMaterial) : List String :=
  (existing.map (·.material.upstreamName)).filter fun name => name ∉ upstreamNames materials

def withdrawGone (connectionId : Nat) (now : Instant) (gone : List String) :
    CatalogConnection Unit :=
  if gone = [] then pure ()
  else do
    let _ ← Tx.update
      (fun definition : PersistedToolDefinition =>
        definition.From connectionId ∧ definition.material.upstreamName ∈ gone ∧
          definition.material.status ≠ .unavailable)
      fun definition =>
        { definition with
          material := { definition.material with status := .unavailable }
          updatedAt := now }

/-- `_reconcile`. -/
def reconcile (connectionId : Nat) (materials : List ToolDefinitionMaterial) (now : Instant) :
    CatalogConnection Unit := do
  let existing ← Tx.query fun db => db.definitionsFrom connectionId
  reconcileEach existing connectionId now materials
  withdrawGone connectionId now (goneNames existing materials)

def McpConnectionRow.verified (now : Instant) (connection : McpConnectionRow) :
    McpConnectionRow :=
  { connection with
    catalogStatus := .connected
    lastDiscoveryAt := some now
    lastErrorCode := none
    lastErrorMessage := none
    updatedAt := now }

def recordCatalog (connectionId : Nat) (materials : List ToolDefinitionMaterial)
    (now : Instant) : CatalogConnection Bool := do
  reconcile connectionId materials now
  let _ ← Tx.update (fun connection : McpConnectionRow => connection.id = connectionId)
    (McpConnectionRow.verified now)
  return true

/-- `record_discovery_success` of a `connected` verdict. -/
def recordDiscoverySuccess (connectionId ownerUserId : Nat)
    (materials : List ToolDefinitionMaterial) (now : Instant) : CatalogConnection Bool := do
  let row ← Tx.query fun db => db.getConnection connectionId ownerUserId
  if row.isNone then return false
  else recordCatalog connectionId materials now

def recordDiscoveryFailure (connectionId ownerUserId : Nat) (errorCode errorMessage : String)
    (now : Instant) : CatalogConnection Bool :=
  amendAndWithdraw connectionId ownerUserId now fun connection =>
    { connection with
      catalogStatus := .unavailable
      lastErrorCode := some errorCode
      lastErrorMessage := some errorMessage
      updatedAt := now }

end NervOS
