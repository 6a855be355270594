/-
The discovery of a server's catalog: every page of `tools/list` under the guards of the loop, and
the material that each listed tool becomes.  The server is whatever answers the requests, so what
it says next may depend on everything that it was asked before.
-/
import NervOS.Application.ToolSchema
import NervOS.Domain.Triggers
import NervOS.Guarantees.CanonicalJson
import NervOS.Guarantees.ToolNames

namespace NervOS

namespace Discovery

open Python StateCodec SchemaGate CanonicalJson ToolNames

/-- The hints of an annotated tool; what the server leaves out is `None`. -/
structure Annotations where
  readOnlyHint : Option Bool
  destructiveHint : Option Bool
  idempotentHint : Option Bool
  openWorldHint : Option Bool

/-- One tool as the client library hands it over. -/
structure RemoteTool where
  name : String
  title : Option String
  description : Option String
  inputSchema : Members
  outputSchema : Option Members
  annotations : Option Annotations

def maxDisplayNameChars : Nat := 100

/-- The closed empty object, in place of a schema that is not admitted. -/
def unsupportedSchemaSentinel : String :=
  "\x7b\"additionalProperties\":false,\"properties\":\x7b\x7d,\"type\":\"object\"\x7d"

/-- `_display_name` -/
def displayName (tool : RemoteTool) (upstreamName : String) : String :=
  let bounded := String.ofList (upstreamName.toList.take maxDisplayNameChars)
  match tool.title with
  | none => bounded
  | some title =>
    let candidate := Text.trim isPythonSpace title.toList
    if 1 ≤ candidate.length ∧ candidate.length ≤ maxDisplayNameChars then String.ofList candidate
    else bounded

/-- `_risk_hints`: without annotations the defaults; in them, `bool(None)` is false. -/
def riskHints (tool : RemoteTool) : RiskHints :=
  match tool.annotations with
  | none => {}
  | some annotations =>
    { readOnly := annotations.readOnlyHint.getD false
      destructive := annotations.destructiveHint.getD false
      idempotent := annotations.idempotentHint.getD false
      openWorld := annotations.openWorldHint.getD false }

/-- `_canonical_schema_text`; nothing at all where an exception of a builtin leaves it. -/
def canonicalSchemaText : Option Members → Option (Option String)
  | none => some none
  | some schema =>
    match validateJsonValue some StateCodec.jsonValueMaxDepth (.mapping .plain schema)
      (text "$.schema") 0 with
    | some _ => some none
    | none =>
      match validateCanonicalSchema (.mapping .plain schema) with
      | .error .raised => none
      | .error (.rejected _) => some none
      | .ok _ => (canonicalJsonText (.mapping .plain schema)).map some

/-- `ToolSourceRef(ToolSourceKind.MCP, connection_id)` -/
def mcpSource (connectionId : Nat) : Option ToolSourceRef :=
  if h : 0 < connectionId then some ⟨.mcp, some connectionId, connectionId, rfl, h⟩ else none

/-- `json.loads` of a stored schema. -/
def storedSchema (py : Interpreter) (stored : String) : Option Members :=
  match loadsWith py lastMembers stored with
  | .ok (.mapping .plain members) => some members
  | _ => none

/-- `normalize_tool`; nothing where an exception leaves it. -/
def normalizeTool (py : Interpreter) (lower : Text → Text) (sha256Hex : String → String)
    (tool : RemoteTool) (connectionId : Nat) (upstreamName : String) :
    Option ToolDefinitionMaterial := do
  let inputSchemaText ← canonicalSchemaText (some tool.inputSchema)
  let outputSchemaText ← canonicalSchemaText tool.outputSchema
  let admissible :=
    inputSchemaText.isSome && (tool.outputSchema.isNone || outputSchemaText.isSome)
  let storedInput :=
    if admissible then inputSchemaText.getD unsupportedSchemaSentinel
    else unsupportedSchemaSentinel
  let storedOutput := if admissible then outputSchemaText else none
  let description := tool.description.getD ""
  let source ← mcpSource connectionId
  let name ← (modelToolName lower sha256Hex source (text upstreamName)).toOption
  let inputSchema ← storedSchema py storedInput
  let outputSchema ← storedOutput.mapM (storedSchema py)
  let reviewed : ReviewedDefinition :=
    { modelName := text name, upstreamName := text upstreamName,
      description := text description, inputSchema, outputSchema, sourceKind := .mcp,
      sourceId := some connectionId, riskHints := riskHints tool }
  let payload ← canonicalJsonText (fingerprintPayload reviewed)
  some
    { upstreamName, modelName := name, displayName := displayName tool upstreamName, description
      inputSchema := storedInput, outputSchema := storedOutput, fingerprint := .text payload
      status := if admissible then .available else .unsupportedSchema
      riskHints := riskHints tool }

section Pages

def maxDiscoveryTools : Nat := 128

def maxDiscoveryPages : Nat := 128

/-- `McpErrorCode`, as far as a discovery brings it up by itself. -/
inductive McpErrorCode where
  | protocolUnsupported
  | serverUnavailable
  | discoveryTimeout
  | catalogInvalid
  | catalogTooLarge
  | refused (code : String)
deriving DecidableEq

/-- How an await of a discovery fails: with an error of the adapter, at the deadline, cancelled,
or otherwise. -/
inductive ClientFailure where
  | mcp (code : McpErrorCode)
  | timeout
  | cancelled
  | other
deriving DecidableEq

/-- The answer to one `tools/list`. -/
structure CatalogPage where
  tools : List RemoteTool
  nextCursor : Option String

/-- A server: what it answers to the last of the requests made so far, each with its cursor. -/
abbrev Server : Type := List (Option String) → Except ClientFailure CatalogPage

/-- The variables of the loop; `pages` is the number of the requests that were made. -/
structure Collection where
  collected : List RemoteTool := []
  seenCursors : List String := []
  cursor : Option String := none
  requests : List (Option String) := []

/-- The requests, with the one that is made now. -/
def Collection.asked (state : Collection) : List (Option String) :=
  state.requests ++ [state.cursor]

@[simp] theorem Collection.length_asked (state : Collection) :
    state.asked.length = state.requests.length + 1 := by
  simp [asked]

inductive Iteration where
  | again (next : Collection)
  | done (result : Except ClientFailure (List RemoteTool))

/-- One iteration of `_collect_tools`, after the answer. -/
def readPage (state : Collection) (page : CatalogPage) : Iteration :=
  let collected := state.collected ++ page.tools
  if maxDiscoveryTools < collected.length then .done (.error (.mcp .catalogTooLarge))
  else
    match page.nextCursor with
    | none => .done (.ok collected)
    | some nextCursor =>
      -- the remote catalog holds more than the bound
      if maxDiscoveryTools ≤ collected.length then .done (.error (.mcp .catalogTooLarge))
      else if nextCursor ∈ state.seenCursors then .done (.error (.mcp .catalogInvalid))
      else if maxDiscoveryPages ≤ state.asked.length then .done (.error (.mcp .catalogInvalid))
      else
        .again ⟨collected, state.seenCursors ++ [nextCursor], some nextCursor, state.asked⟩

/-- When the loop goes on, and with what. -/
structure Continues (state : Collection) (page : CatalogPage) (nextCursor : String) : Prop where
  next : page.nextCursor = some nextCursor
  room : (state.collected ++ page.tools).length < maxDiscoveryTools
  fresh : nextCursor ∉ state.seenCursors
  pages : state.asked.length < maxDiscoveryPages

variable {state next : Collection} {page : CatalogPage} {tools : List RemoteTool}

theorem readPage_again : readPage state page = .again next ↔
    ∃ nextCursor, Continues state page nextCursor ∧ next =
      ⟨state.collected ++ page.tools, state.seenCursors ++ [nextCursor], some nextCursor,
        state.asked⟩ := by
  constructor
  · intro h
    cases hnext : page.nextCursor with
    | none =>
      simp only [readPage, hnext] at h
      split_ifs at h
    | some nextCursor =>
      simp only [readPage, hnext] at h
      split_ifs at h with hsize hroom hseen hpages
      cases h
      exact ⟨nextCursor, ⟨hnext, not_le.mp hroom, hseen, not_le.mp hpages⟩, rfl⟩
  · rintro ⟨nextCursor, hgo, rfl⟩
    simp only [readPage, hgo.next, if_neg (not_lt.mpr hgo.room.le),
      if_neg (not_le.mpr hgo.room), if_neg hgo.fresh, if_neg (not_le.mpr hgo.pages)]

theorem readPage_ok : readPage state page = .done (.ok tools) ↔
    page.nextCursor = none ∧ tools = state.collected ++ page.tools ∧
      tools.length ≤ maxDiscoveryTools := by
  constructor
  · intro h
    cases hnext : page.nextCursor with
    | none =>
      simp only [readPage, hnext] at h
      split_ifs at h with hsize
      · cases h
      · cases h
        exact ⟨rfl, rfl, not_lt.mp hsize⟩
    | some nextCursor =>
      simp only [readPage, hnext] at h
      split_ifs at h <;> cases h
  · rintro ⟨hnext, rfl, hsize⟩
    simp only [readPage, hnext, if_neg (not_lt.mpr hsize)]

/-- `_collect_tools`, with the requests that it makes. -/
def collectFrom (server : Server) (state : Collection) :
    List (Option String) × Except ClientFailure (List RemoteTool) :=
  match server state.asked with
  | .error failure => (state.asked, .error failure)
  | .ok page =>
    match _hpage : readPage state page with
    | .done result => (state.asked, result)
    | .again next => collectFrom server next
termination_by maxDiscoveryPages - state.requests.length
decreasing_by
  obtain ⟨nextCursor, hgo, rfl⟩ := readPage_again.mp ‹_›
  have hpages := hgo.pages
  rw [state.length_asked] at hpages ⊢
  omega

def collectTools (server : Server) :
    List (Option String) × Except ClientFailure (List RemoteTool) :=
  collectFrom server {}

end Pages

section Listings

def toolsOf (pages : List CatalogPage) : List RemoteTool :=
  pages.flatMap (·.tools)

inductive Lists (server : Server) : List (Option String) → List CatalogPage → Prop where
  | last {asked : List (Option String)} {page : CatalogPage} (hpage : server asked = .ok page)
      (hlast : page.nextCursor = none) : Lists server asked [page]
  | more {asked : List (Option String)} {page : CatalogPage} {nextCursor : String}
      {rest : List CatalogPage} (hpage : server asked = .ok page)
      (hnext : page.nextCursor = some nextCursor)
      (hrest : Lists server (asked ++ [some nextCursor]) rest) : Lists server asked (page :: rest)

structure ReadsFrom (server : Server) (state : Collection) (pages : List CatalogPage) : Prop where
  lists : Lists server state.asked pages
  cursors : (state.seenCursors ++ pages.filterMap (·.nextCursor)).Nodup
  requests : state.requests.length + pages.length ≤ maxDiscoveryPages
  tools : (state.collected ++ toolsOf pages).length ≤ maxDiscoveryTools
  pending : (state.collected ++ toolsOf pages.dropLast).length < maxDiscoveryTools

variable {server : Server} {state next : Collection} {page : CatalogPage}
  {pages rest : List CatalogPage} {tools : List RemoteTool}

theorem Lists.ne_nil {asked : List (Option String)} (h : Lists server asked pages) :
    pages ≠ [] := by
  cases h <;> simp

theorem readsFrom_last (hpage : server state.asked = .ok page) (hlast : page.nextCursor = none) :
    ReadsFrom server state pages ↔ pages = [page] ∧ state.seenCursors.Nodup ∧
      state.asked.length ≤ maxDiscoveryPages ∧ state.collected.length < maxDiscoveryTools ∧
      (state.collected ++ page.tools).length ≤ maxDiscoveryTools := by
  constructor
  · rintro ⟨hlists, hcursors, hrequests, htools, hpending⟩
    cases hlists with
    | last hother _ =>
      cases hpage.symm.trans hother
      simp only [List.filterMap_cons, hlast, List.filterMap_nil, List.append_nil] at hcursors
      simp only [toolsOf, List.flatMap_cons, List.flatMap_nil, List.append_nil] at htools
      exact ⟨rfl, hcursors, by simpa using hrequests, by simpa [toolsOf] using hpending, htools⟩
    | more hother hnext _ =>
      cases hpage.symm.trans hother
      cases hlast.symm.trans hnext
  · rintro ⟨rfl, hcursors, hrequests, hpending, htools⟩
    exact
      { lists := .last hpage hlast
        cursors := by simpa [hlast] using hcursors
        requests := by simpa using hrequests
        tools := by simpa [toolsOf] using htools
        pending := by simpa [toolsOf] using hpending }

theorem readsFrom_more {nextCursor : String} (hpage : server state.asked = .ok page)
    (hnext : page.nextCursor = some nextCursor) :
    ReadsFrom server state pages ↔ Continues state page nextCursor ∧ ∃ rest,
      pages = page :: rest ∧ ReadsFrom server
        ⟨state.collected ++ page.tools, state.seenCursors ++ [nextCursor], some nextCursor,
          state.asked⟩ rest := by
  constructor
  · rintro ⟨hlists, hcursors, hrequests, htools, hpending⟩
    cases hlists with
    | last hother hlast =>
      cases hpage.symm.trans hother
      cases hlast.symm.trans hnext
    | @more _ other cursor rest hother hcursor hrest =>
      cases hpage.symm.trans hother
      cases hnext.symm.trans hcursor
      have hpositive := List.length_pos_iff.mpr hrest.ne_nil
      have hcons : (page :: rest).dropLast = page :: rest.dropLast :=
        List.dropLast_cons_of_ne_nil hrest.ne_nil
      rw [hcons, toolsOf, List.flatMap_cons, ← List.append_assoc] at hpending
      rw [List.filterMap_cons_some hnext, List.append_cons] at hcursors
      rw [toolsOf, List.flatMap_cons, ← List.append_assoc] at htools
      rw [List.length_cons] at hrequests
      have hfresh : nextCursor ∉ state.seenCursors := by
        intro hseen
        have hsplit := (List.nodup_append.mp (List.nodup_append.mp hcursors).1).2.2
        exact hsplit nextCursor hseen nextCursor (List.mem_singleton.mpr rfl) rfl
      refine ⟨⟨hnext, ?_, hfresh, ?_⟩, rest, rfl, hrest, hcursors, ?_, htools, hpending⟩
      · rw [List.length_append] at hpending
        omega
      · rw [state.length_asked]
        omega
      · rw [state.length_asked]
        omega
  · rintro ⟨hgo, rest, rfl, hlists, hcursors, hrequests, htools, hpending⟩
    dsimp only at hcursors hrequests htools hpending
    rw [List.append_assoc] at hcursors htools hpending
    refine ⟨.more hpage hnext hlists, ?_, ?_, htools, ?_⟩
    · rw [List.filterMap_cons_some hnext]
      exact hcursors
    · rw [state.length_asked] at hrequests
      rw [List.length_cons]
      omega
    · rw [List.dropLast_cons_of_ne_nil hlists.ne_nil]
      exact hpending

theorem collectFrom_done {result : Except ClientFailure (List RemoteTool)}
    (hpage : server state.asked = .ok page) (hdone : readPage state page = .done result) :
    collectFrom server state = (state.asked, result) := by
  rw [collectFrom, hpage]
  dsimp only
  split
  case h_1 other hother =>
    cases hdone.symm.trans hother
    rfl
  case h_2 next hagain => cases hdone.symm.trans hagain

theorem collectFrom_again (hpage : server state.asked = .ok page)
    (hagain : readPage state page = .again next) :
    collectFrom server state = collectFrom server next := by
  rw [collectFrom, hpage]
  dsimp only
  split
  case h_1 other hdone => cases hagain.symm.trans hdone
  case h_2 other hother =>
    cases hagain.symm.trans hother
    rfl

theorem collectFrom_ok (server : Server) (state : Collection)
    (hcursors : state.seenCursors.Nodup) (hpages : state.requests.length < maxDiscoveryPages)
    (hroom : state.collected.length < maxDiscoveryTools) :
    (collectFrom server state).2 = .ok tools ↔
      ∃ pages, ReadsFrom server state pages ∧ tools = state.collected ++ toolsOf pages := by
  induction state using collectFrom.induct server with
  | case1 state failure hfailure =>
    rw [collectFrom, hfailure]
    constructor
    · intro h
      cases h
    · rintro ⟨pages, hreads, -⟩
      cases hreads.lists with
      | last hpage | more hpage => cases hfailure.symm.trans hpage
  | case2 state page hpage result hdone =>
    rw [collectFrom_done hpage hdone]
    dsimp only
    constructor
    · rintro rfl
      obtain ⟨hlast, rfl, hsize⟩ := readPage_ok.mp hdone
      refine ⟨[page], (readsFrom_last hpage hlast).mpr ⟨rfl, hcursors, ?_, hroom, hsize⟩, ?_⟩
      · rw [state.length_asked]
        exact hpages
      · rw [toolsOf, List.flatMap_singleton]
    · rintro ⟨pages, hreads, rfl⟩
      cases hnext : page.nextCursor with
      | none =>
        obtain ⟨rfl, -, -, -, hsize⟩ := (readsFrom_last hpage hnext).mp hreads
        have hok := readPage_ok.mpr ⟨hnext, rfl, hsize⟩
        cases hdone.symm.trans hok
        rw [toolsOf, List.flatMap_singleton]
      | some nextCursor =>
        obtain ⟨hgo, -⟩ := (readsFrom_more hpage hnext).mp hreads
        cases hdone.symm.trans (readPage_again.mpr ⟨nextCursor, hgo, rfl⟩)
  | case3 state page hpage next hagain ih =>
    rw [collectFrom_again hpage hagain]
    obtain ⟨nextCursor, hgo, rfl⟩ := readPage_again.mp hagain
    have hnodup : (state.seenCursors ++ [nextCursor]).Nodup :=
      List.nodup_append.mpr ⟨hcursors, List.nodup_singleton nextCursor, by
        rintro seen hseen other hother rfl
        exact hgo.fresh (List.mem_singleton.mp hother ▸ hseen)⟩
    rw [ih hnodup hgo.pages hgo.room]
    constructor
    · rintro ⟨rest, hrest, rfl⟩
      refine ⟨page :: rest, (readsFrom_more hpage hgo.next).mpr ⟨hgo, rest, rfl, hrest⟩, ?_⟩
      rw [toolsOf, toolsOf, List.flatMap_cons, List.append_assoc]
    · rintro ⟨pages, hreads, rfl⟩
      obtain ⟨-, rest, rfl, hrest⟩ := (readsFrom_more hpage hgo.next).mp hreads
      refine ⟨rest, hrest, ?_⟩
      rw [toolsOf, toolsOf, List.flatMap_cons, List.append_assoc]

theorem length_requests (server : Server) (state : Collection)
    (hpages : state.requests.length < maxDiscoveryPages) :
    (collectFrom server state).1.length ≤ maxDiscoveryPages := by
  induction state using collectFrom.induct server with
  | case1 state failure hfailure =>
    rw [collectFrom, hfailure]
    exact (state.length_asked).trans_le hpages
  | case2 state page hpage result hdone =>
    rw [collectFrom_done hpage hdone]
    exact (state.length_asked).trans_le hpages
  | case3 state page hpage next hagain ih =>
    rw [collectFrom_again hpage hagain]
    obtain ⟨nextCursor, hgo, rfl⟩ := readPage_again.mp hagain
    exact ih hgo.pages

end Listings

structure Client where
  connect : Except ClientFailure String
  listTools : Server
  close : Except ClientFailure Unit

/-- How `discover_tools` fails; `raised` is an exception of a builtin. -/
inductive DiscoveryFailure where
  | mcp (code : McpErrorCode)
  | cancelled
  | raised
deriving DecidableEq

/-- The `except` clauses of `discover_tools`. -/
def ClientFailure.classified : ClientFailure → DiscoveryFailure
  | .mcp code => .mcp code
  | .timeout => .mcp .discoveryTimeout
  | .cancelled => .cancelled
  | .other => .mcp .serverUnavailable

/-- What is done while the client is open. -/
def useClient (latestModernVersion : String) (client : Client) (version : String) :
    Except ClientFailure (List RemoteTool) :=
  if version = latestModernVersion then (collectTools client.listTools).2
  else .error (.mcp .protocolUnsupported)

def readCatalog (latestModernVersion : String) (client : Client) :
    Except ClientFailure (List RemoteTool) := do
  let version ← client.connect
  client.close
  useClient latestModernVersion client version

variable (py : Interpreter) (lower : Text → Text) (sha256Hex : String → String)

def normalizeTools (connectionId : Nat) :
    List RemoteTool → Option (List ToolDefinitionMaterial)
  | [] => some []
  | tool :: rest => do
    let material ← normalizeTool py lower sha256Hex tool connectionId tool.name
    let materials ← normalizeTools connectionId rest
    some (material :: materials)

/-- `discover_tools` -/
def discoverTools (latestModernVersion : String) (client : Client) (connectionId : Nat) :
    Except DiscoveryFailure (List ToolDefinitionMaterial) :=
  match readCatalog latestModernVersion client with
  | .error failure => .error failure.classified
  | .ok remoteTools =>
    if (remoteTools.map (·.name)).Nodup then
      match normalizeTools py lower sha256Hex connectionId remoteTools with
      | some materials => .ok materials
      | none => .error .raised
    else .error (.mcp .catalogInvalid)

def Defines (connectionId : Nat) (tools : List RemoteTool)
    (materials : List ToolDefinitionMaterial) : Prop :=
  List.Forall₂
    (fun tool material =>
      normalizeTool py lower sha256Hex tool connectionId tool.name = some material ∧
        material.upstreamName = tool.name)
    tools materials

variable {py : Interpreter} {lower : Text → Text} {sha256Hex : String → String}
  {connectionId : Nat}

theorem normalizeTool_upstreamName {tool : RemoteTool} {upstreamName : String}
    {material : ToolDefinitionMaterial}
    (h : normalizeTool py lower sha256Hex tool connectionId upstreamName = some material) :
    material.upstreamName = upstreamName := by
  simp only [normalizeTool, Option.bind_eq_bind, Option.bind_eq_some_iff] at h
  obtain ⟨_, _, _, _, _, _, _, _, _, _, _, _, _, _, h⟩ := h
  cases h
  rfl

theorem normalizeTools_eq_some {tools : List RemoteTool}
    {materials : List ToolDefinitionMaterial} :
    normalizeTools py lower sha256Hex connectionId tools = some materials ↔
      Defines py lower sha256Hex connectionId tools materials := by
  induction tools generalizing materials with
  | nil =>
    rw [Defines, List.forall₂_nil_left_iff, normalizeTools, Option.some.injEq]
    exact eq_comm
  | cons tool rest ih =>
    simp only [Defines, List.forall₂_cons_left_iff, normalizeTools, Option.bind_eq_bind,
      Option.bind_eq_some_iff, ih]
    constructor
    · rintro ⟨material, hmaterial, others, hothers, hcons⟩
      cases hcons
      exact ⟨material, others, ⟨hmaterial, normalizeTool_upstreamName hmaterial⟩, hothers, rfl⟩
    · rintro ⟨material, others, ⟨hmaterial, -⟩, hothers, rfl⟩
      exact ⟨material, hmaterial, others, hothers, rfl⟩

theorem collectTools_ok {server : Server} {tools : List RemoteTool} :
    (collectTools server).2 = .ok tools ↔
      ∃ pages, ReadsFrom server {} pages ∧ tools = toolsOf pages :=
  collectFrom_ok server {} List.nodup_nil (by decide) (by decide)

theorem readCatalog_ok {latestModernVersion : String} {client : Client}
    {tools : List RemoteTool} :
    readCatalog latestModernVersion client = .ok tools ↔
      client.connect = .ok latestModernVersion ∧ client.close = .ok () ∧
        (collectTools client.listTools).2 = .ok tools := by
  rw [readCatalog]
  cases client.connect with
  | error failure => simp [bind, Except.bind]
  | ok version =>
    cases client.close with
    | error failure => simp [bind, Except.bind]
    | ok _ =>
      by_cases hversion : version = latestModernVersion
      · simp [bind, Except.bind, useClient, hversion]
      · simp [bind, Except.bind, useClient, hversion]

/-- A discovery makes a bounded number of requests, and returns a catalog exactly when the server
ended the listing by itself, within the bounds, without a repeated cursor and without a repeated
name: one definition for each listed tool, in the order of the pages. -/
theorem discoverTools_whole (latestModernVersion : String) (client : Client) :
    (collectTools client.listTools).1.length ≤ maxDiscoveryPages ∧
      ∀ materials,
        discoverTools py lower sha256Hex latestModernVersion client connectionId = .ok materials ↔
          client.connect = .ok latestModernVersion ∧ client.close = .ok () ∧
            ∃ pages, ReadsFrom client.listTools {} pages ∧
              ((toolsOf pages).map (·.name)).Nodup ∧
                Defines py lower sha256Hex connectionId (toolsOf pages) materials := by
  refine ⟨length_requests client.listTools {} (by decide), fun materials => ?_⟩
  rw [discoverTools]
  cases hread : readCatalog latestModernVersion client with
  | error failure =>
    constructor
    · intro h
      cases h
    · rintro ⟨hconnect, hclose, pages, hreads, -⟩
      have hok := readCatalog_ok.mpr
        ⟨hconnect, hclose, collectTools_ok.mpr ⟨pages, hreads, rfl⟩⟩
      cases hread.symm.trans hok
  | ok tools =>
    obtain ⟨hconnect, hclose, hcollect⟩ := readCatalog_ok.mp hread
    obtain ⟨pages, hreads, rfl⟩ := collectTools_ok.mp hcollect
    have hunique : ∀ others, ReadsFrom client.listTools {} others →
        toolsOf others = toolsOf pages := by
      intro others hothers
      have hok := collectTools_ok.mpr ⟨others, hothers, rfl⟩
      exact Except.ok.inj (hok.symm.trans hcollect)
    dsimp only
    constructor
    · intro h
      split_ifs at h with hnames
      cases hnormal : normalizeTools py lower sha256Hex connectionId (toolsOf pages) with
      | none =>
        rw [hnormal] at h
        cases h
      | some others =>
        rw [hnormal] at h
        cases h
        exact ⟨hconnect, hclose, pages, hreads, hnames, normalizeTools_eq_some.mp hnormal⟩
    · rintro ⟨-, -, others, hothers, hnames, hdefines⟩
      rw [hunique others hothers] at hnames hdefines
      rw [if_pos hnames, normalizeTools_eq_some.mpr hdefines]

end Discovery

end NervOS
