/-
The Worker's decoding of a package's step result.  The package proposes; the
decoding binds: revision, digests and pinned identity are decided here.
-/
import NervOS.Database.WorkflowSteps

namespace NervOS

/-- The message of a refused package frame. -/
abbrev HostProtocolError := String

abbrev JsonMembers := List (String × Json.Value)

def boundedCheckpoint (value : Option Json.Value) (field : String) :
    Except HostProtocolError FrozenState :=
  match value.getD (.obj []) with
  | .obj members =>
    if checkpointMaxBytes < utf8Length (Json.canonicalText (.obj members)) then
      .error (field ++ " exceeds the checkpoint bound")
    else (freezeState (.obj members)).elim (.error "workflow result is invalid") .ok
  | .null | .bool _ | .int _ | .float _ | .str _ | .arr _ =>
    .error (field ++ " must be an object")

def validDirective (fields : DirectiveFields) : Except HostProtocolError WorkflowDirective :=
  if hvalid : fields.Valid then .ok ⟨fields, hvalid⟩ else .error "workflow result is invalid"

def defaultExpiresSeconds : Int := 900
def minExpiresSeconds : Int := 60

/-- How long a proposal stays open, in seconds. -/
def decisionExpiry (item : JsonMembers) : Except HostProtocolError Int :=
  match (item.lookup "expires_in_seconds").getD (.int defaultExpiresSeconds) with
  | .int count =>
    if count < minExpiresSeconds then .error "decision expiry is out of bounds" else .ok count
  | .null | .bool _ | .float _ | .str _ | .arr _ | .obj _ =>
    .error "decision expiry is out of bounds"

def decisionIdentity (item : JsonMembers) : Except HostProtocolError (String × Nat) :=
  match item.lookup "upstream_name", item.lookup "tool_definition_id" with
  | some (.str upstream), some (.int tool) =>
    if tool ≤ 0 then .error "decision identity is malformed" else .ok (upstream, tool.toNat)
  | _, _ => .error "decision identity is malformed"

def decisionRequest (item : JsonMembers) (snapshot : WorkflowStepSnapshot)
    (executable : ExecutableSnapshot) (decodedAt : Instant) :
    Except HostProtocolError (DecisionKey × WorkflowDecisionRequest) := do
  let expires ← decisionExpiry item
  let (upstream, tool) ← decisionIdentity item
  let arguments ← boundedCheckpoint (item.lookup "arguments") "decision arguments"
  let preview ← boundedCheckpoint (item.lookup "preview") "decision preview"
  if hbounds : 0 < tool ∧ 1 ≤ upstream.toList.length ∧ upstream.toList.length ≤ 128 then
    .ok (.digest (.text (Json.canonicalText
        (.obj [("arguments", arguments.1), ("upstream_name", .str upstream)]))),
      { checkpointRevision := snapshot.checkpointRevision
        toolDefinitionId := tool
        upstreamName := upstream
        actionFingerprint := .text (Json.canonicalText
          (.obj [("tool_definition_id", .int tool), ("upstream_name", .str upstream)]))
        arguments := arguments.1
        argumentsDigest := decisionArgumentsDigest arguments.1
        preview := preview
        packageContentDigest := executable.packageContentDigest
        effectiveConfigDigest := executable.effectiveConfigDigest
        expiresAt := decodedAt + seconds expires
        definitionPositive := hbounds.1
        upstreamBounds := hbounds.2
        digested := rfl
        measured := arguments.2.measured })
  else .error "workflow result is invalid"

def workflowDirective (value : JsonMembers) (snapshot : WorkflowStepSnapshot)
    (executable : ExecutableSnapshot) (decodedAt : Instant) :
    Except HostProtocolError (WorkflowDirective × Option WorkflowDecisionRequest) :=
  match value.lookup "kind" with
  | some (.str "complete") => do
    let directive ← validDirective { kind := .complete }
    .ok (directive, none)
  | some (.str "next") => do
    let directive ← validDirective { kind := .next }
    .ok (directive, none)
  | some (.str "wait") =>
    match value.lookup "wait_kind" with
    | some (.str "time") =>
      match value.lookup "wait_seconds" with
      | some (.int count) => do
        if count < 1 then .error "a time wait requires a positive wait_seconds"
        else do
          let directive ← validDirective
            { kind := .wait, waitKind := some .time, waitSeconds := some count.toNat }
          .ok (directive, none)
      | _ => .error "a time wait requires a positive wait_seconds"
    | some (.str "signal") =>
      match value.lookup "signal_key" with
      | some (.str key) =>
        if key = "" then .error "a signal wait requires a signal_key"
        else do
          let directive ← validDirective
            { kind := .wait, waitKind := some .signal, signalKey := some key }
          .ok (directive, none)
      | _ => .error "a signal wait requires a signal_key"
    | some (.str "owner_decision") =>
      match value.lookup "decision" with
      | some (.obj item) => do
        let (decisionKey, request) ← decisionRequest item snapshot executable decodedAt
        let directive ← validDirective
          { kind := .wait, waitKind := some .ownerDecision
            decisionKey := some decisionKey }
        .ok (directive, some request)
      | _ => .error "a decision wait requires a decision proposal"
    | _ => .error "workflow wait kind is not supported"
  | _ => .error "workflow directive kind is not supported"

/-- A summary is absent, or safe and bounded. -/
def decodedSummary : Option Json.Value →
    Except HostProtocolError { summary : Option String // ∀ text ∈ summary, ValidSummary text }
  | none | some .null => .ok ⟨none, noSummary_valid⟩
  | some (.str text) =>
    if hvalid : ValidSummary text then
      .ok ⟨some text, fun _ htext => Option.some.inj htext ▸ hvalid⟩
    else .error "workflow step summary is out of bounds"
  | some _ => .error "workflow step summary is out of bounds"

def validResult (directive : WorkflowDirective) (state : FrozenState)
    (summary : { summary : Option String // ∀ text ∈ summary, ValidSummary text })
    (request : Option WorkflowDecisionRequest) : Except HostProtocolError WorkflowStepResult :=
  if hshape : (directive.kind = .wait → directive.waitKind = some .ownerDecision →
        request.isSome = true) ∧ (request.isSome = true → directive.kind = .wait) then
    .ok {
      directive := directive
      state := state
      summary := summary.1
      decisionRequest := request
      summaryValid := summary.2
      requested := fun hkind hwait => Option.isSome_iff_ne_none.mp (hshape.1 hkind hwait)
      waited := fun hrequest => hshape.2 (Option.isSome_iff_ne_none.mpr hrequest) }
  else .error "workflow result is invalid"

/-- Validate a package's step outcome at the Worker boundary, before any fenced write. -/
def workflowStepResult (value : Option Json.Value) (snapshot : Option WorkflowStepSnapshot)
    (executable : ExecutableSnapshot) (decodedAt : Instant) :
    Except HostProtocolError (Option WorkflowStepResult) :=
  match snapshot, value with
  | none, none | none, some .null => .ok none
  | none, some _ => .error "an ordinary Run may not return a workflow result"
  | some snapshot, some (.obj payload) =>
    match payload.lookup "directive" with
    | some (.obj directive) => do
      let summary ← decodedSummary (payload.lookup "summary")
      let (resolved, request) ← workflowDirective directive snapshot executable decodedAt
      let state ← boundedCheckpoint (payload.lookup "state") "state"
      let result ← validResult resolved state summary request
      .ok (some result)
    | _ => .error "a workflow result requires a directive"
  | some _, _ => .error "a workflow step must return a workflow result"

end NervOS
