/-
When the catalog of an MCP connection is fresh: no verdict is written to a disabled
connection, nothing from before an enable becomes available after it, and no discovery
replaces one that started later.
-/
import NervOS.Refinement.Catalog

namespace NervOS

open Relational

structure CatalogHistory.Fresh (history : CatalogHistory) (db : CatalogTables) : Prop where
  disabled : ∀ connection ∈ db.mcpConnections.rows, connection.enabled = false →
    connection.catalogStatus = .disabled
  opened : ∀ definition ∈ db.toolDefinitions.rows, definition.material.status = .available →
    ∀ connectionId, definition.From connectionId →
      ∃ startedAt ∈ history.openedBy definition.id, history.enabledAt connectionId < startedAt
  ordered : ∀ verdict ∈ history.verdicts, ∀ replaced ∈ verdict.replaced,
    replaced ≤ verdict.startedAt

def ListsAvailable (response : Except DiscoveryError (List ToolDefinitionMaterial)) : Prop :=
  ∃ materials ∈ (discoveredCatalog response).toOption, ∃ material ∈ materials,
    material.status = .available

instance : DecidablePred ListsAvailable := fun response =>
  inferInstanceAs (Decidable (∃ materials ∈ (discoveredCatalog response).toOption,
    ∃ material ∈ materials, _))

namespace CatalogSystem

variable {system : CatalogSystem} {α : Type}

def Fresh (system : CatalogSystem) : Prop :=
  system.history.Fresh system.db.1

def TimelyVerdict (system : CatalogSystem)
    (response : Except DiscoveryError (List ToolDefinitionMaterial)) (refresh : Refresh) : Prop :=
  ∀ connection ∈ system.db.1.getConnection refresh.connectionId refresh.ownerUserId,
    connection.enabled = true ∧
      (ListsAvailable response →
        system.history.enabledAt refresh.connectionId < refresh.startedAt) ∧
      ∀ reflected ∈ system.history.reflects refresh.connectionId,
        reflected ≤ refresh.startedAt

instance (system : CatalogSystem) (response : Except DiscoveryError (List ToolDefinitionMaterial)) :
    DecidablePred (system.TimelyVerdict response) := fun refresh =>
  inferInstanceAs (Decidable (∀ connection ∈
    system.db.1.getConnection refresh.connectionId refresh.ownerUserId,
    connection.enabled = true ∧ (ListsAvailable response → _ < _) ∧
      ∀ reflected ∈ system.history.reflects refresh.connectionId, _ ≤ _))

def Timely (system : CatalogSystem) : CatalogOp → Prop
  | .discovered startedAt response =>
    ∀ refresh ∈ system.refreshing.find? (·.startedAt = startedAt),
      system.TimelyVerdict response refresh
  | _ => True

instance (system : CatalogSystem) : DecidablePred system.Timely
  | .discovered startedAt response => inferInstanceAs (Decidable
      (∀ refresh ∈ system.refreshing.find? (·.startedAt = startedAt),
        system.TimelyVerdict response refresh))
  | .createConnection .. | .updateDisplayName .. | .disableConnection ..
  | .enableConnection .. | .refresh .. | .cancelled .. | .grantTool .. | .revokeTool .. =>
    isTrue trivial

theorem commit_cases (system : CatalogSystem) (x : CatalogConnection α)
    (note : α → CatalogTables → CatalogHistory) :
    (∃ value db', x.Commits system.db value db' ∧
      system.commit x note = { system with db := db', history := note value db'.1 }) ∨
      system.commit x note = system := by
  rcases Tx.run_cases x system.db with ⟨value, db', hcommits, hrun⟩ | ⟨abort, hrun⟩
  · refine Or.inl ⟨value, db', hcommits, ?_⟩
    unfold commit
    rw [hrun]
  · refine Or.inr ?_
    unfold commit
    rw [hrun]

theorem commit_fresh {x : CatalogConnection α} {note : α → CatalogTables → CatalogHistory}
    (h : system.Fresh)
    (hcommit : ∀ value db', x.Commits system.db value db' → (note value db'.1).Fresh db'.1) :
    (system.commit x note).Fresh := by
  rcases system.commit_cases x note with ⟨value, db', hcommits, hstep⟩ | hstep
  · rw [hstep]
    exact hcommit value db' hcommits
  · rw [hstep]
    exact h

end CatalogSystem

namespace CatalogHistory

variable {history : CatalogHistory} {db db' : CatalogDatabase} {connectionId ownerUserId : Nat}
  {now : Instant} {clock : Nat}

theorem Fresh.amend {p : McpConnectionRow → Prop} [DecidablePred p]
    {f : McpConnectionRow → McpConnectionRow} (h : history.Fresh db.1)
    (hconnections : db'.1.mcpConnections.rows = db.1.mcpConnections.rows.map (Table.amend p f))
    (hdefinitions : db'.1.toolDefinitions = db.1.toolDefinitions)
    (hf : ∀ connection ∈ db.1.mcpConnections.rows, p connection →
      (f connection).enabled = false → (f connection).catalogStatus = .disabled) :
    history.Fresh db'.1 where
  disabled := by
    rw [hconnections]
    exact forall_mem_map_amend h.disabled hf
  opened := by
    rw [hdefinitions]
    exact h.opened
  ordered := h.ordered

theorem Fresh.created {connection : Nat → McpConnectionRow} (h : history.Fresh db.1)
    (hinserts : Tx.Inserts connection db db') (henabled : ∀ id, (connection id).enabled = true) :
    (history.enable db.1.mcpConnections.next clock).Fresh db'.1 := by
  have hdefinitions : db'.1.toolDefinitions = db.1.toolDefinitions := by
    obtain ⟨t', -, hstore⟩ := hinserts
    rw [hstore]
    rfl
  have hrows := hinserts.rows
  simp only [table_mcpConnection] at hrows
  constructor
  · rw [hrows]
    intro row hrow hdisabled
    rcases List.mem_append.mp hrow with hold | hnew
    · exact h.disabled row hold hdisabled
    · rw [List.mem_singleton.mp hnew, henabled] at hdisabled
      cases hdisabled
  · rw [hdefinitions]
    intro definition hdefinition havailable source hfrom
    obtain ⟨startedAt, hopened, hlater⟩ :=
      h.opened definition hdefinition havailable source hfrom
    refine ⟨startedAt, hopened, ?_⟩
    have hsource := db.2.definitionSource definition hdefinition source hfrom.2
    have hne : source ≠ db.1.mcpConnections.next := by
      rintro rfl
      rw [Table.find_next] at hsource
      cases hsource
    simpa only [enable, Function.update_of_ne hne] using hlater
  · exact h.ordered

theorem Fresh.enabled {met : Bool} (h : history.Fresh db.1)
    (hcommits : (setReenabled connectionId ownerUserId now).Commits db met db') :
    (CatalogSystem.noteIf history (history.enable connectionId clock) met).Fresh db'.1 := by
  rcases commits_amendAndWithdraw hcommits with ⟨rfl, rfl⟩ | ⟨rfl, -, hconnections, hwithdrawn, -⟩
  · exact h
  · constructor
    · rw [hconnections]
      exact forall_mem_map_amend h.disabled fun _ _ _ hdisabled => nomatch hdisabled
    · intro definition hdefinition havailable source hfrom
      by_cases hsource : source = connectionId
      · rw [hsource] at hfrom
        rw [hwithdrawn.withdrawn definition hdefinition hfrom] at havailable
        cases havailable
      · have hforeign : ¬ definition.From connectionId := fun hsame =>
          hsource (Option.some.inj (hfrom.2.symm.trans hsame.2))
        obtain ⟨startedAt, hopened, hlater⟩ := h.opened definition
          ((hwithdrawn.others definition hforeign).mp hdefinition) havailable source hfrom
        refine ⟨startedAt, hopened, ?_⟩
        simpa only [CatalogSystem.noteIf, enable, if_true, Function.update_of_ne hsource]
          using hlater
    · exact h.ordered

variable {refresh : Refresh} {response : Except DiscoveryError (List ToolDefinitionMaterial)}

theorem listsAvailable_of_commits {definition : PersistedToolDefinition}
    (hcommits : VerdictCommits refresh response db.1 db'.1)
    (hdefinition : definition ∈ db'.1.toolDefinitions.rows)
    (hfrom : definition.From refresh.connectionId)
    (havailable : definition.material.status = .available) : ListsAvailable response := by
  cases hcatalog : discoveredCatalog response with
  | ok materials =>
    obtain ⟨material, hmaterial, hstatus, -⟩ :=
      (hcommits.listed materials hcatalog).available definition hdefinition hfrom havailable
    exact ⟨materials, by rw [hcatalog]; rfl, material, hmaterial, hstatus⟩
  | error error =>
    rw [(hcommits.failed error hcatalog).withdrawn definition hdefinition hfrom] at havailable
    cases havailable

theorem verdict_openedBy {definitionId : Nat} :
    (db.1.Offers definitionId → (history.verdict refresh db.1 db'.1).openedBy definitionId =
        history.openedBy definitionId) ∧
      (¬ db.1.Offers definitionId → db'.1.Offers definitionId →
        (history.verdict refresh db.1 db'.1).openedBy definitionId = some refresh.startedAt) := by
  constructor
  · intro hbefore
    exact if_neg fun h => h.2 hbefore
  · intro hbefore hafter
    exact if_pos ⟨hafter, hbefore⟩

theorem Fresh.judged {connection : McpConnectionRow} (h : history.Fresh db.1)
    (hcommits : VerdictCommits refresh response db.1 db'.1)
    (hconnection : db.1.getConnection refresh.connectionId refresh.ownerUserId = some connection)
    (henabled : connection.enabled = true)
    (hsince : ListsAvailable response → history.enabledAt refresh.connectionId < refresh.startedAt)
    (hreflects : ∀ reflected ∈ history.reflects refresh.connectionId,
      reflected ≤ refresh.startedAt) :
    (history.verdict refresh db.1 db'.1).Fresh db'.1 := by
  obtain ⟨hmem, howned⟩ := getConnection_eq_some.mp hconnection
  constructor
  · rw [hcommits.connections]
    refine forall_mem_map_amend h.disabled fun other hother hsame hdisabled => ?_
    have heq : other = connection :=
      Table.eq_of_key_eq hother hmem (hsame.1.trans howned.1.symm)
    have hkept : (other.judged response refresh.now).enabled = other.enabled := by
      unfold McpConnectionRow.judged
      cases discoveredCatalog response <;> rfl
    rw [hkept, heq, henabled] at hdisabled
    cases hdisabled
  · intro definition hdefinition havailable source hfrom
    have hkeep : ∀ old ∈ db.1.toolDefinitions.rows, old.id = definition.id →
        old.material.status = .available →
          ∃ startedAt ∈ (history.verdict refresh db.1 db'.1).openedBy definition.id,
            history.enabledAt source < startedAt := by
      intro old hold hid hstatus
      have hfromOld := (hcommits.identities.source hold hdefinition hid).mpr hfrom
      rw [verdict_openedBy.1 ⟨old, hold, hid, hstatus⟩, ← hid]
      exact h.opened old hold hstatus source hfromOld
    by_cases hbefore : db.1.Offers definition.id
    · obtain ⟨old, hold, hid, hstatus⟩ := hbefore
      exact hkeep old hold hid hstatus
    · by_cases hsource : definition.From refresh.connectionId
      · rw [verdict_openedBy.2 hbefore ⟨definition, hdefinition, rfl, havailable⟩]
        have hsame : source = refresh.connectionId :=
          Option.some.inj (hfrom.2.symm.trans hsource.2)
        rw [hsame]
        exact ⟨refresh.startedAt, rfl,
          hsince (listsAvailable_of_commits hcommits hdefinition hsource havailable)⟩
      · exact hkeep definition ((hcommits.others hsource).mp hdefinition) rfl havailable
  · intro verdict hverdict
    rcases List.mem_append.mp hverdict with hold | hnew
    · exact h.ordered verdict hold
    · rw [List.mem_singleton.mp hnew]
      exact hreflects

end CatalogHistory

namespace CatalogSystem

variable {system : CatalogSystem}

theorem Fresh.discovered (h : system.Fresh) {startedAt : Nat}
    {response : Except DiscoveryError (List ToolDefinitionMaterial)}
    (htimely : system.Timely (.discovered startedAt response)) :
    (system.step (.discovered startedAt response)).Fresh := by
  simp only [step]
  cases hfind : system.refreshing.find? (·.startedAt = startedAt) with
  | none => exact h
  | some refresh =>
    refine commit_fresh (show system.Fresh from h) fun met db' hcommits => ?_
    rcases commits_recordVerdict hcommits with ⟨rfl, rfl⟩ |
      ⟨rfl, ⟨connection, hconnection⟩, hverdict⟩
    · exact h
    · obtain ⟨henabled, hsince, hreflects⟩ := htimely refresh hfind connection hconnection
      exact CatalogHistory.Fresh.judged h hverdict hconnection henabled hsince hreflects

theorem Fresh.exec (h : system.Fresh) (op : CatalogOp) (htimely : system.Timely op) :
    (system.exec op).Fresh := by
  change (system.step op).Fresh
  cases op with
  | createConnection ownerUserId displayName transport endpoint serverKey credentialRef now =>
    refine commit_fresh h fun connectionId db' hcommits => ?_
    obtain ⟨rfl, hinserts⟩ := Tx.commits_insert.mp hcommits
    exact CatalogHistory.Fresh.created h hinserts fun _ => rfl
  | updateDisplayName ownerUserId connectionId displayName now =>
    refine commit_fresh h fun met db' hcommits => ?_
    obtain ⟨⟨hconnections, hdefinitions, -⟩, -⟩ := commits_amendConnection hcommits
    exact CatalogHistory.Fresh.amend h hconnections hdefinitions
      fun connection hconnection _ => CatalogHistory.Fresh.disabled h connection hconnection
  | disableConnection ownerUserId connectionId now =>
    refine commit_fresh h fun met db' hcommits => ?_
    obtain ⟨⟨hconnections, hdefinitions, -⟩, -⟩ := commits_amendConnection hcommits
    exact CatalogHistory.Fresh.amend h hconnections hdefinitions fun _ _ _ _ => rfl
  | enableConnection ownerUserId connectionId now =>
    refine commit_fresh h fun met db' hcommits => ?_
    exact CatalogHistory.Fresh.enabled h hcommits
  | refresh ownerUserId connectionId now =>
    simp only [step]
    split <;> exact h
  | discovered startedAt response => exact h.discovered htimely
  | cancelled startedAt => exact h
  | grantTool agentInstanceId toolDefinitionId reviewedFingerprint =>
    refine commit_fresh h fun _ db' hcommits => ?_
    obtain ⟨-, t', -, hstore⟩ := Tx.commits_insert.mp hcommits
    rw [hstore]
    exact ⟨h.disabled, h.opened, h.ordered⟩
  | revokeTool agentInstanceId toolDefinitionId =>
    refine commit_fresh h fun _ db' hcommits => ?_
    rw [Tx.commits_delete.mp hcommits]
    exact ⟨h.disabled, h.opened, h.ordered⟩

theorem discovered_allOrNothing {startedAt : Nat} {refresh : Refresh}
    (hfind : system.refreshing.find? (·.startedAt = startedAt) = some refresh)
    (response : Except DiscoveryError (List ToolDefinitionMaterial)) :
    (system.exec (.discovered startedAt response)).db = system.db ∨
      VerdictCommits refresh response system.db.1
        (system.exec (.discovered startedAt response)).db.1 := by
  simp only [exec, step, hfind]
  rcases system.commit_cases (recordVerdict refresh response) (fun met after =>
      noteIf system.history (system.history.verdict refresh system.db.1 after) met)
    with ⟨met, db', hcommits, hstep⟩ | hstep
  · rw [hstep]
    rcases commits_recordVerdict hcommits with ⟨-, rfl⟩ | ⟨-, -, hverdict⟩
    · exact Or.inl rfl
    · exact Or.inr hverdict
  · rw [hstep]
    exact Or.inl rfl

def Grants : CatalogOp → Prop
  | .grantTool .. | .revokeTool .. => True
  | _ => False

/-- What refers to a definition finds it under the same names. -/
def KeepsReferences (before after : CatalogTables) : Prop :=
  KeepsIdentities before.toolDefinitions after.toolDefinitions ∧
    after.agentToolGrants = before.agentToolGrants

theorem KeepsReferences.of_same {before after : CatalogTables}
    (hdefinitions : after.toolDefinitions = before.toolDefinitions)
    (hgrants : after.agentToolGrants = before.agentToolGrants) :
    KeepsReferences before after := by
  refine ⟨?_, hgrants⟩
  rw [hdefinitions]
  exact .refl _

theorem commit_keepsReferences {α : Type} {x : CatalogConnection α}
    {note : α → CatalogTables → CatalogHistory}
    (hcommit : ∀ value db', x.Commits system.db value db' →
      KeepsReferences system.db.1 db'.1) :
    KeepsReferences system.db.1 (system.commit x note).db.1 := by
  rcases system.commit_cases x note with ⟨value, db', hcommits, hstep⟩ | hstep
  · rw [hstep]
    exact hcommit value db' hcommits
  · rw [hstep]
    exact .of_same rfl rfl

theorem exec_keepsReferences (system : CatalogSystem) {op : CatalogOp} (hop : ¬ Grants op) :
    KeepsReferences system.db.1 (system.exec op).db.1 := by
  cases op with
  | createConnection ownerUserId displayName transport endpoint serverKey credentialRef now =>
    refine commit_keepsReferences fun connectionId db' hcommits => ?_
    obtain ⟨-, t', -, hstore⟩ := Tx.commits_insert.mp hcommits
    rw [hstore]
    exact .of_same rfl rfl
  | updateDisplayName | disableConnection =>
    refine commit_keepsReferences fun met db' hcommits => ?_
    obtain ⟨⟨-, hdefinitions, hgrants⟩, -⟩ := commits_amendConnection hcommits
    exact .of_same hdefinitions hgrants
  | enableConnection ownerUserId connectionId now =>
    refine commit_keepsReferences fun met db' hcommits => ?_
    rcases commits_amendAndWithdraw hcommits with ⟨-, rfl⟩ | ⟨-, -, -, hwithdrawn, hgrants⟩
    · exact .of_same rfl rfl
    · exact ⟨hwithdrawn.identities, hgrants⟩
  | refresh ownerUserId connectionId now =>
    simp only [exec, step]
    split <;> exact .of_same rfl rfl
  | discovered startedAt response =>
    cases hfind : system.refreshing.find? (·.startedAt = startedAt) with
    | none =>
      simp only [exec, step, hfind]
      exact .of_same rfl rfl
    | some refresh =>
      rcases discovered_allOrNothing hfind response with hsame | hverdict
      · rw [hsame]
        exact .of_same rfl rfl
      · exact ⟨hverdict.identities, hverdict.grants⟩
  | cancelled startedAt => exact .of_same rfl rfl
  | grantTool | revokeTool => exact absurd trivial hop

theorem init_fresh : init.Fresh where
  disabled _ hconnection := nomatch hconnection
  opened _ hdefinition := nomatch hdefinition
  ordered _ hverdict := nomatch hverdict

/-- When every verdict is timely, the catalog is fresh; and every commit is all or nothing. -/
theorem catalogVerdicts_fresh (h : catalogEngine.ReachableAlong Timely system) :
    system.Fresh ∧
      (∀ startedAt response, ∀ refresh ∈ system.refreshing.find? (·.startedAt = startedAt),
        (system.exec (.discovered startedAt response)).db = system.db ∨
          VerdictCommits refresh response system.db.1
            (system.exec (.discovered startedAt response)).db.1) ∧
      ∀ op, ¬ Grants op → KeepsReferences system.db.1 (system.exec op).db.1 := by
  refine ⟨?_, fun _ response _ hfind => discovered_allOrNothing hfind response,
    fun _ hop => system.exec_keepsReferences hop⟩
  exact h.induction init_fresh fun _ op _ hfresh htimely => hfresh.exec op htimely

def sampleMaterial : ToolDefinitionMaterial where
  upstreamName := "search"
  modelName := "search"
  displayName := "Search"
  description := ""
  inputSchema := "\x7b\x7d"
  outputSchema := none
  fingerprint := .text "search"
  status := .available
  riskHints := {}

/-- A connection, a refresh of it that read the row at the second tick, and more. -/
def sampleCatalog (ops : List CatalogOp) : CatalogSystem :=
  catalogEngine.run
    ([.createConnection 1 "Files" .stdio none (some "files") none 0, .refresh 1 1 0] ++ ops)
    .init

set_option maxRecDepth 100000 in
theorem sampleCatalog_fresh :
    (sampleCatalog [.discovered 2 (.ok [sampleMaterial])]).Fresh ∧
      (sampleCatalog [.discovered 2 (.ok [sampleMaterial])]).db.1.Offers 1 := by
  refine ⟨(catalogVerdicts_fresh ⟨_, ?_, rfl⟩).1, by decide +kernel⟩
  decide +kernel

set_option maxRecDepth 100000 in
/-- The owner disables the connection while the discovery runs; the verdict connects it. -/
theorem sampleCatalog_reconnects :
    ¬ ∀ system, catalogEngine.Reachable system → system.Fresh := by
  intro h
  have hfresh := h (sampleCatalog [.disableConnection 1 1 1,
    .discovered 2 (.ok [sampleMaterial])]) ⟨_, rfl⟩
  obtain ⟨connection, hconnection, hdisabled, hstatus⟩ : ∃ connection ∈
      (sampleCatalog [.disableConnection 1 1 1,
        .discovered 2 (.ok [sampleMaterial])]).db.1.mcpConnections.rows,
      connection.enabled = false ∧ connection.catalogStatus ≠ .disabled := by
    decide +kernel
  exact hstatus (hfresh.disabled connection hconnection hdisabled)

end CatalogSystem

end NervOS
