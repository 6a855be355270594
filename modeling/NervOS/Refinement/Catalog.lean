/-
What one reconciliation makes of the definitions of a connection: a reported name has the
row that says what was reported, under the id and the model name that it had, any other name
of the connection is withdrawn, and everything else is as it was.
-/
import NervOS.CatalogEngine
import NervOS.Relational.Rows

namespace NervOS

open Relational

section Loop

variable {connectionId : Nat} {t t' t'' : Table PersistedToolDefinition}

theorem eq_of_upstreamName {left right : PersistedToolDefinition} (hleft : left ∈ t.rows)
    (hright : right ∈ t.rows) (hfromLeft : left.From connectionId)
    (hfromRight : right.From connectionId)
    (hname : left.material.upstreamName = right.material.upstreamName) : left = right := by
  refine Table.eq_of_clash hleft hright (Or.inr ⟨?_, ?_, hname⟩) (Or.inr ⟨?_, ?_, hname.symm⟩)
  · exact hfromLeft.1.trans hfromRight.1.symm
  · exact hfromLeft.2.trans hfromRight.2.symm
  · exact hfromRight.1.trans hfromLeft.1.symm
  · exact hfromRight.2.trans hfromLeft.2.symm

def PersistedToolDefinition.Under (connectionId : Nat) (names : List String)
    (definition : PersistedToolDefinition) : Prop :=
  definition.From connectionId ∧ definition.material.upstreamName ∈ names

structure Reconciles (connectionId : Nat) (materials : List ToolDefinitionMaterial)
    (t t' : Table PersistedToolDefinition) : Prop where
  others : ∀ definition, ¬ definition.Under connectionId (upstreamNames materials) →
    (definition ∈ t'.rows ↔ definition ∈ t.rows)
  said : ∀ material ∈ materials, ∃ definition ∈ t'.rows, definition.From connectionId ∧
    definition.material.upstreamName = material.upstreamName ∧ definition.Tells material ∧
    ∀ old ∈ t.rows, old.From connectionId →
      old.material.upstreamName = material.upstreamName →
        definition.id = old.id ∧ definition.material.modelName = old.material.modelName

theorem Reconciles.nil (connectionId : Nat) (t : Table PersistedToolDefinition) :
    Reconciles connectionId [] t t where
  others _ _ := Iff.rfl
  said _ hmaterial := nomatch hmaterial

variable {material : ToolDefinitionMaterial} {materials : List ToolDefinitionMaterial}

theorem Reconciles.cons (h : Reconciles connectionId [material] t t')
    (h' : Reconciles connectionId materials t' t'')
    (hfresh : material.upstreamName ∉ upstreamNames materials) :
    Reconciles connectionId (material :: materials) t t'' where
  others definition hunder := by
    rw [h'.others definition fun hrest => hunder ⟨hrest.1, List.mem_cons_of_mem _ hrest.2⟩]
    refine h.others definition fun hfirst => hunder ⟨hfirst.1, ?_⟩
    exact List.mem_cons.mpr (Or.inl (List.mem_singleton.mp hfirst.2))
  said reported hreported := by
    rcases List.mem_cons.mp hreported with rfl | hrest
    · obtain ⟨definition, hdefinition, hfrom, hname, htells, hidentity⟩ :=
        h.said reported List.mem_cons_self
      refine ⟨definition, (h'.others definition ?_).mpr hdefinition, hfrom, hname, htells,
        hidentity⟩
      rintro ⟨-, hmem⟩
      rw [hname] at hmem
      exact hfresh hmem
    · obtain ⟨definition, hdefinition, hfrom, hname, htells, hidentity⟩ := h'.said reported hrest
      refine ⟨definition, hdefinition, hfrom, hname, htells, fun old hold hfromOld hnameOld => ?_⟩
      refine hidentity old ((h.others old ?_).mpr hold) hfromOld hnameOld
      rintro ⟨-, hmem⟩
      have hsame : material.upstreamName = reported.upstreamName :=
        (List.mem_singleton.mp hmem).symm.trans hnameOld
      rw [hsame] at hfresh
      exact hfresh (List.mem_map_of_mem hrest)

def Snapshot (connectionId : Nat) (existing : List PersistedToolDefinition) (name : String)
    (t : Table PersistedToolDefinition) : Prop :=
  ∀ definition : PersistedToolDefinition, definition.material.upstreamName = name →
    (definition ∈ existing ↔ definition ∈ t.rows ∧ definition.From connectionId)

theorem Reconciles.snapshot {existing : List PersistedToolDefinition} {name : String}
    (h : Reconciles connectionId materials t t') (hname : name ∉ upstreamNames materials)
    (hsnapshot : Snapshot connectionId existing name t) :
    Snapshot connectionId existing name t' := by
  intro definition hnamed
  rw [hsnapshot definition hnamed, h.others definition]
  rintro ⟨-, hmem⟩
  rw [hnamed] at hmem
  exact hname hmem

variable {db db' : CatalogDatabase} {existing : List PersistedToolDefinition} {now : Instant}

/-- The store with other definitions and nothing else changed. -/
def OnlyDefinitions (R : Table PersistedToolDefinition → Table PersistedToolDefinition → Prop)
    (before after : CatalogTables) : Prop :=
  R before.toolDefinitions after.toolDefinitions ∧
    after.mcpConnections = before.mcpConnections ∧
    after.agentToolGrants = before.agentToolGrants

variable {row : PersistedToolDefinition}

theorem reconciles_insert (hrows : t'.rows = t.rows ++ [row]) (hfrom : row.From connectionId)
    (hmaterial : row.material = material)
    (hnone : ∀ old ∈ t.rows, old.From connectionId →
      old.material.upstreamName ≠ material.upstreamName) :
    Reconciles connectionId [material] t t' where
  others definition hunder := by
    rw [hrows, List.mem_append, List.mem_singleton]
    refine or_iff_left ?_
    rintro rfl
    exact hunder ⟨hfrom, by simp [hmaterial]⟩
  said reported hreported := by
    obtain rfl := List.mem_singleton.mp hreported
    refine ⟨row, ?_, hfrom, by rw [hmaterial], ?_, fun old hold hfromOld hname => ?_⟩
    · rw [hrows]
      exact List.mem_append_right _ List.mem_cons_self
    · rw [← hmaterial]
      exact ⟨rfl, rfl, rfl, rfl, rfl, rfl, rfl⟩
    · exact absurd hname (hnone old hold hfromOld)

section

variable (hrow : row ∈ t.rows) (hfrom : row.From connectionId)
    (hname : row.material.upstreamName = material.upstreamName)

include hrow hfrom hname

theorem reconciles_unchanged (htells : row.Tells material) :
    Reconciles connectionId [material] t t where
  others _ _ := Iff.rfl
  said reported hreported := by
    obtain rfl := List.mem_singleton.mp hreported
    refine ⟨row, hrow, hfrom, hname, htells, fun old hold hfromOld hnameOld => ?_⟩
    rw [eq_of_upstreamName hold hrow hfromOld hfrom (hnameOld.trans hname.symm)]
    exact ⟨rfl, rfl⟩

theorem reconciles_amend
    (hrows : t'.rows = t.rows.map (Table.amend
      (fun definition : PersistedToolDefinition => definition.id = row.id)
      fun definition => definition.amended material now)) :
    Reconciles connectionId [material] t t' := by
  have hmem : ∀ definition, definition ∈ t'.rows ↔
      definition = row.amended material now ∨ definition ∈ t.rows ∧ definition.id ≠ row.id := by
    intro definition
    rw [hrows, mem_map_amend]
    refine or_congr_left ⟨?_, ?_⟩
    · rintro ⟨old, hold, hid, rfl⟩
      rw [Table.eq_of_key_eq hold hrow hid]
    · rintro rfl
      exact ⟨row, hrow, rfl, rfl⟩
  constructor
  · intro definition hunder
    rw [hmem]
    constructor
    · rintro (rfl | ⟨hold, -⟩)
      · exact absurd ⟨hfrom, List.mem_singleton.mpr hname⟩ hunder
      · exact hold
    · intro hold
      refine Or.inr ⟨hold, fun hid => hunder ?_⟩
      rw [Table.eq_of_key_eq hold hrow hid]
      exact ⟨hfrom, List.mem_singleton.mpr hname⟩
  · intro reported hreported
    obtain rfl := List.mem_singleton.mp hreported
    refine ⟨row.amended reported now, (hmem _).mpr (Or.inl rfl), hfrom, hname,
      ⟨rfl, rfl, rfl, rfl, rfl, rfl, rfl⟩, fun old hold hfromOld hnameOld => ?_⟩
    rw [eq_of_upstreamName hold hrow hfromOld hfrom (hnameOld.trans hname.symm)]
    exact ⟨rfl, rfl⟩

end

theorem commits_reconcileOne
    (h : (reconcileOne existing connectionId now material).Commits db () db')
    (hsnapshot : Snapshot connectionId existing material.upstreamName db.1.toolDefinitions) :
    OnlyDefinitions (Reconciles connectionId [material]) db.1 db'.1 := by
  unfold reconcileOne at h
  cases hfind : existing.find? fun row =>
      row.material.upstreamName = material.upstreamName with
  | none =>
    simp only [hfind, Tx.commits_bind, Tx.commits_insert, Tx.commits_pure] at h
    obtain ⟨-, db'', ⟨-, hinserts⟩, -, rfl⟩ := h
    refine ⟨reconciles_insert hinserts.rows ⟨rfl, rfl⟩ rfl fun old hold hfrom hname => ?_, ?_⟩
    · have hmem := (hsnapshot old hname).mpr ⟨hold, hfrom⟩
      have hnone := List.find?_eq_none.mp hfind old hmem
      exact hnone (by simpa using hname)
    · obtain ⟨t', -, hstore⟩ := hinserts
      rw [hstore]
      exact ⟨rfl, rfl⟩
  | some row =>
    have hname : row.material.upstreamName = material.upstreamName := by
      simpa using List.find?_some hfind
    obtain ⟨hrow, hfrom⟩ := (hsnapshot row hname).mp (List.mem_of_find?_eq_some hfind)
    simp only [hfind, Tx.commits_ite, Tx.commits_bind, Tx.commits_update, Tx.commits_pure] at h
    rcases h with ⟨htells, -, rfl⟩ | ⟨-, -, db'', ⟨-, hupdates⟩, -, rfl⟩
    · exact ⟨reconciles_unchanged hrow hfrom hname htells, rfl, rfl⟩
    · refine ⟨reconciles_amend hrow hfrom hname hupdates.rows, ?_⟩
      obtain ⟨t', -, hstore⟩ := hupdates
      rw [hstore]
      exact ⟨rfl, rfl⟩

theorem commits_reconcileEach (hdistinct : (upstreamNames materials).Nodup)
    (hsnapshot : ∀ name ∈ upstreamNames materials,
      Snapshot connectionId existing name db.1.toolDefinitions)
    (h : (reconcileEach existing connectionId now materials).Commits db () db') :
    OnlyDefinitions (Reconciles connectionId materials) db.1 db'.1 := by
  induction materials generalizing db with
  | nil =>
    obtain ⟨-, rfl⟩ := Tx.commits_pure.mp h
    exact ⟨.nil _ _, rfl, rfl⟩
  | cons material materials ih =>
    obtain ⟨hfresh, hrest⟩ := List.nodup_cons.mp hdistinct
    obtain ⟨_, middle, hone, heach⟩ := Tx.commits_bind.mp h
    obtain ⟨hreconciles, hconnections, hgrants⟩ :=
      commits_reconcileOne hone (hsnapshot _ List.mem_cons_self)
    have hstill : ∀ name ∈ upstreamNames materials,
        Snapshot connectionId existing name middle.1.toolDefinitions := by
      intro name hname
      refine hreconciles.snapshot ?_ (hsnapshot name (List.mem_cons_of_mem _ hname))
      intro hsame
      rw [List.mem_singleton.mp hsame] at hname
      exact hfresh hname
    obtain ⟨hreconciles', hconnections', hgrants'⟩ := ih hrest hstill heach
    exact ⟨hreconciles.cons hreconciles' hfresh, hconnections'.trans hconnections,
      hgrants'.trans hgrants⟩

end Loop

section Catalogs

variable {connectionId : Nat} {t t' t'' : Table PersistedToolDefinition}
  {db db' : CatalogDatabase} {now : Instant}

/-- Every row is still there under its id, with the names that refer to it. -/
def KeepsIdentities (t t' : Table PersistedToolDefinition) : Prop :=
  ∀ definition ∈ t.rows, ∃ definition' ∈ t'.rows, definition'.id = definition.id ∧
    definition'.sourceKind = definition.sourceKind ∧
    definition'.sourceId = definition.sourceId ∧
    definition'.material.upstreamName = definition.material.upstreamName ∧
    definition'.material.modelName = definition.material.modelName

theorem KeepsIdentities.refl (t : Table PersistedToolDefinition) : KeepsIdentities t t :=
  fun definition hdefinition => ⟨definition, hdefinition, rfl, rfl, rfl, rfl, rfl⟩

theorem KeepsIdentities.trans (h : KeepsIdentities t t') (h' : KeepsIdentities t' t'') :
    KeepsIdentities t t'' := by
  intro definition hdefinition
  obtain ⟨middle, hmiddle, hid, hkind, hsource, hupstream, hmodel⟩ := h definition hdefinition
  obtain ⟨last, hlast, hid', hkind', hsource', hupstream', hmodel'⟩ := h' middle hmiddle
  exact ⟨last, hlast, hid'.trans hid, hkind'.trans hkind, hsource'.trans hsource,
    hupstream'.trans hupstream, hmodel'.trans hmodel⟩

theorem KeepsIdentities.source (h : KeepsIdentities t t') {old new : PersistedToolDefinition}
    (hold : old ∈ t.rows) (hnew : new ∈ t'.rows) (hid : old.id = new.id) :
    old.From connectionId ↔ new.From connectionId := by
  obtain ⟨kept, hkept, hsame, hkind, hsource, -⟩ := h old hold
  obtain rfl := Table.eq_of_key_eq hkept hnew (hsame.trans hid)
  unfold PersistedToolDefinition.From
  rw [hkind, hsource]

variable {materials : List ToolDefinitionMaterial}

theorem Reconciles.keepsIdentities (h : Reconciles connectionId materials t t') :
    KeepsIdentities t t' := by
  intro definition hdefinition
  by_cases hunder : definition.Under connectionId (upstreamNames materials)
  · obtain ⟨hfrom, hname⟩ := hunder
    obtain ⟨material, hmaterial, hname⟩ := List.mem_map.mp hname
    obtain ⟨new, hnew, hfromNew, hnamed, -, hidentity⟩ := h.said material hmaterial
    obtain ⟨hid, hmodel⟩ := hidentity definition hdefinition hfrom hname.symm
    exact ⟨new, hnew, hid, hfromNew.1.trans hfrom.1.symm, hfromNew.2.trans hfrom.2.symm,
      hnamed.trans hname, hmodel⟩
  · exact ⟨definition, (h.others definition hunder).mpr hdefinition, rfl, rfl, rfl, rfl, rfl⟩

/-- `status = 'unavailable'`, as a withdrawal writes it. -/
def PersistedToolDefinition.withdrawn (now : Instant) (definition : PersistedToolDefinition) :
    PersistedToolDefinition :=
  { definition with
    material := { definition.material with status := .unavailable }
    updatedAt := now }

section Withdrawal

variable {p : PersistedToolDefinition → Prop} [DecidablePred p]

theorem withdrawal_keepsIdentities
    (hrows : t'.rows = t.rows.map (Table.amend p (PersistedToolDefinition.withdrawn now))) :
    KeepsIdentities t t' := by
  intro definition hdefinition
  refine ⟨Table.amend p (PersistedToolDefinition.withdrawn now) definition, ?_, ?_⟩
  · rw [hrows]
    exact List.mem_map_of_mem hdefinition
  · unfold Table.amend
    split
    · exact ⟨rfl, rfl, rfl, rfl, rfl⟩
    · exact ⟨rfl, rfl, rfl, rfl, rfl⟩

variable {definition : PersistedToolDefinition}

section

variable (hrows : t'.rows = t.rows.map (Table.amend p (PersistedToolDefinition.withdrawn now)))

include hrows

theorem withdrawal_available (hdefinition : definition ∈ t'.rows)
    (havailable : definition.material.status ≠ .unavailable) :
    definition ∈ t.rows ∧ ¬ p definition := by
  rw [hrows, mem_map_amend] at hdefinition
  rcases hdefinition with ⟨old, -, -, rfl⟩ | hkept
  · exact absurd rfl havailable
  · exact hkept

theorem withdrawal_others (hp : ∀ definition, p definition → definition.From connectionId)
    (hforeign : ¬ definition.From connectionId) :
    definition ∈ t'.rows ↔ definition ∈ t.rows := by
  rw [hrows, mem_map_amend]
  constructor
  · rintro (⟨old, -, hmet, rfl⟩ | ⟨hkept, -⟩)
    · exact absurd (hp old hmet) hforeign
    · exact hkept
  · intro hkept
    exact Or.inr ⟨hkept, fun hmet => hforeign (hp definition hmet)⟩

end

end Withdrawal

structure Withdrawn (connectionId : Nat) (t t' : Table PersistedToolDefinition) : Prop where
  others : ∀ definition, ¬ definition.From connectionId →
    (definition ∈ t'.rows ↔ definition ∈ t.rows)
  withdrawn : ∀ definition ∈ t'.rows, definition.From connectionId →
    definition.material.status = .unavailable
  identities : KeepsIdentities t t'

structure CatalogReplaced (connectionId : Nat) (materials : List ToolDefinitionMaterial)
    (t t' : Table PersistedToolDefinition) : Prop where
  others : ∀ definition, ¬ definition.From connectionId →
    (definition ∈ t'.rows ↔ definition ∈ t.rows)
  listed : ∀ material ∈ materials, ∃ definition ∈ t'.rows, definition.From connectionId ∧
    definition.material.upstreamName = material.upstreamName ∧ definition.Tells material
  available : ∀ definition ∈ t'.rows, definition.From connectionId →
    definition.material.status = .available →
      ∃ material ∈ materials, material.status = .available ∧
        definition.material.upstreamName = material.upstreamName ∧ definition.Tells material
  identities : KeepsIdentities t t'

theorem commits_markDefinitionsUnavailable
    (h : (markDefinitionsUnavailable connectionId now).Commits db () db') :
    OnlyDefinitions (Withdrawn connectionId) db.1 db'.1 := by
  simp only [markDefinitionsUnavailable, Tx.commits_bind, Tx.commits_update, Tx.commits_pure] at h
  obtain ⟨-, db'', ⟨-, hupdates⟩, -, rfl⟩ := h
  refine ⟨⟨fun definition hforeign => ?_, fun definition hdefinition hfrom => ?_, ?_⟩, ?_⟩
  · exact withdrawal_others hupdates.rows (fun _ hmet => hmet.1) hforeign
  · by_contra havailable
    obtain ⟨-, hmissed⟩ := withdrawal_available hupdates.rows hdefinition havailable
    exact hmissed ⟨hfrom, havailable⟩
  · exact withdrawal_keepsIdentities hupdates.rows
  · obtain ⟨t', -, hstore⟩ := hupdates
    rw [hstore]
    exact ⟨rfl, rfl⟩

theorem commits_withdrawGone {gone : List String}
    (h : (withdrawGone connectionId now gone).Commits db () db') :
    OnlyDefinitions (fun t t' => t'.rows = t.rows.map (Table.amend
      (fun definition => definition.From connectionId ∧
        definition.material.upstreamName ∈ gone ∧ definition.material.status ≠ .unavailable)
      (PersistedToolDefinition.withdrawn now))) db.1 db'.1 := by
  unfold withdrawGone at h
  by_cases hgone : gone = []
  · rw [if_pos hgone, Tx.commits_pure] at h
    obtain ⟨-, rfl⟩ := h
    subst hgone
    refine ⟨(map_amend_of_forall_not fun definition _ hmet => ?_).symm, rfl, rfl⟩
    exact List.not_mem_nil hmet.2.1
  · simp only [if_neg hgone, Tx.commits_bind, Tx.commits_update, Tx.commits_pure] at h
    obtain ⟨-, db'', ⟨-, hupdates⟩, -, rfl⟩ := h
    refine ⟨hupdates.rows, ?_⟩
    obtain ⟨t', -, hstore⟩ := hupdates
    rw [hstore]
    exact ⟨rfl, rfl⟩

theorem Reconciles.replaced {db : CatalogTables}
    (h : Reconciles connectionId materials db.toolDefinitions t)
    (hrows : t'.rows = t.rows.map (Table.amend
      (fun definition => definition.From connectionId ∧
        definition.material.upstreamName ∈
          goneNames (db.definitionsFrom connectionId) materials ∧
        definition.material.status ≠ .unavailable)
      (PersistedToolDefinition.withdrawn now))) :
    CatalogReplaced connectionId materials db.toolDefinitions t' := by
  constructor
  · intro definition hforeign
    rw [withdrawal_others hrows (fun _ hmet => hmet.1) hforeign]
    exact h.others definition fun hunder => hforeign hunder.1
  · intro material hmaterial
    obtain ⟨definition, hdefinition, hfrom, hname, htells, -⟩ := h.said material hmaterial
    refine ⟨definition, ?_, hfrom, hname, htells⟩
    rw [hrows, mem_map_amend]
    refine Or.inr ⟨hdefinition, fun ⟨_, hgone, _⟩ => ?_⟩
    have hunreported := (List.mem_filter.mp hgone).2
    rw [hname, decide_eq_true_eq] at hunreported
    exact hunreported (List.mem_map_of_mem hmaterial)
  · intro definition hdefinition hfrom havailable
    have hstatus : definition.material.status ≠ .unavailable := by
      rw [havailable]
      decide
    obtain ⟨hkept, hmissed⟩ := withdrawal_available hrows hdefinition hstatus
    by_cases hunder : definition.Under connectionId (upstreamNames materials)
    · obtain ⟨material, hmaterial, hname⟩ := List.mem_map.mp hunder.2
      obtain ⟨reported, hreported, hfromReported, hnamed, htells, -⟩ := h.said material hmaterial
      have hsame : definition = reported := eq_of_upstreamName hkept hreported hfrom
        hfromReported (hname.symm.trans hnamed.symm)
      rw [← hsame] at hnamed htells
      have hstatus : definition.material.status = material.status := htells.2.2.2.2.2.1
      exact ⟨material, hmaterial, hstatus.symm.trans havailable, hnamed, htells⟩
    · refine absurd ⟨hfrom, ?_, hstatus⟩ hmissed
      have hold := (h.others definition hunder).mp hkept
      simp only [goneNames, List.mem_filter, decide_eq_true_eq]
      refine ⟨List.mem_map_of_mem ?_, fun hreported => hunder ⟨hfrom, hreported⟩⟩
      simpa [CatalogTables.definitionsFrom] using ⟨hold, hfrom⟩
  · exact h.keepsIdentities.trans (withdrawal_keepsIdentities hrows)

theorem commits_reconcile (hdistinct : (upstreamNames materials).Nodup)
    (h : (reconcile connectionId materials now).Commits db () db') :
    OnlyDefinitions (CatalogReplaced connectionId materials) db.1 db'.1 := by
  simp only [reconcile, Tx.commits_bind, Tx.commits_query] at h
  obtain ⟨_, db, ⟨rfl, rfl⟩, _, middle, heach, hgone⟩ := h
  have hsnapshot : ∀ name ∈ upstreamNames materials, Snapshot connectionId
      (db.1.definitionsFrom connectionId) name db.1.toolDefinitions := by
    intro name _ definition _
    simp [CatalogTables.definitionsFrom]
  obtain ⟨hreconciles, hconnections, hgrants⟩ := commits_reconcileEach hdistinct hsnapshot heach
  obtain ⟨hrows, hconnections', hgrants'⟩ := commits_withdrawGone hgone
  refine ⟨hreconciles.replaced hrows, hconnections'.trans hconnections, hgrants'.trans hgrants⟩

end Catalogs

variable {connectionId ownerUserId : Nat} {db db' : CatalogDatabase} {now : Instant}
  {f : McpConnectionRow → McpConnectionRow} {met : Bool}

theorem getConnection_eq_some {db : CatalogTables} {connection : McpConnectionRow} :
    db.getConnection connectionId ownerUserId = some connection ↔
      connection ∈ db.mcpConnections.rows ∧ connection.Owned connectionId ownerUserId := by
  simp only [CatalogTables.getConnection, Option.filter_eq_some_iff, Table.find_eq_some,
    decide_eq_true_eq, and_assoc]
  rfl

theorem commits_amendConnection
    (h : (amendConnection connectionId ownerUserId f).Commits db met db') :
    (db'.1.mcpConnections.rows = db.1.mcpConnections.rows.map
        (Table.amend (McpConnectionRow.Owned connectionId ownerUserId) f) ∧
      db'.1.toolDefinitions = db.1.toolDefinitions ∧
      db'.1.agentToolGrants = db.1.agentToolGrants) ∧
    (met = false ∧ db' = db ∨
      met = true ∧ ∃ connection, db.1.getConnection connectionId ownerUserId =
        some connection) := by
  simp only [amendConnection, Tx.commits_bind, Tx.commits_update, Tx.commits_pure] at h
  obtain ⟨count, db'', ⟨rfl, hupdates⟩, rfl, rfl⟩ := h
  refine ⟨⟨hupdates.rows, ?_⟩, ?_⟩
  · obtain ⟨t', -, hstore⟩ := hupdates
    rw [hstore]
    exact ⟨rfl, rfl⟩
  · by_cases hcount : db.1.mcpConnections.rows.countP
        (McpConnectionRow.Owned connectionId ownerUserId) = 1
    · obtain ⟨connection, hconnection, howned, -⟩ := Table.exists_unique_of_countP hcount
      exact Or.inr ⟨decide_eq_true hcount, connection,
        getConnection_eq_some.mpr ⟨hconnection, howned⟩⟩
    · refine Or.inl ⟨decide_eq_false hcount, Subtype.ext ?_⟩
      obtain ⟨t', ht', hstore⟩ := hupdates
      obtain ⟨hrows, hnext⟩ := Table.update?_rows ht'
      rw [map_amend_of_forall_not] at hrows
      · rw [hstore, Table.ext hrows hnext]
        rfl
      · intro connection hconnection howned
        exact hcount (Table.countP_eq_one hconnection howned fun other _ hother =>
          hother.1.trans howned.1.symm)

theorem commits_amendAndWithdraw
    (h : (amendAndWithdraw connectionId ownerUserId now f).Commits db met db') :
    met = false ∧ db' = db ∨
      met = true ∧ (∃ connection,
        db.1.getConnection connectionId ownerUserId = some connection) ∧
      db'.1.mcpConnections.rows = db.1.mcpConnections.rows.map
        (Table.amend (McpConnectionRow.Owned connectionId ownerUserId) f) ∧
      Withdrawn connectionId db.1.toolDefinitions db'.1.toolDefinitions ∧
      db'.1.agentToolGrants = db.1.agentToolGrants := by
  simp only [amendAndWithdraw, Tx.commits_bind, Tx.commits_ite, Tx.commits_pure] at h
  obtain ⟨met', middle, hamend, h⟩ := h
  obtain ⟨⟨hconnections, hdefinitions, hgrants⟩, hmet⟩ := commits_amendConnection hamend
  rcases hmet with ⟨rfl, rfl⟩ | ⟨rfl, hconnection⟩
  · rcases h with ⟨hfalse, -⟩ | ⟨-, rfl, rfl⟩
    · cases hfalse
    · exact Or.inl ⟨rfl, rfl⟩
  · rcases h with ⟨-, _, db, hmark, rfl, rfl⟩ | ⟨hfalse, -⟩
    · obtain ⟨hwithdrawn, hconnections', hgrants'⟩ := commits_markDefinitionsUnavailable hmark
      rw [hdefinitions] at hwithdrawn
      rw [hconnections', hgrants']
      exact Or.inr ⟨rfl, hconnection, hconnections, hwithdrawn, hgrants⟩
    · exact absurd rfl hfalse

theorem commits_recordDiscoverySuccess {materials : List ToolDefinitionMaterial}
    (hdistinct : (upstreamNames materials).Nodup)
    (h : (recordDiscoverySuccess connectionId ownerUserId materials now).Commits db met db') :
    met = false ∧ db' = db ∨
      met = true ∧ (∃ connection,
        db.1.getConnection connectionId ownerUserId = some connection) ∧
      db'.1.mcpConnections.rows = db.1.mcpConnections.rows.map
        (Table.amend (McpConnectionRow.Owned connectionId ownerUserId)
          (McpConnectionRow.verified now)) ∧
      CatalogReplaced connectionId materials db.1.toolDefinitions db'.1.toolDefinitions ∧
      db'.1.agentToolGrants = db.1.agentToolGrants := by
  simp only [recordDiscoverySuccess, recordCatalog, Tx.commits_bind, Tx.commits_query,
    Tx.commits_ite, Tx.commits_update, Tx.commits_pure] at h
  obtain ⟨row, db, ⟨rfl, rfl⟩, h⟩ := h
  rcases h with ⟨-, rfl, rfl⟩ | ⟨hrow, _, middle, hreconcile, -, last, ⟨-, hupdates⟩, rfl, rfl⟩
  · exact Or.inl ⟨rfl, rfl⟩
  · obtain ⟨connection, hconnection⟩ := Option.ne_none_iff_exists'.mp (by simpa using hrow)
    obtain ⟨hmem, howned⟩ := getConnection_eq_some.mp hconnection
    obtain ⟨hreplaced, hconnections, hgrants⟩ := commits_reconcile hdistinct hreconcile
    refine Or.inr ⟨rfl, ⟨connection, hconnection⟩, ?_, ?_⟩
    · have hrows := hupdates.rows
      simp only [table_mcpConnection, hconnections] at hrows
      refine hrows.trans (map_amend_congr fun other hother => ⟨fun hid => ?_, And.left⟩)
      have hsame : other = connection :=
        Table.eq_of_key_eq hother hmem (hid.trans howned.1.symm)
      exact hsame ▸ howned
    · obtain ⟨t', -, hstore⟩ := hupdates
      rw [hstore]
      exact ⟨hreplaced, hgrants⟩

/-- What a verdict writes to its connection. -/
def McpConnectionRow.judged (response : Except DiscoveryError (List ToolDefinitionMaterial))
    (now : Instant) (connection : McpConnectionRow) : McpConnectionRow :=
  match discoveredCatalog response with
  | .ok _ => connection.verified now
  | .error error =>
    { connection with
      catalogStatus := .unavailable
      lastErrorCode := some error.safe.1
      lastErrorMessage := some error.safe.2
      updatedAt := now }

structure VerdictCommits (refresh : Refresh)
    (response : Except DiscoveryError (List ToolDefinitionMaterial))
    (before after : CatalogTables) : Prop where
  connections : after.mcpConnections.rows = before.mcpConnections.rows.map (Table.amend
    (McpConnectionRow.Owned refresh.connectionId refresh.ownerUserId)
    (McpConnectionRow.judged response refresh.now))
  listed : ∀ materials, discoveredCatalog response = .ok materials →
    CatalogReplaced refresh.connectionId materials before.toolDefinitions after.toolDefinitions
  failed : ∀ error, discoveredCatalog response = .error error →
    Withdrawn refresh.connectionId before.toolDefinitions after.toolDefinitions
  grants : after.agentToolGrants = before.agentToolGrants

variable {refresh : Refresh} {response : Except DiscoveryError (List ToolDefinitionMaterial)}

namespace VerdictCommits

variable {before after : CatalogTables}

theorem others (h : VerdictCommits refresh response before after)
    {definition : PersistedToolDefinition} (hforeign : ¬ definition.From refresh.connectionId) :
    definition ∈ after.toolDefinitions.rows ↔ definition ∈ before.toolDefinitions.rows := by
  cases hcatalog : discoveredCatalog response with
  | ok materials => exact (h.listed materials hcatalog).others definition hforeign
  | error error => exact (h.failed error hcatalog).others definition hforeign

theorem identities (h : VerdictCommits refresh response before after) :
    KeepsIdentities before.toolDefinitions after.toolDefinitions := by
  cases hcatalog : discoveredCatalog response with
  | ok materials => exact (h.listed materials hcatalog).identities
  | error error => exact (h.failed error hcatalog).identities

end VerdictCommits

theorem commits_recordVerdict (h : (recordVerdict refresh response).Commits db met db') :
    met = false ∧ db' = db ∨
      met = true ∧ (∃ connection, db.1.getConnection refresh.connectionId refresh.ownerUserId =
        some connection) ∧ VerdictCommits refresh response db.1 db'.1 := by
  unfold recordVerdict at h
  cases hcatalog : discoveredCatalog response with
  | error error =>
    simp only [hcatalog] at h
    rcases commits_amendAndWithdraw h with hmissed | ⟨hmet, hconnection, hconnections, hwithdrawn,
      hgrants⟩
    · exact Or.inl hmissed
    · refine Or.inr ⟨hmet, hconnection, ?_, fun _ hok => ?_, fun _ _ => hwithdrawn, hgrants⟩
      · rw [hconnections]
        unfold McpConnectionRow.judged
        rw [hcatalog]
      · rw [hcatalog] at hok
        cases hok
  | ok materials =>
    simp only [hcatalog] at h
    rcases commits_recordDiscoverySuccess (discoveredCatalog_nodup hcatalog) h with
      hmissed | ⟨hmet, hconnection, hconnections, hreplaced, hgrants⟩
    · exact Or.inl hmissed
    · refine Or.inr ⟨hmet, hconnection, ?_, fun _ hok => ?_, fun _ herror => ?_, hgrants⟩
      · rw [hconnections]
        unfold McpConnectionRow.judged
        rw [hcatalog]
      · rw [hcatalog] at hok
        obtain rfl := Except.ok.inj hok
        exact hreplaced
      · rw [hcatalog] at herror
        cases herror

end NervOS
