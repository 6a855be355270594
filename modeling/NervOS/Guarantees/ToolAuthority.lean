/-
A Run's tool authority only shrinks: what it may call was granted before its submission, and
what was revoked or reconfirmed since is not restored to it.
-/
import NervOS.Refinement.Authority

namespace NervOS

open Relational

def SourceOpen (db : Tables) (run : RunRecord) (definition : ToolDefinitionRecord) : Prop :=
  definition.sourceKind = .mcp → ∃ sourceId connection agent,
    definition.sourceId = some sourceId ∧
    db.configuration.mcpConnection? sourceId = some connection ∧ connection.enabled = true ∧
    db.configuration.agentInstance? run.agentInstanceId = some agent ∧
    connection.ownerUserId = agent.ownerUserId

section Permission

variable {db : Tables} {runId toolDefinitionId : Nat}

theorem sourcePermission_allowed {run : RunRecord} {definition : ToolDefinitionRecord}
    (h : evaluatePermission.sourcePermission db run definition = .allowed) :
    SourceOpen db run definition := by
  intro hmcp
  unfold evaluatePermission.sourcePermission at h
  cases hsource : definition.sourceId with
  | none => simp [hmcp, hsource] at h
  | some sourceId =>
    simp only [hmcp, hsource] at h
    cases hconnection : db.configuration.mcpConnection? sourceId with
    | none => simp [hconnection] at h
    | some connection =>
      simp only [hconnection] at h
      by_cases henabled : connection.enabled = false
      · simp [henabled] at h
      · rw [if_neg henabled] at h
        cases hagent : db.configuration.agentInstance? run.agentInstanceId with
        | none => simp [hagent] at h
        | some agent =>
          simp only [hagent] at h
          by_cases howner : connection.ownerUserId = agent.ownerUserId
          · exact ⟨sourceId, connection, agent, rfl, hconnection,
              by simpa using henabled, rfl, howner⟩
          · simp [howner] at h

theorem evaluatePermission_allowed (h : evaluatePermission db runId toolDefinitionId = .allowed) :
    ∃ run grant definition, db.runs.find runId = some run ∧
      grant ∈ db.configuration.agentToolGrants ∧
      grant.agentInstanceId = run.agentInstanceId ∧ grant.toolDefinitionId = toolDefinitionId ∧
      grant.id ≤ run.toolGrantCutoffId ∧
      db.configuration.toolDefinition? toolDefinitionId = some definition ∧
      definition.status = .available ∧ grant.reviewedFingerprint = definition.fingerprint ∧
      SourceOpen db run definition := by
  unfold evaluatePermission at h
  cases hrun : db.runs.find runId with
  | none => simp [hrun] at h
  | some run =>
    simp only [hrun] at h
    cases hgrant : db.configuration.agentToolGrant? run.agentInstanceId toolDefinitionId with
    | none => simp [hgrant] at h
    | some grant =>
      simp only [hgrant] at h
      have hpair := List.find?_some hgrant
      rw [decide_eq_true_eq] at hpair
      by_cases hcutoff : run.toolGrantCutoffId < grant.id
      · simp [hcutoff] at h
      · rw [if_neg hcutoff] at h
        cases hdefinition : db.configuration.toolDefinition? toolDefinitionId with
        | none => simp [hdefinition] at h
        | some definition =>
          simp only [hdefinition] at h
          by_cases hstatus : definition.status = .available
          · by_cases hfingerprint : grant.reviewedFingerprint = definition.fingerprint
            · simp only [hstatus, hfingerprint, ne_eq, not_true_eq_false, if_false] at h
              exact ⟨run, grant, definition, rfl, List.mem_of_find?_eq_some hgrant,
                hpair.1, hpair.2, Nat.not_lt.mp hcutoff, rfl, hstatus, hfingerprint,
                sourcePermission_allowed h⟩
            · simp [hstatus, hfingerprint] at h
          · simp [hstatus] at h

end Permission

namespace AuthoritySystem

variable {policy : QueuePolicy} {system : AuthoritySystem} {runId toolDefinitionId : Nat}

/-- `check_permission(run, tool)` is allowed. -/
def Allows (system : AuthoritySystem) (runId toolDefinitionId : Nat) : Prop :=
  evaluatePermission system.core.db.1 runId toolDefinitionId = .allowed

instance : Decidable (system.Allows runId toolDefinitionId) :=
  inferInstanceAs (Decidable (_ = _))

def RestsOnGrant (system : AuthoritySystem) (runId toolDefinitionId : Nat) : Prop :=
  ∃ run grants grant definition, system.core.db.1.runs.find runId = some run ∧
    run.limits.maxToolCalls ≠ 0 ∧
    system.submitted runId = some grants ∧ grant ∈ grants ∧
    grant ∈ system.core.db.1.configuration.agentToolGrants ∧ grant.id ∉ system.ended ∧
    grant.agentInstanceId = run.agentInstanceId ∧ grant.toolDefinitionId = toolDefinitionId ∧
    system.core.db.1.configuration.toolDefinition? toolDefinitionId = some definition ∧
    definition.status = .available ∧ grant.reviewedFingerprint = definition.fingerprint ∧
    SourceOpen system.core.db.1 run definition

theorem Accounted.restsOnGrant (h : system.Accounted)
    (hallowed : system.Allows runId toolDefinitionId) :
    system.RestsOnGrant runId toolDefinitionId := by
  obtain ⟨run, grant, definition, hrun, hgrant, hagent, htool, hcutoff, hdefinition, hstatus,
    hfingerprint, hsource⟩ := evaluatePermission_allowed hallowed
  obtain ⟨hmem, hid⟩ := Table.find_eq_some.mp hrun
  have hid : run.id = runId := hid
  obtain ⟨-, hnone, grants, hsubmitted, hheld⟩ := h.snapshot run hmem
  refine ⟨run, grants, grant, definition, hrun, ?_, hid ▸ hsubmitted, hheld grant hgrant hcutoff,
    hgrant, ?_, hagent, htool, hdefinition, hstatus, hfingerprint, hsource⟩
  · intro htoolless
    have hpositive := (h.minted grant hgrant).1
    rw [hnone htoolless] at hcutoff
    omega
  · intro hended
    exact (h.ended grant.id hended).2 grant hgrant rfl

theorem Accounted.later (h : system.Accounted) {run : RunRecord}
    (hrun : system.core.db.1.runs.find runId = some run) (ops : List AuthorityOp)
    (hallowed : ((authorityEngine policy).run ops system).Allows runId toolDefinitionId) :
    ∃ grant ∈ system.core.db.1.configuration.agentToolGrants,
      GrantBook.IsPair run.agentInstanceId toolDefinitionId grant ∧
        grant.id ≤ run.toolGrantCutoffId := by
  obtain ⟨run', grant, -, hrun', hgrant, hagent, htool, hcutoff, -⟩ :=
    evaluatePermission_allowed hallowed
  have hnarrows := run_narrows policy ops system
  have hmoved : RunMoves run run' := hnarrows.runs.moved hrun hrun'
  have hsameCutoff := hmoved.column (·.toolGrantCutoffId) fun _ => rfl
  have hsameAgent := hmoved.column (·.agentInstanceId) fun _ => rfl
  have hlt := (h.snapshot run (Table.find_eq_some.mp hrun).1).1
  rw [hsameCutoff] at hcutoff
  exact ⟨grant, hnarrows.kept grant hgrant (hcutoff.trans_lt hlt),
    ⟨hagent.trans hsameAgent, htool⟩, hcutoff⟩

theorem rewrite_grants (policy : QueuePolicy) (system : AuthoritySystem) (book : GrantBook)
    (hagents : book.configuration.agentInstances =
      system.core.db.1.configuration.agentInstances)
    (hdefinitions : book.configuration.toolDefinitions =
      system.core.db.1.configuration.toolDefinitions) :
    (system.rewrite policy book).core.db.1.configuration = book.configuration ∧
      (system.rewrite policy book).core.db.1.runs = system.core.db.1.runs := by
  have hreferences : Tables.References
      { system.core.db.1 with configuration := book.configuration } := by
    have hold := system.core.db.2
    have hagent : ∀ id, book.configuration.agentInstance? id =
        system.core.db.1.configuration.agentInstance? id := by
      intro id
      rw [Configuration.agentInstance?, hagents]
      rfl
    have hdefinition : ∀ id, book.configuration.toolDefinition? id =
        system.core.db.1.configuration.toolDefinition? id := by
      intro id
      rw [Configuration.toolDefinition?, hdefinitions]
      rfl
    constructor
    case runAgent => simpa only [hagent] using hold.runAgent
    case jobRun => exact hold.jobRun
    case jobAgent => simpa only [hagent] using hold.jobAgent
    case attemptJob => exact hold.attemptJob
    case eventRun => exact hold.eventRun
    case eventJob => exact hold.eventJob
    case eventAttempt => exact hold.eventAttempt
    case eventInvocation => exact hold.eventInvocation
    case invocationRun => exact hold.invocationRun
    case invocationJob => exact hold.invocationJob
    case invocationAttempt => exact hold.invocationAttempt
    case invocationDefinition => simpa only [hdefinition] using hold.invocationDefinition
    case approvalAgent => simpa only [hagent] using hold.approvalAgent
    case approvalRun => exact hold.approvalRun
    case approvalJob => exact hold.approvalJob
    case approvalAttempt => exact hold.approvalAttempt
    case approvalDefinition => simpa only [hdefinition] using hold.approvalDefinition
    case partitionAgent => simpa only [hagent] using hold.partitionAgent
    case partitionKey => exact hold.partitionKey
  have hcommits : (configure book.configuration).Commits system.core.db ()
      ⟨{ system.core.db.1 with configuration := book.configuration }, hreferences⟩ := by
    unfold configure
    exact Tx.commits_write.mpr rfl
  have hcore : (system.core.exec policy (.configure book.configuration 0)).db.1 =
      { system.core.db.1 with configuration := book.configuration } := by
    simp only [System.exec, commit, Tx.run_of_commits hcommits]
  unfold rewrite
  simp only [hcore, if_true, and_self]

/-- The owner revoked the pair, or reconfirmed it. -/
def Withdraws (system : AuthoritySystem) (agentInstanceId toolDefinitionId : Nat) :
    AuthorityOp → Prop
  | .revokeTool ownerUserId agent tool =>
    agent = agentInstanceId ∧ tool = toolDefinitionId ∧ system.book.OwnsAgent ownerUserId agent
  | .reconfirmTool ownerUserId agent tool =>
    agent = agentInstanceId ∧ tool = toolDefinitionId ∧
      (system.book.reconfirmTool ownerUserId agent tool).isOk = true
  | _ => False

theorem Withdraws.grants {agentInstanceId : Nat} {op : AuthorityOp}
    (h : system.Withdraws agentInstanceId toolDefinitionId op) (policy : QueuePolicy) :
    (∀ grant ∈ (system.exec policy op).core.db.1.configuration.agentToolGrants,
      GrantBook.IsPair agentInstanceId toolDefinitionId grant →
        system.nextGrantId ≤ grant.id) ∧
    (system.exec policy op).core.db.1.runs = system.core.db.1.runs := by
  cases op with
  | revokeTool ownerUserId agent tool =>
    obtain ⟨rfl, rfl, howns⟩ := h
    simp only [exec, GrantBook.revokeTool, howns, not_true_eq_false, if_false]
    obtain ⟨hconfiguration, hruns⟩ := rewrite_grants policy system
      (system.book.deleteGrants (GrantBook.IsPair agent tool)) rfl rfl
    refine ⟨fun grant hgrant hpair => ?_, hruns⟩
    rw [hconfiguration] at hgrant
    have hkept := (List.mem_filter.mp hgrant).2
    exact absurd hpair (by simpa using hkept)
  | reconfirmTool ownerUserId agent tool =>
    obtain ⟨rfl, rfl, hok⟩ := h
    cases hreconfirm : system.book.reconfirmTool ownerUserId agent tool with
    | error error =>
      rw [hreconfirm] at hok
      cases hok
    | ok book =>
      simp only [exec, hreconfirm]
      obtain ⟨fingerprint, rfl⟩ := reconfirmTool_eq_ok hreconfirm
      obtain ⟨hconfiguration, hruns⟩ := rewrite_grants policy system
        ((system.book.deleteGrants (GrantBook.IsPair agent tool)).insertGrant agent tool
          fingerprint) rfl rfl
      refine ⟨fun grant hgrant hpair => ?_, hruns⟩
      rw [hconfiguration] at hgrant
      rcases List.mem_append.mp hgrant with hold | hnew
      · have hkept := (List.mem_filter.mp hold).2
        exact absurd hpair (by simpa using hkept)
      · rw [List.mem_singleton.mp hnew]
        exact Nat.le_refl _
  | engine | createAgent | setAgentEnabled | grantTool | reconcile | createConnection
  | setEnabled | deleteConnection => exact h.elim

/-- A Run may call only what was granted when it was submitted and stands since.  Without a
grant under its cutoff, or after the pair was revoked or reconfirmed, no later step gives it
back the tool. -/
theorem tool_authority_shrinks (h : (authorityEngine policy).Reachable system) :
    (∀ runId toolDefinitionId, system.Allows runId toolDefinitionId →
      system.RestsOnGrant runId toolDefinitionId) ∧
    ∀ run ∈ system.core.db.1.runs.rows, ∀ toolDefinitionId,
      ((∀ grant ∈ system.core.db.1.configuration.agentToolGrants,
          GrantBook.IsPair run.agentInstanceId toolDefinitionId grant →
            run.toolGrantCutoffId < grant.id) →
        ∀ ops, ¬ ((authorityEngine policy).run ops system).Allows run.id toolDefinitionId) ∧
      ∀ op, system.Withdraws run.agentInstanceId toolDefinitionId op →
        ∀ ops, ¬ ((authorityEngine policy).run ops (system.exec policy op)).Allows run.id
          toolDefinitionId := by
  have haccounted := accounted_of_reachable h
  refine ⟨fun _ _ hallowed => haccounted.restsOnGrant hallowed, ?_⟩
  intro run hrun toolDefinitionId
  have hfind : system.core.db.1.runs.find run.id = some run := Table.find_key hrun
  constructor
  · intro hungranted ops hallowed
    obtain ⟨grant, hgrant, hpair, hcutoff⟩ := haccounted.later hfind ops hallowed
    exact absurd hcutoff (Nat.not_le.mpr (hungranted grant hgrant hpair))
  · intro op hwithdraws ops hallowed
    obtain ⟨hgrants, hruns⟩ := hwithdraws.grants policy
    have hlater : (system.exec policy op).core.db.1.runs.find run.id = some run := by
      rw [hruns]
      exact hfind
    have hafter : (system.exec policy op).Accounted := haccounted.exec op
    obtain ⟨grant, hgrant, hpair, hcutoff⟩ := hafter.later hlater ops hallowed
    have hfresh := hgrants grant hgrant hpair
    have hlt := (haccounted.snapshot run hrun).1
    omega

def sampleAuthority : List AuthorityOp :=
  sampleConfiguration.agentInstances.map AuthorityOp.createAgent ++
    [.reconcile sampleConfiguration.toolDefinitions, .grantTool 1 1 1,
      .engine (.submit "hello" (sampleSubmission 1))]

set_option maxRecDepth 100000 in
theorem sampleAuthority_revoked :
    let engine := authorityEngine productionQueuePolicy
    let granted := engine.run sampleAuthority .init
    let revoked := granted.exec productionQueuePolicy (.revokeTool 1 1 1)
    granted.Allows 1 1 ∧ granted.RestsOnGrant 1 1 ∧
      ¬ (engine.run [.grantTool 1 1 1] revoked).Allows 1 1 := by
  have h := @tool_authority_shrinks productionQueuePolicy _ ⟨sampleAuthority, rfl⟩
  have hallowed : ((authorityEngine productionQueuePolicy).run sampleAuthority .init).Allows 1 1 :=
    by decide +kernel
  obtain ⟨run, hrun, hid, hagent⟩ : ∃ run ∈ ((authorityEngine productionQueuePolicy).run
      sampleAuthority .init).core.db.1.runs.rows, run.id = 1 ∧ run.agentInstanceId = 1 := by
    decide +kernel
  have hwithdraws : ((authorityEngine productionQueuePolicy).run sampleAuthority .init).Withdraws
      run.agentInstanceId 1 (.revokeTool 1 1 1) :=
    ⟨hagent.symm, rfl, by decide +kernel⟩
  refine ⟨hallowed, h.1 1 1 hallowed, ?_⟩
  have hnever := (h.2 run hrun 1).2 _ hwithdraws [.grantTool 1 1 1]
  rwa [hid] at hnever

end AuthoritySystem

end NervOS
