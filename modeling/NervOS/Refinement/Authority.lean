/-
The engine and the owner's operations on tool authority, interleaved in any order.  Grants are
minted under fresh ids and deleted, never rewritten, and a Run's cutoff stays what it was at its
submission.
-/
import NervOS.Database.ToolGrants
import NervOS.Refinement.Runs

namespace NervOS

open Relational

inductive AuthorityOp where
  | engine (op : Op)
  | createAgent (agent : AgentInstanceRecord)
  | setAgentEnabled (agentInstanceId : Nat) (enabled : Bool)
  | grantTool (ownerUserId agentInstanceId toolDefinitionId : Nat)
  | revokeTool (ownerUserId agentInstanceId toolDefinitionId : Nat)
  | reconfirmTool (ownerUserId agentInstanceId toolDefinitionId : Nat)
  | reconcile (definitions : List ToolDefinitionRecord)
  | createConnection (connection : McpConnectionRecord)
  | setEnabled (ownerUserId connectionId : Nat) (enabled : Bool)
  | deleteConnection (ownerUserId connectionId : Nat)

structure AuthoritySystem where
  core : System
  nextGrantId : Nat
  submitted : Nat → Option (List AgentToolGrantRecord)
  ended : List Nat

namespace AuthoritySystem

def init : AuthoritySystem where
  core := { db := .empty, issued := [] }
  nextGrantId := 1
  submitted _ := none
  ended := []

def book (system : AuthoritySystem) : GrantBook where
  configuration := system.core.db.1.configuration
  nextGrantId := system.nextGrantId

/-- The grants that are gone from a book. -/
def deletedGrants (before after : List AgentToolGrantRecord) : List Nat :=
  (before.filter fun grant => grant ∉ after).map (·.id)

/-- Commit a changed book; a change that leaves a key dangling is rolled back. -/
def rewrite (policy : QueuePolicy) (system : AuthoritySystem) (book : GrantBook) :
    AuthoritySystem :=
  let core := system.core.exec policy (.configure book.configuration 0)
  if core.db.1.configuration = book.configuration then
    { system with
      core := core
      nextGrantId := book.nextGrantId
      ended := system.ended ++ deletedGrants system.core.db.1.configuration.agentToolGrants
        book.configuration.agentToolGrants }
  else system

def noteSubmissions (before : Tables) (grants : List AgentToolGrantRecord)
    (submitted : Nat → Option (List AgentToolGrantRecord)) (runId : Nat) :
    Option (List AgentToolGrantRecord) :=
  if (before.runs.find runId).isSome then submitted runId else some grants

def runEngine (policy : QueuePolicy) (system : AuthoritySystem) : Op → AuthoritySystem
  | .configure .. => system
  | op =>
    { system with
      core := system.core.exec policy op
      submitted := noteSubmissions system.core.db.1
        system.core.db.1.configuration.agentToolGrants system.submitted }

def withAgents (system : AuthoritySystem) (agents : List AgentInstanceRecord) : GrantBook :=
  { system.book with
    configuration := { system.core.db.1.configuration with agentInstances := agents } }

def exec (policy : QueuePolicy) (op : AuthorityOp) (system : AuthoritySystem) :
    AuthoritySystem :=
  match op with
  | .engine op => system.runEngine policy op
  | .createAgent agent =>
    if (system.core.db.1.configuration.agentInstance? agent.id).isSome then system
    else system.rewrite policy (system.withAgents
      (system.core.db.1.configuration.agentInstances ++ [agent]))
  | .setAgentEnabled agentInstanceId enabled =>
    system.rewrite policy (system.withAgents
      (system.core.db.1.configuration.agentInstances.map (Table.amend
        (fun agent => agent.id = agentInstanceId)
        fun agent => { agent with enabled := enabled })))
  | .grantTool ownerUserId agentInstanceId toolDefinitionId =>
    match system.book.grantTool ownerUserId agentInstanceId toolDefinitionId with
    | .ok book => system.rewrite policy book
    | .error _ => system
  | .revokeTool ownerUserId agentInstanceId toolDefinitionId =>
    match system.book.revokeTool ownerUserId agentInstanceId toolDefinitionId with
    | .ok book => system.rewrite policy book
    | .error _ => system
  | .reconfirmTool ownerUserId agentInstanceId toolDefinitionId =>
    match system.book.reconfirmTool ownerUserId agentInstanceId toolDefinitionId with
    | .ok book => system.rewrite policy book
    | .error _ => system
  | .reconcile definitions =>
    system.rewrite policy { system.book with
      configuration :=
        { system.core.db.1.configuration with toolDefinitions := definitions } }
  | .createConnection connection =>
    if (system.core.db.1.configuration.mcpConnection? connection.id).isSome then system
    else system.rewrite policy { system.book with
      configuration :=
        { system.core.db.1.configuration with
          mcpConnections :=
            system.core.db.1.configuration.mcpConnections ++ [connection] } }
  | .setEnabled ownerUserId connectionId enabled =>
    system.rewrite policy (system.book.setEnabled ownerUserId connectionId enabled)
  | .deleteConnection ownerUserId connectionId =>
    system.rewrite policy
      (system.book.deleteConnection ownerUserId system.core.db.1 connectionId).2

end AuthoritySystem

/-- Every run of the engine with the owner's operations in between. -/
def authorityEngine (policy : QueuePolicy) : Machine AuthoritySystem AuthorityOp where
  init := .init
  exec := AuthoritySystem.exec policy

section Submissions

variable {policy : QueuePolicy} {system : System}

theorem exec_cutoff (hsound : system.Sound) {op : Op} {run : RunRecord}
    (hrun : run ∈ (system.exec policy op).db.1.runs.rows)
    (hnew : system.db.1.runs.find run.id = none) :
    run.toolGrantCutoffId = system.db.1.grantCutoff run.agentInstanceId run.limits := by
  have hcommit : ∀ {α : Type} {x : Connection α},
      (∀ {value db'}, x.Commits system.db value db' → ∀ run ∈ db'.1.runs.rows,
        run ∈ system.db.1.runs.rows ∨
          run.toolGrantCutoffId = system.db.1.grantCutoff run.agentInstanceId run.limits) →
      run ∈ (commit x system.db).1.runs.rows →
      run.toolGrantCutoffId = system.db.1.grantCutoff run.agentInstanceId run.limits := by
    intro α x hx hmem
    have hold : run ∉ system.db.1.runs.rows := fun hold =>
      Table.find_eq_none.mp hnew run hold rfl
    rcases commit_cases x system.db with ⟨value, hcommits⟩ | hsame
    · exact (hx hcommits run hmem).resolve_left hold
    · rw [hsame] at hmem
      exact absurd hmem hold
  by_cases hop : op.Inserts
  · cases op with
    | submit inputText submission =>
      exact hcommit (fun h => submission_cutoff (commits_submit h)) hrun
    | insertRunAndJob submission => exact hcommit (fun h => submission_cutoff h) hrun
    | claimNext request =>
      refine hcommit (fun h other hother => ?_) hrun
      rw [claim_runs h] at hother
      exact Or.inl hother
    | worker | reclaim | cancelRun | approval | closeLegacy | configure => exact hop.elim
  · have hids := (exec_advances policy hsound hop).kept.runIds
    have hmem : run.id ∈ system.db.1.runs.rows.map (·.id) := by
      rw [← hids]
      exact List.mem_map_of_mem hrun
    obtain ⟨old, hold, hid⟩ := List.mem_map.mp hmem
    exact absurd hid (Table.find_eq_none.mp hnew old hold)

end Submissions

section Cutoff

variable {db : Tables} {agentInstanceId : Nat} {limits : RunLimits}

theorem grantCutoff_none (h : limits.maxToolCalls = 0) :
    db.grantCutoff agentInstanceId limits = 0 :=
  if_pos h

theorem grantCutoff_lt {next : Nat} (hpositive : 1 ≤ next)
    (hminted : ∀ grant ∈ db.configuration.agentToolGrants, grant.id < next) :
    db.grantCutoff agentInstanceId limits < next := by
  unfold Tables.grantCutoff
  split
  · exact hpositive
  · cases hmax : ((db.configuration.agentToolGrants.filter
        (·.agentInstanceId = agentInstanceId)).map (·.id)).max? with
    | none => exact hpositive
    | some highest =>
      have hmem := (List.max?_eq_some_iff.mp hmax).1
      obtain ⟨grant, hgrant, rfl⟩ := List.mem_map.mp hmem
      exact hminted grant (List.mem_of_mem_filter hgrant)

end Cutoff

section Books

structure Regrants (before after : GrantBook) : Prop where
  next : before.nextGrantId ≤ after.nextGrantId
  minted : ∀ grant ∈ after.configuration.agentToolGrants,
    grant ∈ before.configuration.agentToolGrants ∨
      before.nextGrantId ≤ grant.id ∧ grant.id < after.nextGrantId
  distinct : (before.configuration.agentToolGrants.map (·.id)).Nodup →
    (∀ grant ∈ before.configuration.agentToolGrants, grant.id < before.nextGrantId) →
    (after.configuration.agentToolGrants.map (·.id)).Nodup

variable {before middle after : GrantBook}

theorem Regrants.of_same (hnext : after.nextGrantId = before.nextGrantId)
    (hgrants : after.configuration.agentToolGrants = before.configuration.agentToolGrants) :
    Regrants before after where
  next := hnext.ge
  minted _ hgrant := Or.inl (hgrants ▸ hgrant)
  distinct hdistinct _ := hgrants ▸ hdistinct

theorem deleteGrants_regrants (book : GrantBook) (p : AgentToolGrantRecord → Prop)
    [DecidablePred p] : Regrants book (book.deleteGrants p) where
  next := Nat.le_refl _
  minted _ hgrant := Or.inl (List.mem_of_mem_filter hgrant)
  distinct hdistinct _ := hdistinct.sublist (List.filter_sublist.map _)

theorem insertGrant_regrants (book : GrantBook) (agentInstanceId toolDefinitionId : Nat)
    (fingerprint : Digest) :
    Regrants book (book.insertGrant agentInstanceId toolDefinitionId fingerprint) where
  next := Nat.le_succ _
  minted grant hgrant := by
    rcases List.mem_append.mp hgrant with hold | hnew
    · exact Or.inl hold
    · rw [List.mem_singleton.mp hnew]
      exact Or.inr ⟨Nat.le_refl _, Nat.lt_succ_self _⟩
  distinct hdistinct hminted := by
    simp only [GrantBook.insertGrant, List.map_append, List.map_cons, List.map_nil]
    refine List.Nodup.append hdistinct (List.nodup_singleton _) ?_
    intro id hold hnew
    obtain ⟨grant, hgrant, hid⟩ := List.mem_map.mp hold
    have hlt := hminted grant hgrant
    rw [hid, List.mem_singleton.mp hnew] at hlt
    exact absurd hlt (Nat.lt_irrefl _)

theorem Regrants.trans (h : Regrants before middle) (h' : Regrants middle after) :
    Regrants before after where
  next := h.next.trans h'.next
  minted grant hgrant := by
    rcases h'.minted grant hgrant with hmiddle | ⟨hlow, hhigh⟩
    · rcases h.minted grant hmiddle with hbefore | ⟨hlow, hhigh⟩
      · exact Or.inl hbefore
      · exact Or.inr ⟨hlow, hhigh.trans_le h'.next⟩
    · exact Or.inr ⟨h.next.trans hlow, hhigh⟩
  distinct hdistinct hminted := by
    refine h'.distinct (h.distinct hdistinct hminted) fun grant hgrant => ?_
    rcases h.minted grant hgrant with hbefore | ⟨-, hhigh⟩
    · exact (hminted grant hbefore).trans_le h.next
    · exact hhigh

variable {book book' : GrantBook} {ownerUserId agentInstanceId toolDefinitionId : Nat}

theorem grantTool_regrants
    (h : book.grantTool ownerUserId agentInstanceId toolDefinitionId = .ok book') :
    Regrants book book' := by
  unfold GrantBook.grantTool at h
  split at h
  · cases h
  · split at h
    · split at h
      · obtain rfl := Except.ok.inj h
        exact .of_same rfl rfl
      · cases h
    · obtain rfl := Except.ok.inj h
      exact insertGrant_regrants book _ _ _

theorem revokeTool_regrants
    (h : book.revokeTool ownerUserId agentInstanceId toolDefinitionId = .ok book') :
    Regrants book book' := by
  unfold GrantBook.revokeTool at h
  split at h
  · obtain rfl := Except.ok.inj h
    exact .of_same rfl rfl
  · obtain rfl := Except.ok.inj h
    exact deleteGrants_regrants book _

section

variable (h : book.reconfirmTool ownerUserId agentInstanceId toolDefinitionId = .ok book')

include h

theorem reconfirmTool_eq_ok :
    ∃ fingerprint, book' = (book.deleteGrants
      (GrantBook.IsPair agentInstanceId toolDefinitionId)).insertGrant agentInstanceId
        toolDefinitionId fingerprint := by
  unfold GrantBook.reconfirmTool at h
  cases hreviewed : book.reviewable ownerUserId agentInstanceId toolDefinitionId with
  | error error =>
    rw [hreviewed] at h
    cases h
  | ok definition =>
    rw [hreviewed] at h
    exact ⟨definition.fingerprint, (Except.ok.inj h).symm⟩

theorem reconfirmTool_regrants :
    Regrants book book' := by
  obtain ⟨fingerprint, rfl⟩ := reconfirmTool_eq_ok h
  exact (deleteGrants_regrants book _).trans (insertGrant_regrants _ _ _ _)

end

theorem setEnabled_regrants (connectionId : Nat) (enabled : Bool) :
    Regrants book (book.setEnabled ownerUserId connectionId enabled) := by
  unfold GrantBook.setEnabled
  split <;> exact .of_same rfl rfl

theorem deleteConnection_regrants (db : Tables) (connectionId : Nat) :
    Regrants book (book.deleteConnection ownerUserId db connectionId).2 := by
  unfold GrantBook.deleteConnection
  split
  · exact .of_same rfl rfl
  · split
    · exact .of_same rfl rfl
    · split
      · exact .of_same rfl rfl
      · exact (deleteGrants_regrants book _).trans (.of_same rfl rfl)

end Books

namespace AuthoritySystem

variable {policy : QueuePolicy} {system : AuthoritySystem}

/-- What one step is: an operation of the engine, a change of the book, or nothing. -/
inductive Effect (policy : QueuePolicy) (system : AuthoritySystem) : AuthoritySystem → Prop
  | idle : Effect policy system system
  | engine (op : Op) (hop : ∀ configuration now, op ≠ .configure configuration now) :
      Effect policy system
        { system with
          core := system.core.exec policy op
          submitted := noteSubmissions system.core.db.1
            system.core.db.1.configuration.agentToolGrants system.submitted }
  | rewritten (book : GrantBook) (core : System)
      (hcore : core = system.core.exec policy (.configure book.configuration 0))
      (hconfiguration : core.db.1.configuration = book.configuration)
      (hregrants : Regrants system.book book) :
      Effect policy system
        { system with
          core := core
          nextGrantId := book.nextGrantId
          ended := system.ended ++ deletedGrants
            system.core.db.1.configuration.agentToolGrants book.configuration.agentToolGrants }

theorem rewrite_effect {book : GrantBook} (h : Regrants system.book book) :
    Effect policy system (system.rewrite policy book) := by
  unfold rewrite
  by_cases hconfiguration : (system.core.exec policy
      (.configure book.configuration 0)).db.1.configuration = book.configuration
  · rw [if_pos hconfiguration]
    exact .rewritten book _ rfl hconfiguration h
  · rw [if_neg hconfiguration]
    exact .idle

theorem exec_effect (policy : QueuePolicy) (op : AuthorityOp) (system : AuthoritySystem) :
    Effect policy system (system.exec policy op) := by
  cases op with
  | engine op =>
    cases op with
    | configure configuration now => exact .idle
    | submit | insertRunAndJob | claimNext | worker | reclaim | cancelRun | approval
    | closeLegacy => exact .engine _ fun _ _ => nofun
  | createAgent agent =>
    simp only [exec]
    split
    · exact .idle
    · exact rewrite_effect (.of_same rfl rfl)
  | setAgentEnabled agentInstanceId enabled => exact rewrite_effect (.of_same rfl rfl)
  | grantTool ownerUserId agentInstanceId toolDefinitionId =>
    simp only [exec]
    split
    · rename_i book hgrant
      exact rewrite_effect (grantTool_regrants hgrant)
    · exact .idle
  | revokeTool ownerUserId agentInstanceId toolDefinitionId =>
    simp only [exec]
    split
    · rename_i book hrevoke
      exact rewrite_effect (revokeTool_regrants hrevoke)
    · exact .idle
  | reconfirmTool ownerUserId agentInstanceId toolDefinitionId =>
    simp only [exec]
    split
    · rename_i book hreconfirm
      exact rewrite_effect (reconfirmTool_regrants hreconfirm)
    · exact .idle
  | reconcile definitions => exact rewrite_effect (.of_same rfl rfl)
  | createConnection connection =>
    simp only [exec]
    split
    · exact .idle
    · exact rewrite_effect (.of_same rfl rfl)
  | setEnabled ownerUserId connectionId enabled =>
    exact rewrite_effect (setEnabled_regrants connectionId enabled)
  | deleteConnection ownerUserId connectionId =>
    exact rewrite_effect (deleteConnection_regrants system.core.db.1 connectionId)

structure Accounted (system : AuthoritySystem) : Prop where
  sound : system.core.Sound
  positive : 1 ≤ system.nextGrantId
  minted : ∀ grant ∈ system.core.db.1.configuration.agentToolGrants,
    1 ≤ grant.id ∧ grant.id < system.nextGrantId
  distinct : (system.core.db.1.configuration.agentToolGrants.map (·.id)).Nodup
  ended : ∀ id ∈ system.ended, id < system.nextGrantId ∧
    ∀ grant ∈ system.core.db.1.configuration.agentToolGrants, grant.id ≠ id
  snapshot : ∀ run ∈ system.core.db.1.runs.rows,
    run.toolGrantCutoffId < system.nextGrantId ∧
      (run.limits.maxToolCalls = 0 → run.toolGrantCutoffId = 0) ∧
      ∃ grants, system.submitted run.id = some grants ∧
        ∀ grant ∈ system.core.db.1.configuration.agentToolGrants,
          grant.id ≤ run.toolGrantCutoffId → grant ∈ grants

variable (policy) in
theorem configure_runs (configuration : Configuration) (now : Instant) (core : System) :
    (core.exec policy (.configure configuration now)).db.1.runs = core.db.1.runs := by
  simp only [System.exec]
  rcases commit_configure configuration core.db with hsame | hwritten
  · rw [hsame]
  · rw [hwritten]

theorem mem_deletedGrants {before after : List AgentToolGrantRecord} {id : Nat} :
    id ∈ deletedGrants before after ↔ ∃ grant ∈ before, grant ∉ after ∧ grant.id = id := by
  simp only [deletedGrants, List.mem_map, List.mem_filter, decide_eq_true_eq, and_assoc]

theorem eq_of_grantId {grants : List AgentToolGrantRecord} (h : (grants.map (·.id)).Nodup)
    {left right : AgentToolGrantRecord} (hleft : left ∈ grants) (hright : right ∈ grants)
    (hid : left.id = right.id) : left = right :=
  List.inj_on_of_nodup_map h hleft hright hid

theorem Accounted.rewritten {book : GrantBook} (h : system.Accounted)
    (hregrants : Regrants system.book book) {core : System}
    (hcore : core = system.core.exec policy (.configure book.configuration 0))
    (hconfiguration : core.db.1.configuration = book.configuration) :
    Accounted { system with
      core := core
      nextGrantId := book.nextGrantId
      ended := system.ended ++ deletedGrants system.core.db.1.configuration.agentToolGrants
        book.configuration.agentToolGrants } := by
  have hnext : system.nextGrantId ≤ book.nextGrantId := hregrants.next
  have hgrants : ∀ grant ∈ book.configuration.agentToolGrants,
      grant ∈ system.core.db.1.configuration.agentToolGrants ∨
        system.nextGrantId ≤ grant.id ∧ grant.id < book.nextGrantId := hregrants.minted
  have hbefore : ∀ grant ∈ system.core.db.1.configuration.agentToolGrants,
      grant.id < system.nextGrantId := fun grant hgrant => (h.minted grant hgrant).2
  have hruns : core.db.1.runs = system.core.db.1.runs := by
    rw [hcore]
    exact configure_runs policy _ _ _
  have hsound : core.Sound := hcore ▸ exec_sound policy h.sound _
  constructor
  · exact hsound
  · exact h.positive.trans hnext
  · simp only [hconfiguration]
    intro grant hgrant
    rcases hgrants grant hgrant with hold | ⟨hlow, hhigh⟩
    · exact ⟨(h.minted grant hold).1, (hbefore grant hold).trans_le hnext⟩
    · exact ⟨h.positive.trans hlow, hhigh⟩
  · simp only [hconfiguration]
    exact hregrants.distinct h.distinct hbefore
  · simp only [hconfiguration]
    intro id hid
    rcases List.mem_append.mp hid with hold | hnew
    · obtain ⟨hlt, hgone⟩ := h.ended id hold
      refine ⟨hlt.trans_le hnext, fun grant hgrant => ?_⟩
      rcases hgrants grant hgrant with hkept | ⟨hlow, -⟩
      · exact hgone grant hkept
      · omega
    · obtain ⟨deleted, hdeleted, hgone, rfl⟩ := mem_deletedGrants.mp hnew
      refine ⟨(hbefore deleted hdeleted).trans_le hnext, fun grant hgrant hid => ?_⟩
      rcases hgrants grant hgrant with hkept | ⟨hlow, -⟩
      · exact hgone (eq_of_grantId h.distinct hkept hdeleted hid ▸ hgrant)
      · have hlt := hbefore deleted hdeleted
        omega
  · simp only [hconfiguration, hruns]
    intro run hrun
    obtain ⟨hlt, hnone, grants, hsubmitted, hheld⟩ := h.snapshot run hrun
    refine ⟨hlt.trans_le hnext, hnone, grants, hsubmitted, fun grant hgrant hcutoff => ?_⟩
    rcases hgrants grant hgrant with hkept | ⟨hlow, -⟩
    · exact hheld grant hkept hcutoff
    · omega

theorem Accounted.engine (h : system.Accounted) (op : Op)
    (hop : ∀ configuration now, op ≠ .configure configuration now) :
    Accounted { system with
      core := system.core.exec policy op
      submitted := noteSubmissions system.core.db.1
        system.core.db.1.configuration.agentToolGrants system.submitted } := by
  have hconfiguration := exec_configuration policy system.core hop
  constructor
  · exact exec_sound policy h.sound op
  · exact h.positive
  · rw [hconfiguration]
    exact h.minted
  · rw [hconfiguration]
    exact h.distinct
  · rw [hconfiguration]
    exact h.ended
  · rw [hconfiguration]
    intro run' hrun'
    cases hfind : system.core.db.1.runs.find run'.id with
    | some run =>
      have hmoved : RunMoves run run' :=
        (exec_runsMove policy op system.core).moved hfind (Table.find_key hrun')
      have hcutoff := hmoved.column (·.toolGrantCutoffId) fun _ => rfl
      have hlimits := hmoved.column (·.limits) fun _ => rfl
      obtain ⟨hrun, hid⟩ := Table.find_eq_some.mp hfind
      have hid : run.id = run'.id := hid
      obtain ⟨hlt, hnone, grants, hsubmitted, hheld⟩ := h.snapshot run hrun
      refine ⟨hcutoff ▸ hlt, hlimits ▸ hcutoff ▸ hnone, grants, ?_, hcutoff ▸ hheld⟩
      simp only [noteSubmissions, hfind, Option.isSome_some, if_true]
      rw [← hid, hsubmitted]
    | none =>
      have hcutoff := exec_cutoff h.sound hrun' hfind
      refine ⟨?_, ?_, _, ?_, fun grant hgrant _ => hgrant⟩
      · rw [hcutoff]
        exact grantCutoff_lt h.positive fun grant hgrant => (h.minted grant hgrant).2
      · intro hnone
        rw [hcutoff, grantCutoff_none hnone]
      · simp [noteSubmissions, hfind]

theorem Accounted.exec (h : system.Accounted) (op : AuthorityOp) :
    (system.exec policy op).Accounted := by
  have heffect := exec_effect policy op system
  generalize system.exec policy op = after at heffect ⊢
  cases heffect with
  | idle => exact h
  | engine op hop => exact h.engine op hop
  | rewritten book core hcore hconfiguration hregrants =>
    exact h.rewritten hregrants hcore hconfiguration

theorem init_accounted : Accounted .init where
  sound := @init_sound productionQueuePolicy
  positive := Nat.le_refl 1
  minted _ hgrant := nomatch hgrant
  distinct := List.nodup_nil
  ended _ hid := nomatch hid
  snapshot _ hrun := nomatch hrun

theorem accounted_of_reachable (h : (authorityEngine policy).Reachable system) :
    system.Accounted :=
  h.invariant init_accounted fun _ op haccounted => haccounted.exec op

/-- Later, no grant stands that was not there, but for those minted since, and every Run
still has its cutoff. -/
structure Narrows (before after : AuthoritySystem) : Prop where
  next : before.nextGrantId ≤ after.nextGrantId
  kept : ∀ grant ∈ after.core.db.1.configuration.agentToolGrants,
    grant.id < before.nextGrantId → grant ∈ before.core.db.1.configuration.agentToolGrants
  runs : RunsMove before.core.db.1.runs after.core.db.1.runs

theorem Narrows.refl (system : AuthoritySystem) : Narrows system system :=
  ⟨Nat.le_refl _, fun _ hgrant _ => hgrant, .refl _⟩

theorem Narrows.trans {a b c : AuthoritySystem} (h : Narrows a b) (h' : Narrows b c) :
    Narrows a c where
  next := h.next.trans h'.next
  kept grant hgrant hlt := h.kept grant (h'.kept grant hgrant (hlt.trans_le h.next)) hlt
  runs := h.runs.trans h'.runs

theorem exec_narrows (policy : QueuePolicy) (op : AuthorityOp) (system : AuthoritySystem) :
    Narrows system (system.exec policy op) := by
  have heffect := exec_effect policy op system
  generalize system.exec policy op = after at heffect ⊢
  cases heffect with
  | idle => exact .refl system
  | engine op hop =>
    refine ⟨Nat.le_refl _, fun grant hgrant _ => ?_, exec_runsMove policy op system.core⟩
    rwa [exec_configuration policy system.core hop] at hgrant
  | rewritten book core hcore hconfiguration hregrants =>
    refine ⟨hregrants.next, fun grant hgrant hlt => ?_, ?_⟩
    · simp only [hconfiguration] at hgrant
      rcases hregrants.minted grant hgrant with hold | ⟨hlow, -⟩
      · exact hold
      · exact absurd hlt (Nat.not_lt.mpr hlow)
    · apply RunsMove.of_eq
      subst hcore
      exact configure_runs policy book.configuration 0 system.core

theorem run_narrows (policy : QueuePolicy) (ops : List AuthorityOp) (system : AuthoritySystem) :
    Narrows system ((authorityEngine policy).run ops system) :=
  Machine.run_related (M := authorityEngine policy) (I := fun _ => True) (R := Narrows)
    Narrows.refl Narrows.trans (fun _ _ _ => trivial)
    (fun system op _ => exec_narrows policy op system) trivial ops

end AuthoritySystem

end NervOS
