/-
Open decisions: every end of a workflow closes them but the one at its deadline, and an expiry is
reported but never recorded.  Waits for the owner over whole runs: the step after one is
dispatched on the owner's approval of exactly what was proposed, and that approval is spent with
the dispatch.
-/
import NervOS.Refinement.Decoded
import NervOS.Guarantees.Checkpoints
import NervOS.Workflow.Approved

namespace NervOS

open Relational

def WorkflowOp.Timely (system : WorkflowSystem) : WorkflowOp → Prop
  | .tick request => ∀ id w, Comes request (dueWorkflows request system.db.1) system.db id →
      system.workflow id = some w → w.execution.deadlineAt ≤ request.now → w.Closed
  | .engine _ | .succeed _ _ _ _ | .create _ _ | .readStep _ | .deliverSignal _ | .decide _
  | .setPaused _ _ _ _ | .cancel _ _ _ => True

namespace WorkflowSystem

variable {policy : QueuePolicy} {system : WorkflowSystem} {op : WorkflowOp} {act : WorkflowAct}
  {id : Nat} {w : Workflow}

theorem settled_timely {claim : ClaimedAttempt} {workflowStep : Option WorkflowStepResult}
    {now : Instant} (hact : system.settled claim workflowStep now = some act) : act.Timely w := by
  unfold WorkflowSystem.settled at hact
  split at hact
  · obtain rfl := Option.some.inj hact
    trivial
  all_goals cases hact

theorem timely_or_same (policy : QueuePolicy) (htimely : op.Timely system)
    (hact : op.act system = some act) (hw : system.workflow id = some w) :
    act.Timely w ∨ (exec policy op system).workflow id = some w := by
  cases op with
  | tick request =>
    obtain rfl := Option.some.inj hact
    rcases commit_cases (tickOne request) system with ⟨value, hcommits⟩ | hsame
    · by_cases hchanged : (exec policy (.tick request) system).workflow id = system.workflow id
      · exact Or.inr (hchanged.trans hw)
      · exact Or.inl (htimely id w (tickOne_comes hcommits hchanged) hw)
    · right
      change (system.commit (tickOne request)).workflow id = some w
      rw [hsame]
      exact hw
  | succeed claim completion workflowStep now => exact Or.inl (settled_timely hact)
  | engine op =>
    obtain ⟨claim, now, hsettled⟩ := act_engine hact
    exact Or.inl (settled_timely hsettled)
  | create request preparation | readStep runId => cases hact
  | deliverSignal | decide | setPaused | cancel =>
    obtain rfl := Option.some.inj hact
    exact Or.inl trivial

theorem closed_of_over
    (h : (workflowEngine policy).ReachableAlong
      (fun system op => op.Decoded system ∧ op.Timely system) system)
    (hw : system.workflow id = some w) (hover : w.execution.status.IsTerminal) : w.Closed := by
  have hboth : w.Proposing ∧ (w.execution.status.IsTerminal → w.Closed) := by
    apply workflow_invariant_along (I := fun w => w.Proposing ∧ (w.execution.status.IsTerminal →
        w.Closed)) (fun system op => op.Decoded system ∧ op.Timely system)
      (fun act w => act.Bound w ∧ act.Timely w) _ _ _ h hw
    · rintro system op act id w hreach ⟨hdecoded, htimely⟩ hact hw
      refine (timely_or_same policy htimely hact hw).imp_left fun hbound => ?_
      exact ⟨act_bound hreach.reachable hdecoded hact hw, hbound⟩
    · intro core w request run hopens
      refine ⟨.opens hopens, fun _ decision hdecision => ?_⟩
      rw [hopens.decisions] at hdecision
      cases hdecision
    · rintro core act w w' ⟨hproposing, hclosed⟩ ⟨hbound, htimely⟩ hmoves
      exact ⟨hproposing.moves hbound hmoves, hproposing.closes htimely hclosed hmoves⟩
  exact hboth.2 hover

theorem exec_decide_expired (policy : QueuePolicy) {verdict : Verdict}
    {decision : WorkflowDecisionRecord}
    (hfind : system.db.1.own.decisions.find verdict.decisionId = some decision)
    (hexpired : decision.expiresAt ≤ verdict.now) :
    exec policy (.decide verdict) system = system := by
  rcases commit_cases (decideWorkflow verdict) system with ⟨value, hcommits⟩ | hsame
  · exfalso
    simp only [decideWorkflow, Tx.commits_bind, commits_owned, Tx.commits_query,
      Tx.commits_found, Tx.commits_require, Tx.commits_ite, Tx.commits_raise, and_false,
      false_or, exists_false] at hcommits
    obtain ⟨_, _, ⟨-, -, -, rfl⟩, _, _, ⟨rfl, rfl⟩, row, _, ⟨hrow, rfl⟩, _, _, ⟨-, rfl⟩, _, _,
      ⟨-, rfl⟩, _, _, ⟨-, rfl⟩, _, _, ⟨-, rfl⟩, hunexpired, -⟩ := hcommits
    obtain ⟨hfound, -⟩ := Option.filter_eq_some_iff.mp hrow
    rw [hfind] at hfound
    obtain rfl := Option.some.inj hfound
    exact hunexpired hexpired
  · exact hsame

end WorkflowSystem

def RecordsExpiry (policy : QueuePolicy) (verdict : Verdict) (decision : WorkflowDecisionRecord)
    (system : WorkflowSystem) : Prop :=
  decision.expiresAt ≤ verdict.now →
    ∀ after, (system.exec policy (.decide verdict)).db.1.own.decisions.find
      verdict.decisionId = some after → after.state = .expired

/-- Along timely runs a workflow that is over has no open decision, whichever operation
ended it; and a decide call on an open decision leaves no expiry unrecorded exactly when
it comes before the expiry. -/
theorem decisions_die (policy : QueuePolicy) :
    (∀ system id w, (workflowEngine policy).ReachableAlong
        (fun system op => op.Decoded system ∧ op.Timely system) system →
      system.workflow id = some w → w.execution.status.IsTerminal → w.Closed) ∧
    ∀ system verdict decision, (workflowEngine policy).Reachable system →
      system.db.1.own.decisions.find verdict.decisionId = some decision →
      decision.state = .pending →
      (RecordsExpiry policy verdict decision system ↔ verdict.now < decision.expiresAt) := by
  refine ⟨fun _ _ _ => WorkflowSystem.closed_of_over, ?_⟩
  intro system verdict decision _ hfind hpending
  constructor
  · intro hrecords
    by_contra hlate
    have hexpired := not_lt.mp hlate
    have hsame := WorkflowSystem.exec_decide_expired policy hfind hexpired
    have hstate := hrecords hexpired decision (by rw [hsame, hfind])
    rw [hpending] at hstate
    cases hstate
  · intro htimely hexpired
    exact absurd htimely (not_lt.mpr hexpired)

/-- What a package returns to propose an action to the owner. -/
def proposalPayload : Json.Value :=
  .obj [("directive", .obj [("kind", .str "wait"), ("wait_kind", .str "owner_decision"),
    ("decision", .obj [("upstream_name", .str "mail"), ("tool_definition_id", .int 1)])])]

def proposalRequest : WorkflowDecisionRequest where
  checkpointRevision := 0
  toolDefinitionId := 1
  upstreamName := "mail"
  actionFingerprint :=
    .text (Json.canonicalText (.obj [("tool_definition_id", .int 1),
      ("upstream_name", .str "mail")]))
  arguments := .obj []
  argumentsDigest := decisionArgumentsDigest (.obj [])
  preview := emptyState
  packageContentDigest := none
  effectiveConfigDigest := none
  expiresAt := 2 + seconds 900
  definitionPositive := Nat.one_pos
  upstreamBounds := by decide
  digested := rfl
  measured := by decide

def proposalDirective : WorkflowDirective where
  kind := .wait
  waitKind := some .ownerDecision
  decisionKey := some <| .digest <| .text <|
    Json.canonicalText (.obj [("arguments", .obj []), ("upstream_name", .str "mail")])
  valid := by decide

def sampleProposal : WorkflowStepResult where
  directive := proposalDirective
  state := emptyState
  summary := none
  decisionRequest := some proposalRequest
  summaryValid := noSummary_valid
  requested _ _ := nofun
  waited _ := rfl

theorem decodes_sampleProposal {snapshot : WorkflowStepSnapshot}
    (hrevision : snapshot.checkpointRevision = 0) :
    workflowStepResult (some proposalPayload) (some snapshot) {} 2 = .ok (some sampleProposal) := by
  obtain ⟨number, revision, version, state, wake⟩ := snapshot
  obtain rfl : revision = 0 := hrevision
  rfl

/-- The first step proposes an action to the owner and waits. -/
def proposedRun : List WorkflowOp :=
  sampleWorkflowStart ++ [.readStep 1,
    .succeed (sampleClaim 1 0) sampleCompletion (some sampleProposal) 2]

set_option maxRecDepth 100000 in
theorem decoded_sampleProposal :
    (WorkflowOp.succeed (sampleClaim 1 0) sampleCompletion (some sampleProposal) 2).Decoded
      (sampleWorkflowRun (sampleWorkflowStart ++ [.readStep 1])) := by
  have hhanded : (1, 0) ∈ (sampleWorkflowRun (sampleWorkflowStart ++ [.readStep 1])).handed.map
      fun entry => (entry.1, entry.2.checkpointRevision) := by
    decide +kernel
  apply decoded_of_handed hhanded
  intro snapshot hrevision
  exact ⟨some proposalPayload, {}, 2, decodes_sampleProposal hrevision⟩

theorem proposedRun_along : (workflowEngine productionQueuePolicy).Along
    (fun system op => op.Decoded system ∧ op.Timely system) proposedRun
    (workflowEngine productionQueuePolicy).init :=
  ⟨⟨trivial, trivial⟩, ⟨trivial, trivial⟩, ⟨trivial, trivial⟩, ⟨trivial, trivial⟩,
    ⟨trivial, trivial⟩, ⟨decoded_sampleProposal, trivial⟩, trivial⟩

def sampleVerdict (approve : Bool) (now : Instant) : Verdict where
  ownerUserId := 1
  workflowId := 1
  decisionId := 1
  approve := approve
  expectedRevision := 0
  now := now

set_option maxRecDepth 100000 in
/-- The owner's cancellation closes the decision, and a verdict in time finds it open. -/
theorem decisions_die_sample :
    (∃ w, (sampleWorkflowRun (proposedRun ++ [.cancel 1 1 3])).workflow 1 = some w ∧
      w.execution.status = .cancelled ∧ w.Closed) ∧
    ∃ decision, (sampleWorkflowRun proposedRun).db.1.own.decisions.find 1 = some decision ∧
      RecordsExpiry productionQueuePolicy (sampleVerdict true 3) decision
        (sampleWorkflowRun proposedRun) := by
  have hcancelled : ∃ w ∈ (sampleWorkflowRun (proposedRun ++ [.cancel 1 1 3])).workflow 1,
      w.execution.status = .cancelled := by
    decide +kernel
  have hpending : ∃ decision ∈ (sampleWorkflowRun proposedRun).db.1.own.decisions.find 1,
      decision.state = .pending ∧ 3 < decision.expiresAt := by
    decide +kernel
  obtain ⟨w, hw, hstatus⟩ := hcancelled
  obtain ⟨decision, hfind, hstate, hunexpired⟩ := hpending
  have halong : (workflowEngine productionQueuePolicy).ReachableAlong
      (fun system op => op.Decoded system ∧ op.Timely system)
      (sampleWorkflowRun (proposedRun ++ [.cancel 1 1 3])) :=
    Machine.ReachableAlong.exec ⟨proposedRun, proposedRun_along, rfl⟩ ⟨trivial, trivial⟩
  refine ⟨⟨w, hw, hstatus, ?_⟩, decision, hfind, ?_⟩
  · apply (decisions_die productionQueuePolicy).1 _ 1 w halong hw
    rw [hstatus]
    trivial
  · exact ((decisions_die productionQueuePolicy).2 _ (sampleVerdict true 3) decision
      (sampleWorkflowRun_reachable _) hfind hstate).mpr hunexpired

/-- The deadline passes while the owner still has to decide. -/
def missedDecision : List WorkflowOp :=
  proposedRun ++ [.tick (sampleTick (seconds 86400))]

set_option maxRecDepth 100000 in
/-- The deadline leaves the decision open, and a verdict at its expiry leaves it pending. -/
theorem open_missedDecision :
    (∃ w ∈ (sampleWorkflowRun missedDecision).workflow 1, w.execution.status = .failed ∧
      ∃ decision ∈ w.decisions, decision.state = .pending) ∧
    ∃ decision ∈ (sampleWorkflowRun (proposedRun ++
        [.decide (sampleVerdict true (seconds 1000))])).db.1.own.decisions.find 1,
      decision.expiresAt ≤ seconds 1000 ∧ decision.state = .pending := by
  decide +kernel

section History

variable {policy : QueuePolicy} {id : Nat} {w : Workflow}

/-- In the course of the operations the owner approved this decision, while it was open,
in time, and for the package and configuration that the workflow is pinned to. -/
def ApprovedIn (policy : QueuePolicy) (id : Nat) (ops : List WorkflowOp)
    (decision : WorkflowDecisionRecord) : Prop :=
  ∃ earlier verdict later waiting pending, ops = earlier ++ .decide verdict :: later ∧
    verdict.approve = true ∧
    ((workflowEngine policy).run earlier (workflowEngine policy).init).workflow id =
      some waiting ∧
    waiting.Decides verdict pending ∧ decision.proposal = pending.proposal

variable {ops : List WorkflowOp}

theorem ApprovedIn.append {decision decision' : WorkflowDecisionRecord}
    (h : ApprovedIn policy id ops decision) (hproposal : decision'.proposal = decision.proposal)
    (more : List WorkflowOp) : ApprovedIn policy id (ops ++ more) decision' := by
  obtain ⟨earlier, verdict, later, waiting, pending, rfl, happrove, hwaiting, hdecides, hsame⟩ := h
  refine ⟨earlier, verdict, later ++ more, waiting, pending, ?_, happrove, hwaiting, hdecides,
    hproposal.trans hsame⟩
  rw [List.append_assoc, List.cons_append]

variable {system : WorkflowSystem}

theorem decide_of_act {op : WorkflowOp} {verdict : Verdict}
    (h : op.act system = some (.decide verdict)) : op = .decide verdict := by
  have hsettled : ∀ claim workflowStep now,
      system.settled claim workflowStep now ≠ some (.decide verdict) := by
    intro claim workflowStep now hact
    unfold WorkflowSystem.settled at hact
    split at hact <;> cases hact
  cases op with
  | engine op =>
    obtain ⟨claim, now, hact⟩ := WorkflowSystem.act_engine h
    exact absurd hact (hsettled claim none now)
  | succeed claim completion workflowStep now => exact absurd h (hsettled claim workflowStep now)
  | decide other =>
    cases h
    rfl
  | create | readStep | tick | deliverSignal | setPaused | cancel => cases h

theorem tick_of_act {op : WorkflowOp} {now : Instant} (h : op.act system = some (.tick now)) :
    ∃ request, op = .tick request ∧ request.now = now := by
  have hsettled : ∀ claim workflowStep at',
      system.settled claim workflowStep at' ≠ some (.tick now) := by
    intro claim workflowStep at' hact
    unfold WorkflowSystem.settled at hact
    split at hact <;> cases hact
  cases op with
  | engine op =>
    obtain ⟨claim, at', hact⟩ := WorkflowSystem.act_engine h
    exact absurd hact (hsettled claim none at')
  | succeed claim completion workflowStep at' => exact absurd h (hsettled claim workflowStep at')
  | tick request =>
    cases h
    exact ⟨request, rfl, rfl⟩
  | create | readStep | decide | deliverSignal | setPaused | cancel => cases h

theorem run_approved (policy : QueuePolicy) (ops : List WorkflowOp) (id : Nat) {w : Workflow}
    (hw : ((workflowEngine policy).run ops (workflowEngine policy).init).workflow id = some w) :
    ∀ decision ∈ w.decisions, decision.state.IsGranted → ApprovedIn policy id ops decision := by
  induction ops using List.reverseRecOn generalizing w with
  | nil => cases hw
  | append_singleton before op ih =>
    rw [Machine.run_append] at hw
    have hrefines := WorkflowSystem.exec_refines policy op
      ((workflowEngine policy).run before (workflowEngine policy).init)
    intro decision' hdecision' hgranted
    cases hbefore : ((workflowEngine policy).run before (workflowEngine policy).init).workflow
      id with
    | none =>
      obtain ⟨_, _, _, -, hopened⟩ := hrefines.opened id w hbefore hw
      rw [hopened.decisions] at hdecision'
      cases hdecision'
    | some w₀ =>
      obtain ⟨after, hafter, hmoved⟩ := hrefines.kept id w₀ hbefore
      obtain rfl := Option.some.inj (hafter.symm.trans hw)
      rcases hmoved with rfl | ⟨act, hact, hmove⟩
      · exact (ih hbefore decision' hdecision' hgranted).append rfl [op]
      · obtain ⟨decision, hdecision, hproposal, hold | ⟨verdict, rfl, happrove, hdecides⟩⟩ :=
          hmove.granted hdecision' hgranted
        · exact (ih hbefore decision hdecision hold).append hproposal [op]
        · rw [decide_of_act hact]
          exact ⟨before, verdict, [], w₀, decision, rfl, happrove, hbefore, hdecides, hproposal⟩

theorem ApprovedIn.digests {decision : WorkflowDecisionRecord}
    (h : ApprovedIn policy id ops decision)
    (hw : ((workflowEngine policy).run ops (workflowEngine policy).init).workflow id = some w) :
    w.execution.identity.executable.packageContentDigest = decision.packageContentDigest ∧
      w.execution.identity.executable.effectiveConfigDigest = decision.effectiveConfigDigest := by
  obtain ⟨earlier, verdict, later, waiting, pending, rfl, -, hwaiting, hdecides, hproposal⟩ := h
  rw [Machine.run_append] at hw
  obtain ⟨after, hafter, hgrows⟩ :=
    WorkflowSystem.run_grows policy (.decide verdict :: later) _ hwaiting
  obtain rfl := Option.some.inj (hafter.symm.trans hw)
  have hidentity : after.execution.identity = waiting.execution.identity :=
    frozen_column hgrows.frozen WorkflowExecutionRecord.identity fun _ => rfl
  have hpackage : decision.packageContentDigest = pending.packageContentDigest :=
    proposal_column hproposal WorkflowDecisionRecord.packageContentDigest fun _ => rfl
  have hconfiguration : decision.effectiveConfigDigest = pending.effectiveConfigDigest :=
    proposal_column hproposal WorkflowDecisionRecord.effectiveConfigDigest fun _ => rfl
  rw [hidentity, hpackage, hconfiguration]
  exact ⟨hdecides.package, hdecides.configuration⟩

theorem run_asked
    (halong : (workflowEngine policy).Along (fun system op => op.Decoded system) ops
      (workflowEngine policy).init)
    (hw : ((workflowEngine policy).run ops (workflowEngine policy).init).workflow id = some w) :
    w.Chained (committedSteps policy id ops (workflowEngine policy).init) ∧
      w.Asked (committedSteps policy id ops (workflowEngine policy).init) := by
  have hlogged := run_logged policy id (fun system op => op.Decoded system) WorkflowAct.Bound
    (J := fun log w => w.Chained log ∧ w.Asked log) ?_ ?_ ?_ halong
  · exact hlogged.holds w hw
  · intro system op act w hreach hdecoded hact hw
    exact WorkflowSystem.act_bound hreach.reachable hdecoded hact hw
  · exact fun core w request run hopens => ⟨.opens hopens, .opens hopens⟩
  · rintro system core act log w w' hreach hw ⟨hchained, hasked⟩ hbound hmove
    have hsound := WorkflowSystem.reachable_sound hreach.reachable hw
    have hproposing := WorkflowSystem.decoded_proposing hreach hw
    exact ⟨hchained.moves hsound hmove, hasked.moves hsound hchained hproposing hbound hmove⟩

end History

variable {policy : QueuePolicy} {id : Nat} {w w' : Workflow}

structure PassedBy (policy : QueuePolicy) (id : Nat) (ops : List WorkflowOp) (w w' : Workflow)
    (entry : CommittedStep) (now : Instant) (decision : WorkflowDecisionRecord) : Prop where
  present : decision ∈ w.decisions
  proposed : w.Proposes entry decision
  workflow : decision.workflowId = w.execution.id
  revision : decision.checkpointRevision + 1 = w.execution.checkpointRevision
  approved : ApprovedIn policy id ops decision
  unspent : decision.state = .approved ∧ decision.consumedAt = none
  unexpired : now < decision.expiresAt
  package : w.execution.identity.executable.packageContentDigest =
    decision.packageContentDigest
  configuration : w.execution.identity.executable.effectiveConfigDigest =
    decision.effectiveConfigDigest
  spent : decision.consume now ∈ w'.decisions

theorem unspent_of_approved {db : WorkflowDatabase} (hw : db.1.own.workflow id = some w) :
    ∀ decision ∈ w.decisions, decision.state = .approved → decision.consumedAt = none := by
  intro decision hdecision hstate
  have hshape := (db.1.own.decisions.lawful.checked decision
    ((mem_decisions hw).mp hdecision).1).lifecycleShape
  rw [hstate] at hshape
  exact hshape.2

theorem passedBy_of_dispatch {ops : List WorkflowOp} {core : Tables} {now : Instant}
    {entry : CommittedStep}
    (halong : (workflowEngine policy).Along (fun system op => op.Decoded system) ops
      (workflowEngine policy).init)
    (hw : ((workflowEngine policy).run ops (workflowEngine policy).init).workflow id = some w)
    (dispatch : Workflow.Dispatch core w now)
    (hentry : entry ∈ committedSteps policy id ops (workflowEngine policy).init)
    (hwait : entry.result.directive.waitKind = some .ownerDecision)
    (hlast : entry.checkpoint.revision = w.execution.checkpointRevision) :
    ∃ decision, PassedBy policy id ops w dispatch.after entry now decision := by
  obtain ⟨-, hasked⟩ := run_asked halong hw
  have hproposing := WorkflowSystem.decoded_proposing ⟨ops, halong, rfl⟩ hw
  obtain ⟨decision, hdecision, hproposes, hspends, happroval⟩ :=
    hasked.dispatched hproposing (unspent_of_approved hw) dispatch hentry hwait hlast
  obtain ⟨hrevision, hstate, hunspent⟩ := of_decide_eq_true (List.mem_filter.mp happroval).2
  have happroved := run_approved policy ops id hw decision hdecision (by rw [hstate]; trivial)
  obtain ⟨hpackage, hconfiguration⟩ := happroved.digests hw
  refine ⟨decision, ?_⟩
  constructor
  · exact hdecision
  · exact hproposes
  · rw [workflow_id hw]
    exact ((mem_decisions hw).mp hdecision).2
  · exact hrevision
  · exact happroved
  · exact ⟨hstate, hunspent⟩
  · exact dispatch.clears.unexpired decision hspends
  · exact hpackage
  · exact hconfiguration
  · change decision.consume now ∈ w.spend dispatch.approved now
    rw [hspends]
    exact Workflow.mem_spend_consumed hdecision hunspent

theorem eq_consumed (policy : QueuePolicy) {system : WorkflowSystem}
    {decision : WorkflowDecisionRecord} {now : Instant} (hw : system.workflow id = some w)
    (hspent : decision.consume now ∈ w.decisions) (more : List WorkflowOp)
    (hw' : ((workflowEngine policy).run more system).workflow id = some w') :
    ∀ row ∈ w'.decisions, row.id = decision.id → row = decision.consume now := by
  intro row hrow hid
  obtain ⟨after, hafter, hgrows⟩ := WorkflowSystem.run_grows policy more system hw
  obtain rfl := Option.some.inj (hafter.symm.trans hw')
  obtain ⟨kept, hkept, hmoved⟩ := hgrows.decisions.exists_after hspent
  have hsame := hmoved.closed nofun nofun
  subst hsame
  exact (identifies hw' hkept).2 row hrow hid

/-- On every run of decoded step results, a step that follows a wait for the owner is
dispatched by a tick that spends the owner's approval of exactly what the wait proposed,
no other dispatch ever spends that approval, and after a denial no step is dispatched. -/
theorem decision_wait_passed {ops : List WorkflowOp} {op : WorkflowOp}
    (halong : (workflowEngine policy).Along (fun system op => op.Decoded system) (ops ++ [op])
      (workflowEngine policy).init)
    (hw : ((workflowEngine policy).run ops (workflowEngine policy).init).workflow id = some w)
    (hw' : ((workflowEngine policy).run (ops ++ [op]) (workflowEngine policy).init).workflow id =
      some w') :
    (∀ step ∈ w'.steps, (∀ before ∈ w.steps, before.stepNumber ≠ step.stepNumber) →
      ∀ entry ∈ committedSteps policy id ops (workflowEngine policy).init,
        entry.checkpoint.revision + 1 = step.stepNumber →
        entry.result.directive.waitKind = some .ownerDecision →
        ∃ request decision, op = .tick request ∧
          PassedBy policy id ops w w' entry request.now decision ∧
          ∀ more w'', ((workflowEngine policy).run (ops ++ [op] ++ more)
              (workflowEngine policy).init).workflow id = some w'' →
            ∀ row ∈ w''.decisions, row.id = decision.id →
              row = decision.consume request.now) ∧
      ∀ decision ∈ w'.decisions, decision.state = .denied →
        ∀ more w'', ((workflowEngine policy).run (ops ++ [op] ++ more)
            (workflowEngine policy).init).workflow id = some w'' →
          w''.steps.length = w'.steps.length := by
  obtain ⟨hbefore, -⟩ := (Machine.along_append _ ops [op] _).mp halong
  constructor
  · intro step hstep hnew entry hentry hnumber hwait
    have hsound := WorkflowSystem.reachable_sound ⟨ops, rfl⟩ hw
    have hexec := hw'
    rw [Machine.run_append] at hexec
    obtain ⟨after, hafter, hmoved⟩ :=
      (WorkflowSystem.exec_refines policy op _).kept id w hw
    obtain rfl := Option.some.inj (hafter.symm.trans hexec)
    rcases hmoved with rfl | ⟨act, hact, hmove⟩
    · exact absurd rfl (hnew step hstep)
    rcases hmove.dispatch_or_undrawn with ⟨now, dispatch, rfl, rfl⟩ | hundrawn
    · obtain ⟨request, rfl, rfl⟩ := tick_of_act hact
      have hlast : entry.checkpoint.revision = w.execution.checkpointRevision := by
        rcases List.mem_append.mp hstep with hold | hadded
        · exact absurd rfl (hnew step hold)
        · rw [List.mem_singleton.mp hadded] at hnumber
          change _ = w.execution.stepCount + 1 at hnumber
          have hresting := (hsound.resting dispatch.clears.ready).1
          omega
      obtain ⟨decision, hpassed⟩ :=
        passedBy_of_dispatch hbefore hw dispatch hentry hwait hlast
      refine ⟨request, decision, rfl, hpassed, ?_⟩
      intro more w'' hw''
      rw [Machine.run_append] at hw''
      exact eq_consumed policy hw' hpassed.spent more hw''
    · have hpin : step.pin ∈ w.steps.map (·.pin) := by
        rw [← hundrawn.steps]
        exact List.mem_map_of_mem hstep
      obtain ⟨before, hmem, heq⟩ := List.mem_map.mp hpin
      have hsame : before.stepNumber = step.stepNumber :=
        StepMoves.column heq WorkflowStepRecord.stepNumber fun _ => rfl
      exact absurd hsame (hnew before hmem)
  · intro decision hdecision hdenied more w'' hw''
    have hover := (WorkflowSystem.decoded_proposing ⟨ops ++ [op], halong, rfl⟩ hw').denied
      decision hdecision hdenied
    rw [Machine.run_append] at hw''
    obtain ⟨after, hafter, hgrows⟩ := WorkflowSystem.run_grows policy more _ hw'
    obtain rfl := Option.some.inj (hafter.symm.trans hw'')
    exact (hgrows.ended hover).2.2

/-- The owner approves what the first step proposed. -/
def approvedRun : List WorkflowOp :=
  proposedRun ++ [.decide (sampleVerdict true 3)]

theorem approvedRun_along : (workflowEngine productionQueuePolicy).Along
    (fun system op => op.Decoded system) (approvedRun ++ [.tick (sampleTick 4)])
    (workflowEngine productionQueuePolicy).init := by
  have hproposed : (workflowEngine productionQueuePolicy).Along
      (fun system op =>
          op.Decoded system) proposedRun (workflowEngine productionQueuePolicy).init :=
    proposedRun_along.mono fun _ _ => And.left
  rw [approvedRun, List.append_assoc, Machine.along_append]
  exact ⟨hproposed, trivial, trivial, trivial⟩

set_option maxRecDepth 100000 in
/-- The second step of a sample workflow is dispatched on the owner's approval. -/
theorem decision_wait_passed_sample : ∃ w w' entry decision,
    (sampleWorkflowRun approvedRun).workflow 1 = some w ∧
      (sampleWorkflowRun (approvedRun ++ [.tick (sampleTick 4)])).workflow 1 = some w' ∧
      PassedBy productionQueuePolicy 1 approvedRun w w' entry 4 decision := by
  have hbefore : ∃ w ∈ (sampleWorkflowRun approvedRun).workflow 1,
      ∀ before ∈ w.steps, before.stepNumber ≠ 2 := by
    decide +kernel
  have hafter : ∃ w ∈ (sampleWorkflowRun (approvedRun ++ [.tick (sampleTick 4)])).workflow 1,
      ∃ step ∈ w.steps, step.stepNumber = 2 := by
    decide +kernel
  have hlogged : ∃ entry ∈ committedSteps productionQueuePolicy 1 approvedRun
        (workflowEngine productionQueuePolicy).init,
      entry.checkpoint.revision + 1 = 2 ∧
        entry.result.directive.waitKind = some .ownerDecision := by
    decide +kernel
  obtain ⟨w, hw, hnew⟩ := hbefore
  obtain ⟨w', hw', step, hstep, hnumber⟩ := hafter
  obtain ⟨entry, hentry, hrevision, hwait⟩ := hlogged
  rw [← hnumber] at hnew hrevision
  obtain ⟨request, decision, hop, hpassed, -⟩ :=
    (decision_wait_passed approvedRun_along hw hw').1 step hstep hnew entry hentry hrevision hwait
  obtain rfl := WorkflowOp.tick.inj hop
  exact ⟨w, w', entry, decision, hw, hw', hpassed⟩

end NervOS
