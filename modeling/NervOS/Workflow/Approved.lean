/-
Approvals: where they come from, and that a step which follows a wait for the owner is
dispatched on the approval of exactly what that wait proposed.
-/
import NervOS.Workflow.Chain
import NervOS.Workflow.Decisions

namespace NervOS

open Relational

/-- The owner has approved it, whether or not a dispatch has spent it since. -/
def WorkflowDecisionState.IsGranted : WorkflowDecisionState → Prop
  | .approved | .consumed => True
  | .pending | .denied | .expired | .cancelled => False

def GrantedUnder (act : WorkflowAct) (w : Workflow) (decision : WorkflowDecisionRecord) : Prop :=
  decision.state.IsGranted ∨
    ∃ verdict, act = .decide verdict ∧ verdict.approve = true ∧ w.Decides verdict decision

namespace Workflow

section Granted

variable {w : Workflow} {act : WorkflowAct} {p : WorkflowDecisionRecord → Prop} [DecidablePred p]
  {f : WorkflowDecisionRecord → WorkflowDecisionRecord} {decision' : WorkflowDecisionRecord}

theorem granted_amend (hproposal : ∀ decision, (f decision).proposal = decision.proposal)
    (hgrants : ∀ decision ∈ w.decisions, p decision → (f decision).state.IsGranted →
      GrantedUnder act w decision) (hmem : decision' ∈ w.decisions.map (Table.amend p f))
    (hgranted : decision'.state.IsGranted) :
    ∃ decision ∈ w.decisions, decision'.proposal = decision.proposal ∧
      GrantedUnder act w decision := by
  obtain ⟨decision, hdecision, rfl⟩ := List.mem_map.mp hmem
  refine ⟨decision, hdecision, Table.amend_column hproposal decision, ?_⟩
  by_cases hp : p decision
  · rw [Table.amend_of_pos hp] at hgranted
    exact hgrants decision hdecision hp hgranted
  · rw [Table.amend_of_neg hp] at hgranted
    exact Or.inl hgranted

theorem granted_spend {now : Instant} {approved : Option WorkflowDecisionRecord}
    (hclears : w.Clears approved now) (hmem : decision' ∈ w.spend approved now)
    (hgranted : decision'.state.IsGranted) :
    ∃ decision ∈ w.decisions, decision'.proposal = decision.proposal ∧
      GrantedUnder act w decision := by
  rcases mem_spend hmem with hold | ⟨before, hbefore, row, hrow, hid, rfl⟩
  · exact ⟨decision', hold, rfl, Or.inl hgranted⟩
  · refine ⟨row, hrow, rfl, Or.inl ?_⟩
    have happroval : before ∈ w.approvals := List.mem_of_head? (hclears.head ▸ hbefore)
    obtain ⟨-, hstate, -⟩ := of_decide_eq_true (List.mem_filter.mp happroval).2
    rw [(hclears.identified before hbefore).2 row hrow hid, hstate]
    trivial

theorem Moves.granted {core : Tables} {w' : Workflow} (hmoves : w.Moves core act w')
    (hmem : decision' ∈ w'.decisions) (hgranted : decision'.state.IsGranted) :
    ∃ decision ∈ w.decisions, decision'.proposal = decision.proposal ∧
      GrantedUnder act w decision := by
  cases hmoves with
  | rotate _ | loseRun _ | miss _ _ | close _ _ _ | finishLate _ _ _ | wake _ _ _ | setPaused _ =>
    exact ⟨decision', hmem, rfl, Or.inl hgranted⟩
  | loseAuthority _ _ _ _ _ =>
    apply granted_amend _ _ hmem hgranted
    · exact fun _ => rfl
    · exact fun _ _ _ hexpired => False.elim hexpired
  | relink hclears _ _ => exact granted_spend hclears hmem hgranted
  | dispatch dispatch => exact granted_spend dispatch.clears hmem hgranted
  | @commit w runId result now commit =>
    rcases List.mem_append.mp hmem with hold | hnew
    · exact ⟨decision', hold, rfl, Or.inl hgranted⟩
    · rw [Option.mem_toList, Commit.decision, Option.map_eq_some_iff] at hnew
      obtain ⟨request, -, rfl⟩ := hnew
      exact hgranted.elim
  | @decide w verdict decision hdecides =>
    apply granted_amend _ _ hmem hgranted
    · exact fun _ => rfl
    · intro row hrow hp happroved
      have hsame := hdecides.identified.2 row hrow (hp.1.trans hdecides.id.symm)
      refine Or.inr ⟨verdict, rfl, ?_, hsame ▸ hdecides⟩
      by_contra hdeny
      change (if verdict.approve then WorkflowDecisionState.approved else .denied).IsGranted
        at happroved
      rw [if_neg hdeny] at happroved
      exact happroved
  | cancel _ =>
    apply granted_amend _ _ hmem hgranted
    · exact fun _ => rfl
    · exact fun _ _ _ hcancelled => False.elim hcancelled

end Granted

structure Proposes (w : Workflow) (entry : CommittedStep) (decision : WorkflowDecisionRecord) :
    Prop where
  request : ∃ request, entry.result.decisionRequest = some request ∧
    decision.proposal = request.decision w.execution entry.checkpoint.createdAt decision.id
  revision : decision.checkpointRevision + 1 = entry.checkpoint.revision

structure Asked (log : List CommittedStep) (w : Workflow) : Prop where
  proposed : ∀ entry ∈ log, entry.result.directive.waitKind = some .ownerDecision →
    ∃ decision ∈ w.decisions, w.Proposes entry decision
  awaiting : w.execution.status.IsDispatchable →
    ∀ entry ∈ log, entry.result.directive.waitKind = some .ownerDecision →
      entry.checkpoint.revision = w.execution.checkpointRevision →
      w.execution.waitKind = some .ownerDecision ∨
        ∃ decision ∈ w.decisions, decision.state = .approved ∧
          decision.checkpointRevision + 1 = w.execution.checkpointRevision

theorem head?_of_mem_of_length_le_one {α : Type} {items : List α} {item : α} (h : item ∈ items)
    (hlength : items.length ≤ 1) : items.head? = some item := by
  match items, h, hlength with
  | [only], h, _ => rw [List.head?_cons, List.mem_singleton.mp h]

variable {decision : WorkflowDecisionRecord}

theorem mem_spend_consumed {w : Workflow} {now : Instant} (hmem : decision ∈ w.decisions)
    (hunspent : decision.consumedAt = none) :
    decision.consume now ∈ w.spend (some decision) now := by
  apply List.mem_map.mpr
  refine ⟨decision, hmem, ?_⟩
  exact Table.amend_of_pos (p := fun row : WorkflowDecisionRecord =>
    row.id = decision.id ∧ row.consumedAt = none) ⟨rfl, hunspent⟩

theorem kind_of_ownerDecision (directive : WorkflowDirective)
    (hwait : directive.waitKind = some .ownerDecision) : directive.kind = .wait := by
  have hvalid := directive.valid
  unfold DirectiveFields.Valid at hvalid
  split at hvalid
  · rw [hvalid.1] at hwait
    cases hwait
  · rw [hvalid.1] at hwait
    cases hwait
  · assumption
  · assumption
  · assumption
  · exact hvalid.elim

theorem exists_approved {w : Workflow} {verdict : Verdict} (hdecides : w.Decides verdict decision)
    (hawaited : verdict.Awaited w.execution)
    (hready : (w.decided verdict).execution.status.IsDispatchable) :
    ∃ row ∈ (w.decided verdict).decisions, row.state = .approved ∧
      row.checkpointRevision + 1 = w.execution.checkpointRevision := by
  refine ⟨decision.close verdict.state verdict.now, ?_, ?_, ?_⟩
  · apply List.mem_map.mpr
    refine ⟨decision, hdecides.identified.1, ?_⟩
    exact Table.amend_of_pos (p := fun row : WorkflowDecisionRecord =>
      row.id = verdict.decisionId ∧ row.state = .pending) ⟨hdecides.id, hdecides.pending⟩
  · have hexecution : (w.decided verdict).execution = w.execution.decide verdict :=
      Table.amend_of_pos hawaited
    rw [hexecution] at hready
    change (if verdict.approve then WorkflowStatus.runnable else .cancelled).IsDispatchable
      at hready
    change (if verdict.approve then WorkflowDecisionState.approved else .denied) = .approved
    split at hready
    · rename_i happrove
      rw [if_pos happrove]
    · exact hready.elim
  · change decision.checkpointRevision + 1 = _
    rw [hdecides.revision, hawaited.2.2.2]

namespace Asked

variable {core : Tables} {w w' : Workflow} {log : List CommittedStep}

theorem opens {request : WorkflowCreationRequest} {run : RunRecord}
    (_ : w.Opens core request run) : Asked [] w :=
  ⟨List.forall_mem_nil _, fun _ => List.forall_mem_nil _⟩

variable (h : Asked log w)

include h

theorem proposed_grows (hgrows : w.Grows w') :
    ∀ entry ∈ log, entry.result.directive.waitKind = some .ownerDecision →
      ∃ decision ∈ w'.decisions, w'.Proposes entry decision := by
  intro entry hentry hwait
  obtain ⟨decision, hdecision, ⟨request, hrequest, hproposal⟩, hrevision⟩ :=
    h.proposed entry hentry hwait
  obtain ⟨decision', hdecision', hmoved⟩ := hgrows.decisions.exists_after hdecision
  have hid : decision'.id = decision.id :=
    proposal_column hmoved.proposal WorkflowDecisionRecord.id fun _ => rfl
  have hbound : decision'.checkpointRevision = decision.checkpointRevision :=
    proposal_column hmoved.proposal WorkflowDecisionRecord.checkpointRevision fun _ => rfl
  have hworkflow : w'.execution.id = w.execution.id :=
    frozen_column hgrows.frozen WorkflowExecutionRecord.id fun _ => rfl
  have howner : w'.execution.ownerUserId = w.execution.ownerUserId :=
    frozen_column hgrows.frozen WorkflowExecutionRecord.ownerUserId fun _ => rfl
  refine ⟨decision', hdecision', ⟨request, hrequest, ?_⟩, ?_⟩
  · rw [hmoved.proposal, hproposal, hid]
    simp only [WorkflowDecisionRequest.decision, hworkflow, howner]
  · rw [hbound]
    exact hrevision

theorem of_resting (hgrows : w.Grows w')
    (hrevision : w'.execution.checkpointRevision = w.execution.checkpointRevision)
    (hready : w'.execution.status.IsDispatchable → w.execution.status.IsDispatchable)
    (hawaiting : w.execution.waitKind = some .ownerDecision ∨
        (∃ decision ∈ w.decisions, decision.state = .approved ∧
          decision.checkpointRevision + 1 = w.execution.checkpointRevision) →
      w'.execution.status.IsDispatchable → w'.execution.waitKind = some .ownerDecision ∨
        ∃ decision ∈ w'.decisions, decision.state = .approved ∧
          decision.checkpointRevision + 1 = w.execution.checkpointRevision) : Asked log w' := by
  refine ⟨h.proposed_grows hgrows, ?_⟩
  intro hready' entry hentry hwait hlast
  rw [hrevision] at hlast ⊢
  exact hawaiting (h.awaiting (hready hready') entry hentry hwait hlast) hready'

theorem of_unready (hgrows : w.Grows w') (hunready : ¬ w'.execution.status.IsDispatchable) :
    Asked log w' :=
  ⟨h.proposed_grows hgrows, fun hready => absurd hready hunready⟩

theorem commit {runId : Nat} {result : WorkflowStepResult} {now : Instant}
    (hchained : Chained log w) (commit : Commit w runId)
    (hbound : result.Bound commit.step.expectedCheckpointRevision)
    (hgrows : w.Grows (commit.after result now)) :
    Asked (log ++ [⟨commit.checkpoint result now, runId, result⟩])
      (commit.after result now) := by
  constructor
  · intro entry hentry hwait
    rcases List.mem_append.mp hentry with hold | hnew
    · exact h.proposed_grows hgrows entry hold hwait
    · obtain rfl := List.mem_singleton.mp hnew
      have hkind := kind_of_ownerDecision result.directive hwait
      obtain ⟨request, hrequest⟩ :=
        Option.ne_none_iff_exists'.mp (result.requested hkind hwait)
      refine ⟨request.decision w.execution now commit.decisionId, ?_, ⟨request, hrequest, rfl⟩, ?_⟩
      · apply List.mem_append_right
        rw [Option.mem_toList, Commit.decision, hrequest]
        rfl
      · change request.checkpointRevision + 1 = w.execution.checkpointRevision + 1
        rw [hbound.revision request hrequest, commit.expected]
  · intro _ entry hentry hwait hlast
    rcases List.mem_append.mp hentry with hold | hnew
    · have hle := (hchained.numbered.mem.mp (List.mem_map_of_mem hold)).2
      change entry.checkpoint.revision = w.execution.checkpointRevision + 1 at hlast
      omega
    · obtain rfl := List.mem_singleton.mp hnew
      left
      change (if result.directive.kind = .wait then result.directive.waitKind else none) = _
      rw [if_pos (kind_of_ownerDecision result.directive hwait)]
      exact hwait

theorem moves {act : WorkflowAct} (hsound : w.Sound) (hchained : Chained log w)
    (hproposing : w.Proposing) (hbound : act.Bound w) (hmoves : w.Moves core act w') :
    Asked (log ++ committed act w w') w' := by
  have hgrows := hmoves.grows
  rcases hmoves.commit_or_kept with ⟨runId, result, now, commit, rfl, rfl⟩ |
    ⟨hcheckpoints, hrevision⟩
  · rw [committed, brought_commit commit result now fun row => hchained.revision_le]
    exact h.commit hchained commit (hbound commit.step commit.owned commit.linked) hgrows
  rw [committed_of_eq act hcheckpoints, List.append_nil]
  cases hmoves with
  | rotate _ | setPaused _ =>
    exact h.of_resting hgrows rfl id fun hawaiting _ => hawaiting
  | loseRun _ | miss _ _ | loseAuthority _ _ _ _ _ | cancel _ => exact h.of_unready hgrows id
  | close _ _ hcloses =>
    apply h.of_unready hgrows
    rcases hcloses with rfl | rfl <;> exact id
  | relink hclears howned hnumber =>
    have hle := (hsound.number_le howned).2
    omega
  | dispatch dispatch => exact h.of_unready hgrows id
  | commit commit => exact absurd hrevision (Nat.succ_ne_self _)
  | finishLate _ _ hcancelled =>
    apply h.of_unready hgrows
    change ¬ w.execution.status.IsDispatchable
    rw [hcancelled]
    exact id
  | wake _ haccepted _ =>
    obtain ⟨hwaiting, hkind, -, -⟩ := waits_of_accepted haccepted
    refine h.of_resting hgrows rfl (fun _ => ?_) fun hawaiting _ => Or.inr ?_
    · rw [hwaiting]
      trivial
    · rw [hkind] at hawaiting
      exact hawaiting.resolve_left (by decide)
  | @decide w verdict decision hdecides =>
    by_cases hactive : w.execution.status.IsTerminal
    · apply h.of_unready hgrows
      intro hready
      rw [(hgrows.ended hactive).1] at hready
      exact not_terminal_of_dispatchable hready hactive
    · have hawaited := hproposing.awaits hdecides hactive
      refine h.of_resting hgrows hrevision (fun _ => ?_) fun _ hready => Or.inr ?_
      · rw [hawaited.2.1]
        trivial
      · exact exists_approved hdecides hawaited hready

theorem dispatched {now : Instant} {entry : CommittedStep} (hproposing : w.Proposing)
    (hunspent : ∀ decision ∈ w.decisions, decision.state = .approved → decision.consumedAt = none)
    (dispatch : Dispatch core w now) (hentry : entry ∈ log)
    (hwait : entry.result.directive.waitKind = some .ownerDecision)
    (hlast : entry.checkpoint.revision = w.execution.checkpointRevision) :
    ∃ decision ∈ w.decisions, w.Proposes entry decision ∧
      dispatch.approved = some decision ∧ decision ∈ w.approvals := by
  have hclears := dispatch.clears
  obtain ⟨decision, hdecision, hproposes⟩ := h.proposed entry hentry hwait
  obtain ⟨granted, hgranted, hstate, hrevision⟩ :=
    (h.awaiting hclears.ready entry hentry hwait hlast).resolve_left fun hkind =>
      hclears.unblocked (Or.inr hkind)
  have hsame : granted = decision := by
    apply hproposing.eq_of_revision hgranted hdecision
    have hproposed := hproposes.revision
    omega
  subst hsame
  have happroval : granted ∈ w.approvals := by
    apply List.mem_filter.mpr
    exact ⟨hgranted, decide_eq_true ⟨hrevision, hstate, hunspent granted hgranted hstate⟩⟩
  refine ⟨granted, hdecision, hproposes, ?_, happroval⟩
  rw [hclears.head]
  exact head?_of_mem_of_length_le_one happroval hclears.single

end Asked

end Workflow

end NervOS
