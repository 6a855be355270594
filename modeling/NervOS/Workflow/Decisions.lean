/-
Owner decisions: where a step's result is bound to the step, an open decision is the
one that its workflow waits for, and a denial ends the workflow.
-/
import NervOS.Workflow.Growth

namespace NervOS

open Relational

structure WorkflowDirective.Asks (directive : WorkflowDirective)
    (proposal : Option WorkflowDecisionRequest) (revision : Nat) : Prop where
  signalKey : ∀ key ∈ directive.signalKey, ValidSafeKey key
  decisionKey : ∀ key ∈ directive.decisionKey, key.ValidSafeKey
  revision : ∀ request ∈ proposal, request.checkpointRevision = revision
  awaited : proposal ≠ none → directive.waitKind = some .ownerDecision

def WorkflowStepResult.Bound (result : WorkflowStepResult) (revision : Nat) : Prop :=
  result.directive.Asks result.decisionRequest revision

theorem completedResult_bound (state : FrozenState) (revision : Nat) :
    (completedResult state).Bound revision where
  signalKey _ hkey := nomatch hkey
  decisionKey _ hkey := nomatch hkey
  revision _ hrequest := nomatch hrequest
  awaited hrequest := absurd rfl hrequest

def WorkflowAct.Bound (act : WorkflowAct) (w : Workflow) : Prop :=
  match act with
  | .commit runId result _ => ∀ step ∈ w.steps, step.runId = some runId →
      result.Bound step.expectedCheckpointRevision
  | .tick _ | .deliver _ | .decide _ | .setPaused _ _ | .cancel _ => True

def Workflow.Closed (w : Workflow) : Prop :=
  ∀ decision ∈ w.decisions, decision.state ≠ .pending

def WorkflowAct.Timely (act : WorkflowAct) (w : Workflow) : Prop :=
  match act with
  | .tick now => w.execution.deadlineAt ≤ now → w.Closed
  | .commit _ _ _ | .deliver _ | .decide _ | .setPaused _ _ | .cancel _ => True

namespace Workflow

theorem Closed.amend {w : Workflow} {p : WorkflowDecisionRecord → Prop} [DecidablePred p]
    {f : WorkflowDecisionRecord → WorkflowDecisionRecord} (h : w.Closed)
    (hstate : ∀ decision, (f decision).state ≠ .pending) :
    ∀ decision ∈ w.decisions.map (Table.amend p f), decision.state ≠ .pending := by
  intro decision hdecision
  obtain ⟨row, hrow, rfl⟩ := List.mem_map.mp hdecision
  by_cases hp : p row
  · rw [Table.amend_of_pos hp]
    exact hstate row
  · rw [Table.amend_of_neg hp]
    exact h row hrow

structure Proposing (w : Workflow) : Prop where
  below : ∀ revision ∈ w.decisions.map (·.checkpointRevision),
    revision < w.execution.checkpointRevision
  distinct : (w.decisions.map (·.checkpointRevision)).Nodup
  awaited : ¬ w.execution.status.IsTerminal → ∀ decision ∈ w.decisions,
    decision.state = .pending → w.execution.status = .waiting ∧
      w.execution.waitKind = some .ownerDecision ∧
      decision.checkpointRevision + 1 = w.execution.checkpointRevision
  denied : ∀ decision ∈ w.decisions, decision.state = .denied → w.execution.status.IsTerminal

section Spend

variable {w : Workflow} {now : Instant} {approved : Option WorkflowDecisionRecord}
  {decision : WorkflowDecisionRecord}

theorem mem_spend (h : decision ∈ w.spend approved now) :
    decision ∈ w.decisions ∨ ∃ before ∈ approved, ∃ row ∈ w.decisions, row.id = before.id ∧
      decision = row.consume now := by
  cases approved with
  | none => exact Or.inl h
  | some approved =>
    obtain ⟨row, hrow, rfl⟩ := List.mem_map.mp h
    by_cases hp : row.id = approved.id ∧ row.consumedAt = none
    · right
      refine ⟨approved, rfl, row, hrow, hp.1, ?_⟩
      exact Table.amend_of_pos (p := fun decision : WorkflowDecisionRecord =>
        decision.id = approved.id ∧ decision.consumedAt = none) hp
    · left
      rwa [Table.amend_of_neg (p := fun decision : WorkflowDecisionRecord =>
        decision.id = approved.id ∧ decision.consumedAt = none) hp]

theorem spend_revisions (w : Workflow) (approved : Option WorkflowDecisionRecord)
    (now : Instant) :
    (w.spend approved now).map (·.checkpointRevision) =
      w.decisions.map (·.checkpointRevision) := by
  cases approved with
  | none => rfl
  | some approved =>
    apply map_column_amend
    exact fun _ => rfl

theorem mem_spend_of_state (h : decision ∈ w.spend approved now)
    (hstate : decision.state ≠ .consumed) : decision ∈ w.decisions := by
  rcases mem_spend h with hold | ⟨_, -, row, -, -, rfl⟩
  · exact hold
  · exact absurd rfl hstate

end Spend

namespace Proposing

variable {core : Tables} {w w' : Workflow}

section

variable (h : w.Proposing)
    (hdecisions : w'.decisions.map (·.checkpointRevision) = w.decisions.map (·.checkpointRevision))
    (hrevision : w'.execution.checkpointRevision = w.execution.checkpointRevision)

include h hdecisions hrevision

theorem of_revisions
    (hawaited : ¬ w'.execution.status.IsTerminal → ∀ decision ∈ w'.decisions,
      decision.state = .pending → w'.execution.status = .waiting ∧
        w'.execution.waitKind = some .ownerDecision ∧
        decision.checkpointRevision + 1 = w'.execution.checkpointRevision)
    (hdenied : ∀ decision ∈ w'.decisions, decision.state = .denied → w'.execution.status.IsTerminal)
    : w'.Proposing := by
  refine ⟨?_, ?_, hawaited, hdenied⟩
  · rw [hdecisions, hrevision]
    exact h.below
  · rw [hdecisions]
    exact h.distinct

theorem of_over (hover : w'.execution.status.IsTerminal) : w'.Proposing :=
  h.of_revisions hdecisions hrevision (fun hactive => absurd hover hactive) fun _ _ _ => hover

theorem of_closed (hactive : ¬ w.execution.status.IsTerminal) (hpending : w.Closed)
    (hkept : ∀ decision ∈ w'.decisions, decision.state = .pending ∨ decision.state = .denied →
      decision ∈ w.decisions) : w'.Proposing := by
  apply h.of_revisions hdecisions hrevision
  · intro _ decision hdecision hstate
    exact absurd hstate (hpending decision (hkept decision hdecision (Or.inl hstate)))
  · intro decision hdecision hstate
    exact absurd (h.denied decision (hkept decision hdecision (Or.inr hstate)) hstate) hactive

end

theorem closed_of_running (h : w.Proposing) (hrunning : w.execution.status = .running) :
    w.Closed := by
  intro decision hdecision hpending
  have hactive : ¬ w.execution.status.IsTerminal := by
    rw [hrunning]
    exact id
  have hwaiting := (h.awaited hactive decision hdecision hpending).1
  rw [hrunning] at hwaiting
  cases hwaiting

theorem closed_of_unblocked (h : w.Proposing) (hready : w.execution.status.IsDispatchable)
    (hunblocked : ¬ w.Blocked) : w.Closed := by
  intro decision hdecision hpending
  obtain ⟨-, hkind, -⟩ :=
    h.awaited (not_terminal_of_dispatchable hready) decision hdecision hpending
  exact hunblocked (Or.inr hkind)

theorem eq_of_revision (h : w.Proposing) {left right : WorkflowDecisionRecord}
    (hleft : left ∈ w.decisions) (hright : right ∈ w.decisions)
    (hrevision : left.checkpointRevision = right.checkpointRevision) : left = right :=
  List.inj_on_of_nodup_map h.distinct hleft hright hrevision

theorem opens {request : WorkflowCreationRequest} {run : RunRecord}
    (h : w.Opens core request run) : w.Proposing := by
  constructor <;> rw [h.decisions]
  · exact List.forall_mem_nil _
  · exact List.nodup_nil
  · exact fun _ => List.forall_mem_nil _
  · exact List.forall_mem_nil _

theorem spend {now : Instant} {approved : Option WorkflowDecisionRecord} (h : w.Proposing)
    (hclears : w.Clears approved now)
    (hdecisions : w'.decisions = w.spend approved now)
    (hrevision : w'.execution.checkpointRevision = w.execution.checkpointRevision) :
    w'.Proposing := by
  apply h.of_closed _ hrevision (not_terminal_of_dispatchable hclears.ready)
    (h.closed_of_unblocked hclears.ready hclears.unblocked)
  · intro decision hdecision hstate
    rw [hdecisions] at hdecision
    apply mem_spend_of_state hdecision
    intro hconsumed
    rw [hconsumed] at hstate
    rcases hstate with hstate | hstate <;> cases hstate
  · rw [hdecisions]
    exact spend_revisions w approved now

theorem commit {runId : Nat} {result : WorkflowStepResult} {now : Instant} (h : w.Proposing)
    (commit : Commit w runId)
    (hbound : result.Bound commit.step.expectedCheckpointRevision) :
    (commit.after result now).Proposing := by
  have hclosed := h.closed_of_running commit.parent
  have hnew : ∀ decision ∈ (commit.decision result now).toList, decision.state = .pending ∧
      decision.checkpointRevision = w.execution.checkpointRevision ∧
      result.directive.kind = .wait ∧ result.directive.waitKind = some .ownerDecision := by
    intro decision hdecision
    rw [Option.mem_toList, Commit.decision, Option.map_eq_some_iff] at hdecision
    obtain ⟨request, hrequest, rfl⟩ := hdecision
    have hsome : result.decisionRequest ≠ none := by
      rw [hrequest]
      exact nofun
    refine ⟨rfl, ?_, result.waited hsome, hbound.awaited hsome⟩
    change request.checkpointRevision = _
    rw [hbound.revision request hrequest, commit.expected]
  have hnewRevisions : ∀ revision ∈
      (commit.decision result now).toList.map (·.checkpointRevision),
      revision = w.execution.checkpointRevision := by
    intro revision hmem
    obtain ⟨decision, hdecision, rfl⟩ := List.mem_map.mp hmem
    exact (hnew decision hdecision).2.1
  constructor
  · intro revision hmem
    change revision ∈ (w.decisions ++ _).map _ at hmem
    change revision < w.execution.checkpointRevision + 1
    rw [List.map_append, List.mem_append] at hmem
    rcases hmem with hold | hnew
    · exact Nat.lt_succ_of_lt (h.below revision hold)
    · rw [hnewRevisions revision hnew]
      exact Nat.lt_succ_self _
  · change ((w.decisions ++ (commit.decision result now).toList).map _).Nodup
    rw [List.map_append, List.nodup_append]
    refine ⟨h.distinct, ?_, ?_⟩
    · cases commit.decision result now with
      | none => exact List.nodup_nil
      | some decision => exact List.nodup_singleton _
    · intro left hleft right hright
      rw [hnewRevisions right hright]
      exact Nat.ne_of_lt (h.below left hleft)
  · intro _ decision hdecision hpending
    rcases List.mem_append.mp hdecision with hold | hadded
    · exact absurd hpending (hclosed decision hold)
    · obtain ⟨-, hrevision, hkind, hwait⟩ := hnew decision hadded
      refine ⟨?_, ?_, ?_⟩
      · change result.directive.target = .waiting
        rw [WorkflowDirective.target, hkind]
      · change (if result.directive.kind = .wait then result.directive.waitKind else none) = _
        rw [if_pos hkind, hwait]
      · exact congrArg (· + 1) hrevision
  · intro decision hdecision hdenied
    rcases List.mem_append.mp hdecision with hold | hadded
    · have hover := h.denied decision hold hdenied
      rw [commit.parent] at hover
      exact hover.elim
    · rw [(hnew decision hadded).1] at hdenied
      cases hdenied

variable {verdict : Verdict} {decision : WorkflowDecisionRecord} (h : w.Proposing)

include h

theorem awaits (hdecides : w.Decides verdict decision) (hactive : ¬ w.execution.status.IsTerminal) :
    verdict.Awaited w.execution := by
  obtain ⟨hwaiting, hkind, hrevision⟩ :=
    h.awaited hactive decision hdecides.identified.1 hdecides.pending
  refine ⟨hdecides.workflow, hwaiting, hkind, ?_⟩
  rw [← hrevision, hdecides.revision]

theorem closed_decided (hdecides : w.Decides verdict decision)
    (hactive : ¬ w.execution.status.IsTerminal) : (w.decided verdict).Closed := by
  intro row' hrow' hpending
  obtain ⟨row, hrow, rfl⟩ := List.mem_map.mp hrow'
  by_cases hp : row.id = verdict.decisionId ∧ row.state = .pending
  · rw [Table.amend_of_pos (p := fun row : WorkflowDecisionRecord =>
      row.id = verdict.decisionId ∧ row.state = .pending) hp] at hpending
    change (if verdict.approve then WorkflowDecisionState.approved else .denied) = _ at hpending
    split at hpending <;> cases hpending
  · rw [Table.amend_of_neg (p := fun row : WorkflowDecisionRecord =>
      row.id = verdict.decisionId ∧ row.state = .pending) hp] at hpending
    obtain ⟨-, -, hrevision⟩ := h.awaited hactive row hrow hpending
    obtain ⟨-, -, hdecided⟩ :=
      h.awaited hactive decision hdecides.identified.1 hdecides.pending
    have hsame := h.eq_of_revision hrow hdecides.identified.1 (by omega)
    rw [hsame] at hp hpending
    exact hp ⟨hdecides.id, hpending⟩

theorem over_of_denied (hactive : ¬ w.execution.status.IsTerminal)
    (hexecution : (w.decided verdict).execution = w.execution.decide verdict) :
    ∀ decision ∈ (w.decided verdict).decisions, decision.state = .denied →
      (w.decided verdict).execution.status.IsTerminal := by
  intro row' hrow' hdenied
  obtain ⟨row, hrow, rfl⟩ := List.mem_map.mp hrow'
  by_cases hp : row.id = verdict.decisionId ∧ row.state = .pending
  · rw [Table.amend_of_pos (p := fun row : WorkflowDecisionRecord =>
      row.id = verdict.decisionId ∧ row.state = .pending) hp] at hdenied
    change (if verdict.approve then WorkflowDecisionState.approved else .denied) = _ at hdenied
    rw [hexecution]
    change (if verdict.approve then WorkflowStatus.runnable else .cancelled).IsTerminal
    split at hdenied
    · cases hdenied
    · rename_i hdeny
      rw [if_neg hdeny]
      trivial
  · rw [Table.amend_of_neg (p := fun row : WorkflowDecisionRecord =>
      row.id = verdict.decisionId ∧ row.state = .pending) hp] at hdenied
    exact absurd (h.denied row hrow hdenied) hactive

theorem decided (hdecides : w.Decides verdict decision) :
    (w.decided verdict).Proposing := by
  have hrevisions : (w.decided verdict).decisions.map (·.checkpointRevision) =
      w.decisions.map (·.checkpointRevision) := by
    apply map_column_amend
    exact fun _ => rfl
  rcases decided_execution w verdict with ⟨hawaited, hexecution⟩ | ⟨hnot, hexecution⟩
  · have hactive : ¬ w.execution.status.IsTerminal := by
      rw [hawaited.2.1]
      exact id
    apply h.of_revisions hrevisions
    · rw [hexecution]
      rfl
    · intro _ row hrow hpending
      exact absurd hpending (h.closed_decided hdecides hactive row hrow)
    · exact h.over_of_denied hactive hexecution
  · have hover : w.execution.status.IsTerminal := by
      by_contra hactive
      exact hnot (h.awaits hdecides hactive)
    apply h.of_over hrevisions
    · rw [hexecution]
    · rw [hexecution]
      exact hover

theorem moves {act : WorkflowAct} (hbound : act.Bound w) (hmoves : w.Moves core act w') :
    w'.Proposing := by
  cases hmoves with
  | rotate _ | setPaused _ => exact h.of_revisions rfl rfl h.awaited h.denied
  | loseRun _ | miss _ _ => exact h.of_over rfl rfl trivial
  | close _ _ hcloses =>
    refine h.of_over rfl rfl ?_
    rcases hcloses with rfl | rfl <;> trivial
  | loseAuthority _ _ _ _ _ =>
    refine h.of_over ?_ rfl trivial
    apply map_column_amend
    exact fun _ => rfl
  | relink hclears _ _ => exact h.spend hclears rfl rfl
  | dispatch dispatch => exact h.spend dispatch.clears rfl rfl
  | commit commit => exact h.commit commit (hbound commit.step commit.owned commit.linked)
  | finishLate _ _ hcancelled =>
    refine h.of_over rfl rfl ?_
    change w.execution.status.IsTerminal
    rw [hcancelled]
    trivial
  | wake _ haccepted _ =>
    obtain ⟨hwaiting, hkind, -, -⟩ := waits_of_accepted haccepted
    have hactive : ¬ w.execution.status.IsTerminal := by
      rw [hwaiting]
      exact id
    refine h.of_closed rfl rfl hactive ?_ fun decision hdecision _ => hdecision
    intro decision hdecision hpending
    obtain ⟨-, hother, -⟩ := h.awaited hactive decision hdecision hpending
    rw [hkind] at hother
    cases hother
  | decide hdecides => exact h.decided hdecides
  | cancel _ =>
    refine h.of_over ?_ rfl trivial
    apply map_column_amend
    exact fun _ => rfl

theorem closes {act : WorkflowAct} (htimely : act.Timely w)
    (hclosed : w.execution.status.IsTerminal → w.Closed) (hmoves : w.Moves core act w')
    (hover : w'.execution.status.IsTerminal) : w'.Closed := by
  cases hmoves with
  | rotate hactive | setPaused hactive => exact absurd hover hactive
  | loseRun hrunning => exact h.closed_of_running hrunning
  | miss _ hlate => exact htimely hlate
  | close hready hunblocked _ => exact h.closed_of_unblocked hready hunblocked
  | loseAuthority hready hunblocked _ _ _ =>
    exact (h.closed_of_unblocked hready hunblocked).amend fun _ => nofun
  | relink hclears _ _ => exact absurd hover (not_terminal_of_dispatchable hclears.ready)
  | dispatch _ | wake _ _ _ => exact hover.elim
  | @commit w runId result now commit =>
    intro decision hdecision
    rcases List.mem_append.mp hdecision with hold | hnew
    · exact h.closed_of_running commit.parent decision hold
    · rw [Option.mem_toList, Commit.decision, Option.map_eq_some_iff] at hnew
      obtain ⟨request, hrequest, rfl⟩ := hnew
      change result.directive.target.IsTerminal at hover
      rw [WorkflowDirective.target, result.waited] at hover
      · exact hover.elim
      · rw [hrequest]
        exact nofun
  | finishLate _ _ hcancelled =>
    apply hclosed
    rw [hcancelled]
    trivial
  | @decide w verdict decision hdecides =>
    by_cases hactive : w.execution.status.IsTerminal
    · exact absurd hdecides.pending (hclosed hactive decision hdecides.identified.1)
    · exact h.closed_decided hdecides hactive
  | cancel _ =>
    intro decision hdecision hpending
    obtain ⟨row, hrow, rfl⟩ := List.mem_map.mp hdecision
    by_cases hp : row.state = .pending
    · rw [Table.amend_of_pos (p := fun row : WorkflowDecisionRecord => row.state = .pending) hp]
        at hpending
      cases hpending
    · rw [Table.amend_of_neg (p := fun row : WorkflowDecisionRecord => row.state = .pending) hp]
        at hpending
      exact hp hpending

end Proposing

end Workflow

end NervOS
