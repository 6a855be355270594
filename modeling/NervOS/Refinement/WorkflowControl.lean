/-
Each operation of the owner's control plane moves one workflow, as the protocol
allows it, and no other.
-/
import NervOS.Workflow.Protocol

namespace NervOS

open Relational

/-- Every workflow moved at most once, under `act`; none appeared or disappeared. -/
structure Moved (core : Tables) (act : WorkflowAct) (own own' : WorkflowTables) : Prop where
  kept : ∀ id w, own.workflow id = some w →
    ∃ w', own'.workflow id = some w' ∧ (w' = w ∨ w.Moves core act w')
  absent : ∀ id, own.workflow id = none → own'.workflow id = none

section Moved

variable {core : Tables} {act : WorkflowAct} {own own' : WorkflowTables}

theorem Moved.of_eq (h : own' = own) : Moved core act own own' := by
  rw [h]
  exact ⟨fun _ w hw => ⟨w, hw, Or.inl rfl⟩, fun _ hnone => hnone⟩

variable {F : Workflow → Workflow}

theorem Rewrites.moved {target : Nat} (h : Rewrites target F own own')
    (hmoves : ∀ w, own.workflow target = some w → w.Moves core act (F w)) :
    Moved core act own own' := by
  constructor
  · intro id w hw
    by_cases hid : id = target
    · subst hid
      refine ⟨F w, ?_, Or.inr (hmoves w hw)⟩
      rw [h.eq_map, hw, Option.map_some]
    · rw [h.eq_of_ne hid]
      exact ⟨w, hw, Or.inl rfl⟩
  · intro id hnone
    by_cases hid : id = target
    · subst hid
      rw [h.eq_map, hnone, Option.map_none]
    · rwa [h.eq_of_ne hid]

theorem Rewrites.moved_trans {target : Nat} {own'' : WorkflowTables}
    (h : Rewrites target F own own')
    (hmoves : ∀ w, own.workflow target = some w → w.Moves core act (F w))
    (hrest : Moved core act own' own'') (hframe : own''.workflow target = own'.workflow target) :
    Moved core act own own'' := by
  obtain ⟨hkept, habsent⟩ := h.moved hmoves
  constructor
  · intro id w hw
    by_cases hid : id = target
    · subst hid
      rw [hframe]
      exact hkept id w hw
    · rw [← h.eq_of_ne hid] at hw
      exact hrest.kept id w hw
  · intro id hnone
    by_cases hid : id = target
    · subst hid
      rw [hframe]
      exact habsent id hnone
    · rw [← h.eq_of_ne hid] at hnone
      exact hrest.absent id hnone

end Moved

variable {core : Tables} {db db' : WorkflowDatabase} {ownerUserId workflowId : Nat} {now : Instant}
  {execution : WorkflowExecutionRecord}

theorem commits_owned :
    (ownedExecution ownerUserId workflowId).Commits db execution db' ↔
      db.1.own.executions.find workflowId = some execution ∧
        execution.ownerUserId = ownerUserId ∧ execution.Loads ∧ db' = db := by
  simp only [ownedExecution, Tx.commits_bind, Tx.commits_query, Tx.commits_found,
    Tx.commits_require, Tx.commits_pure]
  constructor
  · rintro ⟨_, db, ⟨rfl, rfl⟩, _, db, ⟨hrow, rfl⟩, _, db, ⟨hloads, rfl⟩, rfl, rfl⟩
    obtain ⟨hfind, howner⟩ := Option.filter_eq_some_iff.mp hrow
    exact ⟨hfind, of_decide_eq_true howner, hloads, rfl⟩
  · rintro ⟨hfind, howner, hloads, rfl⟩
    refine ⟨_, db', ⟨rfl, rfl⟩, execution, db', ⟨?_, rfl⟩, (), db', ⟨hloads, rfl⟩, rfl, rfl⟩
    exact Option.filter_eq_some_iff.mpr ⟨hfind, decide_eq_true howner⟩

theorem execution_eq {own : WorkflowTables} {w : Workflow} (hw : own.workflow workflowId = some w)
    (hfind : own.executions.find workflowId = some execution) : w.execution = execution := by
  have hsame := workflow_find hw
  rw [hfind] at hsame
  exact (Option.some.inj hsame).symm

variable {decision : WorkflowDecisionRecord}

theorem identifies {w : Workflow} (hw : db.1.own.workflow workflowId = some w)
    (hmem : decision ∈ w.decisions) :
    w.Identifies decision := by
  refine ⟨hmem, fun row hrow hid => ?_⟩
  exact Table.eq_of_key_eq ((mem_decisions hw).mp hrow).1 ((mem_decisions hw).mp hmem).1 hid

theorem setPaused_moved {paused : Bool}
    (h : (setPaused ownerUserId workflowId paused now).Commits db execution db') :
    Moved core (.setPaused paused now) db.1.own db'.1.own := by
  simp only [setPaused, Tx.commits_bind, commits_owned, Tx.commits_require,
    Tx.commits_updateOne, commits_reload] at h
  obtain ⟨workflow, db, ⟨hfind, howner, -, rfl⟩, _, db, ⟨hactive, rfl⟩, _, db₁,
    ⟨-, hupdate⟩, -, -, rfl⟩ := h
  have hrewrites := rewrites_updateExecution _ hupdate (fun _ => rfl) (fun row hp => hp.1)
    fun w hw => ⟨workflow_id hw, execution_eq hw hfind ▸ howner⟩
  apply hrewrites.moved
  intro w hw
  apply Workflow.Moves.setPaused
  rwa [execution_eq hw hfind]

theorem cancelWorkflow_moved
    (h : (cancelWorkflow ownerUserId workflowId now).Commits db execution db') :
    Moved core (.cancel now) db.1.own db'.1.own := by
  simp only [cancelWorkflow, Tx.commits_bind, commits_owned, Tx.commits_ite, Tx.commits_pure,
    Tx.commits_require, Tx.commits_update, commits_reload] at h
  obtain ⟨workflow, db, ⟨hfind, howner, -, rfl⟩, h⟩ := h
  rcases h with ⟨-, -, rfl⟩ | ⟨-, _, db, ⟨hallowed, rfl⟩, _, db₁, ⟨-, hexecution⟩, _, db₂,
    ⟨-, hdecisions⟩, -, -, rfl⟩
  · exact .of_eq rfl
  · have hfirst := rewrites_updateExecution _ hexecution (fun _ => rfl) (fun row hp => hp.1)
      fun w hw => ⟨workflow_id hw, execution_eq hw hfind ▸ howner⟩
    have hsecond := rewrites_update_congr workflowId
      (q := fun decision => decision.state = .pending) hdecisions (fun _ => rfl)
      fun row _ => Iff.rfl
    apply (hfirst.trans hsecond).moved
    intro w hw
    apply Workflow.Moves.cancel
    rw [execution_eq hw hfind]
    exact not_terminal_of_cancellable hallowed

theorem deliverSignal_moved {delivery : SignalDelivery} {outcome : WorkflowSignalOutcome}
    (h : (deliverSignal delivery).Commits db outcome db') :
    Moved core (.deliver delivery) db.1.own db'.1.own := by
  simp only [deliverSignal, Tx.commits_bind, commits_owned, Tx.commits_query] at h
  obtain ⟨workflow, db, ⟨hfind, -, -, rfl⟩, prior, db, ⟨hprior, rfl⟩, h⟩ := h
  cases prior with
  | some prior =>
    simp only [Tx.commits_bind, Tx.commits_require, Tx.commits_pure] at h
    obtain ⟨-, _, ⟨-, rfl⟩, -, rfl⟩ := h
    exact .of_eq rfl
  | none =>
    simp only [Tx.commits_ite, Tx.commits_pure, Tx.commits_bind, Tx.commits_insert,
      Tx.commits_update, commits_reload] at h
    rcases h with ⟨-, -, rfl⟩ | ⟨haccepted, _, db₁, ⟨-, hinsert⟩, _, db₂, ⟨-, hupdate⟩,
      workflow', db₂, ⟨-, -, rfl⟩, -, rfl⟩
    · exact .of_eq rfl
    · have hfirst := rewrites_insert delivery.workflowId hinsert fun _ => rfl
      have hsecond := rewrites_updateExecution delivery.workflowId hupdate
        (fun _ => rfl) (fun row hp => hp) fun w hw => workflow_id hw
      apply (hfirst.trans hsecond).moved
      intro w hw
      apply Workflow.Moves.wake
      · exact workflow_id hw
      · rw [execution_eq hw hfind]
        exact not_not.mp haccepted
      · intro signal hsignal hkey
        obtain ⟨hrow, howner⟩ := (mem_signals hw).mp hsignal
        have hnone := List.find?_eq_none.mp hprior.symm signal hrow
        exact hnone (decide_eq_true ⟨howner, hkey⟩)

theorem decideWorkflow_moved {verdict : Verdict}
    (h : (decideWorkflow verdict).Commits db decision db') :
    Moved core (.decide verdict) db.1.own db'.1.own := by
  simp only [decideWorkflow, Tx.commits_bind, commits_owned, Tx.commits_query,
    Tx.commits_found, Tx.commits_require, Tx.commits_ite, Tx.commits_raise, and_false,
    false_or, exists_false, Tx.commits_updateOne, Tx.commits_update] at h
  obtain ⟨workflow, db, ⟨hfind, howner, -, rfl⟩, _, db, ⟨rfl, rfl⟩, row, db, ⟨hrow, rfl⟩, _, db,
    ⟨hpending, rfl⟩, _, db, ⟨hrevision, rfl⟩, _, db, ⟨rfl, rfl⟩, _, db, ⟨hmoved, rfl⟩,
    hunexpired, _, db₁, ⟨-, hdecisions⟩, _, db₂, ⟨-, hexecution⟩, _, _, ⟨-, rfl⟩, -, rfl⟩ := h
  obtain ⟨hfound, howned⟩ := Option.filter_eq_some_iff.mp hrow
  obtain ⟨hparent, hdecisionOwner⟩ := of_decide_eq_true howned
  obtain ⟨hmem, hid⟩ := Table.find_eq_some.mp hfound
  have hfirst := rewrites_update verdict.workflowId hdecisions (fun _ => rfl) <| by
    intro other hother hp
    rw [Table.eq_of_key_eq hother hmem (hp.1.trans hid.symm)]
    exact hparent
  have hsecond := rewrites_updateExecutions verdict.workflowId hexecution
    (fun _ => rfl) fun row hp => hp.1
  apply (hfirst.trans hsecond).moved
  intro w hw
  have hsame := execution_eq hw hfind
  have hidentity : ¬ (_ ∨ _) := fun h => of_decide_eq_false hmoved fun found hin => by
    rw [hfind] at hin
    exact Option.some.inj hin ▸ h
  rw [not_or, not_not, not_not] at hidentity
  have hdecides : w.Decides verdict row := by
    constructor
    · exact identifies hw ((mem_decisions hw).mpr ⟨hmem, hparent⟩)
    · exact hid
    · exact workflow_id hw
    · rw [hsame]
      exact howner
    · exact hdecisionOwner
    · exact hpending
    · exact hrevision
    · rw [hsame]
      exact hidentity.1
    · rw [hsame]
      exact hidentity.2
    · exact not_le.mp hunexpired
  exact .decide hdecides

end NervOS
