/-
One workflow with the rows that belong to it, and what each statement of a
transaction does to them.
-/
import NervOS.Database.WorkflowSteps
import NervOS.Database.WorkflowControl

namespace NervOS

open Relational

structure Workflow where
  execution : WorkflowExecutionRecord
  steps : List WorkflowStepRecord
  checkpoints : List WorkflowCheckpointRecord
  signals : List WorkflowSignalRecord
  decisions : List WorkflowDecisionRecord
deriving DecidableEq

def WorkflowTables.workflow (own : WorkflowTables) (id : Nat) : Option Workflow :=
  (own.executions.find id).map fun execution =>
    { execution := execution
      steps := own.steps.owned (·.workflowId) id
      checkpoints := own.checkpoints.owned (·.workflowId) id
      signals := own.signals.owned (·.workflowId) id
      decisions := own.decisions.owned (·.workflowId) id }

section View

variable {own : WorkflowTables} {id : Nat} {w : Workflow}

theorem workflow_eq_some :
    own.workflow id = some w ↔
      own.executions.find id = some w.execution ∧
        w.steps = own.steps.owned (·.workflowId) id ∧
        w.checkpoints = own.checkpoints.owned (·.workflowId) id ∧
        w.signals = own.signals.owned (·.workflowId) id ∧
        w.decisions = own.decisions.owned (·.workflowId) id := by
  obtain ⟨execution, steps, checkpoints, signals, decisions⟩ := w
  simp only [WorkflowTables.workflow, Option.map_eq_some_iff, Workflow.mk.injEq]
  constructor
  · rintro ⟨_, hfind, rfl, rfl, rfl, rfl, rfl⟩
    exact ⟨hfind, rfl, rfl, rfl, rfl⟩
  · rintro ⟨hfind, rfl, rfl, rfl, rfl⟩
    exact ⟨execution, hfind, rfl, rfl, rfl, rfl, rfl⟩

section

variable (h : own.workflow id = some w)

include h

theorem workflow_find :
    own.executions.find id = some w.execution :=
  (workflow_eq_some.mp h).1

theorem workflow_id : w.execution.id = id :=
  (Table.find_eq_some.mp (workflow_find h)).2

theorem workflow_mem : w.execution ∈ own.executions.rows :=
  (Table.find_eq_some.mp (workflow_find h)).1

theorem workflow_check : w.execution.Check :=
  own.executions.lawful.checked w.execution (workflow_mem h)

end

variable {step : WorkflowStepRecord}

section

variable (h : own.workflow id = some w)

include h

theorem mem_steps :
    step ∈ w.steps ↔ step ∈ own.steps.rows ∧ step.workflowId = id := by
  rw [(workflow_eq_some.mp h).2.1]
  exact Table.mem_owned

theorem mem_signals {signal : WorkflowSignalRecord} :
    signal ∈ w.signals ↔ signal ∈ own.signals.rows ∧ signal.workflowId = id := by
  rw [(workflow_eq_some.mp h).2.2.2.1]
  exact Table.mem_owned

theorem mem_decisions {decision : WorkflowDecisionRecord} :
    decision ∈ w.decisions ↔ decision ∈ own.decisions.rows ∧ decision.workflowId = id := by
  rw [(workflow_eq_some.mp h).2.2.2.2]
  exact Table.mem_owned

end

theorem exists_workflow (h : (own.executions.find id).isSome) :
    ∃ w, own.workflow id = some w := by
  apply Option.isSome_iff_exists.mp
  rwa [WorkflowTables.workflow, Option.isSome_map]

theorem exists_workflow_of_step {db : WorkflowDatabase} (hstep : step ∈ db.1.own.steps.rows) :
    ∃ w, db.1.own.workflow step.workflowId = some w ∧ step ∈ w.steps := by
  obtain ⟨w, hw⟩ := exists_workflow (db.2.2.stepWorkflow step hstep)
  exact ⟨w, hw, (mem_steps hw).mpr ⟨hstep, rfl⟩⟩

end View

/-- The rows of one workflow were rewritten by `F`, those of every other workflow are as
they were. -/
def Rewrites (target : Nat) (F : Workflow → Workflow) (own own' : WorkflowTables) : Prop :=
  ∀ id, own'.workflow id = if id = target then (own.workflow id).map F else own.workflow id

namespace Rewrites

variable {target : Nat} {F G : Workflow → Workflow} {own own' own'' : WorkflowTables}

theorem of_eq (h : own' = own) : Rewrites target id own own' := by
  intro id
  rw [h, Option.map_id_fun]
  exact (ite_self _).symm

section

variable (h : Rewrites target F own own')

include h

theorem trans (h' : Rewrites target G own' own'') :
    Rewrites target (G ∘ F) own own'' := by
  intro id
  by_cases hid : id = target
  · rw [h' id, h id, if_pos hid, if_pos hid, if_pos hid, Option.map_map]
  · rw [h' id, h id, if_neg hid, if_neg hid, if_neg hid]

theorem congr (heq : ∀ w, own.workflow target = some w → F w = G w) :
    Rewrites target G own own' := by
  intro id
  rw [h id]
  by_cases hid : id = target
  · rw [if_pos hid, if_pos hid, hid]
    exact Option.map_congr heq
  · rw [if_neg hid, if_neg hid]

theorem eq_of_ne {id : Nat} (hid : id ≠ target) :
    own'.workflow id = own.workflow id := by
  rw [h id, if_neg hid]

theorem eq_map :
    own'.workflow target = (own.workflow target).map F := by
  rw [h target, if_pos rfl]

end

theorem of_workflow (htarget : own'.workflow target = (own.workflow target).map F)
    (hother : ∀ id, id ≠ target → own'.workflow id = own.workflow id) :
    Rewrites target F own own' := by
  intro id
  by_cases hid : id = target
  · rw [if_pos hid, hid]
    exact htarget
  · rw [if_neg hid]
    exact hother id hid

end Rewrites

/-- A table whose rows belong to workflows. -/
class Child (ρ : Type) [Record ρ] [HasTable WorkflowTables ρ] where
  parent : ρ → Nat
  rows : Workflow → List ρ
  setRows : List ρ → Workflow → Workflow
  setRows_rows : ∀ w, setRows (rows w) w = w
  rows_eq : ∀ {own : WorkflowTables} {id : Nat} {w : Workflow}, own.workflow id = some w →
    rows w = (table own).owned parent id
  workflow_setTable : ∀ (t : Table ρ) (own : WorkflowTables) (id : Nat),
    (setTable t own).workflow id = (own.workflow id).map (setRows (t.owned parent id))

instance : Child WorkflowStepRecord where
  parent := WorkflowStepRecord.workflowId
  rows := Workflow.steps
  setRows steps w := { w with steps := steps }
  setRows_rows _ := rfl
  rows_eq h := (workflow_eq_some.mp h).2.1
  workflow_setTable _ _ _ := by
    rw [WorkflowTables.workflow, WorkflowTables.workflow, Option.map_map]
    rfl

instance : Child WorkflowCheckpointRecord where
  parent := WorkflowCheckpointRecord.workflowId
  rows := Workflow.checkpoints
  setRows checkpoints w := { w with checkpoints := checkpoints }
  setRows_rows _ := rfl
  rows_eq h := (workflow_eq_some.mp h).2.2.1
  workflow_setTable _ _ _ := by
    rw [WorkflowTables.workflow, WorkflowTables.workflow, Option.map_map]
    rfl

instance : Child WorkflowSignalRecord where
  parent := WorkflowSignalRecord.workflowId
  rows := Workflow.signals
  setRows signals w := { w with signals := signals }
  setRows_rows _ := rfl
  rows_eq h := (workflow_eq_some.mp h).2.2.2.1
  workflow_setTable _ _ _ := by
    rw [WorkflowTables.workflow, WorkflowTables.workflow, Option.map_map]
    rfl

instance : Child WorkflowDecisionRecord where
  parent := WorkflowDecisionRecord.workflowId
  rows := Workflow.decisions
  setRows decisions w := { w with decisions := decisions }
  setRows_rows _ := rfl
  rows_eq h := (workflow_eq_some.mp h).2.2.2.2
  workflow_setTable _ _ _ := by
    rw [WorkflowTables.workflow, WorkflowTables.workflow, Option.map_map]
    rfl

variable {db db' : WorkflowDatabase} (target : Nat) {p : WorkflowExecutionRecord → Prop}
variable {f : WorkflowExecutionRecord → WorkflowExecutionRecord}

theorem rewrites_updateExecutions [DecidablePred p] (h : Tx.Updates p f db db')
    (hid : ∀ row, (f row).id = row.id) (hpin : ∀ row, p row → row.id = target) :
    Rewrites target (fun w => { w with execution := Table.amend p f w.execution })
      db.1.own db'.1.own := by
  obtain ⟨t', ht', hdb⟩ := h
  have hfind := Table.find_update ht' hid
  rw [hdb]
  apply Rewrites.of_workflow
  · simp only [WorkflowTables.workflow, setTable_extended, setTable_execution, hfind,
      table_extended, table_execution, Option.map_map]
    rfl
  · intro id hne
    simp only [WorkflowTables.workflow, setTable_extended, setTable_execution, hfind,
      table_extended, table_execution]
    cases hrow : db.1.own.executions.find id with
    | none => rfl
    | some row =>
      have hkey : row.id = id := (Table.find_eq_some.mp hrow).2
      rw [Option.map_some, Table.amend_of_neg fun hp => hne (hkey.symm.trans (hpin row hp))]

theorem rewrites_updateExecution [DecidablePred p] (h : Tx.Updates p f db db')
    (hid : ∀ row, (f row).id = row.id) (hpin : ∀ row, p row → row.id = target)
    (hp : ∀ w, db.1.own.workflow target = some w → p w.execution) :
    Rewrites target (fun w => { w with execution := f w.execution }) db.1.own db'.1.own := by
  apply (rewrites_updateExecutions target h hid hpin).congr
  intro w hw
  rw [Table.amend_of_pos (hp w hw)]

theorem workflow_insertExecution {row : Nat → WorkflowExecutionRecord}
    (h : Tx.Inserts row db db') (hid : ∀ id, (row id).id = id) (id : Nat) :
    db'.1.own.workflow id =
      if id = db.1.own.executions.next then some ⟨row db.1.own.executions.next, [], [], [], []⟩
      else db.1.own.workflow id := by
  have hfind := h.find hid id
  obtain ⟨t', ht', hdb⟩ := h
  simp only [table_extended, table_execution] at hfind
  rw [WorkflowTables.workflow, hfind]
  by_cases hnext : id = db.1.own.executions.next
  · have hnone : ¬ (db.1.own.executions.find id).isSome := by
      rw [hnext, Table.find_next]
      decide
    rw [if_pos hnext, if_pos hnext, hdb]
    have hempty : ∀ {ρ : Type} [Record ρ] (t : Table ρ) (parent : ρ → Nat),
        (∀ row ∈ t.rows, (db.1.own.executions.find (parent row)).isSome) →
        t.owned parent id = [] := by
      intro ρ _ t parent hparent
      apply List.filter_eq_nil_iff.mpr
      intro row hrow hparentId
      rw [decide_eq_true_iff] at hparentId
      exact hnone (hparentId ▸ hparent row hrow)
    simp only [Option.map_some, Option.some.injEq, Workflow.mk.injEq, true_and]
    exact ⟨hempty db.1.own.steps _ db.2.2.stepWorkflow,
      hempty db.1.own.checkpoints _ db.2.2.checkpointWorkflow,
      hempty db.1.own.signals _ db.2.2.signalWorkflow,
      hempty db.1.own.decisions _ db.2.2.decisionWorkflow⟩
  · rw [if_neg hnext, if_neg hnext, hdb]
    rfl

variable {ρ : Type} [Record ρ] [HasTable WorkflowTables ρ] [Child ρ]

theorem rewrites_setTable {t : Table ρ} {G : List ρ → List ρ}
    (h : db'.1 = setTable t db.1)
    (htarget : t.owned Child.parent target =
      G ((table (ρ := ρ) db.1.own).owned Child.parent target))
    (hother : ∀ id, id ≠ target →
      t.owned Child.parent id = (table (ρ := ρ) db.1.own).owned Child.parent id) :
    Rewrites target (fun w => Child.setRows (G (Child.rows w)) w) db.1.own db'.1.own := by
  have hview : ∀ id, db'.1.own.workflow id =
      (db.1.own.workflow id).map (Child.setRows (t.owned Child.parent id)) := by
    rw [h]
    exact Child.workflow_setTable t db.1.own
  apply Rewrites.of_workflow
  · rw [hview, htarget]
    apply Option.map_congr
    intro w hw
    rw [Child.rows_eq hw]
  · intro id hne
    rw [hview, hother id hne]
    cases hw : db.1.own.workflow id with
    | none => rfl
    | some w => rw [Option.map_some, ← Child.rows_eq hw, Child.setRows_rows]

theorem rewrites_update {p : ρ → Prop} [DecidablePred p] {f : ρ → ρ}
    (h : Tx.Updates p f db db') (hparent : ∀ row : ρ, Child.parent (f row) = Child.parent row)
    (hpin : ∀ row ∈ (table (ρ := ρ) db.1.own).rows, p row → Child.parent row = target) :
    Rewrites target (fun w => Child.setRows ((Child.rows w).map (Table.amend p f)) w)
      db.1.own db'.1.own := by
  obtain ⟨t', ht', hdb⟩ := h
  apply rewrites_setTable target hdb (Table.owned_update ht' hparent)
  intro id hne
  apply Table.owned_update_other ht' hparent
  intro row hrow hp heq
  exact hne (heq.symm.trans (hpin row hrow hp))

theorem rewrites_update_congr {p q : ρ → Prop} [DecidablePred p] [DecidablePred q] {f : ρ → ρ}
    (h : Tx.Updates p f db db') (hparent : ∀ row : ρ, Child.parent (f row) = Child.parent row)
    (hpin : ∀ row ∈ (table (ρ := ρ) db.1.own).rows,
      p row ↔ Child.parent row = target ∧ q row) :
    Rewrites target (fun w => Child.setRows ((Child.rows w).map (Table.amend q f)) w)
      db.1.own db'.1.own := by
  apply (rewrites_update target h hparent fun row hrow hp => ((hpin row hrow).mp hp).1).congr
  intro w hw
  congr 1
  apply List.map_congr_left
  intro row hrow
  rw [Child.rows_eq hw] at hrow
  obtain ⟨hmem, howner⟩ := Table.mem_owned.mp hrow
  have hiff : p row ↔ q row := by
    rw [hpin row hmem]
    exact and_iff_right howner
  simp only [Table.amend, hiff]

theorem rewrites_insert {row : Nat → ρ} (h : Tx.Inserts row db db')
    (hparent : ∀ id, Child.parent (row id) = target) :
    Rewrites target
      (fun w => Child.setRows (Child.rows w ++ [row (table (ρ := ρ) db.1.own).next]) w)
      db.1.own db'.1.own := by
  obtain ⟨t', ht', hdb⟩ := h
  apply rewrites_setTable target hdb (G := fun rows => rows ++ [row (table (ρ := ρ) db.1.own).next])
  · rw [Table.owned_insert ht', if_pos (hparent _)]
    rfl
  · intro id hne
    rw [Table.owned_insert ht', if_neg fun heq => hne (heq.symm.trans (hparent _)),
      List.append_nil]
    rfl

theorem rewrites_delete {p q : ρ → Prop} [DecidablePred p] [DecidablePred q]
    (h : db'.1 = setTable ((table (ρ := ρ) db.1).delete p) db.1)
    (hpin : ∀ row : ρ, p row ↔ Child.parent row = target ∧ q row) :
    Rewrites target (fun w => Child.setRows ((Child.rows w).filter fun row => ¬ q row) w)
      db.1.own db'.1.own := by
  apply rewrites_setTable target h
  · rw [Table.owned_delete]
    apply List.filter_congr
    intro row hrow
    rw [decide_eq_decide, hpin row, and_iff_right (Table.mem_owned.mp hrow).2]
  · intro id hne
    rw [Table.owned_delete]
    apply List.filter_eq_self.mpr
    intro row hrow
    have hparent := (Table.mem_owned.mp hrow).2
    exact decide_eq_true fun hp => hne (hparent.symm.trans ((hpin row).mp hp).1)

end NervOS
