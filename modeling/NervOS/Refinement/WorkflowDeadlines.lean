/-
What a tick does to a workflow past its deadline: it ends it, or it brings another workflow
nearer to its end or further back in the scan order.
-/
import Mathlib.Algebra.Order.BigOperators.Group.Finset
import NervOS.Refinement.WorkflowTick

namespace NervOS

open Relational

section Examination

variable {db db' : WorkflowDatabase} {request : TickRequest} {w w' : Workflow}

def Workflow.Late (w : Workflow) (now : Instant) : Prop :=
  w.execution.status.IsDispatchable ∧ w.execution.deadlineAt ≤ now

theorem changed_of_late {id : Nat} {advanced : Advanced} (hw : db.1.own.workflow id = some w)
    (hlate : w.Late request.now) (h : (advance request id).Commits db advanced db') :
    advanced.changed = true := by
  simp only [advance, Tx.commits_bind, commits_reload] at h
  obtain ⟨workflow, _, ⟨hfind, -, rfl⟩, h⟩ := h
  obtain rfl := execution_eq hw hfind
  have hresting : ¬ w.execution.status = .running := by
    intro hrunning
    have hready := hlate.1
    rw [hrunning] at hready
    exact hready
  rw [if_neg hresting, if_pos hlate.2] at h
  simp only [Tx.commits_bind, Tx.commits_pure] at h
  obtain ⟨_, _, -, rfl, -⟩ := h
  rfl

theorem terminal_of_late {core : Tables} {now : Instant} (hlate : w.Late now)
    (hnearer : w.execution.Nearer now w'.execution) (h : w.Moves core (.tick now) w') :
    w'.execution.status.IsTerminal := by
  cases h with
  | rotate _ => exact absurd hnearer.remaining (Nat.lt_irrefl _)
  | loseRun hrunning =>
    have hready := hlate.1
    rw [hrunning] at hready
    exact hready.elim
  | miss _ _ => trivial
  | close _ _ hcloses =>
    rcases hcloses with rfl | rfl
    · trivial
    · trivial
  | loseAuthority _ _ _ _ _ => trivial
  | relink hclears _ _ => exact absurd hclears.timely (not_lt.mpr hlate.2)
  | dispatch dispatch => exact absurd dispatch.clears.timely (not_lt.mpr hlate.2)

end Examination

section Page

variable {db db' : WorkflowDatabase} {request : TickRequest} {counted : List TickCounter}

theorem scan_unchanged {ids : List Nat} (hnodup : ids.Nodup) (hactive : ∀ id ∈ ids, Active db id)
    (h : (scan request ids).Commits db (false, counted) db') (id : Nat) :
    (id ∈ ids ∧ (∀ w, db.1.own.workflow id = some w → ¬ w.Late request.now) ∧
      db'.1.own.workflow id = (db.1.own.workflow id).map fun w =>
        { w with execution := w.execution.touch request.now }) ∨
    (id ∉ ids ∧ db'.1.own.workflow id = db.1.own.workflow id) := by
  induction ids generalizing db counted with
  | nil =>
    obtain ⟨-, rfl⟩ := Tx.commits_pure.mp h
    exact Or.inr ⟨List.not_mem_nil, rfl⟩
  | cons first rest ih =>
    obtain ⟨hfresh, hrest⟩ := List.nodup_cons.mp hnodup
    simp only [scan, Tx.commits_bind, Tx.commits_ite, Tx.commits_pure] at h
    obtain ⟨advanced, db₁, hadvance, h⟩ := h
    rcases h with ⟨-, hpair, -⟩ | ⟨hsame, _, db₂, htouch, ⟨changed, others⟩, db₃, hscan, hpair, rfl⟩
    · cases hpair
    · obtain ⟨rfl, rfl⟩ := Prod.mk.inj hpair
      rcases advance_examined (hactive _ List.mem_cons_self) hadvance with ⟨-, rfl⟩ |
        ⟨hchanged, -⟩
      · have htouched := touch_rewrites htouch
        have hactive₂ : ∀ other ∈ rest, Active db₂ other := by
          intro other hother
          have hne : other ≠ first := fun heq => hfresh (heq ▸ hother)
          intro w hw
          rw [htouched.eq_of_ne hne] at hw
          exact hactive other (List.mem_cons_of_mem _ hother) w hw
        have hothers := ih hrest hactive₂ hscan
        by_cases hid : id = first
        · left
          subst hid
          refine ⟨List.mem_cons_self, ?_, ?_⟩
          · intro w hw hlate
            exact hsame (changed_of_late hw hlate hadvance)
          · rcases hothers with ⟨hmem, -⟩ | ⟨-, hkept⟩
            · exact absurd hmem hfresh
            · rw [hkept, htouched.eq_map]
        · rw [htouched.eq_of_ne hid] at hothers
          rcases hothers with ⟨hmem, htimely, hmap⟩ | ⟨hmem, hkept⟩
          · exact Or.inl ⟨List.mem_cons_of_mem _ hmem, htimely, hmap⟩
          · exact Or.inr ⟨by simp [hid, hmem], hkept⟩
      · exact absurd hchanged hsame

theorem scan_changed {ids : List Nat} (hnodup : ids.Nodup) (hactive : ∀ id ∈ ids, Active db id)
    (h : (scan request ids).Commits db (true, counted) db') :
    ∃ before target after skipped db₁ advanced, ids = before ++ target :: after ∧
      (scan request before).Commits db (false, skipped) db₁ ∧
      (advance request target).Commits db₁ advanced db' ∧ advanced.changed = true := by
  induction ids generalizing db counted with
  | nil =>
    obtain ⟨hpair, -⟩ := Tx.commits_pure.mp h
    cases hpair
  | cons first rest ih =>
    obtain ⟨hfresh, hrest⟩ := List.nodup_cons.mp hnodup
    simp only [scan, Tx.commits_bind, Tx.commits_ite, Tx.commits_pure] at h
    obtain ⟨advanced, db₁, hadvance, h⟩ := h
    rcases h with ⟨hchanged, -, rfl⟩ | ⟨hsame, touched, db₂, htouch, ⟨changed, others⟩, db₃, hscan,
      hpair, rfl⟩
    · exact ⟨[], first, rest, [], db, advanced, rfl, Tx.commits_pure.mpr ⟨rfl, rfl⟩, hadvance,
        hchanged⟩
    · obtain ⟨rfl, rfl⟩ := Prod.mk.inj hpair
      rcases advance_examined (hactive _ List.mem_cons_self) hadvance with ⟨-, rfl⟩ |
        ⟨hchanged, -⟩
      · have htouched := touch_rewrites htouch
        have hactive₂ : ∀ other ∈ rest, Active db₂ other := by
          intro other hother
          have hne : other ≠ first := fun heq => hfresh (heq ▸ hother)
          intro w hw
          rw [htouched.eq_of_ne hne] at hw
          exact hactive other (List.mem_cons_of_mem _ hother) w hw
        obtain ⟨before, target, after, skipped, db₄, last, rfl, hbefore, hlast, hchanged⟩ :=
          ih hrest hactive₂ hscan
        refine ⟨first :: before, target, after, advanced.counted.toList ++ skipped, db₄, last, rfl,
          ?_, hlast, hchanged⟩
        simp only [scan, Tx.commits_bind, Tx.commits_ite, Tx.commits_pure]
        exact ⟨advanced, _, hadvance, Or.inr ⟨hsame, touched, db₂, htouch, _, db₄, hbefore, rfl,
          rfl⟩⟩
      · exact absurd hchanged hsame

theorem due_on_page {db : Extended Tables WorkflowTables} (hscan : 0 < request.scanLimit)
    {row : WorkflowExecutionRecord} (hrow : row ∈ db.own.executions.rows)
    (hdue : Due db.core db.own request.now row) :
    row.id ∈ dueWorkflows request db ∨
      (request.scanLimit < db.own.executions.rows.countP
          (fun workflow => Due db.core db.own request.now workflow) ∧
        ∃ first ∈ db.own.executions.rows, first.id ∈ dueWorkflows request db ∧
          first.updatedAt ≤ row.updatedAt) := by
  let order : WorkflowExecutionRecord → WorkflowExecutionRecord → Prop := fun left right =>
    left.updatedAt < right.updatedAt ∨ (left.updatedAt = right.updatedAt ∧ left.id ≤ right.id)
  let due := db.own.executions.rows.filter fun workflow =>
    Due db.core db.own request.now workflow
  let sorted := due.insertionSort order
  have htotal : Std.Total order := by
    constructor
    intro left right
    rcases lt_trichotomy left.updatedAt right.updatedAt with hlt | heq | hgt
    · exact Or.inl (Or.inl hlt)
    · rcases Nat.le_total left.id right.id with hle | hge
      · exact Or.inl (Or.inr ⟨heq, hle⟩)
      · exact Or.inr (Or.inr ⟨heq.symm, hge⟩)
    · exact Or.inr (Or.inl hgt)
  have htrans : IsTrans WorkflowExecutionRecord order := by
    constructor
    rintro first second third (hlt | ⟨heq, hle⟩) (hlt' | ⟨heq', hle'⟩)
    · exact Or.inl (hlt.trans hlt')
    · exact Or.inl (heq' ▸ hlt)
    · exact Or.inl (heq ▸ hlt')
    · exact Or.inr ⟨heq.trans heq', hle.trans hle'⟩
  have hmem : row ∈ sorted :=
    (List.mem_insertionSort order).mpr (List.mem_filter.mpr ⟨hrow, decide_eq_true hdue⟩)
  by_cases hpage : row ∈ sorted.take request.scanLimit
  · exact Or.inl (List.mem_map_of_mem hpage)
  · right
    constructor
    · rw [List.countP_eq_length_filter]
      have hlength : sorted.length = due.length := List.length_insertionSort order due
      by_contra hfits
      apply hpage
      rwa [List.take_of_length_le (hlength.trans_le (not_lt.mp hfits))]
    · have hsorted : sorted.Pairwise order := List.pairwise_insertionSort order due
      cases hcases : sorted with
      | nil =>
        rw [hcases] at hmem
        cases hmem
      | cons first rest =>
        have hfirst : first ∈ sorted.take request.scanLimit := by
          rw [hcases]
          obtain ⟨limit, hlimit⟩ := Nat.exists_eq_succ_of_ne_zero (Nat.ne_of_gt hscan)
          rw [hlimit, List.take_succ_cons]
          exact List.mem_cons_self
        have hdueFirst : first ∈ due :=
          (List.mem_insertionSort order).mp (List.mem_of_mem_take hfirst)
        refine ⟨first, (List.mem_filter.mp hdueFirst).1, List.mem_map_of_mem hfirst, ?_⟩
        rw [hcases, List.pairwise_cons] at hsorted
        rw [hcases] at hmem
        rcases List.mem_cons.mp hmem with heq | hrest
        · rw [heq]
        · rcases hsorted.1 row hrest with hlt | ⟨heq, -⟩
          · exact hlt.le
          · exact heq.le

end Page

section Potential

def Workflow.pending (now : Instant) (w : Workflow) : Nat :=
  w.execution.status.remaining + if w.execution.updatedAt < now then 1 else 0

def WorkflowTables.pending (now : Instant) (own : WorkflowTables) (id : Nat) : Nat :=
  (own.workflow id).elim 0 (Workflow.pending now)

def WorkflowTables.potential (now : Instant) (bound : Nat) (own : WorkflowTables) : Nat :=
  ∑ id ∈ Finset.range bound, own.pending now id

variable {now : Instant} {own own' : WorkflowTables} {w w' : Workflow}

theorem pending_touch (w : Workflow) :
    ({ w with execution := w.execution.touch now } : Workflow).pending now =
      w.execution.status.remaining := by
  simp [Workflow.pending, WorkflowExecutionRecord.touch]

theorem pending_nearer (h : w.execution.Nearer now w'.execution) :
    w'.pending now < w.pending now := by
  have hlower := h.remaining
  unfold Workflow.pending
  rw [h.updatedAt, if_neg (lt_irrefl now)]
  omega

theorem potential_lt {bound : Nat} (hle : ∀ id, own'.pending now id ≤ own.pending now id)
    {id : Nat} (hid : id < bound) (hlt : own'.pending now id < own.pending now id) :
    own'.potential now bound < own.potential now bound :=
  Finset.sum_lt_sum (fun other _ => hle other) ⟨id, Finset.mem_range.mpr hid, hlt⟩

end Potential

variable {db db' : WorkflowDatabase} {request : TickRequest} {w : Workflow} {id : Nat}

inductive Ticked (now : Instant) (own own' : WorkflowTables) (id : Nat) : Prop where
  | kept (same : own'.workflow id = own.workflow id)
  | touched (timely : ∀ w, own.workflow id = some w → ¬ w.Late now)
      (map : own'.workflow id = (own.workflow id).map fun w =>
        { w with execution := w.execution.touch now })
  | nearer {w w' : Workflow} (before : own.workflow id = some w)
      (after : own'.workflow id = some w') (nearer : w.execution.Nearer now w'.execution)
      (late : w.Late now → w'.execution.status.IsTerminal)

theorem Ticked.pending_le {now : Instant} {own own' : WorkflowTables}
    (h : Ticked now own own' id) : own'.pending now id ≤ own.pending now id := by
  unfold WorkflowTables.pending
  cases h with
  | kept hsame => rw [hsame]
  | touched _ hmap =>
    rw [hmap]
    cases own.workflow id with
    | none => exact le_refl _
    | some w =>
      change Workflow.pending now _ ≤ w.pending now
      rw [pending_touch]
      exact Nat.le_add_right _ _
  | nearer hbefore hafter hnearer _ =>
    rw [hbefore, hafter]
    exact (pending_nearer hnearer).le

theorem scan_ticked {ids : List Nat} {changed : Bool} {counted : List TickCounter}
    (hnodup : ids.Nodup) (hactive : ∀ id ∈ ids, Active db id)
    (hsound : ∀ id w, db.1.own.workflow id = some w → w.Sound)
    (h : (scan request ids).Commits db (changed, counted) db') :
    (∀ id, Ticked request.now db.1.own db'.1.own id) ∧
      ((changed = true ∧ ∃ target w w', db.1.own.workflow target = some w ∧
          db'.1.own.workflow target = some w' ∧
          w.execution.Nearer request.now w'.execution) ∨
        (changed = false ∧ ∀ id ∈ ids,
          (∀ w, db.1.own.workflow id = some w → ¬ w.Late request.now) ∧
            db'.1.own.workflow id = (db.1.own.workflow id).map fun w =>
              { w with execution := w.execution.touch request.now })) := by
  cases changed with
  | false =>
    have hscanned := scan_unchanged hnodup hactive h
    constructor
    · intro id
      rcases hscanned id with ⟨-, htimely, hmap⟩ | ⟨-, hkept⟩
      · exact .touched htimely hmap
      · exact .kept hkept
    · right
      refine ⟨rfl, fun id hid => ?_⟩
      rcases hscanned id with ⟨-, htimely, hmap⟩ | ⟨hnot, -⟩
      · exact ⟨htimely, hmap⟩
      · exact absurd hid hnot
  | true =>
    obtain ⟨before, target, after, skipped, db₁, advanced, rfl, hbefore, hadvance, hchanged⟩ :=
      scan_changed hnodup hactive h
    obtain ⟨hnodupBefore, hnodupAfter, hdisjoint⟩ := List.nodup_append.mp hnodup
    have hscanned := scan_unchanged hnodupBefore
      (fun id hid => hactive id (List.mem_append_left _ hid)) hbefore
    have hfresh : target ∉ before :=
      fun hmem => hdisjoint target hmem target List.mem_cons_self rfl
    have hsame : db₁.1.own.workflow target = db.1.own.workflow target := by
      rcases hscanned target with ⟨hmem, -⟩ | ⟨-, hkept⟩
      · exact absurd hmem hfresh
      · exact hkept
    have hactiveTarget : Active db₁ target := by
      intro w hw
      rw [hsame] at hw
      exact hactive target (List.mem_append_right _ List.mem_cons_self) w hw
    rcases advance_examined hactiveTarget hadvance with ⟨hfalse, -⟩ |
      ⟨-, w, w', hw, hmoves, hnearer, hrewrites⟩
    · rw [hfalse] at hchanged
      cases hchanged
    · have hold : db.1.own.workflow target = some w := hsame ▸ hw
      have hnew : db'.1.own.workflow target = some w' := by
        rw [hrewrites.eq_map, hw, Option.map_some]
      have hcloser := hnearer (hsound target w hold)
      constructor
      · intro id
        by_cases hid : id = target
        · subst hid
          exact .nearer hold hnew hcloser fun hlate => terminal_of_late hlate hcloser hmoves
        · have hafter := hrewrites.eq_of_ne hid
          rcases hscanned id with ⟨-, htimely, hmap⟩ | ⟨-, hkept⟩
          · exact .touched htimely (hafter.trans hmap)
          · exact .kept (hafter.trans hkept)
      · exact Or.inl ⟨rfl, target, w, w', hold, hnew, hcloser⟩

variable {result : Bool × List TickCounter}

theorem tickOne_ticked (hsound : ∀ id w, db.1.own.workflow id = some w → w.Sound)
    (h : (tickOne request).Commits db result db') (id : Nat) :
    Ticked request.now db.1.own db'.1.own id := by
  simp only [tickOne, Tx.commits_bind, Tx.commits_query] at h
  obtain ⟨due, db, ⟨rfl, rfl⟩, hscan⟩ := h
  exact (scan_ticked (dueWorkflows_spec request db.1).1 (fun _ => due_active) hsound hscan).1 id

theorem due_of_late (hlate : w.Late request.now) (hunpaused : w.execution.paused = false) :
    Due db.1.core db.1.own request.now w.execution :=
  Or.inr ⟨hunpaused, hlate.1, Or.inl hlate.2⟩

/-- It was updated before this instant, or the page holds every due workflow. -/
def InReach (request : TickRequest) (db : WorkflowDatabase) (w : Workflow) : Prop :=
  w.execution.updatedAt < request.now ∨
    db.1.own.executions.rows.countP
      (fun workflow => Due db.1.core db.1.own request.now workflow) ≤ request.scanLimit

theorem exists_pending_lt (hsound : ∀ id w, db.1.own.workflow id = some w → w.Sound)
    (h : (tickOne request).Commits db result db') (hscan : 0 < request.scanLimit)
    (hw : db.1.own.workflow id = some w) (hlate : w.Late request.now)
    (hunpaused : w.execution.paused = false) (hreach : InReach request db w) :
    ∃ other, db'.1.own.pending request.now other < db.1.own.pending request.now other := by
  obtain ⟨changed, counted⟩ := result
  simp only [tickOne, Tx.commits_bind, Tx.commits_query] at h
  obtain ⟨due, db, ⟨rfl, rfl⟩, hscanned⟩ := h
  rcases (scan_ticked (dueWorkflows_spec request db.1).1 (fun _ => due_active) hsound
    hscanned).2 with ⟨-, target, v, v', hv, hv', hnearer⟩ | ⟨-, htouched⟩
  · refine ⟨target, ?_⟩
    unfold WorkflowTables.pending
    rw [hv, hv']
    exact pending_nearer hnearer
  · have hdue : Due db.1.core db.1.own request.now w.execution := due_of_late hlate hunpaused
    rcases due_on_page hscan (workflow_mem hw) hdue with hpage |
      ⟨hfull, first, hrow, hpage, hbefore⟩
    · rw [workflow_id hw] at hpage
      exact absurd hlate ((htouched id hpage).1 w hw)
    · have hearlier := hreach.resolve_right (not_le.mpr hfull)
      have hfound : db.1.own.executions.find first.id = some first := Table.find_key hrow
      obtain ⟨v, hv⟩ := exists_workflow (Option.isSome_iff_exists.mpr ⟨first, hfound⟩)
      obtain rfl := execution_eq hv hfound
      refine ⟨v.execution.id, ?_⟩
      unfold WorkflowTables.pending
      rw [(htouched _ hpage).2, hv]
      change Workflow.pending request.now _ < v.pending request.now
      rw [pending_touch, Workflow.pending, if_pos (lt_of_le_of_lt hbefore hearlier)]
      exact Nat.lt_succ_self _

end NervOS
