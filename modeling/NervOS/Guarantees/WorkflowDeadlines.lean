/-
Deadlines: ticks at an instant end every resting workflow whose deadline passed, unless it is
paused, an examination before it raises, or it stays behind a full page.
-/
import NervOS.Guarantees.DecisionWaits
import NervOS.Guarantees.Signals
import NervOS.Refinement.WorkflowDeadlines

namespace NervOS

open Relational

def WorkflowSystem.goesOn (request : TickRequest) (system : WorkflowSystem) : Bool :=
  match ((tickOne request).run system.db).1 with
  | .ok (changed, _) => changed
  | .error _ => false

/-- The transactions of one tick, with a request for each turn of its loop: up to the
dispatch limit, or to the first that changes nothing or raises. -/
def WorkflowSystem.tick : List TickRequest → WorkflowSystem → List WorkflowOp
  | [], _ => []
  | request :: rest, system =>
    .tick request ::
      if system.goesOn request then tick rest (system.commit (tickOne request)) else []

def WorkflowSystem.ticks (policy : QueuePolicy) :
    List (List TickRequest) → WorkflowSystem → List WorkflowOp
  | [], _ => []
  | tick :: rest, system =>
    system.tick tick ++
      ticks policy rest ((workflowEngine policy).run (system.tick tick) system)

theorem length_tick {requests : List TickRequest} (h : requests ≠ []) (system : WorkflowSystem) :
    1 ≤ (system.tick requests).length := by
  cases requests with
  | nil => exact absurd rfl h
  | cons request rest => simp [WorkflowSystem.tick]

theorem length_ticks (policy : QueuePolicy) {ticks : List (List TickRequest)}
    (h : ∀ tick ∈ ticks, tick ≠ []) (system : WorkflowSystem) :
    ticks.length ≤ (system.ticks policy ticks).length := by
  induction ticks generalizing system with
  | nil => exact le_refl _
  | cons tick rest ih =>
    have hfirst := length_tick (h tick List.mem_cons_self) system
    have hrest := ih (fun other hother => h other (List.mem_cons_of_mem tick hother))
      ((workflowEngine policy).run (system.tick tick) system)
    rw [WorkflowSystem.ticks, List.length_append, List.length_cons]
    omega

/-- A transaction of a tick at `now` that no exception ends, with the workflow in its reach. -/
def DeadlineTick (now : Instant) (id : Nat) (system : WorkflowSystem) (op : WorkflowOp) : Prop :=
  ∃ request, op = .tick request ∧ request.now = now ∧ 0 < request.scanLimit ∧
    (∃ result db', (tickOne request).Commits system.db result db') ∧
    ∀ w, system.workflow id = some w → ¬ w.execution.status.IsTerminal →
      InReach request system.db w

section Runs

variable {policy : QueuePolicy} {system : WorkflowSystem} {now : Instant} {id : Nat}
  {w w' : Workflow}

theorem tick_keeps_over {core : Tables} (hover : w.execution.status.IsTerminal)
    (h : w.Moves core (.tick now) w') : False := by
  cases h with
  | rotate hactive => exact hactive hover
  | loseRun hrunning =>
    rw [hrunning] at hover
    exact hover
  | miss hready _ | close hready _ _ | loseAuthority hready _ _ _ _ =>
    exact not_terminal_of_dispatchable hready hover
  | relink hclears _ _ => exact not_terminal_of_dispatchable hclears.ready hover
  | dispatch dispatch => exact not_terminal_of_dispatchable dispatch.clears.ready hover

def Over (id : Nat) (system : WorkflowSystem) : Prop :=
  ∃ w, system.workflow id = some w ∧ w.execution.status.IsTerminal

theorem Over.tick (h : Over id system) (request : TickRequest) :
    Over id (WorkflowSystem.exec policy (.tick request) system) := by
  obtain ⟨w, hw, hover⟩ := h
  obtain ⟨w', hw', hsame | ⟨act, hact, hmoves⟩⟩ :=
    (WorkflowSystem.exec_refines policy (.tick request) system).kept id w hw
  · exact ⟨w', hw', hsame ▸ hover⟩
  · obtain rfl := Option.some.inj hact
    exact (tick_keeps_over hover hmoves).elim

/-- The late workflow is as it was, or over; there are no workflows from `bound` on. -/
structure Awaited (policy : QueuePolicy) (now : Instant) (bound : Nat) (id : Nat) (w : Workflow)
    (system : WorkflowSystem) : Prop where
  reachable : (workflowEngine policy).Reachable system
  bounded : ∀ other, bound ≤ other → system.workflow other = none
  awaited : system.workflow id = some w ∨ Over id system

theorem pending_zero {own : WorkflowTables} {other : Nat} (h : own.workflow other = none) :
    own.pending now other = 0 := by
  rw [WorkflowTables.pending, h]
  rfl

variable {op : WorkflowOp}

theorem Awaited.step {bound : Nat} (h : Awaited policy now bound id w system) (hlate : w.Late now)
    (hunpaused : w.execution.paused = false) (hop : DeadlineTick now id system op) :
    Awaited policy now bound id w (WorkflowSystem.exec policy op system) ∧
      (¬ Over id system → Over id (WorkflowSystem.exec policy op system) ∨
        (WorkflowSystem.exec policy op system).db.1.own.potential now bound <
          system.db.1.own.potential now bound) := by
  obtain ⟨request, rfl, rfl, hscan, ⟨result, db', hcommits⟩, hreach⟩ := hop
  have hsound : ∀ id w, system.db.1.own.workflow id = some w → w.Sound :=
    fun id w hw => WorkflowSystem.reachable_sound h.reachable hw
  have hdb : (WorkflowSystem.exec policy (.tick request) system).db = db' := by
    change (system.commit (tickOne request)).db = db'
    rw [WorkflowSystem.commit, Tx.run_of_commits hcommits]
  have hmoved := tickOne_moved hcommits
  have hbounded : ∀ other, bound ≤ other →
      (WorkflowSystem.exec policy (.tick request) system).workflow other = none := by
    intro other hother
    rw [WorkflowSystem.workflow, hdb]
    exact hmoved.absent other (h.bounded other hother)
  rcases h.awaited with hw | hover
  · have hticked := tickOne_ticked hsound hcommits
    have hactive := not_terminal_of_dispatchable hlate.1
    obtain ⟨other, hlower⟩ := exists_pending_lt hsound hcommits hscan hw hlate hunpaused
      (hreach w hw hactive)
    have hother : other < bound := by
      by_contra hnot
      have hzero : system.db.1.own.pending request.now other = 0 :=
        pending_zero (h.bounded other (not_lt.mp hnot))
      omega
    have hfalls : (WorkflowSystem.exec policy (.tick request) system).db.1.own.potential
        request.now bound < system.db.1.own.potential request.now bound := by
      rw [hdb]
      exact potential_lt (fun id => (hticked id).pending_le) hother hlower
    have hafter : (WorkflowSystem.exec policy (.tick request) system).workflow id = some w ∨
        Over id (WorkflowSystem.exec policy (.tick request) system) := by
      cases hticked id with
      | kept hsame =>
        left
        rw [WorkflowSystem.workflow, hdb, hsame]
        exact hw
      | touched htimely _ => exact absurd hlate (htimely w hw)
      | @nearer v v' hbefore hnew hnearer hends =>
        obtain rfl := Option.some.inj (hw.symm.trans hbefore)
        right
        refine ⟨v', ?_, hends hlate⟩
        rw [WorkflowSystem.workflow, hdb]
        exact hnew
    exact ⟨⟨h.reachable.exec (.tick request), hbounded, hafter⟩, fun _ => Or.inr hfalls⟩
  · exact ⟨⟨h.reachable.exec (.tick request), hbounded, Or.inr (hover.tick request)⟩,
      fun hnot => absurd hover hnot⟩

theorem dispatch_before_deadline {core : Tables} {act : WorkflowAct}
    (h : w.Moves core act w') (hlonger : w.steps.length < w'.steps.length) :
    ∃ now, act = .tick now ∧ now < w.execution.deadlineAt := by
  cases h with
  | dispatch dispatch => exact ⟨_, rfl, dispatch.clears.timely⟩
  | rotate _ => exact absurd hlonger (lt_irrefl _)
  | miss _ _ => exact absurd hlonger (lt_irrefl _)
  | close _ _ _ => exact absurd hlonger (lt_irrefl _)
  | loseAuthority _ _ _ _ _ => exact absurd hlonger (lt_irrefl _)
  | relink _ _ _ => exact absurd hlonger (lt_irrefl _)
  | wake _ _ _ => exact absurd hlonger (lt_irrefl _)
  | decide _ => exact absurd hlonger (lt_irrefl _)
  | setPaused _ => exact absurd hlonger (lt_irrefl _)
  | cancel _ => exact absurd hlonger (lt_irrefl _)
  | loseRun _ => simp at hlonger
  | commit commit => simp [Workflow.Commit.after] at hlonger
  | finishLate _ _ _ => simp at hlonger

/-- Enough ticks at `now` end every late workflow that is not paused, if each transaction
commits with the workflow in its reach; and nothing is dispatched from a deadline on. -/
def DeadlinesEnd (policy : QueuePolicy) (now : Instant) (system : WorkflowSystem) : Prop :=
  (∃ enough, ∀ id w, system.workflow id = some w → w.Late now → w.execution.paused = false →
    ∀ ticks : List (List TickRequest), enough ≤ ticks.length → (∀ tick ∈ ticks, tick ≠ []) →
      (workflowEngine policy).Along (DeadlineTick now id) (system.ticks policy ticks) system →
        Over id ((workflowEngine policy).run (system.ticks policy ticks) system)) ∧
  ∀ op id w w', system.workflow id = some w →
    (WorkflowSystem.exec policy op system).workflow id = some w' →
      w.steps.length < w'.steps.length →
        ∃ request, op = .tick request ∧ request.now < w.execution.deadlineAt

theorem deadlines_end (hreachable : (workflowEngine policy).Reachable system) (now : Instant) :
    DeadlinesEnd policy now system := by
  constructor
  · have hbounded : ∀ other, system.db.1.own.executions.next ≤ other →
        system.workflow other = none := by
      intro other hother
      rw [WorkflowSystem.workflow, WorkflowTables.workflow, Option.map_eq_none_iff,
        Table.find_eq_none]
      intro row hrow
      have hfresh : row.id < system.db.1.own.executions.next :=
        system.db.1.own.executions.lawful.fresh row hrow
      exact Nat.ne_of_lt (lt_of_lt_of_le hfresh hother)
    refine ⟨system.db.1.own.potential now system.db.1.own.executions.next + 1, ?_⟩
    intro id w hw hlate hunpaused ticks henough hticks halong
    have hstate : Awaited policy now system.db.1.own.executions.next id w system :=
      ⟨hreachable, hbounded, Or.inl hw⟩
    have hlength := length_ticks policy hticks system
    let potential : WorkflowSystem → Nat := fun state =>
      state.db.1.own.potential now system.db.1.own.executions.next
    have hpotential : potential system < (system.ticks policy ticks).length :=
      Nat.lt_of_lt_of_le henough hlength
    have hstep : ∀ state op, Awaited policy now system.db.1.own.executions.next id w state →
        DeadlineTick now id state op →
          Awaited policy now system.db.1.own.executions.next id w
              ((workflowEngine policy).exec op state) ∧
            (¬ Over id state → Over id ((workflowEngine policy).exec op state) ∨
              potential ((workflowEngine policy).exec op state) < potential state) :=
      fun state op hI hok => hI.step hlate hunpaused hok
    refine Machine.Along.progress (fun state op hI hok => (hstep state op hI hok).1) ?_
      (fun state op hI hok => (hstep state op hI hok).2) halong hstate (Or.inr hpotential)
    rintro state op - ⟨request, rfl, -⟩ hover
    exact @Over.tick policy state id hover request
  · intro op id w w' hw hw' hlonger
    obtain ⟨after, hafter, hmoved⟩ := (WorkflowSystem.exec_refines policy op system).kept id w hw
    obtain rfl := Option.some.inj (hafter.symm.trans hw')
    rcases hmoved with rfl | ⟨act, hact, hmoves⟩
    · exact absurd hlonger (lt_irrefl _)
    · obtain ⟨instant, rfl, htimely⟩ := dispatch_before_deadline hmoves hlonger
      obtain ⟨request, rfl, rfl⟩ := tick_of_act hact
      exact ⟨request, rfl, htimely⟩

theorem tick_keeps_paused (policy : QueuePolicy) (request : TickRequest)
    (hw : system.workflow id = some w)
    (hready : w.execution.status.IsDispatchable) (hpaused : w.execution.paused = true) :
    (WorkflowSystem.exec policy (.tick request) system).workflow id = some w := by
  rcases WorkflowSystem.commit_cases (tickOne request) system with ⟨value, hcommits⟩ | hsame
  · have hcommitted := hcommits
    simp only [tickOne, Tx.commits_bind, Tx.commits_query] at hcommitted
    obtain ⟨due, db, ⟨rfl, rfl⟩, hscan⟩ := hcommitted
    have hspec := dueWorkflows_spec request system.db.1
    refine ((scan_moved hspec.1 (fun _ => due_active) hscan).2 id ?_).trans hw
    intro hdue
    obtain ⟨row, hrow, rfl, hrowDue⟩ := hspec.2 id hdue
    have hfound : system.db.1.own.executions.find row.id = some row := Table.find_key hrow
    rw [execution_eq hw hfound] at hready hpaused
    rcases hrowDue with ⟨-, hrunning⟩ | ⟨hunpaused, -⟩
    · rw [hrunning] at hready
      exact hready
    · rw [hpaused] at hunpaused
      cases hunpaused
  · change (system.commit (tickOne request)).workflow id = some w
    rw [hsame]
    exact hw

theorem mem_tick {requests : List TickRequest} (h : op ∈ system.tick requests) :
    ∃ request, op = .tick request := by
  induction requests generalizing system with
  | nil => cases h
  | cons request rest ih =>
    rcases List.mem_cons.mp h with rfl | hrest
    · exact ⟨request, rfl⟩
    · split_ifs at hrest
      · exact ih hrest
      · cases hrest

theorem mem_ticks {ticks : List (List TickRequest)} (h : op ∈ system.ticks policy ticks) :
    ∃ request, op = .tick request := by
  induction ticks generalizing system with
  | nil => cases h
  | cons tick rest ih =>
    rcases List.mem_append.mp h with hfirst | hrest
    · exact mem_tick hfirst
    · exact ih hrest

theorem ticks_keep_paused (policy : QueuePolicy) (ticks : List (List TickRequest))
    (hw : system.workflow id = some w) (hready : w.execution.status.IsDispatchable)
    (hpaused : w.execution.paused = true) :
    ((workflowEngine policy).run (system.ticks policy ticks) system).workflow id = some w := by
  have hrun : ∀ (ops : List WorkflowOp) (state : WorkflowSystem),
      (∀ op ∈ ops, ∃ request, op = .tick request) → state.workflow id = some w →
        ((workflowEngine policy).run ops state).workflow id = some w := by
    intro ops
    induction ops with
    | nil => exact fun _ _ hstate => hstate
    | cons op rest ih =>
      intro state hticks hstate
      obtain ⟨request, rfl⟩ := hticks op List.mem_cons_self
      apply ih _ fun other hother => hticks other (List.mem_cons_of_mem _ hother)
      exact tick_keeps_paused policy request hstate hready hpaused
  exact hrun _ _ (fun _ => mem_ticks) hw

end Runs

def pausedWait : List WorkflowOp :=
  signalWait ++ [.setPaused 1 1 true 4]

/-- Some instant after every deadline of the samples. -/
def lateInstant : Instant :=
  1000000000000000

instance (w : Workflow) (now : Instant) : Decidable (w.Late now) :=
  inferInstanceAs (Decidable (_ ∧ _))

theorem deadlines_end_signalWait :
    DeadlinesEnd productionQueuePolicy lateInstant (sampleWorkflowRun signalWait) :=
  deadlines_end (sampleWorkflowRun_reachable signalWait) lateInstant

set_option maxRecDepth 100000 in
/-- However many ticks there are after its deadline, a paused workflow goes on waiting. -/
theorem deadline_not_enforced :
    ¬ ∀ (policy : QueuePolicy) (system : WorkflowSystem) (now : Instant),
      (workflowEngine policy).Reachable system →
        ∃ enough, ∀ id w, system.workflow id = some w → w.Late now →
          ∀ ticks : List (List TickRequest), enough ≤ ticks.length →
            (∀ tick ∈ ticks, tick ≠ [] ∧
              ∀ request ∈ tick, request.now = now ∧ 0 < request.scanLimit) →
              Over id ((workflowEngine policy).run (system.ticks policy ticks) system) := by
  intro hends
  have hpaused : ∃ w ∈ (sampleWorkflowRun pausedWait).workflow 1, w.Late lateInstant ∧
      w.execution.paused = true := by
    decide +kernel
  obtain ⟨w, hw, hlate, hpaused⟩ := hpaused
  obtain ⟨enough, hover⟩ := hends productionQueuePolicy (sampleWorkflowRun pausedWait) lateInstant
    (sampleWorkflowRun_reachable pausedWait)
  obtain ⟨after, hafter, hterminal⟩ := hover 1 w hw hlate
    (List.replicate enough [sampleTick lateInstant]) (by simp) <| by
      intro tick htick
      rw [List.eq_of_mem_replicate htick]
      refine ⟨List.cons_ne_nil _ _, fun request hrequest => ?_⟩
      rw [List.mem_singleton.mp hrequest]
      exact ⟨rfl, by decide⟩
  have hkept := ticks_keep_paused productionQueuePolicy
    (List.replicate enough [sampleTick lateInstant]) hw hlate.1 hpaused
  obtain rfl := Option.some.inj (hkept.symm.trans hafter)
  exact not_terminal_of_dispatchable hlate.1 hterminal

end NervOS
