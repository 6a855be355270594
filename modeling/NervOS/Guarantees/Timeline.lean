/-
The timeline of every Run: numbered without gaps and closed once, and whether the
closeout is its last event.  Approval transitions write their audit events without
looking at the Run's state.
-/
import NervOS.Engine.Invariant

namespace NervOS

open Relational

variable {policy : QueuePolicy} {system : System}

theorem exists_obligation_of_run (hsound : system.Sound) {run : RunRecord}
    (hrun : run ∈ system.db.1.runs.rows) :
    ∃ o, system.db.1.obligation o.job.id = some o ∧ o.run = run ∧
      o.timeline = system.db.1.timeline run.id := by
  obtain ⟨job, hjob, hbehind⟩ := hsound.rooted run hrun
  obtain ⟨o, ho, rfl⟩ := exists_obligation hjob
  have hfind := obligation_run ho
  rw [hbehind, Table.find_eq_some] at hfind
  refine ⟨o, ho, Table.eq_of_key_eq hfind.1 hrun hfind.2, ?_⟩
  rw [obligation_timeline ho, hbehind]

/-- In every reachable state the events of each Run are numbered `1, …, n`, opened
by its submission, and closed by exactly one event of its own terminal status. -/
theorem reachable_timeline (h : (engine policy).Reachable system) :
    ∀ run ∈ system.db.1.runs.rows, Timeline run.status (system.db.1.timeline run.id) := by
  intro run hrun
  have hsound := reachable_sound h
  obtain ⟨o, ho, rfl, htimeline⟩ := exists_obligation_of_run hsound hrun
  rw [← htimeline]
  exact (hsound.obligations o.job.id o ho).told

def succeededRun : List Op :=
  sampleStart 3 ++ [.worker (sampleClaim 1 0) (.succeed sampleCompletion) 2]

theorem timeline_succeededRun :
    ∃ run ∈ (sampleRun succeededRun).db.1.runs.rows, run.status = .succeeded ∧
      Timeline .succeeded ((sampleRun succeededRun).db.1.timeline run.id) := by
  have hsucceeded : ∃ run ∈ (sampleRun succeededRun).db.1.runs.rows,
      run.status = .succeeded := by decide +kernel
  obtain ⟨run, hrun, hstatus⟩ := hsucceeded
  have htimeline := reachable_timeline (sampleRun_reachable succeededRun) run hrun
  exact ⟨run, hrun, hstatus, hstatus ▸ htimeline⟩

def CloseoutIsLast (db : Tables) : Prop :=
  ∀ closing ∈ db.runEvents.rows, closing.eventType.IsTerminal →
    ∀ event ∈ db.runEvents.rows, event.runId = closing.runId →
      event.sequence ≤ closing.sequence

instance (db : Tables) : Decidable (CloseoutIsLast db) :=
  inferInstanceAs (Decidable (∀ closing ∈ db.runEvents.rows, _ →
    ∀ event ∈ db.runEvents.rows, _))

/-- Along a run whose approval actions only write to open Runs, the closeout is the
last event. -/
theorem closeoutIsLast_of_open_notes
    (h : (engine policy).ReachableAlong
      (fun system op => op.NotesOpenRuns system.db.1) system) :
    CloseoutIsLast system.db.1 := by
  intro closing hclosing hterminal event hevent hsame
  have hsound := reachable_sound h.reachable
  obtain ⟨run, hfind⟩ := Option.isSome_iff_exists.mp
    (system.db.2.eventRun closing hclosing)
  obtain ⟨hrun, hid⟩ := Table.find_eq_some.mp hfind
  have hrunId : run.id = closing.runId := hid
  obtain ⟨o, ho, rfl, htimeline⟩ := exists_obligation_of_run hsound hrun
  obtain ⟨-, hquiet⟩ := along_keeps (fun _ hnew => hnew.quiet)
    (fun hok hstep hsound hkept => hstep.quieted hok hsound hkept) h o.job.id o ho
  have hmem : ∀ other ∈ system.db.1.runEvents.rows, other.runId = closing.runId →
      other ∈ o.timeline := by
    intro other hother hof
    rw [htimeline, hrunId]
    exact List.mem_filter.mpr ⟨hother, decide_eq_true hof⟩
  exact hquiet closing (hmem closing hclosing rfl) hterminal event (hmem event hevent hsame)

def sampleApproval : ApprovalRequest where
  agentInstanceId := 1
  runId := 1
  jobId := 1
  attemptId := 1
  toolSequence := 1
  toolDefinitionId := 1
  upstreamName := "tool"
  fingerprint := .text ""
  arguments := ⟨"{}"⟩
  positive := Nat.one_pos
  expiryBounds := defaultExpiry_bounds

/-- A call asks for an approval, which the owner denies while the Run is open. -/
def deniedApproval : List Op :=
  sampleStart 3 ++
    [.approval (.gateAdmit sampleApproval) 2, .approval (.deny 1 1) 3,
      .worker (sampleClaim 1 0) (.succeed sampleCompletion) 4]

def pendingApproval : List Op :=
  sampleStart 3 ++
    [.approval (.gateAdmit sampleApproval) 2,
      .worker (sampleClaim 1 0) (.succeed sampleCompletion) 3, .approval (.listPending 1) 4]

theorem closeoutIsLast_deniedApproval :
    (∃ event ∈ (sampleRun deniedApproval).db.1.runEvents.rows, event.eventType.IsTerminal) ∧
      CloseoutIsLast (sampleRun deniedApproval).db.1 := by
  have halong : (engine productionQueuePolicy).Along
      (fun system op => op.NotesOpenRuns system.db.1) deniedApproval
      (engine productionQueuePolicy).init := by
    decide +kernel
  exact ⟨by decide +kernel, closeoutIsLast_of_open_notes ⟨deniedApproval, halong, rfl⟩⟩

/-- Reconciling a pending approval writes behind the closeout. -/
theorem event_after_closeout :
    (engine productionQueuePolicy).Reachable (sampleRun pendingApproval) ∧
      ¬ CloseoutIsLast (sampleRun pendingApproval).db.1 :=
  ⟨sampleRun_reachable pendingApproval, by decide +kernel⟩

end NervOS
