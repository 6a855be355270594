/-
One Job's obligation: the rows of every table that belong to it, and what each
statement of a transaction does to them.
-/
import NervOS.Relational.Rows
import NervOS.Database.Submission

namespace NervOS

open Relational

structure Obligation where
  job : JobRecord
  run : RunRecord
  attempts : List JobAttemptRecord
  calls : List ToolInvocationRecord
  timeline : List RunEventRecord

namespace Tables

variable (db : Tables)

def attemptsOf (jobId : Nat) : List JobAttemptRecord :=
  db.jobAttempts.rows.filter (·.jobId = jobId)

def callsOf (jobId : Nat) : List ToolInvocationRecord :=
  db.toolInvocations.rows.filter (·.jobId = jobId)

def obligation (jobId : Nat) : Option Obligation :=
  (db.jobs.find jobId).bind fun job =>
    (db.runs.find job.runId).map fun run =>
      ⟨job, run, db.attemptsOf jobId, db.callsOf jobId, db.timeline job.runId⟩

end Tables

section View

variable {db : Tables} {jobId : Nat} {o : Obligation}

theorem obligation_eq_some :
    db.obligation jobId = some o ↔
      db.jobs.find jobId = some o.job ∧ db.runs.find o.job.runId = some o.run ∧
        o.attempts = db.attemptsOf jobId ∧ o.calls = db.callsOf jobId ∧
        o.timeline = db.timeline o.job.runId := by
  obtain ⟨job, run, attempts, calls, timeline⟩ := o
  simp only [Tables.obligation, Option.bind_eq_some_iff, Option.map_eq_some_iff,
    Obligation.mk.injEq]
  constructor
  · rintro ⟨_, hjob, _, hrun, rfl, rfl, rfl, rfl, rfl⟩
    exact ⟨hjob, hrun, rfl, rfl, rfl⟩
  · rintro ⟨hjob, hrun, rfl, rfl, rfl⟩
    exact ⟨job, hjob, run, hrun, rfl, rfl, rfl, rfl, rfl⟩

theorem obligation_job (h : db.obligation jobId = some o) :
    db.jobs.find jobId = some o.job :=
  (obligation_eq_some.mp h).1

theorem obligation_run (h : db.obligation jobId = some o) :
    db.runs.find o.job.runId = some o.run :=
  (obligation_eq_some.mp h).2.1

theorem obligation_jobId (h : db.obligation jobId = some o) : o.job.id = jobId :=
  (Table.find_eq_some.mp (obligation_job h)).2

theorem obligation_runId (h : db.obligation jobId = some o) : o.run.id = o.job.runId :=
  (Table.find_eq_some.mp (obligation_run h)).2

theorem mem_attempts (h : db.obligation jobId = some o) {attempt : JobAttemptRecord} :
    attempt ∈ o.attempts ↔ attempt ∈ db.jobAttempts.rows ∧ attempt.jobId = jobId := by
  rw [(obligation_eq_some.mp h).2.2.1, Tables.attemptsOf, List.mem_filter,
    decide_eq_true_eq]

theorem mem_calls (h : db.obligation jobId = some o) {call : ToolInvocationRecord} :
    call ∈ o.calls ↔ call ∈ db.toolInvocations.rows ∧ call.jobId = jobId := by
  rw [(obligation_eq_some.mp h).2.2.2.1, Tables.callsOf, List.mem_filter,
    decide_eq_true_eq]

theorem obligation_timeline (h : db.obligation jobId = some o) :
    o.timeline = db.timeline o.job.runId :=
  (obligation_eq_some.mp h).2.2.2.2

theorem exists_obligation {db : Database} {job : JobRecord} (hjob : job ∈ db.1.jobs.rows) :
    ∃ o, db.1.obligation job.id = some o ∧ o.job = job := by
  obtain ⟨run, hrun⟩ := Option.isSome_iff_exists.mp (db.2.jobRun job hjob)
  refine ⟨⟨job, run, db.1.attemptsOf job.id, db.1.callsOf job.id,
    db.1.timeline job.runId⟩, ?_, rfl⟩
  exact obligation_eq_some.mpr ⟨Table.find_key hjob, hrun, rfl, rfl, rfl⟩

theorem exists_obligation_of_attempt {db : Database} {attempt : JobAttemptRecord}
    (hattempt : attempt ∈ db.1.jobAttempts.rows) :
    ∃ o, db.1.obligation attempt.jobId = some o ∧ attempt ∈ o.attempts := by
  obtain ⟨job, hjob⟩ := Option.isSome_iff_exists.mp (db.2.attemptJob attempt hattempt)
  obtain ⟨hrow, hid⟩ := Table.find_eq_some.mp hjob
  obtain ⟨o, ho, -⟩ := exists_obligation hrow
  rw [show job.id = attempt.jobId from hid] at ho
  exact ⟨o, ho, (mem_attempts ho).mpr ⟨hattempt, rfl⟩⟩

theorem exists_obligation_of_call {db : Database} {call : ToolInvocationRecord}
    (hcall : call ∈ db.1.toolInvocations.rows) :
    ∃ o, db.1.obligation call.jobId = some o ∧ call ∈ o.calls := by
  obtain ⟨job, hjob⟩ := Option.isSome_iff_exists.mp (db.2.invocationJob call hcall)
  obtain ⟨hrow, hid⟩ := Table.find_eq_some.mp hjob
  obtain ⟨o, ho, -⟩ := exists_obligation hrow
  rw [show job.id = call.jobId from hid] at ho
  exact ⟨o, ho, (mem_calls ho).mpr ⟨hcall, rfl⟩⟩

theorem eq_of_runId {left right : JobRecord} (hleft : left ∈ db.jobs.rows)
    (hright : right ∈ db.jobs.rows) (hrun : left.runId = right.runId) : left = right := by
  rcases Nat.lt_trichotomy left.id right.id with hlt | heq | hlt
  · exact absurd hrun (Table.not_clash hleft hright hlt)
  · exact Table.eq_of_key_eq hleft hright heq
  · exact absurd hrun.symm (Table.not_clash hright hleft hlt)

end View

variable {db db' : Database}

theorem obligation_updateJobs {p : JobRecord → Prop} [DecidablePred p]
    {f : JobRecord → JobRecord} (h : Tx.Updates p f db db')
    (hid : ∀ job, (f job).id = job.id) (hrun : ∀ job, (f job).runId = job.runId)
    (jobId : Nat) :
    db'.1.obligation jobId =
      (db.1.obligation jobId).map fun o => { o with job := Table.amend p f o.job } := by
  obtain ⟨t', ht', hdb⟩ := h
  simp only [table_job, setTable_job] at ht' hdb
  simp only [Tables.obligation, Tables.attemptsOf, Tables.callsOf, Tables.timeline, hdb,
    Table.find_update ht' hid]
  cases db.1.jobs.find jobId with
  | none => rfl
  | some job =>
    have hrunId : (Table.amend p f job).runId = job.runId := Table.amend_column hrun job
    simp only [Option.map_some, Option.bind_some, hrunId, Option.map_map]
    rfl

theorem obligation_updateRuns {p : RunRecord → Prop} [DecidablePred p]
    {f : RunRecord → RunRecord} (h : Tx.Updates p f db db')
    (hid : ∀ run, (f run).id = run.id) (jobId : Nat) :
    db'.1.obligation jobId =
      (db.1.obligation jobId).map fun o => { o with run := Table.amend p f o.run } := by
  obtain ⟨t', ht', hdb⟩ := h
  simp only [table_run, setTable_run] at ht' hdb
  simp only [Tables.obligation, Tables.attemptsOf, Tables.callsOf, Tables.timeline, hdb,
    Table.find_update ht' hid]
  cases db.1.jobs.find jobId with
  | none => rfl
  | some job =>
    simp only [Option.bind_some, Option.map_map]
    rfl

theorem obligation_updateAttempts {p : JobAttemptRecord → Prop} [DecidablePred p]
    {f : JobAttemptRecord → JobAttemptRecord} (h : Tx.Updates p f db db')
    (hjob : ∀ attempt, (f attempt).jobId = attempt.jobId) (jobId : Nat) :
    db'.1.obligation jobId =
      (db.1.obligation jobId).map fun o =>
        { o with attempts := o.attempts.map (Table.amend p f) } := by
  obtain ⟨t', ht', hdb⟩ := h
  simp only [table_jobAttempt, setTable_jobAttempt] at ht' hdb
  simp only [Tables.obligation, Tables.attemptsOf, Tables.callsOf, Tables.timeline, hdb,
    (Table.update?_rows ht').1, filter_map_amend hjob]
  cases db.1.jobs.find jobId with
  | none => rfl
  | some job =>
    simp only [Option.bind_some, Option.map_map]
    rfl

theorem obligation_updateCalls {p : ToolInvocationRecord → Prop} [DecidablePred p]
    {f : ToolInvocationRecord → ToolInvocationRecord} (h : Tx.Updates p f db db')
    (hjob : ∀ call, (f call).jobId = call.jobId) (jobId : Nat) :
    db'.1.obligation jobId =
      (db.1.obligation jobId).map fun o =>
        { o with calls := o.calls.map (Table.amend p f) } := by
  obtain ⟨t', ht', hdb⟩ := h
  simp only [table_toolInvocation, setTable_toolInvocation] at ht' hdb
  simp only [Tables.obligation, Tables.attemptsOf, Tables.callsOf, Tables.timeline, hdb,
    (Table.update?_rows ht').1, filter_map_amend hjob]
  cases db.1.jobs.find jobId with
  | none => rfl
  | some job =>
    simp only [Option.bind_some, Option.map_map]
    rfl

theorem obligation_updateApprovals {p : ActionApprovalRecord → Prop} [DecidablePred p]
    {f : ActionApprovalRecord → ActionApprovalRecord} (h : Tx.Updates p f db db')
    (jobId : Nat) : db'.1.obligation jobId = db.1.obligation jobId := by
  obtain ⟨t', -, hdb⟩ := h
  rw [hdb]
  rfl

theorem obligation_insertAttempt {row : Nat → JobAttemptRecord}
    (h : Tx.Inserts row db db') (jobId : Nat) :
    db'.1.obligation jobId =
      (db.1.obligation jobId).map fun o =>
        { o with
          attempts := o.attempts ++
            if (row db.1.jobAttempts.next).jobId = jobId then
              [row db.1.jobAttempts.next]
            else [] } := by
  obtain ⟨t', ht', hdb⟩ := h
  simp only [table_jobAttempt, setTable_jobAttempt] at ht' hdb
  simp only [Tables.obligation, Tables.attemptsOf, Tables.callsOf, Tables.timeline, hdb,
    (Table.insert?_rows ht').1, filter_append_singleton, decide_eq_true_eq]
  cases db.1.jobs.find jobId with
  | none => rfl
  | some job =>
    simp only [Option.bind_some, Option.map_map]
    rfl

theorem obligation_insertCall {row : Nat → ToolInvocationRecord}
    (h : Tx.Inserts row db db') (jobId : Nat) :
    db'.1.obligation jobId =
      (db.1.obligation jobId).map fun o =>
        { o with
          calls := o.calls ++
            if (row db.1.toolInvocations.next).jobId = jobId then
              [row db.1.toolInvocations.next]
            else [] } := by
  obtain ⟨t', ht', hdb⟩ := h
  simp only [table_toolInvocation, setTable_toolInvocation] at ht' hdb
  simp only [Tables.obligation, Tables.attemptsOf, Tables.callsOf, Tables.timeline, hdb,
    (Table.insert?_rows ht').1, filter_append_singleton, decide_eq_true_eq]
  cases db.1.jobs.find jobId with
  | none => rfl
  | some job =>
    simp only [Option.bind_some, Option.map_map]
    rfl

theorem obligation_insertEvent {row : Nat → RunEventRecord}
    (h : Tx.Inserts row db db') (jobId : Nat) :
    db'.1.obligation jobId =
      (db.1.obligation jobId).map fun o =>
        { o with
          timeline := o.timeline ++
            if (row db.1.runEvents.next).runId = o.job.runId then
              [row db.1.runEvents.next]
            else [] } := by
  obtain ⟨t', ht', hdb⟩ := h
  simp only [table_runEvent, setTable_runEvent] at ht' hdb
  simp only [Tables.obligation, Tables.attemptsOf, Tables.callsOf, Tables.timeline, hdb,
    (Table.insert?_rows ht').1, filter_append_singleton, decide_eq_true_eq]
  cases db.1.jobs.find jobId with
  | none => rfl
  | some job =>
    simp only [Option.bind_some, Option.map_map]
    rfl

theorem find_insert_of_ne_next {ρ : Type} [Record ρ] {t t' : Table ρ} {row : Nat → ρ}
    (h : t.insert? row = some t') (hkey : ∀ id, key (row id) = id) {id : Nat} {old : ρ}
    (hold : t.find id = some old) : t'.find id = some old := by
  rw [Table.find_insert h (hkey _)]
  split
  · rename_i hid
    rw [hid, Table.find_next] at hold
    cases hold
  · exact hold

theorem obligation_insertRun {row : Nat → RunRecord} (h : Tx.Inserts row db db')
    (hkey : ∀ id, (row id).id = id) (jobId : Nat) :
    db'.1.obligation jobId = db.1.obligation jobId := by
  obtain ⟨t', ht', hdb⟩ := h
  simp only [table_run, setTable_run] at ht' hdb
  simp only [Tables.obligation, Tables.attemptsOf, Tables.callsOf, Tables.timeline, hdb]
  cases hjob : db.1.jobs.find jobId with
  | none => rfl
  | some job =>
    have hmem := (Table.find_eq_some.mp hjob).1
    obtain ⟨run, hrun⟩ := Option.isSome_iff_exists.mp (db.2.jobRun job hmem)
    simp only [Option.bind_some, find_insert_of_ne_next ht' hkey hrun, hrun]

theorem attemptsOf_next (db : Database) : db.1.attemptsOf db.1.jobs.next = [] := by
  rw [Tables.attemptsOf, List.filter_eq_nil_iff]
  intro attempt hattempt
  have hjob := db.2.attemptJob attempt hattempt
  simp only [decide_eq_true_eq]
  intro hnext
  simp [hnext, Table.find_next] at hjob

theorem callsOf_next (db : Database) : db.1.callsOf db.1.jobs.next = [] := by
  rw [Tables.callsOf, List.filter_eq_nil_iff]
  intro call hcall
  have hjob := db.2.invocationJob call hcall
  simp only [decide_eq_true_eq]
  intro hnext
  simp [hnext, Table.find_next] at hjob

theorem timeline_next (db : Database) : db.1.timeline db.1.runs.next = [] := by
  rw [Tables.timeline, List.filter_eq_nil_iff]
  intro event hevent
  have hrun := db.2.eventRun event hevent
  simp only [decide_eq_true_eq]
  intro hnext
  simp [hnext, Table.find_next] at hrun

theorem obligation_insertJob {row : Nat → JobRecord} (h : Tx.Inserts row db db')
    (hkey : ∀ id, (row id).id = id) (jobId : Nat) :
    db'.1.obligation jobId =
      if jobId = db.1.jobs.next then
        (db.1.runs.find (row db.1.jobs.next).runId).map fun run =>
          ⟨row db.1.jobs.next, run, [], [], db.1.timeline (row db.1.jobs.next).runId⟩
      else db.1.obligation jobId := by
  obtain ⟨t', ht', hdb⟩ := h
  simp only [table_job, setTable_job] at ht' hdb
  have hattempts := attemptsOf_next db
  have hcalls := callsOf_next db
  simp only [Tables.attemptsOf, Tables.callsOf] at hattempts hcalls
  simp only [Tables.obligation, Tables.attemptsOf, Tables.callsOf, Tables.timeline, hdb,
    Table.find_insert ht' (hkey _)]
  split
  · rename_i hid
    subst hid
    simp only [Option.bind_some, hattempts, hcalls]
  · rfl

end NervOS
