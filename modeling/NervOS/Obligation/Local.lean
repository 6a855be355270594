/-
Transactions that work on one obligation: what they do to it statement by
statement, and that everything else stays as it is.
-/
import NervOS.Obligation.Sound

namespace NervOS

open Relational

section Timelines

variable {types : List RunEventType} {timeline timeline' : List RunEventRecord}

theorem Appends.nil (timeline : List RunEventRecord) : Appends [] timeline timeline :=
  ⟨[], (List.append_nil timeline).symm, rfl, rfl⟩

theorem Appends.snoc (event : RunEventRecord) (h : Appends types timeline timeline')
    (hsequence : event.sequence = lastSequence timeline + types.length + 1) :
    Appends (types ++ [event.eventType]) timeline (timeline' ++ [event]) := by
  obtain ⟨events, rfl, rfl, hsequences⟩ := h
  refine ⟨events ++ [event], List.append_assoc .., List.map_append, ?_⟩
  rw [List.map_append, hsequences, List.length_append, ← List.range'_append_1,
    List.map_singleton, hsequence, Nat.add_right_comm]
  rfl

theorem lastSequence_le {event : RunEventRecord} (hevent : event ∈ timeline) :
    event.sequence ≤ lastSequence timeline := by
  unfold lastSequence
  have hmem : event.sequence ∈ timeline.map (·.sequence) := List.mem_map_of_mem hevent
  cases hmax : (timeline.map (·.sequence)).max? with
  | none =>
    rw [List.max?_eq_none_iff.mp hmax] at hmem
    cases hmem
  | some last => exact (List.max?_eq_some_iff.mp hmax).2 _ hmem

theorem lastSequence_append {events : List RunEventRecord}
    (hsequences : events.map (·.sequence) =
      List.range' (lastSequence timeline + 1) events.length) :
    lastSequence (timeline ++ events) = lastSequence timeline + events.length := by
  rcases Nat.eq_zero_or_pos events.length with hzero | hpos
  · rw [List.length_eq_zero_iff.mp hzero, List.append_nil, List.length_nil, Nat.add_zero]
  · have hmax : ((timeline ++ events).map (·.sequence)).max? =
        some (lastSequence timeline + events.length) := by
      rw [List.max?_eq_some_iff, List.map_append, hsequences]
      constructor
      · rw [List.mem_append, List.mem_range'_1]
        omega
      · intro sequence hmem
        rcases List.mem_append.mp hmem with hold | hnew
        · obtain ⟨event, hevent, rfl⟩ := List.mem_map.mp hold
          have hle := lastSequence_le hevent
          omega
        · rw [List.mem_range'_1] at hnew
          omega
    rw [lastSequence, hmax, Option.getD_some]

theorem Appends.trans {types' : List RunEventType} {timeline'' : List RunEventRecord}
    (h : Appends types timeline timeline') (h' : Appends types' timeline' timeline'') :
    Appends (types ++ types') timeline timeline'' := by
  obtain ⟨events, rfl, rfl, hsequences⟩ := h
  obtain ⟨events', rfl, rfl, hsequences'⟩ := h'
  rw [List.length_map] at hsequences
  rw [lastSequence_append hsequences, List.length_map] at hsequences'
  refine ⟨events ++ events', List.append_assoc .., List.map_append, ?_⟩
  rw [List.map_append, hsequences, hsequences', List.length_append, List.length_map,
    List.length_map, ← List.range'_append_1, Nat.add_right_comm]

end Timelines

section Statements

variable {db db' : Database} {jobId : Nat} {o : Obligation}

theorem fence_job {p : JobRecord → Prop} [DecidablePred p]
    (ho : db.1.obligation jobId = some o) (hcount : db.1.jobs.rows.countP p = 1)
    (hpin : ∀ job, p job → job.id = jobId) : p o.job := by
  obtain ⟨job, hmem, hp, -⟩ := Table.exists_unique_of_countP hcount
  have hjob := Table.find_eq_some.mp (obligation_job ho)
  rwa [← Table.eq_of_key_eq hmem hjob.1 ((hpin job hp).trans hjob.2.symm)]

theorem fence_run {p : RunRecord → Prop} [DecidablePred p]
    (ho : db.1.obligation jobId = some o) (hcount : db.1.runs.rows.countP p = 1)
    (hpin : ∀ run, p run → run.id = o.job.runId) : p o.run := by
  obtain ⟨run, hmem, hp, -⟩ := Table.exists_unique_of_countP hcount
  have hrun := Table.find_eq_some.mp (obligation_run ho)
  rwa [← Table.eq_of_key_eq hmem hrun.1 ((hpin run hp).trans hrun.2.symm)]

variable {p : JobAttemptRecord → Prop}

section

variable (ho : db.1.obligation jobId = some o)

include ho

theorem fence_attempt [DecidablePred p] (hcount : db.1.jobAttempts.rows.countP p = 1)
    (hpin : ∀ attempt, p attempt → attempt.jobId = jobId) :
    ∃ attempt ∈ o.attempts, p attempt := by
  obtain ⟨attempt, hmem, hp, -⟩ := Table.exists_unique_of_countP hcount
  exact ⟨attempt, (mem_attempts ho).mpr ⟨hmem, hpin attempt hp⟩, hp⟩

theorem job_updated {p : JobRecord → Prop} [DecidablePred p] {f : JobRecord → JobRecord}
    (h : Tx.Updates p f db db') (hp : p o.job) (hid : ∀ job, (f job).id = job.id)
    (hrun : ∀ job, (f job).runId = job.runId) :
    db'.1.obligation jobId = some { o with job := f o.job } := by
  rw [obligation_updateJobs h hid hrun, ho, Option.map_some, Table.amend_of_pos hp]

theorem run_updated {p : RunRecord → Prop} [DecidablePred p] {f : RunRecord → RunRecord}
    (h : Tx.Updates p f db db') (hp : p o.run) (hid : ∀ run, (f run).id = run.id) :
    db'.1.obligation jobId = some { o with run := f o.run } := by
  rw [obligation_updateRuns h hid, ho, Option.map_some, Table.amend_of_pos hp]

end

variable {f : JobAttemptRecord → JobAttemptRecord}

section

variable (ho : db.1.obligation jobId = some o)

include ho

theorem attempts_updated [DecidablePred p] (h : Tx.Updates p f db db')
    (hjob : ∀ attempt, (f attempt).jobId = attempt.jobId) :
    db'.1.obligation jobId =
      some { o with attempts := o.attempts.map (Table.amend p f) } := by
  rw [obligation_updateAttempts h hjob, ho, Option.map_some]

theorem calls_updated {p : ToolInvocationRecord → Prop} [DecidablePred p]
    {f : ToolInvocationRecord → ToolInvocationRecord} (h : Tx.Updates p f db db')
    (hjob : ∀ call, (f call).jobId = call.jobId) :
    db'.1.obligation jobId = some { o with calls := o.calls.map (Table.amend p f) } := by
  rw [obligation_updateCalls h hjob, ho, Option.map_some]

theorem event_told {event : RunEventRecord} {types : List RunEventType} {base : List RunEventRecord}
    (h : Tx.Inserts event.withId db db') (hrun : event.runId = o.job.runId)
    (htold : Appends types base o.timeline)
    (hsequence : event.sequence = lastSequence base + types.length + 1) :
    ∃ timeline', Appends (types ++ [event.eventType]) base timeline' ∧
      db'.1.obligation jobId = some { o with timeline := timeline' } := by
  have hrunId : (event.withId db.1.runEvents.next).runId = o.job.runId := hrun
  refine ⟨_, htold.snoc (event.withId db.1.runEvents.next) hsequence, ?_⟩
  rw [obligation_insertEvent h, ho, Option.map_some, if_pos hrunId]

end

theorem attempts_moved [DecidablePred p] {P : JobAttemptRecord → JobAttemptRecord → Prop}
    (hsound : o.Sound) {attempt : JobAttemptRecord} (hattempt : attempt ∈ o.attempts)
    (hp : p attempt) (hactive : ∀ attempt, p attempt → attempt.status.IsActive)
    (hsame : SameAttempt attempt (f attempt)) (hmove : P attempt (f attempt)) :
    AttemptsMove P o.attempts (o.attempts.map (Table.amend p f)) := by
  have honly : ∀ other ∈ o.attempts, other.status.IsActive → other = attempt :=
    fun other hother hotherActive =>
      hsound.only hother hotherActive hattempt (hactive attempt hp)
  refine forall₂_amend fun other hother => ?_
  by_cases hpo : p other
  · obtain rfl := honly other hother (hactive other hpo)
    rw [Table.amend_of_pos hpo]
    exact ⟨hsame, fun _ => hmove, fun hidle => absurd (hactive other hpo) hidle⟩
  · rw [Table.amend_of_neg hpo]
    refine ⟨SameAttempt.refl other, fun hotherActive => ?_, fun _ => rfl⟩
    rw [honly other hother hotherActive] at hpo
    exact absurd hp hpo

end Statements

section Frames

structure Kept (db db' : Tables) : Prop where
  partitions : db'.queuePartitions = db.queuePartitions
  nextAttempt : db'.jobAttempts.next = db.jobAttempts.next
  runIds : db'.runs.rows.map (·.id) = db.runs.rows.map (·.id)

theorem Kept.refl (db : Tables) : Kept db db :=
  ⟨rfl, rfl, rfl⟩

theorem Kept.trans {a b c : Tables} (hab : Kept a b) (hbc : Kept b c) : Kept a c :=
  ⟨hbc.partitions.trans hab.partitions, hbc.nextAttempt.trans hab.nextAttempt,
    hbc.runIds.trans hab.runIds⟩

/-- The obligations in `P` stay as they are, and none appears. -/
structure Elsewhere (P : Obligation → Prop) (db db' : Database) : Prop where
  absent : ∀ jobId, db.1.obligation jobId = none → db'.1.obligation jobId = none
  other : ∀ jobId o, db.1.obligation jobId = some o → P o →
    db'.1.obligation jobId = some o

/-- A statement that belongs to the obligations outside `P`. -/
structure Local (P : Obligation → Prop) (db db' : Database) : Prop
    extends Elsewhere P db db' where
  kept : Kept db.1 db'.1

variable {P : Obligation → Prop} {db db' : Database}

theorem Elsewhere.trans {a b c : Database} (hab : Elsewhere P a b) (hbc : Elsewhere P b c) :
    Elsewhere P a c where
  absent jobId hnone := hbc.absent jobId (hab.absent jobId hnone)
  other jobId o ho hP := hbc.other jobId o (hab.other jobId o ho hP) hP

theorem Elsewhere.of_map {f : Nat → Obligation → Obligation}
    (hmap : ∀ jobId, db'.1.obligation jobId = (db.1.obligation jobId).map (f jobId))
    (hfree : ∀ jobId o, db.1.obligation jobId = some o → P o → f jobId o = o) :
    Elsewhere P db db' where
  absent jobId hnone := by rw [hmap, hnone, Option.map_none]
  other jobId o ho hP := by rw [hmap, ho, Option.map_some, hfree jobId o ho hP]

theorem Local.refl (db : Database) : Local P db db where
  absent _ hnone := hnone
  other _ _ ho _ := ho
  kept := Kept.refl db.1

theorem Local.trans {a b c : Database} (hab : Local P a b) (hbc : Local P b c) :
    Local P a c where
  toElsewhere := hab.toElsewhere.trans hbc.toElsewhere
  kept := hab.kept.trans hbc.kept

theorem map_amend_of_neg {ρ : Type} {p : ρ → Prop} [DecidablePred p] {f : ρ → ρ}
    {rows : List ρ} (hfree : ∀ row ∈ rows, ¬ p row) :
    rows.map (Table.amend p f) = rows := by
  rw [List.map_congr_left fun row hrow => Table.amend_of_neg (hfree row hrow), List.map_id']

theorem Local.jobs {p : JobRecord → Prop} [DecidablePred p] {f : JobRecord → JobRecord}
    (h : Tx.Updates p f db db') (hid : ∀ job, (f job).id = job.id)
    (hrun : ∀ job, (f job).runId = job.runId) (hfree : ∀ o, P o → ¬ p o.job) :
    Local P db db' where
  toElsewhere := Elsewhere.of_map (obligation_updateJobs h hid hrun) fun _ o _ hP => by
    rw [Table.amend_of_neg (hfree o hP)]
  kept := by
    obtain ⟨t', -, hdb⟩ := h
    rw [hdb]
    exact ⟨rfl, rfl, rfl⟩

theorem Local.runs {p : RunRecord → Prop} [DecidablePred p] {f : RunRecord → RunRecord}
    (h : Tx.Updates p f db db') (hid : ∀ run, (f run).id = run.id)
    (hfree : ∀ o, o.run.id = o.job.runId → P o → ¬ p o.run) : Local P db db' where
  toElsewhere := Elsewhere.of_map (obligation_updateRuns h hid) fun _ o ho hP => by
    rw [Table.amend_of_neg (hfree o (obligation_runId ho) hP)]
  kept := by
    have hrows := h.rows
    obtain ⟨t', -, hdb⟩ := h
    refine ⟨by rw [hdb]; rfl, by rw [hdb]; rfl, ?_⟩
    simp only [table_run] at hrows
    rw [hrows, List.map_map]
    exact List.map_congr_left fun run _ => Table.amend_column hid run

theorem Local.attempts {p : JobAttemptRecord → Prop} [DecidablePred p]
    {f : JobAttemptRecord → JobAttemptRecord} (h : Tx.Updates p f db db')
    (hjob : ∀ attempt, (f attempt).jobId = attempt.jobId)
    (hfree : ∀ o, P o → ∀ attempt : JobAttemptRecord, attempt.jobId = o.job.id →
      ¬ p attempt) : Local P db db' where
  toElsewhere := Elsewhere.of_map (obligation_updateAttempts h hjob) fun _ o ho hP => by
    rw [map_amend_of_neg fun attempt hattempt => hfree o hP attempt
      (((mem_attempts ho).mp hattempt).2.trans (obligation_jobId ho).symm)]
  kept := by
    obtain ⟨t', ht', hdb⟩ := h
    rw [hdb]
    exact ⟨rfl, (Table.update?_rows ht').2, rfl⟩

theorem Local.calls {p : ToolInvocationRecord → Prop} [DecidablePred p]
    {f : ToolInvocationRecord → ToolInvocationRecord} (h : Tx.Updates p f db db')
    (hjob : ∀ call, (f call).jobId = call.jobId)
    (hfree : ∀ o, P o → ∀ call ∈ o.calls, ¬ p call) : Local P db db' where
  toElsewhere := Elsewhere.of_map (obligation_updateCalls h hjob) fun _ o _ hP => by
    rw [map_amend_of_neg (hfree o hP)]
  kept := by
    obtain ⟨t', -, hdb⟩ := h
    rw [hdb]
    exact ⟨rfl, rfl, rfl⟩

theorem Local.approvals {p : ActionApprovalRecord → Prop} [DecidablePred p]
    {f : ActionApprovalRecord → ActionApprovalRecord} (h : Tx.Updates p f db db') :
    Local P db db' where
  absent jobId hnone := by rw [obligation_updateApprovals h, hnone]
  other jobId o ho _ := by rw [obligation_updateApprovals h, ho]
  kept := by
    obtain ⟨t', -, hdb⟩ := h
    rw [hdb]
    exact ⟨rfl, rfl, rfl⟩

theorem Local.event {event : RunEventRecord} (h : Tx.Inserts event.withId db db')
    (hfree : ∀ o, P o → event.runId ≠ o.job.runId) : Local P db db' where
  toElsewhere := Elsewhere.of_map (obligation_insertEvent h) fun _ o _ hP => by
    have hrun : (event.withId db.1.runEvents.next).runId ≠ o.job.runId := hfree o hP
    rw [if_neg hrun, List.append_nil]
  kept := by
    obtain ⟨t', -, hdb⟩ := h
    rw [hdb]
    exact ⟨rfl, rfl, rfl⟩

theorem Local.call {row : Nat → ToolInvocationRecord} (h : Tx.Inserts row db db')
    (hfree : ∀ o, P o → ∀ id, (row id).jobId ≠ o.job.id) : Local P db db' where
  toElsewhere := Elsewhere.of_map (obligation_insertCall h) fun jobId o ho hP => by
    have hjob := hfree o hP db.1.toolInvocations.next
    rw [obligation_jobId ho] at hjob
    rw [if_neg hjob, List.append_nil]
  kept := by
    obtain ⟨t', -, hdb⟩ := h
    rw [hdb]
    exact ⟨rfl, rfl, rfl⟩

theorem Elsewhere.attempt {row : Nat → JobAttemptRecord} (h : Tx.Inserts row db db')
    (hfree : ∀ o, P o → ∀ id, (row id).jobId ≠ o.job.id) : Elsewhere P db db' :=
  Elsewhere.of_map (obligation_insertAttempt h) fun jobId o ho hP => by
    have hjob := hfree o hP db.1.jobAttempts.next
    rw [obligation_jobId ho] at hjob
    rw [if_neg hjob, List.append_nil]

end Frames

section Rule

variable {db db' : Database} {rules : Nat → Discipline} {now : Instant} {jobId : Nat}
  {o o' : Obligation}

def Refines (rules : Nat → Discipline) (now : Instant) (db db' : Database) : Prop :=
  ∀ jobId, Evolves (rules jobId) now (db.1.obligation jobId) (db'.1.obligation jobId)

theorem Refines.refl (db : Database) : Refines rules now db db := by
  intro jobId
  cases db.1.obligation jobId with
  | none => exact .absent
  | some o => exact .moves .refl

theorem Refines.of_elsewhere {P : Obligation → Prop} (hframe : Elsewhere P db db')
    (hothers : ∀ otherId other, db.1.obligation otherId = some other → otherId ≠ jobId →
      P other)
    (ho : db.1.obligation jobId = some o) (ho' : db'.1.obligation jobId = some o')
    (hstep : Step (rules jobId) now o o') : Refines rules now db db' := by
  intro otherId
  by_cases hid : otherId = jobId
  · subst hid
    rw [ho, ho']
    exact .moves (.single hstep)
  · cases hother : db.1.obligation otherId with
    | none =>
      rw [hframe.absent otherId hother]
      exact .absent
    | some other =>
      rw [hframe.other otherId other hother (hothers otherId other hother hid)]
      exact .moves .refl

end Rule

/-- A transaction that refines the protocol and is neither a submission nor a
claim. -/
structure Advances (rules : Nat → Discipline) (now : Instant) (db db' : Database) : Prop where
  refines : Refines rules now db db'
  kept : Kept db.1 db'.1

theorem Advances.refl {rules : Nat → Discipline} {now : Instant} (db : Database) :
    Advances rules now db db :=
  ⟨Refines.refl db, Kept.refl db.1⟩

theorem timeline_eq {db : Database} {jobId runId : Nat} {o : Obligation}
    (ho : db.1.obligation jobId = some o) (hrun : o.job.runId = runId) :
    db.1.timeline runId = o.timeline := by
  rw [obligation_timeline ho, hrun]

/-- The obligation shares neither Job nor Run with the given ones, and none of its
calls belongs to the given Attempt. -/
structure Foreign (jobId runId attemptId : Nat) (o : Obligation) : Prop where
  job : o.job.id ≠ jobId
  run : o.job.runId ≠ runId
  calls : ∀ call ∈ o.calls, call.attemptId ≠ attemptId

/-- Every obligation meets the joint invariant. -/
def AllSound (db : Database) : Prop :=
  ∀ jobId o, db.1.obligation jobId = some o → o.Sound

variable {db db' : Database} {jobId runId attemptId : Nat} {o o' : Obligation}

section

variable (hsound : AllSound db) (ho : db.1.obligation jobId = some o)

include hsound ho

theorem foreign_of_ne (hrun : o.job.runId = runId)
    (howner : ∀ attempt ∈ db.1.jobAttempts.rows, attempt.id = attemptId → attempt.jobId = jobId)
    (otherId : Nat) (other : Obligation) (hother : db.1.obligation otherId = some other)
    (hne : otherId ≠ jobId) : Foreign jobId runId attemptId other where
  job := by
    rw [obligation_jobId hother]
    exact hne
  run hotherRun := by
    have hleft := (Table.find_eq_some.mp (obligation_job hother)).1
    have hright := (Table.find_eq_some.mp (obligation_job ho)).1
    have hjob := eq_of_runId hleft hright (hotherRun.trans hrun.symm)
    apply hne
    rw [← obligation_jobId hother, ← obligation_jobId ho, hjob]
  calls call hcall hattempt := by
    obtain ⟨attempt, hmem, hid, -⟩ := (hsound otherId other hother).called call hcall
    obtain ⟨hrow, hjob⟩ := (mem_attempts hother).mp hmem
    exact hne (hjob.symm.trans (howner attempt hrow (hid.trans hattempt)))

theorem mem_calls_of_owner
    (howner : ∀ attempt ∈ db.1.jobAttempts.rows, attempt.id = attemptId → attempt.jobId = jobId)
    {call : ToolInvocationRecord} (hcall : call ∈ db.1.toolInvocations.rows)
    (hattempt : call.attemptId = attemptId) : call ∈ o.calls := by
  obtain ⟨other, hother, hmem⟩ := exists_obligation_of_call hcall
  obtain ⟨attempt, hattemptMem, hid, -⟩ := (hsound _ other hother).called call hmem
  obtain ⟨hrow, hjob⟩ := (mem_attempts hother).mp hattemptMem
  exact (mem_calls ho).mpr ⟨hcall, hjob.symm.trans (howner attempt hrow (hid.trans hattempt))⟩

theorem Advances.of_local {rules : Nat → Discipline} {now : Instant} (hrun : o.job.runId = runId)
    (howner : ∀ attempt ∈ db.1.jobAttempts.rows, attempt.id = attemptId → attempt.jobId = jobId)
    (hlocal : Local (Foreign jobId runId attemptId) db db') (ho' : db'.1.obligation jobId = some o')
    (hstep : Step (rules jobId) now o o') :
    Advances rules now db db' where
  refines := Refines.of_elsewhere hlocal.toElsewhere
    (foreign_of_ne hsound ho hrun howner) ho ho' hstep
  kept := hlocal.kept

end

theorem Local.ofJob {p : JobRecord → Prop} [DecidablePred p] {f : JobRecord → JobRecord}
    (h : Tx.Updates p f db db') (hid : ∀ job, (f job).id = job.id)
    (hrun : ∀ job, (f job).runId = job.runId) (hpin : ∀ job, p job → job.id = jobId) :
    Local (Foreign jobId runId attemptId) db db' :=
  Local.jobs h hid hrun fun _ hP hp => hP.job (hpin _ hp)

theorem Local.ofRun {p : RunRecord → Prop} [DecidablePred p] {f : RunRecord → RunRecord}
    (h : Tx.Updates p f db db') (hid : ∀ run, (f run).id = run.id)
    (hpin : ∀ run, p run → run.id = runId) : Local (Foreign jobId runId attemptId) db db' :=
  Local.runs h hid fun _ howns hP hp => hP.run (howns.symm.trans (hpin _ hp))

theorem Local.ofAttempt {p : JobAttemptRecord → Prop} [DecidablePred p]
    {f : JobAttemptRecord → JobAttemptRecord} (h : Tx.Updates p f db db')
    (hjob : ∀ attempt, (f attempt).jobId = attempt.jobId)
    (hpin : ∀ attempt, p attempt → attempt.jobId = jobId) :
    Local (Foreign jobId runId attemptId) db db' :=
  Local.attempts h hjob fun _ hP _ howner hp => hP.job (howner.symm.trans (hpin _ hp))

theorem Local.ofCalls {p : ToolInvocationRecord → Prop} [DecidablePred p]
    {f : ToolInvocationRecord → ToolInvocationRecord} (h : Tx.Updates p f db db')
    (hjob : ∀ call, (f call).jobId = call.jobId)
    (hpin : ∀ call, p call → call.attemptId = attemptId) :
    Local (Foreign jobId runId attemptId) db db' :=
  Local.calls h hjob fun _ hP call hcall hp => hP.calls call hcall (hpin call hp)

theorem Local.ofEvent {event : RunEventRecord} (h : Tx.Inserts event.withId db db')
    (hrun : event.runId = runId) : Local (Foreign jobId runId attemptId) db db' :=
  Local.event h fun _ hP howns => hP.run (howns.symm.trans hrun)

end NervOS
