/-
A schedule fires exactly once for each instant, whatever schedulers and owners race.
-/
import NervOS.Refinement.TriggerRuns

namespace NervOS

open Relational

section Statement

variable (system : TriggerSystem)

/-- The trigger that a decision was computed for is gone, or moved on. -/
def Outdated (db : TriggerDatabase) (candidate : DueScheduleCandidate) : Prop :=
  ∀ trigger, db.1.own.triggerDefinitions.find candidate.row.trigger.id = some trigger →
    trigger.configRevision ≠ candidate.expectedConfigRevision ∨
      trigger.nextFireAt ≠ some candidate.expectedNextFireAt

def Added (db db' : TriggerDatabase) (occurrence : TriggerOccurrenceRecord) : Prop :=
  occurrence ∈ db'.1.own.triggerOccurrences.rows ∧ occurrence ∉ db.1.own.triggerOccurrences.rows

def MovedOn (db : TriggerDatabase) (triggerId : Nat) (next : Option Instant) : Prop :=
  ∃ trigger, db.1.own.triggerDefinitions.find triggerId = some trigger ∧
    trigger.nextFireAt = next ∧ (next = none → trigger.enabled = false)

def LinkedRun (db : TriggerDatabase) (occurrence : TriggerOccurrenceRecord) : Prop :=
  ∃ run ∈ db.1.core.runs.rows, occurrence.runId = some run.id ∧
    (∃ job ∈ db.1.core.jobs.rows, job.runId = run.id ∧
      ∀ other ∈ db.1.core.jobs.rows, other.runId = run.id → other = job) ∧
    ∀ other ∈ db.1.own.triggerOccurrences.rows, other.runId = some run.id → other = occurrence

def CreatesRun (db db' : TriggerDatabase) (occurrence : TriggerOccurrenceRecord) : Prop :=
  ∃ run job, db'.1.core.runs.rows = db.1.core.runs.rows ++ [run] ∧
    db'.1.core.jobs.rows = db.1.core.jobs.rows ++ [job] ∧ job.runId = run.id ∧
    occurrence.runId = some run.id

/-- Exactly-once firing: in this state, for the next operation, and for the rest of the run. -/
structure FiresOnce (policy : QueuePolicy) : Prop where
  unique : ∀ left ∈ system.db.1.own.triggerOccurrences.rows,
    ∀ right ∈ system.db.1.own.triggerOccurrences.rows,
    left.triggerDefinitionId = right.triggerDefinitionId → left.nominalAt ≠ none →
    left.nominalAt = right.nominalAt → left = right
  outdated : ∀ index definitions calendar environment tick candidate,
    system.tickAt index = some (tick, candidate) → Outdated system.db candidate →
    (system.step policy (.resolveNext index definitions calendar environment)).db = system.db
  advances : ∀ op occurrence, Added system.db (system.step policy op).db occurrence →
    occurrence.nominalAt ≠ none →
    ∃ index definitions calendar environment tick candidate command,
      op = .resolveNext index definitions calendar environment ∧
      system.tickAt index = some (tick, candidate) ∧
      DecidesDue calendar candidate tick.now command ∧
      occurrence.triggerDefinitionId = candidate.row.trigger.id ∧
      occurrence.nominalAt = some command.nominalAt ∧
      MovedOn (system.step policy op).db candidate.row.trigger.id command.nextFireAtAfter
  creates : ∀ op occurrence, Added system.db (system.step policy op).db occurrence →
    (occurrence.status = .runCreated → CreatesRun system.db (system.step policy op).db occurrence) ∧
      (occurrence.status = .skipped → (system.step policy op).db.1.core = system.db.1.core)
  linked : ∀ occurrence ∈ system.db.1.own.triggerOccurrences.rows,
    occurrence.status = .runCreated ↔ LinkedRun system.db occurrence
  oneTime : ∀ id trigger, system.db.1.own.triggerDefinitions.find id = some trigger →
    trigger.kind = .oneTime → ∀ left ∈ system.db.1.own.triggerOccurrences.rows,
    ∀ right ∈ system.db.1.own.triggerOccurrences.rows,
    left.triggerDefinitionId = id → right.triggerDefinitionId = id → left = right
  lasting : ∀ ops, system.db.1.own.triggerOccurrences.rows <+:
    ((triggerEngine policy).run ops system).db.1.own.triggerOccurrences.rows

end Statement

section Records

variable {db db' : TriggerDatabase} {caps : PendingCaps} {trigger : TriggerDefinitionRecord}
  {facts : OccurrenceFacts} {result : OccurrenceResult} {occurrence : TriggerOccurrenceRecord}

theorem Records.added (h : Records caps trigger facts result db db')
    (hadded : Added db db' occurrence) :
    occurrence = facts.row trigger result db.1.own.triggerOccurrences.next := by
  obtain ⟨hnew, hold⟩ := hadded
  rw [h.occurrences] at hnew
  exact (List.mem_append.mp hnew).elim (fun hmem => absurd hmem hold) List.mem_singleton.mp

theorem SubmittedRun.creates (h : SubmittedRun caps db result db') :
    (∀ runId, result = .runCreated runId → ∃ run job,
      db'.1.core.runs.rows = db.1.core.runs.rows ++ [run] ∧
      db'.1.core.jobs.rows = db.1.core.jobs.rows ++ [job] ∧ job.runId = run.id ∧
      run.id = runId) ∧
      (∀ reason, result = .skipped reason → db'.1.core = db.1.core) := by
  cases h with
  | skipped reason => exact ⟨fun _ h => (nomatch h), fun _ _ => rfl⟩
  | created under inserted own =>
    refine ⟨?_, fun _ h => (nomatch h)⟩
    intro runId hresult
    obtain rfl := OccurrenceResult.runCreated.inj hresult
    obtain ⟨instanceRow, inputText, cutoff, rfl, hruns, hjobs⟩ := submission_rows inserted
    exact ⟨_, _, hruns, hjobs, rfl, rfl⟩

theorem Records.creates (h : Records caps trigger facts result db db')
    (hadded : Added db db' occurrence) :
    (occurrence.status = .runCreated → CreatesRun db db' occurrence) ∧
      (occurrence.status = .skipped → db'.1.core = db.1.core) := by
  obtain rfl := h.added hadded
  obtain ⟨db₁, hsubmitted, _, -, hdb'⟩ := h.submitted
  have hcore : db'.1.core = db₁.1.core := by
    rw [hdb']
    rfl
  obtain ⟨hcreated, hskipped⟩ := hsubmitted.creates
  cases result with
  | runCreated runId =>
    refine ⟨fun _ => ?_, fun h => (nomatch h)⟩
    obtain ⟨run, job, hruns, hjobs, hjob, hrun⟩ := hcreated runId rfl
    refine ⟨run, job, ?_, ?_, hjob, ?_⟩
    · rw [hcore, hruns]
    · rw [hcore, hjobs]
    · exact congrArg some hrun.symm
  | skipped reason =>
    refine ⟨fun h => (nomatch h), fun _ => ?_⟩
    rw [hcore, hskipped reason rfl]

end Records

variable {policy : QueuePolicy} {system : TriggerSystem}

theorem instant_unique (db : TriggerDatabase) :
    ∀ left ∈ db.1.own.triggerOccurrences.rows, ∀ right ∈ db.1.own.triggerOccurrences.rows,
      left.triggerDefinitionId = right.triggerDefinitionId → left.nominalAt ≠ none →
      left.nominalAt = right.nominalAt → left = right := by
  intro left hleft right hright howner hnominal hsame
  apply Table.eq_of_clash hleft hright
  · exact Or.inr ⟨howner, Or.inl ⟨hnominal, hsame⟩⟩
  · exact Or.inr ⟨howner.symm, Or.inl ⟨hsame ▸ hnominal, hsame.symm⟩⟩

theorem outdated_writes_nothing {index : Nat} {definitions : AgentDefinitionResolver}
    {calendar : Calendar} {environment : Environment} {tick : Tick}
    {candidate : DueScheduleCandidate} (hat : system.tickAt index = some (tick, candidate))
    (houtdated : Outdated system.db candidate) :
    (system.step policy (.resolveNext index definitions calendar environment)).db = system.db := by
  have heffect := TriggerSystem.step_effect policy system
    (.resolveNext index definitions calendar environment)
  generalize (system.step policy _).db = db' at heffect ⊢
  cases heffect with
  | idle => rfl
  | scheduled considered decided fresh records amends =>
    obtain ⟨rfl, rfl⟩ := Prod.mk.inj (Option.some.inj (hat.symm.trans considered))
    obtain ⟨hcommands, -⟩ := commandFor_eq_ok decided
    have hfound := fresh.found
    rw [fresh.named, hcommands.triggerDefinitionId] at hfound
    rcases houtdated _ hfound with hrevision | hnext
    · exact absurd (fresh.revision.trans hcommands.revision) hrevision
    · rw [fresh.next, hcommands.nextFireAt] at hnext
      exact absurd rfl hnext

variable {occurrence : TriggerOccurrenceRecord}

theorem not_added {db db' : TriggerDatabase}
    (h : db'.1.own.triggerOccurrences = db.1.own.triggerOccurrences) :
    ¬ Added db db' occurrence := by
  rintro ⟨hnew, hold⟩
  rw [h] at hnew
  exact hold hnew

theorem Added.congr {db middle db' : TriggerDatabase} (h : Added db db' occurrence)
    (hsame : db'.1.own.triggerOccurrences = middle.1.own.triggerOccurrences) :
    Added db middle occurrence := by
  rw [Added, ← hsame]
  exact h

theorem delivery_nominalAt (command : WebhookDeliveryCommand) (trigger : TriggerDefinitionRecord)
    (result : OccurrenceResult) (id : Nat) :
    (command.facts.row trigger result id).nominalAt = none := by
  cases hkey : command.idempotencyKey <;>
    simp [OccurrenceFacts.row, WebhookDeliveryCommand.facts, hkey]

variable {op : TriggerOp}

section

variable (hadded : Added system.db (system.step policy op).db occurrence)

include hadded

theorem occurrence_advances (hnominal : occurrence.nominalAt ≠ none) :
    ∃ index definitions calendar environment tick candidate command,
      op = .resolveNext index definitions calendar environment ∧
      system.tickAt index = some (tick, candidate) ∧
      DecidesDue calendar candidate tick.now command ∧
      occurrence.triggerDefinitionId = candidate.row.trigger.id ∧
      occurrence.nominalAt = some command.nominalAt ∧
      MovedOn (system.step policy op).db candidate.row.trigger.id command.nextFireAtAfter := by
  have heffect := TriggerSystem.step_effect policy system op
  generalize (system.step policy op).db = db' at heffect hadded ⊢
  cases heffect with
  | idle => exact absurd hadded (not_added rfl)
  | engine own core => exact absurd hadded (not_added (by rw [own]))
  | created computed defines | provisioned defines =>
    exact absurd hadded (not_added defines.occurrences)
  | updated held named edited amends | enabled held named unfinished amends | disabled amends =>
    exact absurd hadded (not_added amends.occurrences)
  | removed removes => exact absurd hadded (not_added removes.occurrences)
  | rotated kind amends => exact absurd hadded (not_added amends.occurrences)
  | @scheduled index definitions calendar environment tick candidate definition command trigger
      result middle db considered decided fresh records amends =>
      obtain ⟨hcommands, hdecides⟩ := commandFor_eq_ok decided
      obtain rfl := records.added (hadded.congr amends.occurrences)
      have hid : trigger.id = candidate.row.trigger.id :=
        fresh.named.trans hcommands.triggerDefinitionId
      refine ⟨index, definitions, calendar, environment, tick, candidate, command, rfl, considered,
        hdecides, hid, rfl, ?_⟩
      refine ⟨trigger.advanced command.nextFireAtAfter command.now, ?_, ?_, ?_⟩
      · rw [amends.definition, ← hid, if_pos rfl]
      · cases command.nextFireAtAfter <;> rfl
      · intro hnext
        rw [hnext]
        rfl
  | delivered held fresh records =>
    rw [records.added hadded] at hnominal
    exact absurd (delivery_nominalAt _ _ _ _) hnominal
  | published considered named enveloped fresh records =>
    rw [records.added hadded] at hnominal
    exact absurd rfl hnominal

theorem added_records :
    ∃ caps trigger facts result middle, Records caps trigger facts result system.db middle ∧
      middle.1.own.triggerOccurrences = (system.step policy op).db.1.own.triggerOccurrences ∧
      middle.1.core = (system.step policy op).db.1.core := by
  have heffect := TriggerSystem.step_effect policy system op
  generalize (system.step policy op).db = db' at heffect hadded ⊢
  cases heffect with
  | idle => exact absurd hadded (not_added rfl)
  | engine own core => exact absurd hadded (not_added (by rw [own]))
  | created computed defines | provisioned defines =>
    exact absurd hadded (not_added defines.occurrences)
  | updated held named edited amends | enabled held named unfinished amends | disabled amends =>
    exact absurd hadded (not_added amends.occurrences)
  | removed removes => exact absurd hadded (not_added removes.occurrences)
  | rotated kind amends => exact absurd hadded (not_added amends.occurrences)
  | scheduled considered decided fresh records amends =>
    exact ⟨_, _, _, _, _, records, amends.occurrences.symm, amends.core.symm⟩
  | delivered held fresh records => exact ⟨_, _, _, _, _, records, rfl, rfl⟩
  | published considered named enveloped fresh records =>
    exact ⟨_, _, _, _, _, records, rfl, rfl⟩

theorem occurrence_creates :
    (occurrence.status = .runCreated →
      CreatesRun system.db (system.step policy op).db occurrence) ∧
      (occurrence.status = .skipped → (system.step policy op).db.1.core = system.db.1.core) := by
  obtain ⟨caps, trigger, facts, result, middle, hrecords, hoccurrences, hcore⟩ :=
    added_records hadded
  unfold CreatesRun
  rw [← hcore]
  exact hrecords.creates (hadded.congr hoccurrences.symm)

end

theorem created_iff_linked (hsound : system.core.Sound)
    (hmem : occurrence ∈ system.db.1.own.triggerOccurrences.rows) :
    occurrence.status = .runCreated ↔ LinkedRun system.db occurrence := by
  have hshape := (system.db.1.own.triggerOccurrences.lawful.checked occurrence hmem).statusShape
  cases hstatus : occurrence.status with
  | skipped =>
    rw [hstatus] at hshape
    refine ⟨fun h => (nomatch h), ?_⟩
    rintro ⟨run, -, hlink, -⟩
    rw [hshape.1] at hlink
    cases hlink
  | runCreated =>
    rw [hstatus] at hshape
    refine ⟨fun _ => ?_, fun _ => rfl⟩
    obtain ⟨runId, hlink⟩ := Option.ne_none_iff_exists'.mp hshape.1
    have hexists := system.db.2.2.occurrenceRun occurrence hmem runId hlink
    obtain ⟨run, hfind⟩ := Option.isSome_iff_exists.mp hexists
    obtain ⟨hrun, hid⟩ := Table.find_eq_some.mp hfind
    have hid : run.id = runId := hid
    obtain ⟨job, hjob, hbehind⟩ := hsound.rooted run hrun
    refine ⟨run, hrun, by rw [hlink, hid], ⟨job, hjob, hbehind, ?_⟩, ?_⟩
    · intro other hother hsame
      exact Table.eq_of_clash hother hjob (hsame.trans hbehind.symm) (hbehind.trans hsame.symm)
    · intro other hother hsame
      rw [hid] at hsame
      apply Table.eq_of_clash hother hmem
      · exact Or.inl ⟨by rw [hsame]; exact Option.some_ne_none _, hsame.trans hlink.symm⟩
      · exact Or.inl ⟨by rw [hlink]; exact Option.some_ne_none _, hlink.trans hsame.symm⟩

theorem run_later (ops : List TriggerOp) :
    Later system.db ((triggerEngine policy).run ops system).db := by
  induction ops generalizing system with
  | nil => exact .refl _
  | cons op rest ih =>
    have hstep := (TriggerSystem.step_effect policy system op).later
    have hrest : Later ((triggerEngine policy).exec op system).db
      ((triggerEngine policy).run (op :: rest) system).db := ih
    exact hstep.trans hrest

/-- Schedules fire exactly once in every run of schedulers, owners, senders and publishers. -/
theorem reachable_firesOnce (h : (triggerEngine policy).Reachable system) :
    FiresOnce system policy where
  unique := instant_unique system.db
  outdated _ _ _ _ _ _ hat houtdated := outdated_writes_nothing hat houtdated
  advances _ _ hadded hnominal := occurrence_advances hadded hnominal
  creates _ _ hadded := occurrence_creates hadded
  linked _ hmem := created_iff_linked (triggers_sound h) hmem
  oneTime id trigger htrigger hkind left hleft right hright hleftOwner hrightOwner :=
    (reachable_oneTimeSpent h id trigger htrigger hkind right hright hrightOwner).2 left hleft
      hleftOwner
  lasting ops := (run_later ops).occurrences

set_option maxRecDepth 100000 in
theorem firesOnce_sampleFiring :
    (sampleTriggerRun sampleFiring).db.1.own.triggerOccurrences.rows.map (·.status) =
        [.runCreated] ∧
      FiresOnce (sampleTriggerRun sampleFiring) productionQueuePolicy :=
  ⟨by decide +kernel, reachable_firesOnce (sampleTriggerRun_reachable _)⟩

/-- A trigger keeps its id, its kind and its owner, and what it fires for changes only together
with its revision. -/
def KeepsRevisions (db later : TriggerTables) : Prop :=
  ∀ id trigger', later.triggerDefinitions.find id = some trigger' →
    db.triggerDefinitions.next ≤ id ∨
      ∃ trigger, db.triggerDefinitions.find id = some trigger ∧ trigger.Precedes trigger'

theorem revisions_kept (policy : QueuePolicy) (ops later : List TriggerOp) :
    KeepsRevisions ((triggerEngine policy).run ops (triggerEngine policy).init).db.1.own
      ((triggerEngine policy).run (ops ++ later) (triggerEngine policy).init).db.1.own := by
  rw [Machine.run_append]
  exact (run_later later).definition

end NervOS
