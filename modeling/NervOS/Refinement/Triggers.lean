/-
What each trigger transaction does to the trigger tables: which row it amends, adds or
removes, and which Run it submits.
-/
import NervOS.TriggerEngine

namespace NervOS

open Relational

variable {db db' : TriggerDatabase}

section Reads

variable {ownerUserId triggerId : Nat}

theorem owned_eq_some {store : TriggerStore} {row : JoinedTrigger}
    (h : store.owned ownerUserId triggerId = some row) :
    store.own.triggerDefinitions.find triggerId = some row.trigger ∧
      row.trigger.ownerUserId = ownerUserId := by
  rw [TriggerStore.owned, Option.bind_eq_some_iff] at h
  obtain ⟨trigger, hfind, hjoined⟩ := h
  obtain ⟨hfound, howner⟩ := Option.filter_eq_some_iff.mp hfind
  obtain ⟨instanceRow, -, rfl⟩ := Option.map_eq_some_iff.mp hjoined
  exact ⟨hfound, of_decide_eq_true howner⟩

theorem commits_readDefinition {row : JoinedTrigger} :
    (readDefinition ownerUserId triggerId).Commits db row db' ↔
      db.1.owned ownerUserId triggerId = some row ∧ db' = db := by
  simp only [readDefinition, Tx.commits_bind, Tx.commits_query, Tx.commits_found]
  constructor
  · rintro ⟨_, _, ⟨rfl, rfl⟩, hrow, rfl⟩
    exact ⟨hrow, rfl⟩
  · rintro ⟨hrow, rfl⟩
    exact ⟨_, _, ⟨rfl, rfl⟩, hrow, rfl⟩

theorem commits_loadDefinition {triggerId : Nat} {trigger : TriggerDefinitionRecord} :
    (loadDefinition triggerId).Commits db trigger db' ↔
      db.1.own.triggerDefinitions.find triggerId = some trigger ∧ db' = db := by
  simp only [loadDefinition, Tx.commits_bind, Tx.commits_query, Tx.commits_found]
  constructor
  · rintro ⟨_, _, ⟨rfl, rfl⟩, hrow, rfl⟩
    exact ⟨hrow, rfl⟩
  · rintro ⟨hrow, rfl⟩
    exact ⟨_, _, ⟨rfl, rfl⟩, hrow, rfl⟩

end Reads

section Definitions

structure Amends (before after : TriggerDefinitionRecord) (db db' : TriggerDatabase) : Prop where
  found : db.1.own.triggerDefinitions.find before.id = some before
  definition : ∀ id, db'.1.own.triggerDefinitions.find id =
    if id = before.id then some after else db.1.own.triggerDefinitions.find id
  next : db'.1.own.triggerDefinitions.next = db.1.own.triggerDefinitions.next
  occurrences : db'.1.own.triggerOccurrences = db.1.own.triggerOccurrences
  core : db'.1.core = db.1.core

variable {f : TriggerDefinitionRecord → TriggerDefinitionRecord}

theorem amends_of_updates {p : TriggerDefinitionRecord → Prop} [DecidablePred p]
    {row : TriggerDefinitionRecord} (h : Tx.Updates p f db db')
    (hrow : db.1.own.triggerDefinitions.find row.id = some row) (hp : p row)
    (hpin : ∀ other, p other → other.id = row.id) (hid : ∀ other, (f other).id = other.id) :
    Amends row (f row) db db' := by
  have hfind := h.find hid
  obtain ⟨t', ht', hdb'⟩ := h
  constructor
  · exact hrow
  · intro id
    have hview := hfind id
    simp only [table_extended, table_triggerDefinition] at hview
    rw [hview]
    by_cases hid' : id = row.id
    · rw [if_pos hid', hid', hrow, Option.map_some, Table.amend_of_pos hp]
    · rw [if_neg hid']
      cases hother : db.1.own.triggerDefinitions.find id with
      | none => rfl
      | some other =>
        have hkey : other.id = id := (Table.find_eq_some.mp hother).2
        rw [Option.map_some, Table.amend_of_neg]
        intro hpo
        exact hid' (hkey.symm.trans (hpin other hpo))
  · rw [hdb']
    exact (Table.update?_rows ht').2
  · rw [hdb']
    rfl
  · rw [hdb']
    rfl

variable {ownerUserId triggerId : Nat} {row : JoinedTrigger}

theorem amends_of_names (hrow : db.1.owned ownerUserId triggerId = some row)
    (h : Tx.Updates (TriggerDefinitionRecord.Names ownerUserId triggerId) f db db')
    (hid : ∀ other, (f other).id = other.id) :
    Amends row.trigger (f row.trigger) db db' := by
  obtain ⟨hfind, howner⟩ := owned_eq_some hrow
  have hkey : row.trigger.id = triggerId := (Table.find_eq_some.mp hfind).2
  apply amends_of_updates h
  · rwa [hkey]
  · exact ⟨hkey, howner⟩
  · intro other hother
    rw [hkey]
    exact hother.1
  · exact hid

structure Defines (trigger : TriggerDefinitionRecord) (db db' : TriggerDatabase) : Prop where
  fresh : trigger.id = db.1.own.triggerDefinitions.next
  definition : ∀ id, db'.1.own.triggerDefinitions.find id =
    if id = trigger.id then some trigger else db.1.own.triggerDefinitions.find id
  next : db'.1.own.triggerDefinitions.next = db.1.own.triggerDefinitions.next + 1
  occurrences : db'.1.own.triggerOccurrences = db.1.own.triggerOccurrences
  core : db'.1.core = db.1.core

variable {now : Instant}

theorem commits_insertDefinition {ownerUserId : Nat} {draft : TriggerDraft}
    (h : (insertDefinition ownerUserId draft now).Commits db row db') :
    Defines (draft.candidate ownerUserId now db.1.own.triggerDefinitions.next) db db' := by
  simp only [insertDefinition, Tx.commits_bind, Tx.commits_query, Tx.commits_require,
    Tx.commits_insert, commits_readDefinition] at h
  obtain ⟨_, _, ⟨-, rfl⟩, -, _, ⟨-, rfl⟩, -, _, ⟨-, rfl⟩, _, db₁, ⟨rfl, hinserts⟩, -, rfl⟩ := h
  have hfind := hinserts.find fun _ => rfl
  have hnext := hinserts.next
  obtain ⟨t', ht', hdb'⟩ := hinserts
  constructor
  · rfl
  · exact hfind
  · exact hnext
  · rw [hdb']
    rfl
  · rw [hdb']
    rfl

theorem commits_createWebhookTrigger {ownerUserId : Nat} {draft : TriggerDraft}
    (h : (createWebhookTrigger ownerUserId draft now).Commits db row db') :
    Defines (draft.candidate ownerUserId now db.1.own.triggerDefinitions.next) db db' := by
  simp only [createWebhookTrigger, Tx.commits_bind, Tx.commits_query, Tx.commits_require] at h
  obtain ⟨_, _, ⟨-, rfl⟩, _, _, ⟨-, rfl⟩, _, _, ⟨-, rfl⟩, h⟩ := h
  exact commits_insertDefinition h

theorem TriggerEdit.apply_cases (edit : TriggerEdit) (schedule : Option ScheduleSpec)
    (now : Instant) (current : TriggerDefinitionRecord) :
    ((edit.candidate schedule now current).defining = current.defining ∧
        edit.apply schedule now current = edit.candidate schedule now current) ∨
      edit.apply schedule now current =
        { edit.candidate schedule now current with
          configRevision := current.configRevision + 1 } := by
  by_cases hsame : (edit.candidate schedule now current).defining = current.defining
  · exact Or.inl ⟨hsame, if_pos hsame⟩
  · exact Or.inr (if_neg hsame)

theorem TriggerEdit.apply_id (edit : TriggerEdit) (schedule : Option ScheduleSpec) (now : Instant)
    (current : TriggerDefinitionRecord) : (edit.apply schedule now current).id = current.id := by
  rcases edit.apply_cases schedule now current with ⟨-, h⟩ | h
  · rw [h]
    rfl
  · rw [h]
    rfl

/-- What a committed edit knew of the row it replaced. -/
structure Edited (calendar : Calendar) (edit : TriggerEdit) (now : Instant)
    (expectedConfigRevision : Option Nat) (schedule : Option ScheduleSpec)
    (current : TriggerDefinitionRecord) (db : TriggerDatabase) : Prop where
  revision : ∀ revision ∈ expectedConfigRevision, current.configRevision = revision
  unfinished : ¬ (current.kind = .oneTime ∧ db.1.HasOccurrence current.id)
  timed : ¬ (edit.schedule ≠ none ∧ edit.nextFireAt = none ∧ current.enabled = true)
  scheduled : edit.scheduleFor calendar current = .ok schedule
  valid : (edit.candidate schedule now current).Check

theorem commits_updateTrigger {calendar : Calendar} {edit : TriggerEdit}
    {expectedConfigRevision : Option Nat}
    (h : (updateTrigger calendar ownerUserId triggerId edit now expectedConfigRevision).Commits
      db row db') :
    ∃ current schedule, current.id = triggerId ∧ current.ownerUserId = ownerUserId ∧
      Edited calendar edit now expectedConfigRevision schedule current db ∧
      Amends current (edit.apply schedule now current) db db' := by
  simp only [updateTrigger, Tx.commits_bind, Tx.commits_query, Tx.commits_require,
    Tx.commits_ofExcept, Tx.commits_update, commits_readDefinition] at h
  obtain ⟨current, _, ⟨hcurrent, rfl⟩, _, _, ⟨hrevision, rfl⟩, _, _, ⟨rfl, rfl⟩, _, _,
    ⟨hunfinished, rfl⟩, _, _, ⟨htimed, rfl⟩, schedule, _, ⟨hschedule, rfl⟩, _, _,
    ⟨hvalid, rfl⟩, _, db₁, ⟨-, hupdates⟩, -, rfl⟩ := h
  obtain ⟨hfind, howner⟩ := owned_eq_some hcurrent
  have hkey : current.trigger.id = triggerId := (Table.find_eq_some.mp hfind).2
  have hamends := amends_of_names hcurrent hupdates fun _ => rfl
  refine ⟨current.trigger, schedule, hkey, howner, ⟨hrevision, ?_, htimed, hschedule, hvalid⟩, ?_⟩
  · rintro ⟨hkind, hfired⟩
    rw [hkey] at hfired
    exact hunfinished ⟨hkind, decide_eq_true hfired⟩
  · have hsame : { edit.apply schedule now current.trigger with id := current.trigger.id } =
        edit.apply schedule now current.trigger := by
      rw [← TriggerEdit.apply_id edit schedule now current.trigger]
    rwa [hsame] at hamends

/-- The row that an enablement writes. -/
def TriggerDefinitionRecord.toggled (enabled : Bool) (now : Instant) (nextFireAt : Option Instant)
    (row : TriggerDefinitionRecord) : TriggerDefinitionRecord :=
  { row with
    enabled := enabled
    nextFireAt := if enabled = true then nextFireAt else none
    updatedAt := now }

theorem commits_setEnabled {enabled : Bool} {nextFireAt : Option Instant}
    (h : (setEnabled ownerUserId triggerId enabled now nextFireAt).Commits db row db') :
    ∃ current : TriggerDefinitionRecord, current.id = triggerId ∧
      current.ownerUserId = ownerUserId ∧
      (enabled = true → ¬ (current.kind = .oneTime ∧ db.1.HasOccurrence current.id)) ∧
      Amends current (current.toggled enabled now nextFireAt) db db' := by
  simp only [setEnabled, Tx.commits_bind, Tx.commits_query, Tx.commits_require,
    Tx.commits_update, commits_readDefinition] at h
  obtain ⟨current, _, ⟨hcurrent, rfl⟩, _, _, ⟨rfl, rfl⟩, _, _, ⟨-, rfl⟩, _, _, ⟨-, rfl⟩, _, _,
    ⟨hunfinished, rfl⟩, _, db₁, ⟨-, hupdates⟩, -, rfl⟩ := h
  obtain ⟨hfind, howner⟩ := owned_eq_some hcurrent
  have hkey : current.trigger.id = triggerId := (Table.find_eq_some.mp hfind).2
  refine ⟨current.trigger, hkey, howner, ?_, amends_of_names hcurrent hupdates fun _ => rfl⟩
  rintro henabled ⟨hkind, hfired⟩
  rw [hkey] at hfired
  exact hunfinished henabled ⟨hkind, decide_eq_true hfired⟩

theorem commits_rotateWebhookSecret {digest : Digest}
    (h : (rotateWebhookSecret ownerUserId triggerId digest now).Commits db row db') :
    ∃ current : TriggerDefinitionRecord, current.kind = .webhook ∧
      Amends current { current with
        secretDigest := some digest, secretCreatedAt := some now, updatedAt := now } db db' := by
  simp only [rotateWebhookSecret, Tx.commits_bind, Tx.commits_require, Tx.commits_update,
    commits_readDefinition] at h
  obtain ⟨current, _, ⟨hcurrent, rfl⟩, _, _, ⟨hkind, rfl⟩, _, db₁, ⟨-, hupdates⟩, -, rfl⟩ := h
  exact ⟨current.trigger, hkind, amends_of_names hcurrent hupdates fun _ => rfl⟩

structure Removes (triggerId : Nat) (db db' : TriggerDatabase) : Prop where
  unused : ¬ db.1.HasOccurrence triggerId
  definition : ∀ id row, db'.1.own.triggerDefinitions.find id = some row →
    id ≠ triggerId ∧ db.1.own.triggerDefinitions.find id = some row
  others : ∀ id row, id ≠ triggerId → db.1.own.triggerDefinitions.find id = some row →
    db'.1.own.triggerDefinitions.find id = some row
  next : db'.1.own.triggerDefinitions.next = db.1.own.triggerDefinitions.next
  occurrences : db'.1.own.triggerOccurrences = db.1.own.triggerOccurrences
  core : db'.1.core = db.1.core

theorem commits_deleteTrigger {value : Unit}
    (h : (deleteTrigger ownerUserId triggerId).Commits db value db') :
    Removes triggerId db db' := by
  simp only [deleteTrigger, Tx.commits_bind, Tx.commits_query, Tx.commits_require,
    Tx.commits_delete, commits_readDefinition] at h
  obtain ⟨current, _, ⟨hcurrent, rfl⟩, _, _, ⟨rfl, rfl⟩, _, _, ⟨hunused, rfl⟩, hdb'⟩ := h
  obtain ⟨hfind, howner⟩ := owned_eq_some hcurrent
  constructor
  · exact of_decide_eq_false hunused
  · intro id row hrow
    rw [hdb'] at hrow
    obtain ⟨hmem, hkey⟩ := Table.find_eq_some.mp hrow
    obtain ⟨hold, hnot⟩ := Table.mem_delete.mp hmem
    refine ⟨?_, Table.find_eq_some.mpr ⟨hold, hkey⟩⟩
    rintro rfl
    have hfound := Table.find_eq_some.mpr ⟨hold, hkey⟩
    rw [table_extended, table_triggerDefinition] at hfound
    obtain rfl := Option.some.inj (hfound.symm.trans hfind)
    exact hnot ⟨hkey, howner⟩
  · intro id row hid hrow
    rw [hdb']
    obtain ⟨hmem, hkey⟩ := Table.find_eq_some.mp hrow
    apply Table.find_eq_some.mpr
    refine ⟨Table.mem_delete.mpr ⟨hmem, ?_⟩, hkey⟩
    intro hnames
    exact hid (hkey.symm.trans hnames.1)
  · rw [hdb']
    rfl
  · rw [hdb']
    rfl
  · rw [hdb']
    rfl

end Definitions

def Submission.Under (caps : PendingCaps) (submission : Submission) : Prop :=
  submission.capacity = caps.capacity ∧ submission.agentCapacity = caps.agentCapacity ∧
    submission.providerCapacity = caps.providerCapacity

/-- What a materialization submitted: one Run, or nothing. -/
inductive SubmittedRun (caps : PendingCaps) (db : TriggerDatabase) :
    OccurrenceResult → TriggerDatabase → Prop where
  | skipped (reason : SkipReason) : SubmittedRun caps db (.skipped reason) db
  | created {submission : Submission} {runId : Nat} {db' : TriggerDatabase}
      (under : submission.Under caps)
      (inserted : (insertRunAndJobOnConnection submission).Commits db.core runId db'.core)
      (own : db'.1.own = db.1.own) : SubmittedRun caps db (.runCreated runId) db'

variable {caps : PendingCaps}

theorem commits_submitTriggered {submission : Submission} {submitted : Option Nat}
    (hunder : submission.Under caps) (h : (submitTriggered submission).Commits db submitted db') :
    SubmittedRun caps db (.ofSubmitted submitted) db' := by
  simp only [submitTriggered, Tx.commits_bind, Tx.commits_savepoint, Tx.commits_onCore] at h
  obtain ⟨outcome, middle, houtcome | ⟨error, rfl, -, rfl⟩, h⟩ := h
  · obtain ⟨runId, rfl, hinserted, hown⟩ := houtcome
    obtain ⟨rfl, rfl⟩ := Tx.commits_pure.mp h
    exact .created hunder hinserted hown
  · split at h
    · cases ‹Except.error error = Except.ok _›
    · obtain ⟨rfl, rfl⟩ := Tx.commits_pure.mp h
      exact .skipped .agentDisabled
    · exact (Tx.commits_raise.mp h).elim

structure Records (caps : PendingCaps) (trigger : TriggerDefinitionRecord)
    (facts : OccurrenceFacts) (result : OccurrenceResult) (db db' : TriggerDatabase) : Prop where
  submitted : ∃ db₁, SubmittedRun caps db result db₁ ∧
    Tx.Inserts (facts.row trigger result) db₁ db'

variable {trigger : TriggerDefinitionRecord} {occurrence : TriggerOccurrenceRecord}

theorem commits_writeOccurrence {facts : OccurrenceFacts} {result : OccurrenceResult} :
    (writeOccurrence trigger facts result).Commits db occurrence db' →
      occurrence = facts.row trigger result db.1.own.triggerOccurrences.next ∧
        Tx.Inserts (facts.row trigger result) db db' := by
  intro h
  simp only [writeOccurrence, Tx.commits_bind, Tx.commits_query, Tx.commits_require,
    Tx.commits_insert, Tx.commits_found] at h
  obtain ⟨_, db, ⟨-, rfl⟩, _, db₁, ⟨rfl, hinserts⟩, _, _, ⟨rfl, rfl⟩, hrow, rfl⟩ := h
  refine ⟨?_, hinserts⟩
  have hfind := hinserts.find (fun _ => rfl) db.1.own.triggerOccurrences.next
  simp only [table_extended, table_triggerOccurrence] at hfind hrow
  rw [hfind] at hrow
  simp only [if_pos] at hrow
  exact (Option.some.inj hrow).symm

section Records

variable {caps : PendingCaps} {trigger : TriggerDefinitionRecord} {facts : OccurrenceFacts}
  {result : OccurrenceResult}

theorem SubmittedRun.own (h : SubmittedRun caps db result db') : db'.1.own = db.1.own := by
  cases h with
  | skipped reason => rfl
  | created under inserted own => exact own

theorem Records.definitions (h : Records caps trigger facts result db db') :
    db'.1.own.triggerDefinitions = db.1.own.triggerDefinitions := by
  obtain ⟨db₁, hsubmitted, _, -, hdb'⟩ := h.submitted
  rw [hdb', ← hsubmitted.own]
  rfl

theorem Records.occurrences (h : Records caps trigger facts result db db') :
    db'.1.own.triggerOccurrences.rows = db.1.own.triggerOccurrences.rows ++
      [facts.row trigger result db.1.own.triggerOccurrences.next] := by
  obtain ⟨db₁, hsubmitted, hinserts⟩ := h.submitted
  have hrows := hinserts.rows
  simp only [table_extended, table_triggerOccurrence] at hrows
  rw [hrows, hsubmitted.own]

end Records

variable {surroundings : Surroundings} {command : ScheduleMaterializationCommand}

theorem commits_materializeNew
    (h : (materializeNew caps surroundings trigger command).Commits db occurrence db') :
    ∃ result, Records caps trigger command.facts result db db' := by
  unfold materializeNew at h
  split at h
  · rename_i reason _
    exact ⟨.skipped reason, ⟨db, .skipped reason, (commits_writeOccurrence h).2⟩⟩
  · simp only [Tx.commits_bind, Tx.commits_query, Tx.commits_require] at h
    obtain ⟨_, db, ⟨-, rfl⟩, -, db, ⟨-, rfl⟩, submitted, db₁, hsubmitted, hwritten⟩ := h
    exact ⟨.ofSubmitted submitted, ⟨db₁,
      commits_submitTriggered ⟨rfl, rfl, rfl⟩ hsubmitted,
      (commits_writeOccurrence hwritten).2⟩⟩

/-- A decision that still applies. -/
structure Fresh (command : ScheduleMaterializationCommand) (trigger : TriggerDefinitionRecord)
    (db : TriggerDatabase) : Prop where
  found : db.1.own.triggerDefinitions.find trigger.id = some trigger
  named : trigger.id = command.triggerDefinitionId
  unrecorded : db.1.findExisting trigger.id (some (.nominal command.nominalAt)) = none
  schedule : trigger.kind.IsSchedule
  revision : trigger.configRevision = command.expectedConfigRevision
  enabled : trigger.enabled = true
  next : trigger.nextFireAt = some command.expectedNextFireAt
  due : command.expectedNextFireAt ≤ command.now
  definition : db.1.AgentDefinitionMatches trigger command.definition.definitionId

theorem scheduleStaleReason_eq_none {store : TriggerStore} :
    store.scheduleStaleReason trigger command = none ↔
      trigger.kind.IsSchedule ∧ trigger.configRevision = command.expectedConfigRevision ∧
        trigger.enabled = true ∧ trigger.nextFireAt = some command.expectedNextFireAt ∧
          command.expectedNextFireAt ≤ command.now ∧
            store.AgentDefinitionMatches trigger command.definition.definitionId := by
  unfold TriggerStore.scheduleStaleReason
  by_cases hkind : trigger.kind.IsSchedule
  · by_cases hrevision : trigger.configRevision = command.expectedConfigRevision
    · by_cases henabled : trigger.enabled = true
      · by_cases hnext : trigger.nextFireAt = some command.expectedNextFireAt
        · by_cases hdue : command.now < command.expectedNextFireAt
          · simp [hkind, hrevision, henabled, hnext, hdue]
          · by_cases hmatches :
              store.AgentDefinitionMatches trigger command.definition.definitionId
            · simp [hkind, hrevision, henabled, hnext, hdue, hmatches, not_lt.mp hdue]
            · simp [hkind, hrevision, henabled, hnext, hdue, hmatches]
        · simp [hkind, hrevision, henabled, hnext]
      · simp [hkind, hrevision, henabled]
    · simp [hkind, hrevision]
  · simp [hkind]

theorem commits_materializeSchedule {outcome : ScheduleOutcome}
    (h : (materializeSchedule caps surroundings command).Commits db outcome db') :
    db' = db ∨ ∃ trigger result db₁, Fresh command trigger db ∧
      Records caps trigger command.facts result db db₁ ∧
      Amends trigger (trigger.advanced command.nextFireAtAfter command.now) db₁ db' := by
  simp only [materializeSchedule, Tx.commits_bind, Tx.commits_query, commits_loadDefinition] at h
  obtain ⟨trigger, db, ⟨hfind, rfl⟩, existing, db, ⟨hexisting, rfl⟩, h⟩ := h
  have hkey : trigger.id = command.triggerDefinitionId := (Table.find_eq_some.mp hfind).2
  cases existing with
  | some occurrence => exact Or.inl (Tx.commits_pure.mp h).2
  | none =>
    simp only [Tx.commits_bind, Tx.commits_query] at h
    obtain ⟨stale, db, ⟨hstale, rfl⟩, h⟩ := h
    cases stale with
    | some reason => exact Or.inl (Tx.commits_pure.mp h).2
    | none =>
      obtain ⟨hkind, hrevision, henabled, hnext, hdue, hmatches⟩ :=
        scheduleStaleReason_eq_none.mp hstale.symm
      simp only [Tx.commits_bind, Tx.commits_update, Tx.commits_pure] at h
      obtain ⟨occurrence, db₁, hnew, _, db₂, ⟨-, hupdates⟩, -, rfl⟩ := h
      have hfound : db.1.own.triggerDefinitions.find trigger.id = some trigger := by
        rwa [hkey]
      obtain ⟨result, hrecords⟩ := commits_materializeNew hnew
      refine Or.inr ⟨trigger, result, db₁, ?_, hrecords, ?_⟩
      · exact ⟨hfound, hkey, hexisting.symm, hkind, hrevision, henabled, hnext, hdue, hmatches⟩
      · apply amends_of_updates hupdates
        · rw [hrecords.definitions]
          exact hfound
        · rfl
        · exact fun _ hother => hother
        · intro other
          unfold TriggerDefinitionRecord.advanced
          split
          · rfl
          · rfl

structure FreshEvent (command : EventMaterializationCommand) (trigger : TriggerDefinitionRecord)
    (db : TriggerDatabase) : Prop where
  found : db.1.own.triggerDefinitions.find trigger.id = some trigger
  named : trigger.id = command.triggerDefinitionId
  kind : trigger.kind = .event
  unrecorded :
    db.1.findExisting trigger.id (some (.event command.envelope.eventId.1)) = none
  enabled : trigger.enabled = true

variable {command : EventMaterializationCommand}

theorem commits_applyEventOccurrence {outcome : EventOutcome}
    (h : (applyEventOccurrence caps surroundings trigger command).Commits db outcome db') :
    ∃ result, Records caps trigger command.facts result db db' := by
  simp only [applyEventOccurrence] at h
  rcases Tx.commits_ite.mp h with ⟨-, h⟩ | ⟨-, h⟩
  · simp only [Tx.commits_bind, Tx.commits_pure] at h
    obtain ⟨occurrence, db₁, hwritten, -, rfl⟩ := h
    exact ⟨.skipped .inputTooLarge,
        ⟨db, .skipped .inputTooLarge, (commits_writeOccurrence hwritten).2⟩⟩
  · simp only [Tx.commits_bind, Tx.commits_pure] at h
    obtain ⟨submitted, db₁, hsubmitted, occurrence, db₂, hwritten, -, rfl⟩ := h
    exact ⟨.ofSubmitted submitted, ⟨db₁,
      commits_submitTriggered ⟨rfl, rfl, rfl⟩ hsubmitted,
      (commits_writeOccurrence hwritten).2⟩⟩

theorem commits_materializeEvent {outcome : EventOutcome}
    (h : (materializeEvent caps surroundings command).Commits db outcome db') :
    db' = db ∨ ∃ trigger result, FreshEvent command trigger db ∧
      Records caps trigger command.facts result db db' := by
  simp only [materializeEvent, Tx.commits_bind, Tx.commits_query, Tx.commits_require,
    commits_loadDefinition] at h
  obtain ⟨trigger, db, ⟨hfind, rfl⟩, _, db, ⟨hmatches, rfl⟩, existing, db, ⟨hexisting, rfl⟩, h⟩ := h
  have hkey : trigger.id = command.triggerDefinitionId := (Table.find_eq_some.mp hfind).2
  cases existing with
  | some occurrence => exact Or.inl (Tx.commits_pure.mp h).2
  | none =>
    simp only [Tx.commits_bind, Tx.commits_query, Tx.commits_require] at h
    obtain ⟨_, db, ⟨henabled, rfl⟩, _, db, ⟨-, rfl⟩, _, db, ⟨-, rfl⟩, _, db, ⟨-, rfl⟩, h⟩ := h
    have hfound : db.1.own.triggerDefinitions.find trigger.id = some trigger := by
      rwa [hkey]
    have hfresh : FreshEvent command trigger db :=
      ⟨hfound, hkey, hmatches.2, hexisting.symm, henabled⟩
    obtain ⟨result, hrecords⟩ := commits_applyEventOccurrence h
    exact Or.inr ⟨trigger, result, hfresh, hrecords⟩

structure FreshDelivery (command : WebhookDeliveryCommand) (trigger : TriggerDefinitionRecord)
    (db : TriggerDatabase) : Prop where
  found : db.1.own.triggerDefinitions.find trigger.id = some trigger
  named : trigger.id = command.triggerDefinitionId
  kind : trigger.kind = .webhook
  authentic : trigger.secretDigest = some command.candidateSecretDigest
  unrecorded : db.1.findExisting trigger.id command.facts.identity = none
  enabled : trigger.enabled = true

variable {command : WebhookDeliveryCommand} {outcome : WebhookDeliveryResult}

theorem commits_applyWebhookDelivery
    (h : (applyWebhookDelivery caps surroundings trigger command).Commits db outcome db') :
    ∃ result, Records caps trigger command.facts result db db' := by
  simp only [applyWebhookDelivery] at h
  rcases Tx.commits_ite.mp h with ⟨-, h⟩ | ⟨-, h⟩
  · simp only [Tx.commits_bind, Tx.commits_pure] at h
    obtain ⟨occurrence, db₁, hwritten, -, rfl⟩ := h
    exact ⟨.skipped .inputTooLarge,
        ⟨db, .skipped .inputTooLarge, (commits_writeOccurrence hwritten).2⟩⟩
  · simp only [Tx.commits_bind, Tx.commits_pure] at h
    obtain ⟨submitted, db₁, hsubmitted, occurrence, db₂, hwritten, -, rfl⟩ := h
    exact ⟨.ofSubmitted submitted, ⟨db₁,
      commits_submitTriggered ⟨rfl, rfl, rfl⟩ hsubmitted,
      (commits_writeOccurrence hwritten).2⟩⟩

theorem commits_materializeWebhook
    (h : (materializeWebhook caps surroundings command).Commits db outcome db') :
    db' = db ∨ ∃ trigger result, FreshDelivery command trigger db ∧
      Records caps trigger command.facts result db db' := by
  simp only [materializeWebhook, Tx.commits_bind, commits_loadDefinition] at h
  obtain ⟨trigger, db, ⟨hfind, rfl⟩, h⟩ := h
  have hkey : trigger.id = command.triggerDefinitionId := (Table.find_eq_some.mp hfind).2
  rcases Tx.commits_ite.mp h with ⟨-, hrefused⟩ | ⟨hkind, hkinded⟩
  · exact Or.inl (Tx.commits_pure.mp hrefused).2
  rcases Tx.commits_ite.mp hkinded with ⟨-, hrefused⟩ | ⟨hsecret, hadmitted⟩
  · exact Or.inl (Tx.commits_pure.mp hrefused).2
  simp only [Tx.commits_bind, Tx.commits_query] at hadmitted
  obtain ⟨existing, db, ⟨hexisting, rfl⟩, hadmitted⟩ := hadmitted
  cases existing with
  | some occurrence => exact Or.inl (Tx.commits_pure.mp hadmitted).2
  | none =>
    rcases Tx.commits_ite.mp hadmitted with ⟨-, hrefused⟩ | ⟨henabled, hfresh⟩
    · exact Or.inl (Tx.commits_pure.mp hrefused).2
    simp only [Tx.commits_bind, Tx.commits_query, Tx.commits_require] at hfresh
    obtain ⟨_, db, ⟨-, rfl⟩, _, db, ⟨-, rfl⟩, happlied⟩ := hfresh
    have hfound : db.1.own.triggerDefinitions.find trigger.id = some trigger := by
      rwa [hkey]
    have hfresh : FreshDelivery command trigger db :=
      ⟨hfound, hkey, not_not.mp hkind, not_not.mp hsecret, hexisting.symm,
        Bool.of_not_eq_false henabled⟩
    obtain ⟨result, hrecords⟩ := commits_applyWebhookDelivery happlied
    exact Or.inr ⟨trigger, result, hfresh, hrecords⟩

end NervOS
