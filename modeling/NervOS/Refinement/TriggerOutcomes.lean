/-
What the materializations answer: an occurrence that an outcome names is recorded, it
belongs to the trigger that was asked for, and its identity is the one of the delivery.
-/
import NervOS.Refinement.TriggerExceptions

namespace NervOS

open Relational

section Recorded

variable {db db' : TriggerDatabase} {triggerId : Nat} {identity : Option OccurrenceIdentity}
  {occurrence : TriggerOccurrenceRecord}

structure Recorded (db : TriggerDatabase) (triggerId : Nat) (identity : Option OccurrenceIdentity)
    (occurrence : TriggerOccurrenceRecord) : Prop where
  mem : occurrence ∈ db.1.own.triggerOccurrences.rows
  owner : occurrence.triggerDefinitionId = triggerId
  identified : ∀ name ∈ identity, occurrence.HasIdentity name

theorem Recorded.later (h : Recorded db triggerId identity occurrence) (hlater : Later db db') :
    Recorded db' triggerId identity occurrence :=
  ⟨hlater.occurrences.subset h.mem, h.owner, h.identified⟩

theorem recorded_findExisting
    (h : db.1.findExisting triggerId identity = some occurrence) :
    Recorded db triggerId identity occurrence := by
  obtain ⟨name, rfl, hfind⟩ := Option.bind_eq_some_iff.mp h
  have hmatches := List.find?_some hfind
  simp only [decide_eq_true_eq] at hmatches
  refine ⟨List.mem_of_find?_eq_some hfind, hmatches.1, fun other hother => ?_⟩
  obtain rfl := Option.some.inj hother
  exact hmatches.2

variable {name : OccurrenceIdentity} {result : OccurrenceResult} {facts : OccurrenceFacts}

theorem hasIdentity_row {trigger : TriggerDefinitionRecord} {id : Nat}
    (hname : name ∈ facts.identity) :
    (facts.row trigger result id).HasIdentity name := by
  have hfacts : facts.identity = some name := hname
  cases name <;> simp [TriggerOccurrenceRecord.HasIdentity, OccurrenceFacts.row, hfacts]

theorem recorded_writeOccurrence {trigger : TriggerDefinitionRecord}
    (h : (writeOccurrence trigger facts result).Commits db occurrence db') :
    Recorded db' trigger.id facts.identity occurrence := by
  obtain ⟨rfl, hinserts⟩ := commits_writeOccurrence h
  refine ⟨?_, rfl, fun name hname => hasIdentity_row hname⟩
  have hfind := hinserts.find (fun _ => rfl) db.1.own.triggerOccurrences.next
  simp only [table_extended, table_triggerOccurrence, if_pos] at hfind
  exact (Table.find_eq_some.mp hfind).1

theorem clash_of_identity {left right : TriggerOccurrenceRecord}
    (howner : left.triggerDefinitionId = right.triggerDefinitionId) (hleft : left.HasIdentity name)
    (hright : right.HasIdentity name) : Clash left right := by
  have hsame : ∀ {α : Type} {column column' : Option α} {value : α}, column = some value →
      column' = some value → SameValue column column' := by
    intro α column column' value hcolumn hcolumn'
    rw [hcolumn, hcolumn']
    exact ⟨Option.some_ne_none value, rfl⟩
  refine Or.inr ⟨howner, ?_⟩
  cases name with
  | nominal instant => exact Or.inl (hsame hleft hright)
  | event eventId => exact Or.inr (Or.inl (hsame hleft hright))
  | idempotency key => exact Or.inr (Or.inr (hsame hleft hright))

theorem Recorded.unique {other : TriggerOccurrenceRecord}
    (h : Recorded db triggerId (some name) occurrence)
    (h' : Recorded db triggerId (some name) other) : other = occurrence := by
  have hname := h.identified name rfl
  have hname' := h'.identified name rfl
  apply Table.eq_of_clash h'.mem h.mem
  · exact clash_of_identity (h'.owner.trans h.owner.symm) hname' hname
  · exact clash_of_identity (h.owner.trans h'.owner.symm) hname hname'

theorem Recorded.findExisting (h : Recorded db triggerId (some name) occurrence) :
    db.1.findExisting triggerId (some name) = some occurrence := by
  cases hfind : db.1.findExisting triggerId (some name) with
  | none =>
    have hnone := List.find?_eq_none.mp hfind occurrence h.mem
    simp only [decide_eq_true_eq] at hnone
    exact absurd ⟨h.owner, h.identified name rfl⟩ hnone
  | some other => rw [h.unique (recorded_findExisting hfind)]

theorem Recorded.trigger (h : Recorded db triggerId identity occurrence) :
    ∃ trigger, db.1.own.triggerDefinitions.find triggerId = some trigger := by
  have hknown := db.2.2.occurrenceTrigger occurrence h.mem
  rw [h.owner] at hknown
  exact Option.isSome_iff_exists.mp hknown

end Recorded

variable {caps : PendingCaps} {surroundings : Surroundings} {db db' : TriggerDatabase}

def ScheduleOutcome.occurrence : ScheduleOutcome → Option TriggerOccurrenceRecord
  | .materialized occurrence | .skipped occurrence | .duplicated occurrence => some occurrence
  | .stale _ | .deferredCapacity => none

def EventOutcome.occurrence : EventOutcome → Option TriggerOccurrenceRecord
  | .runCreated occurrence | .skipped occurrence | .duplicate occurrence => some occurrence
  | .stale | .capacityDeferred | .eventIdConflict => none

variable {command : ScheduleMaterializationCommand} {trigger : TriggerDefinitionRecord}

theorem recorded_materializeNew {occurrence : TriggerOccurrenceRecord}
    (h : (materializeNew caps surroundings trigger command).Commits db occurrence db') :
    Recorded db' trigger.id command.facts.identity occurrence := by
  unfold materializeNew at h
  split at h
  · exact recorded_writeOccurrence h
  · simp only [Tx.commits_bind, Tx.commits_query, Tx.commits_require] at h
    obtain ⟨_, db, ⟨-, rfl⟩, -, db, ⟨-, rfl⟩, submitted, db₁, -, hwritten⟩ := h
    exact recorded_writeOccurrence hwritten

theorem recorded_materializeSchedule {outcome : ScheduleOutcome}
    (h : (materializeSchedule caps surroundings command).Commits db outcome db') :
    ∀ occurrence ∈ outcome.occurrence,
      Recorded db' command.triggerDefinitionId command.facts.identity occurrence := by
  intro occurrence hoccurrence
  simp only [materializeSchedule, Tx.commits_bind, Tx.commits_query, commits_loadDefinition] at h
  obtain ⟨trigger, db, ⟨hfind, rfl⟩, existing, db, ⟨hexisting, rfl⟩, h⟩ := h
  rw [← show trigger.id = command.triggerDefinitionId from (Table.find_eq_some.mp hfind).2]
  cases existing with
  | some existing =>
    obtain ⟨rfl, rfl⟩ := Tx.commits_pure.mp h
    obtain rfl := Option.some.inj hoccurrence
    exact recorded_findExisting hexisting.symm
  | none =>
    simp only [Tx.commits_bind, Tx.commits_query] at h
    obtain ⟨stale, db, ⟨hstale, rfl⟩, h⟩ := h
    cases stale with
    | some reason =>
      obtain ⟨rfl, rfl⟩ := Tx.commits_pure.mp h
      cases hoccurrence
    | none =>
      simp only [Tx.commits_bind, Tx.commits_update, Tx.commits_pure] at h
      obtain ⟨written, db₁, hnew, _, db₂, ⟨-, _, -, hdb₂⟩, rfl, rfl⟩ := h
      obtain ⟨hmem, howner, hidentified⟩ := recorded_materializeNew hnew
      have hwritten : occurrence = written := by
        split at hoccurrence
        · exact (Option.some.inj hoccurrence).symm
        · exact (Option.some.inj hoccurrence).symm
      rw [hwritten]
      refine ⟨?_, howner, hidentified⟩
      rw [hdb₂]
      exact hmem

variable {command : EventMaterializationCommand}

end NervOS
