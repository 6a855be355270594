/-
What the trigger engine's processes may rely on: a candidate that was read is still the
same trigger, and a one-time trigger that has its occurrence is over.
-/
import NervOS.Refinement.TriggerEngine
import NervOS.Relational.Fallible

namespace NervOS

open Relational

section Decisions

variable {calendar : Calendar} {candidate : DueScheduleCandidate}
  {definition : ResolvedAgentDefinition} {now : Instant} {command : ScheduleMaterializationCommand}

inductive DecidesDue (calendar : Calendar) (candidate : DueScheduleCandidate) (now : Instant)
    (command : ScheduleMaterializationCommand) : Prop where
  | evaluated (decision : ScheduleDecision)
      (evaluation : evaluate calendar candidate now = .ok (some decision))
      (nominalAt : command.nominalAt = decision.nominalAt)
      (next : command.nextFireAtAfter = decision.nextFireAt)
      (terminalSkip : command.terminalSkip = none)
  | failed (failure : ScheduleFailure)
      (evaluation : evaluate calendar candidate now = .error (.calculation failure))
      (nominalAt : command.nominalAt = candidate.expectedNextFireAt)
      (next : command.nextFireAtAfter = none)
      (terminalSkip : command.terminalSkip = some failure.skipReason)

/-- A command repeats the facts that its candidate was read with. -/
structure Commands (candidate : DueScheduleCandidate) (definition : ResolvedAgentDefinition)
    (now : Instant) (command : ScheduleMaterializationCommand) : Prop where
  triggerDefinitionId : command.triggerDefinitionId = candidate.row.trigger.id
  definition : command.definition = definition
  now : command.now = now
  revision : command.expectedConfigRevision = candidate.expectedConfigRevision
  nextFireAt : command.expectedNextFireAt = candidate.expectedNextFireAt

theorem decided_eq_ok {nominalAt : Instant} {next : Option Instant} {skip : Option SkipReason}
    (h : ScheduleMaterializationCommand.decided candidate definition now nominalAt next skip =
      .ok command) :
    Commands candidate definition now command ∧ command.nominalAt = nominalAt ∧
      command.nextFireAtAfter = next ∧ command.terminalSkip = skip := by
  unfold ScheduleMaterializationCommand.decided at h
  split at h
  · split at h
    · obtain rfl := Except.ok.inj h
      exact ⟨⟨rfl, rfl, rfl, rfl, rfl⟩, rfl, rfl, rfl⟩
    · cases h
  · cases h

theorem commandFor_eq_ok (h : commandFor calendar candidate definition now = .ok (some command)) :
    Commands candidate definition now command ∧ DecidesDue calendar candidate now command := by
  unfold commandFor at h
  split at h
  · cases h
  · rename_i decision hevaluation
    obtain ⟨_, hdecided, hsome⟩ := map_eq_ok.mp h
    obtain rfl := Option.some.inj hsome
    obtain ⟨hcommands, hnominal, hnext, hskip⟩ := decided_eq_ok hdecided
    exact ⟨hcommands, .evaluated decision hevaluation hnominal hnext hskip⟩
  · rename_i failure hevaluation
    obtain ⟨_, hdecided, hsome⟩ := map_eq_ok.mp h
    obtain rfl := Option.some.inj hsome
    obtain ⟨hcommands, hnominal, hnext, hskip⟩ := decided_eq_ok hdecided
    exact ⟨hcommands, .failed failure hevaluation hnominal hnext hskip⟩
  · cases h

theorem evaluate_oneTime {decision : ScheduleDecision}
    (hkind : candidate.row.trigger.kind = .oneTime)
    (h : evaluate calendar candidate now = .ok (some decision)) : decision.nextFireAt = none := by
  unfold evaluate scheduleOf TriggerDefinitionRecord.spec at h
  rw [hkind] at h
  cases hrunAt : candidate.row.trigger.runAt with
  | none =>
    rw [hrunAt] at h
    cases h
  | some runAt =>
    rw [hrunAt] at h
    obtain ⟨_, hdecided, hsome⟩ := map_eq_ok.mp h
    obtain rfl := Option.some.inj hsome
    simp only [decideDue, calculateOneTime, requireDue] at hdecided
    split at hdecided
    · obtain rfl := Except.ok.inj hdecided
      rfl
    · cases hdecided

theorem DecidesDue.oneTime (hkind : candidate.row.trigger.kind = .oneTime)
    (h : DecidesDue calendar candidate now command) : command.nextFireAtAfter = none := by
  cases h with
  | evaluated decision evaluation nominalAt next terminalSkip =>
    rw [next]
    exact evaluate_oneTime hkind evaluation
  | failed failure evaluation nominalAt next terminalSkip => exact next

end Decisions

section Candidates

variable {db db' : TriggerDatabase} {candidate : DueScheduleCandidate} {now : Instant}

/-- A candidate that some earlier scan read: whatever became of its trigger, the row that
is there now is a later state of it. -/
structure Seen (db : TriggerDatabase) (now : Instant) (candidate : DueScheduleCandidate) :
    Prop where
  old : candidate.row.trigger.id < db.1.own.triggerDefinitions.next
  checked : candidate.row.trigger.Check
  schedule : candidate.row.trigger.kind.IsSchedule
  revision : candidate.expectedConfigRevision = candidate.row.trigger.configRevision
  due : candidate.expectedNextFireAt ≤ now
  current : ∀ trigger, db.1.own.triggerDefinitions.find candidate.row.trigger.id = some trigger →
    candidate.row.trigger.Precedes trigger

theorem Seen.later (h : Seen db now candidate) (hlater : Later db db') :
    Seen db' now candidate := by
  refine ⟨Nat.lt_of_lt_of_le h.old hlater.next, h.checked, h.schedule, h.revision, h.due, ?_⟩
  intro trigger htrigger
  rcases hlater.definition _ trigger htrigger with hnew | ⟨before, hbefore, hprecedes⟩
  · exact absurd h.old (Nat.not_lt.mpr hnew)
  · exact (h.current before hbefore).trans hprecedes

theorem dueCandidate_eq_some {store : TriggerStore} {trigger : TriggerDefinitionRecord}
    (h : store.dueCandidate now trigger = some candidate) :
    candidate.row.trigger = trigger ∧ trigger.kind.IsSchedule ∧
      candidate.expectedConfigRevision = trigger.configRevision ∧
      trigger.nextFireAt = some candidate.expectedNextFireAt ∧
      candidate.expectedNextFireAt ≤ now := by
  simp only [TriggerStore.dueCandidate, Option.bind_eq_bind, Option.bind_eq_some_iff] at h
  obtain ⟨next, hnext, row, hrow, h⟩ := h
  split at h
  · rename_i hdue
    obtain rfl := Option.some.inj h
    obtain ⟨instanceRow, -, rfl⟩ := Option.map_eq_some_iff.mp hrow
    exact ⟨rfl, hdue.2.2, rfl, hnext, hdue.2.1⟩
  · cases h

variable {cursor : Option (Instant × Nat)}

theorem mem_dueScheduleCandidates {store : TriggerStore} {batch : Nat}
    (h : candidate ∈ dueScheduleCandidates store now batch cursor) :
    ∃ trigger ∈ store.own.triggerDefinitions.rows, store.dueCandidate now trigger =
        some candidate := by
  have hsorted := List.mem_of_mem_take h
  rw [List.mem_insertionSort, List.mem_filter, List.mem_filterMap] at hsorted
  exact hsorted.1

theorem seen_of_scan {batch : Nat} (h : candidate ∈ dueScheduleCandidates db.1 now batch cursor) :
    Seen db now candidate := by
  obtain ⟨trigger, hmem, hdue⟩ := mem_dueScheduleCandidates h
  obtain ⟨rfl, hkind, hrevision, -, hnow⟩ := dueCandidate_eq_some hdue
  have hfind := Table.find_key hmem
  refine ⟨?_, ?_, hkind, hrevision, hnow, ?_⟩
  · exact db.1.own.triggerDefinitions.lawful.fresh _ hmem
  · exact db.1.own.triggerDefinitions.lawful.checked _ hmem
  · intro other hother
    obtain rfl := Option.some.inj (hfind.symm.trans hother)
    exact .refl _

end Candidates

section Ticks

variable {policy : QueuePolicy} {system : TriggerSystem} {candidate : DueScheduleCandidate}

theorem tickAt_eq_some {index : Nat} {tick : Tick} :
    system.tickAt index = some (tick, candidate) ↔
      system.ticks[index]? = some tick ∧ tick.sweep.next = some candidate := by
  simp only [TriggerSystem.tickAt, Option.bind_eq_bind, Option.bind_eq_some_iff]
  constructor
  · rintro ⟨_, htick, _, hnext, h⟩
    obtain ⟨rfl, rfl⟩ := Prod.mk.inj (Option.some.inj h)
    exact ⟨htick, hnext⟩
  · rintro ⟨htick, hnext⟩
    exact ⟨tick, htick, candidate, hnext, rfl⟩

/-- The pages of all ticks hold candidates that were read earlier. -/
def SeenTicks (system : TriggerSystem) : Prop :=
  ∀ tick ∈ system.ticks, ∀ candidate ∈ tick.sweep.items, Seen system.db tick.now candidate

theorem step_seenTicks (hseen : SeenTicks system) (op : TriggerOp) :
    SeenTicks (system.step policy op) := by
  intro tick htick candidate hcandidate
  have hlater := (TriggerSystem.step_effect policy system op).later
  rcases (TriggerSystem.step_frame policy system op).ticks tick htick with hold |
    ⟨batch, cursor, hsweep⟩ | ⟨index, definitions, calendar, environment, old, current, -, hat, rfl⟩
  · exact (hseen tick hold candidate hcandidate).later hlater
  · rw [hsweep] at hcandidate
    exact (seen_of_scan hcandidate).later hlater
  · have hmem := List.mem_of_getElem? (tickAt_eq_some.mp hat).1
    rw [Tick.record, Sweep.items_record] at hcandidate
    exact (hseen old hmem candidate hcandidate).later hlater

theorem reachable_seenTicks (h : (triggerEngine policy).Reachable system) : SeenTicks system := by
  apply h.invariant (I := SeenTicks)
  · intro tick htick
    cases htick
  · intro system op hseen
    exact step_seenTicks hseen op

theorem SeenTicks.at {index : Nat} {tick : Tick} (h : SeenTicks system)
    (hat : system.tickAt index = some (tick, candidate)) :
    Seen system.db tick.now candidate := by
  obtain ⟨htick, hnext⟩ := tickAt_eq_some.mp hat
  exact h tick (List.mem_of_getElem? htick) candidate (Sweep.next_mem hnext)

end Ticks

variable {policy : QueuePolicy} {system : TriggerSystem} {db db' : TriggerDatabase}

def OneTimeSpent (db : TriggerDatabase) : Prop :=
  ∀ id trigger, db.1.own.triggerDefinitions.find id = some trigger → trigger.kind = .oneTime →
    ∀ occurrence ∈ db.1.own.triggerOccurrences.rows, occurrence.triggerDefinitionId = id →
      trigger.enabled = false ∧ ∀ other ∈ db.1.own.triggerOccurrences.rows,
        other.triggerDefinitionId = id → other = occurrence

theorem OneTimeSpent.congr (h : OneTimeSpent db) (hown : db'.1.own = db.1.own) :
    OneTimeSpent db' := by
  unfold OneTimeSpent
  rw [hown]
  exact h

theorem OneTimeSpent.amends {before after : TriggerDefinitionRecord} (h : OneTimeSpent db)
    (hamends : Amends before after db db') (hkind : after.kind = before.kind)
    (henabled : after.enabled = true → before.enabled = true ∨
      ¬ (before.kind = .oneTime ∧ db.1.HasOccurrence before.id)) : OneTimeSpent db' := by
  intro id trigger htrigger honeTime occurrence hoccurrence howner
  rw [hamends.occurrences] at hoccurrence ⊢
  rw [hamends.definition] at htrigger
  split at htrigger
  · rename_i hid
    obtain rfl := Option.some.inj htrigger
    rw [hkind] at honeTime
    subst hid
    obtain ⟨hdisabled, honly⟩ :=
      h before.id before hamends.found honeTime occurrence hoccurrence howner
    refine ⟨?_, honly⟩
    by_contra hon
    rcases henabled (Bool.of_not_eq_false hon) with hwas | hunused
    · rw [hdisabled] at hwas
      cases hwas
    · exact hunused ⟨honeTime, occurrence, hoccurrence, howner⟩
  · exact h id trigger htrigger honeTime occurrence hoccurrence howner

variable {trigger : TriggerDefinitionRecord}

theorem OneTimeSpent.defines (h : OneTimeSpent db) (hdefines : Defines trigger db db') :
    OneTimeSpent db' := by
  intro id row hrow honeTime occurrence hoccurrence howner
  rw [hdefines.occurrences] at hoccurrence ⊢
  rw [hdefines.definition] at hrow
  split at hrow
  · rename_i hid
    -- A new id has no occurrence yet: the foreign key would dangle.
    have hknown := db.2.2.occurrenceTrigger occurrence hoccurrence
    rw [howner, hid, hdefines.fresh, Table.find_next] at hknown
    cases hknown
  · exact h id row hrow honeTime occurrence hoccurrence howner

theorem OneTimeSpent.removes {triggerId : Nat} (h : OneTimeSpent db)
    (hremoves : Removes triggerId db db') : OneTimeSpent db' := by
  intro id row hrow honeTime occurrence hoccurrence howner
  rw [hremoves.occurrences] at hoccurrence ⊢
  exact h id row (hremoves.definition id row hrow).2 honeTime occurrence hoccurrence howner

variable {facts : OccurrenceFacts} {result : OccurrenceResult}

theorem OneTimeSpent.records {caps : PendingCaps} (h : OneTimeSpent db)
    (hrecords : Records caps trigger facts result db db')
    (hfound : db.1.own.triggerDefinitions.find trigger.id = some trigger)
    (hkind : trigger.kind ≠ .oneTime) : OneTimeSpent db' := by
  intro id row hrow honeTime occurrence hoccurrence howner
  rw [hrecords.definitions] at hrow
  have hother : id ≠ trigger.id := by
    rintro rfl
    obtain rfl := Option.some.inj (hrow.symm.trans hfound)
    exact hkind honeTime
  rw [hrecords.occurrences] at hoccurrence ⊢
  have hkept : ∀ occurrence : TriggerOccurrenceRecord,
      occurrence ∈ db.1.own.triggerOccurrences.rows ++
      [facts.row trigger result db.1.own.triggerOccurrences.next] →
      occurrence.triggerDefinitionId = id → occurrence ∈ db.1.own.triggerOccurrences.rows := by
    intro occurrence hmem hid
    rcases List.mem_append.mp hmem with hold | hnew
    · exact hold
    · obtain rfl := List.mem_singleton.mp hnew
      exact absurd hid.symm hother
  obtain ⟨hdisabled, honly⟩ := h id row hrow honeTime occurrence (hkept _ hoccurrence howner) howner
  exact ⟨hdisabled, fun other hmem hid => honly other (hkept _ hmem hid) hid⟩

theorem OneTimeSpent.scheduled {caps : PendingCaps} {middle : TriggerDatabase}
    {next : Option Instant} {now : Instant} (h : OneTimeSpent db)
    (hrecords : Records caps trigger facts result db middle)
    (hamends : Amends trigger (trigger.advanced next now) middle db')
    (hfound : db.1.own.triggerDefinitions.find trigger.id = some trigger)
    (henabled : trigger.enabled = true) (hnext : trigger.kind = .oneTime → next = none) :
    OneTimeSpent db' := by
  by_cases hkind : trigger.kind = .oneTime
  · obtain rfl := hnext hkind
    have hunused : ∀ occurrence ∈ db.1.own.triggerOccurrences.rows,
        occurrence.triggerDefinitionId ≠ trigger.id := by
      intro occurrence hmem howner
      have hdisabled := (h trigger.id trigger hfound hkind occurrence hmem howner).1
      rw [henabled] at hdisabled
      cases hdisabled
    intro id row hrow honeTime occurrence hoccurrence howner
    rw [hamends.occurrences, hrecords.occurrences] at hoccurrence ⊢
    rw [hamends.definition, hrecords.definitions] at hrow
    split at hrow
    · rename_i hid
      obtain rfl := Option.some.inj hrow
      refine ⟨rfl, ?_⟩
      have hlast : ∀ occurrence : TriggerOccurrenceRecord,
          occurrence ∈ db.1.own.triggerOccurrences.rows ++
            [facts.row trigger result db.1.own.triggerOccurrences.next] →
          occurrence.triggerDefinitionId = id →
            occurrence = facts.row trigger result db.1.own.triggerOccurrences.next := by
        intro occurrence hmem howner
        rcases List.mem_append.mp hmem with hold | hnew
        · exact absurd (howner.trans hid) (hunused occurrence hold)
        · exact List.mem_singleton.mp hnew
      intro other hother hotherOwner
      rw [hlast other hother hotherOwner, hlast occurrence hoccurrence howner]
    · rename_i hid
      rcases List.mem_append.mp hoccurrence with hold | hnew
      · obtain ⟨hdisabled, honly⟩ := h id row hrow honeTime occurrence hold howner
        refine ⟨hdisabled, fun other hmem hother => ?_⟩
        rcases List.mem_append.mp hmem with hold' | hnew'
        · exact honly other hold' hother
        · obtain rfl := List.mem_singleton.mp hnew'
          exact absurd hother.symm hid
      · obtain rfl := List.mem_singleton.mp hnew
        exact absurd howner.symm hid
  · have hmiddle := h.records hrecords hfound hkind
    apply hmiddle.amends hamends
    · exact TriggerDefinitionRecord.Precedes.kind (.advanced next now trigger)
    · exact fun _ => Or.inl henabled

theorem TriggerEdit.apply_enabled (edit : TriggerEdit) (schedule : Option ScheduleSpec)
    (now : Instant) (current : TriggerDefinitionRecord) :
    (edit.apply schedule now current).enabled = current.enabled := by
  rcases edit.apply_cases schedule now current with ⟨-, h⟩ | h
  · rw [h]
    rfl
  · rw [h]
    rfl

theorem Seen.precedes_of_fresh {candidate : DueScheduleCandidate} {now : Instant}
    {definition : ResolvedAgentDefinition} {command : ScheduleMaterializationCommand}
    (h : Seen db now candidate) (hcommands : Commands candidate definition now command)
    (hfresh : Fresh command trigger db) :
    candidate.row.trigger.Precedes trigger := by
  apply h.current
  rw [← hcommands.triggerDefinitionId, ← hfresh.named]
  exact hfresh.found

theorem step_oneTimeSpent (hseen : SeenTicks system) (h : OneTimeSpent system.db) (op : TriggerOp) :
    OneTimeSpent (system.step policy op).db := by
  have heffect := TriggerSystem.step_effect policy system op
  generalize (system.step policy op).db = db' at heffect ⊢
  cases heffect with
  | idle => exact h
  | engine own core => exact h.congr own
  | created computed defines | provisioned defines => exact h.defines defines
  | updated held named edited amends =>
    apply h.amends amends (TriggerEdit.precedes _ _ _ _).kind
    intro henabled
    rw [TriggerEdit.apply_enabled] at henabled
    exact Or.inl henabled
  | enabled held named unfinished amends =>
    exact h.amends amends rfl fun _ => Or.inr unfinished
  | disabled amends => exact h.amends amends rfl fun henabled => absurd henabled Bool.false_ne_true
  | removed removes => exact h.removes removes
  | rotated kind amends => exact h.amends amends rfl fun henabled => Or.inl henabled
  | scheduled considered decided fresh records amends =>
    apply h.scheduled records amends fresh.found fresh.enabled
    intro hkind
    obtain ⟨hcommands, hdecides⟩ := commandFor_eq_ok decided
    apply hdecides.oneTime
    rw [← ((hseen.at considered).precedes_of_fresh hcommands fresh).kind, hkind]
  | delivered held fresh records | published considered named enveloped fresh records =>
    exact h.records records fresh.found (by rw [fresh.kind]; decide)

theorem reachable_oneTimeSpent (h : (triggerEngine policy).Reachable system) :
    OneTimeSpent system.db := by
  have hboth : SeenTicks system ∧ OneTimeSpent system.db := by
    apply h.invariant (I := fun system => SeenTicks system ∧ OneTimeSpent system.db)
    · refine ⟨fun tick htick => ?_, fun id trigger htrigger => ?_⟩
      · cases htick
      · cases htrigger
    · intro system op hinv
      exact ⟨step_seenTicks hinv.1 op,
        step_oneTimeSpent hinv.1 hinv.2 op⟩
  exact hboth.2

end NervOS
