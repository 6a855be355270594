/-
What each operation of the trigger engine does to its database, and what every operation
leaves standing: definitions keep their kind, revisions only grow, occurrences stay.
-/
import NervOS.Refinement.Triggers
import NervOS.Engine.Invariant

namespace NervOS

open Relational

namespace TriggerSystem

/-- The database that an operation leads to, with what its transaction knew. -/
inductive Effect (policy : QueuePolicy) (system : TriggerSystem) :
    TriggerOp → TriggerDatabase → Prop where
  | idle {op : TriggerOp} : Effect policy system op system.db
  | engine {op : Op} {db : TriggerDatabase} (own : db.1.own = system.db.1.own)
      (core : db.core = (System.exec policy op system.core).db) :
      Effect policy system (.engine op) db
  | created {creation : TriggerCreation} {calendar : Calendar} {next : Option Instant}
      {db : TriggerDatabase}
      (computed : initialNextFireFor calendar creation.schedule creation.enabled creation.now =
        .ok next)
      (defines : Defines ((creation.draft next).candidate creation.ownerUserId creation.now
        system.db.1.own.triggerDefinitions.next) system.db db) :
      Effect policy system (.create creation calendar) db
  | provisioned {creation : WebhookCreation} {db : TriggerDatabase}
      (defines : Defines (creation.draft.candidate creation.ownerUserId creation.now
        system.db.1.own.triggerDefinitions.next) system.db db) :
      Effect policy system (.createWebhook creation) db
  | updated {request : UpdateRequest} {calendar : Calendar} {current : TriggerDefinitionRecord}
      {schedule : Option ScheduleSpec} {db : TriggerDatabase} (held : request ∈ system.updates)
      (named : current.id = request.triggerId)
      (edited : Edited calendar request.edit request.now (some request.expectedConfigRevision)
        schedule current system.db)
      (amends : Amends current (request.edit.apply schedule request.now current) system.db db) :
      Effect policy system (.commitUpdate request calendar) db
  | enabled {request : EnableRequest} {current : TriggerDefinitionRecord} {db : TriggerDatabase}
      (held : request ∈ system.enables) (named : current.id = request.triggerId)
      (unfinished : ¬ (current.kind = .oneTime ∧ system.db.1.HasOccurrence current.id))
      (amends : Amends current (current.toggled true request.now request.nextFireAt)
        system.db db) :
      Effect policy system (.commitEnable request) db
  | disabled {ownerUserId triggerId : Nat} {now : Instant} {current : TriggerDefinitionRecord}
      {db : TriggerDatabase} (amends : Amends current (current.toggled false now none) system.db db) :
      Effect policy system (.disable ownerUserId triggerId now) db
  | removed {ownerUserId triggerId : Nat} {db : TriggerDatabase}
      (removes : Removes triggerId system.db db) :
      Effect policy system (.delete ownerUserId triggerId) db
  | rotated {ownerUserId triggerId : Nat} {secret : { secret : String // IsWellFormedSecret secret }}
      {now : Instant} {current : TriggerDefinitionRecord} {db : TriggerDatabase}
      (kind : current.kind = .webhook)
      (amends : Amends current { current with
        secretDigest := some (digestSecret secret.1), secretCreatedAt := some now,
        updatedAt := now } system.db db) :
      Effect policy system (.rotateSecret ownerUserId triggerId secret now) db
  | scheduled {index : Nat} {definitions : AgentDefinitionResolver} {calendar : Calendar}
      {environment : Environment} {tick : Tick} {candidate : DueScheduleCandidate}
      {definition : ResolvedAgentDefinition} {command : ScheduleMaterializationCommand}
      {trigger : TriggerDefinitionRecord} {result : OccurrenceResult}
      {middle db : TriggerDatabase}
      (considered : system.tickAt index = some (tick, candidate))
      (decided : commandFor calendar candidate definition tick.now = .ok (some command))
      (fresh : Fresh command trigger system.db)
      (records : Records environment.caps trigger command.facts result system.db middle)
      (amends : Amends trigger (trigger.advanced command.nextFireAtAfter command.now) middle db) :
      Effect policy system (.resolveNext index definitions calendar environment) db
  | delivered {index : Nat} {environment : Environment} {command : WebhookDeliveryCommand}
      {trigger : TriggerDefinitionRecord} {result : OccurrenceResult} {db : TriggerDatabase}
      (held : system.deliveries[index]? = some command)
      (fresh : FreshDelivery command trigger system.db)
      (records : Records environment.caps trigger command.facts result system.db db) :
      Effect policy system (.materialize index environment) db
  | published {index : Nat} {resolver : EventResolver} {environment : Environment}
      {publication : Publication} {candidate : JoinedTrigger}
      {command : EventMaterializationCommand} {trigger : TriggerDefinitionRecord}
      {result : OccurrenceResult} {db : TriggerDatabase}
      (considered : system.publicationAt index = some (publication, candidate))
      (named : command.triggerDefinitionId = candidate.trigger.id)
      (enveloped : command.envelope = publication.envelope)
      (fresh : FreshEvent command trigger system.db)
      (records : Records environment.caps trigger command.facts result system.db db) :
      Effect policy system (.publishNext index resolver environment) db

variable (policy : QueuePolicy) (system : TriggerSystem)

theorem commit_effect {α : Type} {x : TriggerConnection α} {op : TriggerOp}
    (h : ∀ value db, x.Commits system.db value db → Effect policy system op db) :
    Effect policy system op (system.commit x).db := by
  rcases Tx.run_cases x system.db with ⟨value, db, hcommits, hrun⟩ | ⟨abort, hrun⟩
  · rw [commit, hrun]
    exact h value db hcommits
  · rw [commit, hrun]
    exact .idle

theorem persistence_cases {α : Type} (persistence : Persistence) (x : TriggerConnection α)
    (db : TriggerDatabase) :
    (persistence.run x db).2 = db ∨ ∃ value db', x.Commits db value db' ∧
      (persistence.run x db).2 = db' := by
  rcases Tx.run_cases x db with ⟨value, db', hcommits, hrun⟩ | ⟨abort, hrun⟩
  · cases persistence with
    | refused => exact Or.inl rfl
    | available | unacknowledged =>
      right
      refine ⟨value, db', hcommits, ?_⟩
      simp only [Persistence.run, hrun]
  · left
    cases persistence with
    | refused => rfl
    | available | unacknowledged => simp only [Persistence.run, hrun]

variable (environment : Environment)

theorem apply_db (command : ScheduleMaterializationCommand) (db : TriggerDatabase) :
    (command.apply environment db).2 = (environment.persistence.run
      (materializeSchedule environment.caps environment.surroundings command) db).2 := by
  unfold ScheduleMaterializationCommand.apply
  split <;> simp only [*]

theorem materialize_db (command : WebhookDeliveryCommand) (db : TriggerDatabase) :
    (command.materialize environment db).2 = (environment.persistence.run
      (materializeWebhook environment.caps environment.surroundings command) db).2 := by
  unfold WebhookDeliveryCommand.materialize
  split <;> simp only [*]

theorem eventApply_db (command : EventMaterializationCommand) (db : TriggerDatabase) :
    (command.apply environment db).2 = (environment.persistence.run
      (materializeEvent environment.caps environment.surroundings command) db).2 := by
  unfold EventMaterializationCommand.apply
  split <;> simp only [*]

theorem create_effect (creation : TriggerCreation) (calendar : Calendar) :
    Effect policy system (.create creation calendar) (system.create creation calendar).db := by
  unfold create
  split
  · rename_i next hnext
    exact commit_effect policy system fun _ _ h => .created hnext (commits_insertDefinition h)
  · exact .idle

variable (index : Nat)

theorem resolve_effect (definitions : AgentDefinitionResolver) (calendar : Calendar)
    (environment : Environment) :
    Effect policy system (.resolveNext index definitions calendar environment)
      (system.resolveNext index definitions calendar environment).db := by
  unfold resolveNext
  split
  · exact .idle
  · rename_i tick candidate hconsidered
    simp only [resolve]
    split
    · exact .idle
    · rename_i definition _
      split
      · exact .idle
      · exact .idle
      · rename_i command hdecided
        simp only [apply_db]
        rcases persistence_cases environment.persistence
          (materializeSchedule environment.caps environment.surroundings command) system.db with
          hsame | ⟨outcome, db', hcommits, hdb'⟩
        · rw [hsame]
          exact .idle
        · rw [hdb']
          rcases commits_materializeSchedule hcommits with rfl |
            ⟨trigger, result, middle, hfresh, hrecords, hamends⟩
          · exact .idle
          · exact .scheduled hconsidered hdecided hfresh hrecords hamends

theorem materialize_effect (environment : Environment) :
    Effect policy system (.materialize index environment)
      (system.materialize index environment).db := by
  unfold materialize
  split
  · exact .idle
  · rename_i command hheld
    simp only [materialize_db]
    rcases persistence_cases environment.persistence
      (materializeWebhook environment.caps environment.surroundings command) system.db with
      hsame | ⟨outcome, db', hcommits, hdb'⟩
    · rw [hsame]
      exact .idle
    · rw [hdb']
      rcases commits_materializeWebhook hcommits with rfl | ⟨trigger, result, hfresh, hrecords⟩
      · exact .idle
      · exact .delivered hheld hfresh hrecords

theorem publish_effect (resolver : EventResolver) (environment : Environment) :
    Effect policy system (.publishNext index resolver environment)
      (system.publishNext index resolver environment).db := by
  unfold publishNext
  split
  · exact .idle
  · rename_i publication candidate hconsidered
    simp only [publishTo]
    split
    · split
      · exact .idle
      · exact .idle
    · rename_i definition _
      simp only [eventApply_db]
      rcases persistence_cases environment.persistence (materializeEvent environment.caps
        environment.surroundings ⟨candidate.trigger.id, publication.envelope, definition,
          publication.now⟩) system.db with hsame | ⟨outcome, db', hcommits, hdb'⟩
      · rw [hsame]
        exact .idle
      · rw [hdb']
        rcases commits_materializeEvent hcommits with rfl | ⟨trigger, result, hfresh, hrecords⟩
        · exact .idle
        · exact .published hconsidered rfl rfl hfresh hrecords

theorem step_effect (op : TriggerOp) : Effect policy system op (system.step policy op).db := by
  cases op with
  | engine op =>
    simp only [step, onEngine]
    split
    · exact .engine rfl rfl
    · exact .idle
  | create creation calendar => exact create_effect policy system creation calendar
  | createWebhook creation =>
    exact commit_effect policy system fun _ _ h => .provisioned (commits_createWebhookTrigger h)
  | prepareUpdate ownerUserId triggerId revision changes calendar now =>
    simp only [step, requestUpdate]
    split <;> exact .idle
  | commitUpdate request calendar =>
    simp only [step]
    split
    · rename_i hheld
      apply commit_effect
      intro value db h
      obtain ⟨current, schedule, hnamed, -, hedited, hamends⟩ := commits_updateTrigger h
      exact .updated hheld hnamed hedited hamends
    · exact .idle
  | prepareEnable ownerUserId triggerId calendar now =>
    simp only [step, requestEnable]
    split <;> exact .idle
  | commitEnable request =>
    simp only [step]
    split
    · rename_i hheld
      apply commit_effect
      intro value db h
      obtain ⟨current, hnamed, -, hunfinished, hamends⟩ := commits_setEnabled h
      exact .enabled hheld hnamed (hunfinished rfl) hamends
    · exact .idle
  | disable ownerUserId triggerId now =>
    apply commit_effect
    intro value db h
    obtain ⟨current, -, -, -, hamends⟩ := commits_setEnabled h
    exact .disabled hamends
  | delete ownerUserId triggerId =>
    exact commit_effect policy system fun _ _ h => .removed (commits_deleteTrigger h)
  | rotateSecret ownerUserId triggerId secret now =>
    apply commit_effect
    intro value db h
    obtain ⟨current, hkind, hamends⟩ := commits_rotateWebhookSecret h
    exact .rotated hkind hamends
  | beginTick now batch cursor => exact .idle
  | resolveNext index definitions calendar environment =>
    exact resolve_effect policy system index definitions calendar environment
  | locate delivery loads definitions =>
    simp only [step, TriggerSystem.locate]
    split <;> exact .idle
  | materialize index environment => exact materialize_effect policy system index environment
  | beginPublication envelope now => exact .idle
  | publishNext index resolver environment =>
    exact publish_effect policy system index resolver environment

end TriggerSystem

section Later

variable {db db' : TriggerDatabase}

structure TriggerDefinitionRecord.Precedes (before after : TriggerDefinitionRecord) : Prop where
  kind : after.kind = before.kind
  owner : after.ownerUserId = before.ownerUserId
  revision : before.configRevision ≤ after.configRevision
  defining : after.configRevision = before.configRevision → after.defining = before.defining

theorem TriggerDefinitionRecord.Precedes.refl (trigger : TriggerDefinitionRecord) :
    trigger.Precedes trigger :=
  ⟨rfl, rfl, Nat.le_refl _, fun _ => rfl⟩

theorem TriggerDefinitionRecord.Precedes.trans {a b c : TriggerDefinitionRecord}
    (h : a.Precedes b) (h' : b.Precedes c) : a.Precedes c := by
  constructor
  · rw [h'.kind, h.kind]
  · rw [h'.owner, h.owner]
  · exact Nat.le_trans h.revision h'.revision
  · intro hsame
    have hab := h.revision
    have hbc := h'.revision
    rw [h'.defining (by omega), h.defining (by omega)]

structure Later (db db' : TriggerDatabase) : Prop where
  next : db.1.own.triggerDefinitions.next ≤ db'.1.own.triggerDefinitions.next
  definition : ∀ id after, db'.1.own.triggerDefinitions.find id = some after →
    db.1.own.triggerDefinitions.next ≤ id ∨
      ∃ before, db.1.own.triggerDefinitions.find id = some before ∧ before.Precedes after
  occurrences : db.1.own.triggerOccurrences.rows <+: db'.1.own.triggerOccurrences.rows

theorem Later.of_own (h : db'.1.own = db.1.own) : Later db db' := by
  constructor
  · rw [h]
  · intro id after hafter
    rw [h] at hafter
    exact Or.inr ⟨after, hafter, .refl after⟩
  · rw [h]

theorem Later.refl (db : TriggerDatabase) : Later db db :=
  .of_own rfl

theorem Later.trans {a b c : TriggerDatabase} (h : Later a b) (h' : Later b c) : Later a c := by
  constructor
  · exact Nat.le_trans h.next h'.next
  · intro id after hafter
    rcases h'.definition id after hafter with hnew | ⟨middle, hmiddle, hlast⟩
    · exact Or.inl (Nat.le_trans h.next hnew)
    · exact (h.definition id middle hmiddle).imp_right fun ⟨before, hbefore, hfirst⟩ =>
        ⟨before, hbefore, hfirst.trans hlast⟩
  · exact h.occurrences.trans h'.occurrences

theorem Amends.later {before after : TriggerDefinitionRecord} (h : Amends before after db db')
    (hprecedes : before.Precedes after) : Later db db' := by
  constructor
  · rw [h.next]
  · intro id row hrow
    rw [h.definition] at hrow
    split at hrow
    · rename_i hid
      obtain rfl := Option.some.inj hrow
      rw [hid]
      exact Or.inr ⟨before, h.found, hprecedes⟩
    · exact Or.inr ⟨row, hrow, .refl row⟩
  · rw [h.occurrences]

variable {trigger : TriggerDefinitionRecord}

theorem Defines.later (h : Defines trigger db db') :
    Later db db' := by
  constructor
  · rw [h.next]
    omega
  · intro id row hrow
    rw [h.definition] at hrow
    split at hrow
    · rename_i hid
      left
      rw [hid, h.fresh]
    · exact Or.inr ⟨row, hrow, .refl row⟩
  · rw [h.occurrences]

theorem Removes.later {triggerId : Nat} (h : Removes triggerId db db') : Later db db' := by
  constructor
  · rw [h.next]
  · intro id row hrow
    exact Or.inr ⟨row, (h.definition id row hrow).2, .refl row⟩
  · rw [h.occurrences]

theorem Records.later {caps : PendingCaps} {facts : OccurrenceFacts} {result : OccurrenceResult}
    (h : Records caps trigger facts result db db') : Later db db' := by
  constructor
  · rw [h.definitions]
  · intro id row hrow
    rw [h.definitions] at hrow
    exact Or.inr ⟨row, hrow, .refl row⟩
  · rw [h.occurrences]
    exact List.prefix_append _ _

theorem TriggerEdit.precedes (edit : TriggerEdit) (schedule : Option ScheduleSpec) (now : Instant)
    (current : TriggerDefinitionRecord) : current.Precedes (edit.apply schedule now current) := by
  rcases edit.apply_cases schedule now current with ⟨hsame, h⟩ | h
  · rw [h]
    exact ⟨rfl, rfl, Nat.le_refl _, fun _ => hsame⟩
  · rw [h]
    refine ⟨rfl, rfl, Nat.le_succ _, fun hrevision => ?_⟩
    exact absurd hrevision (Nat.succ_ne_self _)

theorem TriggerDefinitionRecord.Precedes.toggled (enabled : Bool) (now : Instant)
    (nextFireAt : Option Instant) (row : TriggerDefinitionRecord) :
    row.Precedes (row.toggled enabled now nextFireAt) :=
  ⟨rfl, rfl, Nat.le_refl _, fun _ => rfl⟩

theorem TriggerDefinitionRecord.Precedes.advanced (next : Option Instant) (now : Instant)
    (row : TriggerDefinitionRecord) : row.Precedes (row.advanced next now) := by
  cases next with
  | none | some => exact ⟨rfl, rfl, Nat.le_refl _, fun _ => rfl⟩

theorem TriggerSystem.Effect.later {policy : QueuePolicy} {system : TriggerSystem} {op : TriggerOp}
    (h : TriggerSystem.Effect policy system op db) : Later system.db db := by
  cases h with
  | idle => exact .refl _
  | engine own core => exact .of_own own
  | created computed defines | provisioned defines => exact defines.later
  | updated held named edited amends => exact amends.later (TriggerEdit.precedes _ _ _ _)
  | enabled held named unfinished amends | disabled amends => exact amends.later (.toggled _ _ _ _)
  | removed removes => exact removes.later
  | rotated kind amends => exact amends.later ⟨rfl, rfl, Nat.le_refl _, fun _ => rfl⟩
  | scheduled considered decided fresh records amends =>
    exact records.later.trans (amends.later (.advanced _ _ _))
  | delivered held fresh records | published considered named enveloped fresh records =>
    exact records.later

end Later

section Frame

/-- What an operation leaves in the hands of the processes: what they held before, and
what this operation read. -/
structure TriggerSystem.Frame (system : TriggerSystem) (op : TriggerOp) (system' : TriggerSystem) :
    Prop where
  issued : (∀ engineOp, op ≠ .engine engineOp) → system'.issued = system.issued
  updates : ∀ request ∈ system'.updates, request ∈ system.updates ∨
    ∃ ownerUserId triggerId revision changes calendar now,
      op = .prepareUpdate ownerUserId triggerId revision changes calendar now ∧
        prepareUpdate calendar system.db.1 ownerUserId triggerId revision changes now =
          .ok request
  enables : ∀ request ∈ system'.enables, request ∈ system.enables ∨
    ∃ ownerUserId triggerId calendar now,
      op = .prepareEnable ownerUserId triggerId calendar now ∧
        prepareEnable calendar system.db.1 ownerUserId triggerId now = .ok request
  ticks : ∀ tick ∈ system'.ticks, tick ∈ system.ticks ∨
    (∃ batch cursor, tick.sweep =
      ⟨dueScheduleCandidates system.db.1 tick.now batch cursor, [], .running⟩) ∨
    ∃ index definitions calendar environment old candidate,
      op = .resolveNext index definitions calendar environment ∧
        system.tickAt index = some (old, candidate) ∧
        tick = old.record (resolve definitions calendar environment candidate old.now system.db).1
  deliveries : ∀ command ∈ system'.deliveries, command ∈ system.deliveries ∨
    ∃ delivery loads definitions, op = .locate delivery loads definitions ∧
      NervOS.locate loads definitions delivery system.db.1 = .ok command
  publications : ∀ publication ∈ system'.publications, publication ∈ system.publications ∨
    (∃ envelope now, discover system.db.1 envelope now = some publication) ∨
    ∃ index resolver environment old candidate,
      op = .publishNext index resolver environment ∧
        system.publicationAt index = some (old, candidate) ∧
        publication = old.record (publishTo resolver environment old candidate system.db).1

variable {system system' : TriggerSystem} {op : TriggerOp}

theorem TriggerSystem.Frame.of_db (hissued : system'.issued = system.issued)
    (hupdates : system'.updates = system.updates) (henables : system'.enables = system.enables)
    (hticks : system'.ticks = system.ticks) (hdeliveries : system'.deliveries = system.deliveries)
    (hpublications : system'.publications = system.publications) :
    TriggerSystem.Frame system op system' where
  issued _ := hissued
  updates _ hmem := Or.inl (hupdates ▸ hmem)
  enables _ hmem := Or.inl (henables ▸ hmem)
  ticks _ hmem := Or.inl (hticks ▸ hmem)
  deliveries _ hmem := Or.inl (hdeliveries ▸ hmem)
  publications _ hmem := Or.inl (hpublications ▸ hmem)

theorem TriggerSystem.Frame.refl (system : TriggerSystem) (op : TriggerOp) :
    TriggerSystem.Frame system op system :=
  .of_db rfl rfl rfl rfl rfl rfl

theorem TriggerSystem.step_frame (policy : QueuePolicy) (system : TriggerSystem) (op : TriggerOp) :
    TriggerSystem.Frame system op (system.step policy op) := by
  cases op with
  | engine op =>
    simp only [step, onEngine]
    split
    · refine { Frame.refl system (.engine op) with issued := fun hop => absurd rfl (hop op) }
    · exact .refl _ _
  | create creation calendar =>
    simp only [step, create]
    split
    · exact .of_db rfl rfl rfl rfl rfl rfl
    · exact .refl _ _
  | createWebhook creation => exact .of_db rfl rfl rfl rfl rfl rfl
  | prepareUpdate ownerUserId triggerId revision changes calendar now =>
    simp only [step, requestUpdate]
    split
    · rename_i request hrequest
      refine { Frame.refl system _ with updates := fun other hmem => ?_ }
      rcases List.mem_append.mp hmem with hold | hnew
      · exact Or.inl hold
      · obtain rfl := List.mem_singleton.mp hnew
        exact Or.inr ⟨_, _, _, _, _, _, rfl, hrequest⟩
    · exact .refl _ _
  | commitUpdate request calendar =>
    simp only [step]
    split
    · exact .of_db rfl rfl rfl rfl rfl rfl
    · exact .refl _ _
  | prepareEnable ownerUserId triggerId calendar now =>
    simp only [step, requestEnable]
    split
    · rename_i request hrequest
      refine { Frame.refl system _ with enables := fun other hmem => ?_ }
      rcases List.mem_append.mp hmem with hold | hnew
      · exact Or.inl hold
      · obtain rfl := List.mem_singleton.mp hnew
        exact Or.inr ⟨_, _, _, _, rfl, hrequest⟩
    · exact .refl _ _
  | commitEnable request =>
    simp only [step]
    split
    · exact .of_db rfl rfl rfl rfl rfl rfl
    · exact .refl _ _
  | disable | delete | rotateSecret => exact .of_db rfl rfl rfl rfl rfl rfl
  | beginTick now batch cursor =>
    refine { Frame.refl system _ with ticks := fun tick hmem => ?_ }
    rcases List.mem_append.mp hmem with hold | hnew
    · exact Or.inl hold
    · obtain rfl := List.mem_singleton.mp hnew
      exact Or.inr (Or.inl ⟨batch, cursor, rfl⟩)
  | resolveNext index definitions calendar environment =>
    simp only [step, resolveNext]
    split
    · exact .refl _ _
    · rename_i old candidate hconsidered
      refine { Frame.refl system _ with ticks := fun tick hmem => ?_ }
      rcases List.mem_or_eq_of_mem_set hmem with hold | rfl
      · exact Or.inl hold
      · exact Or.inr (Or.inr ⟨_, _, _, _, _, _, rfl, hconsidered, rfl⟩)
  | locate delivery loads definitions =>
    simp only [step, TriggerSystem.locate]
    split
    · rename_i command hcommand
      refine { Frame.refl system _ with deliveries := fun other hmem => ?_ }
      rcases List.mem_append.mp hmem with hold | hnew
      · exact Or.inl hold
      · obtain rfl := List.mem_singleton.mp hnew
        exact Or.inr ⟨_, _, _, rfl, hcommand⟩
    · exact .refl _ _
  | materialize index environment =>
    simp only [step, materialize]
    split
    · exact .refl _ _
    · exact .of_db rfl rfl rfl rfl rfl rfl
  | beginPublication envelope now =>
    refine { Frame.refl system _ with publications := fun publication hmem => ?_ }
    rcases List.mem_append.mp hmem with hold | hnew
    · exact Or.inl hold
    · exact Or.inr (Or.inl ⟨envelope, now, Option.mem_toList.mp hnew⟩)
  | publishNext index resolver environment =>
    simp only [step, publishNext]
    split
    · exact .refl _ _
    · rename_i old candidate hconsidered
      refine { Frame.refl system _ with publications := fun publication hmem => ?_ }
      rcases List.mem_or_eq_of_mem_set hmem with hold | rfl
      · exact Or.inl hold
      · exact Or.inr (Or.inr ⟨_, _, _, _, _, rfl, hconsidered, rfl⟩)

end Frame

variable {db db' : TriggerDatabase} {policy : QueuePolicy} {system : TriggerSystem}

/-- The execution engine stands still, or it takes one submission. -/
def Submits (db db' : TriggerDatabase) : Prop :=
  db'.core = db.core ∨ ∃ submission runId,
    (insertRunAndJobOnConnection submission).Commits db.core runId db'.core

theorem core_eq (h : db'.1.core = db.1.core) : db'.core = db.core :=
  Subtype.ext h

theorem Submits.of_core (h : db'.1.core = db.1.core) : Submits db db' :=
  Or.inl (core_eq h)

variable {result : OccurrenceResult}

theorem SubmittedRun.submits {caps : PendingCaps} (h : SubmittedRun caps db result db') :
    Submits db db' := by
  cases h with
  | skipped reason => exact Or.inl rfl
  | created under inserted own => exact Or.inr ⟨_, _, inserted⟩

theorem Records.submits {caps : PendingCaps} {trigger : TriggerDefinitionRecord}
    {facts : OccurrenceFacts} (h : Records caps trigger facts result db db') : Submits db db' := by
  obtain ⟨db₁, hsubmitted, _, -, hdb'⟩ := h.submitted
  have hcore : db'.core = db₁.core := by
    apply Subtype.ext
    change db'.1.core = db₁.1.core
    rw [hdb']
    rfl
  unfold Submits
  rw [hcore]
  exact hsubmitted.submits

theorem TriggerSystem.Effect.submits {op : TriggerOp}
    (h : TriggerSystem.Effect policy system op db) (hop : ∀ engineOp, op ≠ .engine engineOp) :
    Submits system.db db := by
  cases h with
  | idle => exact Or.inl rfl
  | engine own core => exact absurd rfl (hop _)
  | created computed defines | provisioned defines => exact .of_core defines.core
  | updated held named edited amends | enabled held named unfinished amends | disabled amends =>
    exact .of_core amends.core
  | removed removes => exact .of_core removes.core
  | rotated kind amends => exact .of_core amends.core
  | scheduled considered decided fresh records amends =>
    have hsubmits := records.submits
    unfold Submits at hsubmits ⊢
    rwa [core_eq amends.core]
  | delivered held fresh records | published considered named enveloped fresh records =>
    exact records.submits

theorem TriggerSystem.step_issued {op : TriggerOp} (hop : ∀ engineOp, op ≠ .engine engineOp) :
    (system.step policy op).issued = system.issued :=
  (step_frame policy system op).issued hop

theorem TriggerSystem.step_core (policy : QueuePolicy) (system : TriggerSystem) (op : TriggerOp) :
    (system.step policy op).core = system.core ∨
      ∃ engineOp, (system.step policy op).core = System.exec policy engineOp system.core := by
  by_cases hop : ∀ engineOp, op ≠ .engine engineOp
  · have hissued : (system.step policy op).issued = system.issued := step_issued hop
    rcases (step_effect policy system op).submits hop with hsame | ⟨submission, runId, hinserted⟩
    · left
      rw [core, hissued, hsame]
      rfl
    · right
      refine ⟨.insertRunAndJob submission, ?_⟩
      rw [core, hissued]
      simp only [System.exec, NervOS.commit]
      rw [show system.core.db = system.db.core from rfl, Tx.run_of_commits hinserted]
      rfl
  · push Not at hop
    obtain ⟨engineOp, rfl⟩ := hop
    simp only [step, onEngine]
    split
    · exact Or.inr ⟨engineOp, rfl⟩
    · exact Or.inl rfl

theorem TriggerSystem.exec_sound (hsound : system.core.Sound) (op : TriggerOp) :
    ((triggerEngine policy).exec op system).core.Sound := by
  change (system.step policy op).core.Sound
  rcases step_core policy system op with hsame | ⟨engineOp, hexec⟩
  · rwa [hsame]
  · rw [hexec]
    exact NervOS.exec_sound policy hsound engineOp

theorem triggers_sound (h : (triggerEngine policy).Reachable system) : system.core.Sound := by
  apply h.invariant (I := fun system => system.core.Sound)
  · exact @init_sound policy
  · exact fun system op hsound => TriggerSystem.exec_sound hsound op

end NervOS
