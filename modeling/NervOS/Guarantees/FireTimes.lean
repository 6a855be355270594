/-
A stored fire time belongs to the stored schedule.  The log of computed instants says
which schedule each instant was computed from.
-/
import NervOS.Guarantees.ScheduledOnce

namespace NervOS

open Relational

def FireTimesBelong (system : TriggerSystem) : Prop :=
  ∀ trigger ∈ system.db.1.own.triggerDefinitions.rows, trigger.kind.IsSchedule →
    (trigger.enabled = true ↔ trigger.nextFireAt.isSome) ∧
      ∀ next ∈ trigger.nextFireAt, ∃ schedule ∈ trigger.spec, (schedule, next) ∈ system.computed

instance (system : TriggerSystem) : Decidable (FireTimesBelong system) :=
  inferInstanceAs (Decidable (∀ trigger ∈ system.db.1.own.triggerDefinitions.rows,
    trigger.kind.IsSchedule → (_ ↔ _) ∧ ∀ next ∈ trigger.nextFireAt,
      ∃ schedule ∈ trigger.spec, (schedule, next) ∈ system.computed))

/-- The clock reading of an owner's request. -/
def TriggerOp.requestedAt : TriggerOp → Option Instant
  | .commitUpdate request _ => some request.now
  | .commitEnable request => some request.now
  | .disable _ _ now => some now
  | _ => none

def KeepsDueOccurrences (before : TriggerDatabase) (op : TriggerOp) (after : TriggerDatabase) :
    Prop :=
  ∀ now ∈ op.requestedAt, ∀ id trigger trigger',
    before.1.own.triggerDefinitions.find id = some trigger →
    after.1.own.triggerDefinitions.find id = some trigger' →
    trigger.enabled = true → trigger'.enabled = true →
    ∀ due ∈ trigger.nextFireAt, due ≤ now → trigger'.nextFireAt = some due

/-- A request's instant does not replace another one that is already due. -/
def TriggerDefinitionRecord.Honours (trigger : TriggerDefinitionRecord) (next : Option Instant)
    (now : Instant) : Prop :=
  trigger.enabled = true → ∀ due ∈ trigger.nextFireAt, due ≤ now → next = some due

instance (trigger : TriggerDefinitionRecord) (next : Option Instant) (now : Instant) :
    Decidable (trigger.Honours next now) :=
  inferInstanceAs (Decidable (_ → ∀ due ∈ trigger.nextFireAt, _ → _))

def Finished (db : TriggerDatabase) (trigger : TriggerDefinitionRecord) : Prop :=
  trigger.kind = .oneTime ∧ db.1.HasOccurrence trigger.id

instance (db : TriggerDatabase) (trigger : TriggerDefinitionRecord) :
    Decidable (Finished db trigger) :=
  inferInstanceAs (Decidable (_ ∧ _))

def TriggerOp.TimesAreCurrent (system : TriggerSystem) : TriggerOp → Prop
  | .commitEnable request =>
    ∀ trigger ∈ system.db.1.own.triggerDefinitions.find request.triggerId,
      ¬ Finished system.db trigger →
        trigger.spec = request.schedule ∧ trigger.Honours request.nextFireAt request.now
  | .commitUpdate request _ =>
    ∀ trigger ∈ system.db.1.own.triggerDefinitions.find request.triggerId,
      ¬ Finished system.db trigger → trigger.configRevision = request.expectedConfigRevision →
        request.edit.schedule ≠ none → trigger.Honours request.edit.nextFireAt request.now
  | _ => True

section Requests

structure RequestsLogged (system : TriggerSystem) : Prop where
  updates : ∀ request ∈ system.updates, ∀ next ∈ request.edit.nextFireAt,
    ∃ schedule ∈ request.edit.schedule, (schedule, next) ∈ system.computed
  enables : ∀ request ∈ system.enables, ∀ next ∈ request.nextFireAt,
    ∃ schedule ∈ request.schedule, (schedule, next) ∈ system.computed

variable {policy : QueuePolicy} {system : TriggerSystem} {op : TriggerOp}
  {schedule : Option ScheduleSpec}

theorem mem_logged {next : Option Instant} {entry : ScheduleSpec × Instant} :
    entry ∈ logged schedule next ↔ schedule = some entry.1 ∧ next = some entry.2 := by
  cases schedule with
  | none => simp [logged]
  | some schedule =>
    cases next with
    | none => simp [logged]
    | some next => simp [logged, Prod.ext_iff, eq_comm]

variable {calendar : Calendar} {now : Instant}

theorem initialNextFireFor_schedule {enabled : Bool} {next : Option Instant} {instant : Instant}
    (h : initialNextFireFor calendar schedule enabled now = .ok next) (hnext : next = some instant)
    :
    ∃ computed, schedule = some computed ∧ enabled = true := by
  subst hnext
  cases schedule with
  | none => cases h
  | some schedule =>
    refine ⟨schedule, rfl, ?_⟩
    by_contra hdisabled
    rw [initialNextFireFor, if_neg hdisabled] at h
    cases h

theorem prepareUpdate_eq_ok {store : TriggerStore} {ownerUserId triggerId revision : Nat}
    {changes : TriggerChanges} {request : UpdateRequest}
    (h : prepareUpdate calendar store ownerUserId triggerId revision changes now = .ok request) :
    ∃ enabled, request.edit.schedule = changes.schedule ∧
      initialNextFireFor calendar changes.schedule enabled now = .ok request.edit.nextFireAt := by
  simp only [prepareUpdate, bind_eq_ok, mapError_eq_ok, pure_eq_ok] at h
  obtain ⟨current, -, next, hnext, rfl⟩ := h
  exact ⟨current.enabled, rfl, hnext⟩

theorem prepareEnable_eq_ok {store : TriggerStore} {ownerUserId triggerId : Nat}
    {request : EnableRequest}
    (h : prepareEnable calendar store ownerUserId triggerId now = .ok request) :
    initialNextFireFor calendar request.schedule true now = .ok request.nextFireAt := by
  simp only [prepareEnable, enableNextFire, bind_eq_ok, mapError_eq_ok, pure_eq_ok] at h
  obtain ⟨current, -, _, ⟨schedule, -, next, hnext, rfl⟩, rfl⟩ := h
  exact hnext

theorem exec_computed (op : TriggerOp) (system : TriggerSystem) :
    ((triggerEngine policy).exec op system).computed = system.computed ++ op.computes system :=
  rfl

theorem exec_requestsLogged (h : RequestsLogged system) (op : TriggerOp) :
    RequestsLogged ((triggerEngine policy).exec op system) := by
  have hframe := TriggerSystem.step_frame policy system op
  constructor
  · intro request hrequest next hnext
    rw [exec_computed]
    rcases hframe.updates request hrequest with hold |
      ⟨ownerUserId, triggerId, revision, changes, calendar, now, rfl, hprepared⟩
    · obtain ⟨schedule, hschedule, hlogged⟩ := h.updates request hold next hnext
      exact ⟨schedule, hschedule, List.mem_append_left _ hlogged⟩
    · obtain ⟨enabled, hsame, hcomputed⟩ := prepareUpdate_eq_ok hprepared
      obtain ⟨schedule, hschedule, -⟩ := initialNextFireFor_schedule hcomputed hnext
      refine ⟨schedule, hsame.trans hschedule, List.mem_append_right _ ?_⟩
      simp only [TriggerOp.computes, hprepared]
      exact mem_logged.mpr ⟨hsame.trans hschedule, hnext⟩
  · intro request hrequest next hnext
    rw [exec_computed]
    rcases hframe.enables request hrequest with hold |
      ⟨ownerUserId, triggerId, calendar, now, rfl, hprepared⟩
    · obtain ⟨schedule, hschedule, hlogged⟩ := h.enables request hold next hnext
      exact ⟨schedule, hschedule, List.mem_append_left _ hlogged⟩
    · obtain ⟨schedule, hschedule, -⟩ :=
        initialNextFireFor_schedule (prepareEnable_eq_ok hprepared) hnext
      refine ⟨schedule, hschedule, List.mem_append_right _ ?_⟩
      simp only [TriggerOp.computes, hprepared]
      exact mem_logged.mpr ⟨hschedule, hnext⟩

end Requests

section Specs

variable {trigger : TriggerDefinitionRecord} {schedule : Option ScheduleSpec}

theorem spec_of_columns (hcheck : trigger.Check) (hkind : trigger.kind.IsSchedule)
    (hrunAt : trigger.runAt = schedule.bind (·.runAt))
    (hinterval : trigger.intervalSeconds = schedule.bind (·.intervalSeconds))
    (hcron : trigger.cronExpression = schedule.bind (·.cronExpression))
    (htimezone : trigger.timezone = schedule.bind (·.timezone)) : trigger.spec = schedule := by
  have hshape := hcheck.kindShape
  unfold TriggerDefinitionRecord.spec
  cases schedule with
  | none =>
    cases hk : trigger.kind <;>
      simp_all [TriggerDefinitionRecord.shape, TriggerKind.shape, TriggerKind.IsSchedule]
  | some schedule =>
    cases schedule <;> cases hk : trigger.kind <;>
      simp_all [TriggerDefinitionRecord.shape, TriggerKind.shape, TriggerKind.IsSchedule,
        ScheduleSpec.runAt, ScheduleSpec.intervalSeconds, ScheduleSpec.cronExpression,
        ScheduleSpec.timezone]

theorem TriggerDefinitionRecord.Precedes.spec {before after : TriggerDefinitionRecord}
    (h : before.Precedes after) (hrevision : after.configRevision = before.configRevision) :
    after.spec = before.spec := by
  have hdefining := h.defining hrevision
  simp only [TriggerDefinitionRecord.defining, DefiningFields.mk.injEq] at hdefining
  obtain ⟨-, hrunAt, hinterval, hcron, htimezone, -⟩ := hdefining
  simp only [TriggerDefinitionRecord.spec, h.kind, hrunAt, hinterval, hcron, htimezone]

theorem scheduleOf_eq_ok {calendar : Calendar} (h : scheduleOf calendar trigger = .ok schedule) :
    schedule = trigger.spec := by
  unfold scheduleOf at h
  split at h
  · rename_i expression timezone hspec
    rw [hspec]
    cases hzone : zoneFor calendar timezone.1 with
    | error error =>
      rw [hzone] at h
      cases h
    | ok zone =>
      rw [hzone] at h
      exact (Except.ok.inj h).symm
  · exact (Except.ok.inj h).symm

theorem evaluate_schedule {calendar : Calendar} {candidate : DueScheduleCandidate} {now : Instant}
    {decision : ScheduleDecision} (h : evaluate calendar candidate now = .ok (some decision)) :
    ∃ schedule, candidate.row.trigger.spec = some schedule := by
  unfold evaluate at h
  obtain ⟨schedule, hschedule, h⟩ := bind_eq_ok.mp h
  rw [← scheduleOf_eq_ok hschedule]
  cases schedule with
  | none => cases h
  | some schedule => exact ⟨schedule, rfl⟩

end Specs

section Timed

variable {policy : QueuePolicy} {system : TriggerSystem} {db db' : TriggerDatabase}
  {log log' : List (ScheduleSpec × Instant)} {trigger : TriggerDefinitionRecord}

def TriggerDefinitionRecord.TimedBy (log : List (ScheduleSpec × Instant))
    (trigger : TriggerDefinitionRecord) : Prop :=
  ∀ next ∈ trigger.nextFireAt, ∃ schedule ∈ trigger.spec, (schedule, next) ∈ log

def Timed (log : List (ScheduleSpec × Instant)) (db : TriggerDatabase) : Prop :=
  ∀ id trigger, db.1.own.triggerDefinitions.find id = some trigger → trigger.TimedBy log

theorem TriggerDefinitionRecord.TimedBy.mono (h : trigger.TimedBy log) (hlog : log ⊆ log') :
    trigger.TimedBy log' := by
  intro next hnext
  obtain ⟨schedule, hschedule, hlogged⟩ := h next hnext
  exact ⟨schedule, hschedule, hlog hlogged⟩

theorem Timed.mono (h : Timed log db) (hlog : log ⊆ log') : Timed log' db :=
  fun id trigger htrigger => (h id trigger htrigger).mono hlog

theorem Timed.congr (h : Timed log db)
    (hsame : db'.1.own.triggerDefinitions = db.1.own.triggerDefinitions) : Timed log db' := by
  intro id trigger htrigger
  rw [hsame] at htrigger
  exact h id trigger htrigger

variable {before after : TriggerDefinitionRecord}

theorem Timed.amends (h : Timed log db) (hamends : Amends before after db db')
    (hafter : after.TimedBy log) : Timed log db' := by
  intro id trigger htrigger
  rw [hamends.definition] at htrigger
  split at htrigger
  · obtain rfl := Option.some.inj htrigger
    exact hafter
  · exact h id trigger htrigger

theorem Timed.defines (h : Timed log db) (hdefines : Defines trigger db db')
    (htrigger : trigger.TimedBy log) : Timed log db' := by
  intro id row hrow
  rw [hdefines.definition] at hrow
  split at hrow
  · obtain rfl := Option.some.inj hrow
    exact htrigger
  · exact h id row hrow

theorem Timed.removes {triggerId : Nat} (h : Timed log db) (hremoves : Removes triggerId db db') :
    Timed log db' :=
  fun id row hrow => h id row (hremoves.definition id row hrow).2

theorem timedBy_of_none (hnext : trigger.nextFireAt = none) : trigger.TimedBy log := by
  intro next hmem
  rw [hnext] at hmem
  cases hmem

theorem schedule_of_next {next : Instant} (hcheck : trigger.Check)
    (hnext : trigger.nextFireAt = some next) :
    trigger.kind.IsSchedule ∧ trigger.enabled = true := by
  apply hcheck.nextFireAlignment.mp
  rw [hnext]
  rfl

theorem checked_amended (hamends : Amends before after db db') : after.Check := by
  have hfind : db'.1.own.triggerDefinitions.find before.id = some after := by
    rw [hamends.definition, if_pos rfl]
  exact db'.1.own.triggerDefinitions.lawful.checked _ (Table.find_eq_some.mp hfind).1

theorem checked_defined (hdefines : Defines trigger db db') : trigger.Check := by
  have hfind : db'.1.own.triggerDefinitions.find trigger.id = some trigger := by
    rw [hdefines.definition, if_pos rfl]
  exact db'.1.own.triggerDefinitions.lawful.checked _ (Table.find_eq_some.mp hfind).1

variable {calendar : Calendar}

theorem created_timed {creation : TriggerCreation} {next : Option Instant} {id : Nat}
    (hcomputed : initialNextFireFor calendar creation.schedule creation.enabled creation.now =
      .ok next)
    (hcheck : ((creation.draft next).candidate creation.ownerUserId creation.now id).Check) :
    ((creation.draft next).candidate creation.ownerUserId creation.now id).TimedBy
      (logged creation.schedule next) := by
  intro instant hinstant
  obtain ⟨hkind, -⟩ := schedule_of_next hcheck hinstant
  obtain ⟨schedule, hschedule, -⟩ := initialNextFireFor_schedule hcomputed hinstant
  have hspec : _ = creation.schedule := spec_of_columns hcheck hkind rfl rfl rfl rfl
  exact ⟨schedule, hspec.trans hschedule, mem_logged.mpr ⟨hschedule, hinstant⟩⟩

theorem updated_timed {edit : TriggerEdit} {now : Instant} {revision : Option Nat}
    {schedule : Option ScheduleSpec} {current : TriggerDefinitionRecord}
    (hedited : Edited calendar edit now revision schedule current db)
    (hamends : Amends current (edit.apply schedule now current) db db')
    (hcurrent : current.TimedBy log)
    (hrequest : ∀ next ∈ edit.nextFireAt, ∃ computed ∈ edit.schedule, (computed, next) ∈ log) :
    (edit.apply schedule now current).TimedBy log := by
  have hcheck := checked_amended hamends
  have hrow : (edit.apply schedule now current).nextFireAt = edit.nextFireAt.or current.nextFireAt ∧
      (edit.apply schedule now current).spec = (edit.candidate schedule now current).spec := by
    rcases edit.apply_cases schedule now current with ⟨-, h⟩ | h
    · rw [h]
      exact ⟨rfl, rfl⟩
    · rw [h]
      exact ⟨rfl, rfl⟩
  intro next hnext
  obtain ⟨hkind, henabled⟩ := schedule_of_next hcheck hnext
  rw [TriggerEdit.apply_enabled] at henabled
  have hkind' : (edit.candidate schedule now current).kind.IsSchedule := by
    rcases edit.apply_cases schedule now current with ⟨-, h⟩ | h
    · rwa [h] at hkind
    · rwa [h] at hkind
  have hspec : (edit.candidate schedule now current).spec = schedule :=
    spec_of_columns hedited.valid hkind' rfl rfl rfl rfl
  rw [hrow.2, hspec]
  rw [Option.mem_def, hrow.1] at hnext
  have hscheduled := hedited.scheduled
  cases hrestated : edit.schedule with
  | some restated =>
    rw [TriggerEdit.scheduleFor, hrestated] at hscheduled
    obtain rfl := Except.ok.inj hscheduled
    cases hinstant : edit.nextFireAt with
    | none =>
      exact absurd ⟨by rw [hrestated]; exact Option.some_ne_none _, hinstant, henabled⟩
        hedited.timed
    | some instant =>
      rw [hinstant] at hnext
      obtain rfl := Option.some.inj hnext
      obtain ⟨computed, hcomputed, hlogged⟩ := hrequest instant hinstant
      rw [hrestated] at hcomputed
      exact ⟨computed, hcomputed, hlogged⟩
  | none =>
    rw [TriggerEdit.scheduleFor, hrestated] at hscheduled
    have hkept := scheduleOf_eq_ok (mapError_eq_ok.mp hscheduled)
    cases hinstant : edit.nextFireAt with
    | none =>
      rw [hinstant, Option.none_or] at hnext
      rw [hkept]
      exact hcurrent next hnext
    | some instant =>
      obtain ⟨computed, hcomputed, -⟩ := hrequest instant hinstant
      rw [hrestated] at hcomputed
      cases hcomputed

theorem advanced_timed {candidate : DueScheduleCandidate} {now : Instant}
    {definition : ResolvedAgentDefinition} {command : ScheduleMaterializationCommand}
    (hseen : Seen db now candidate)
    (hdecided : commandFor calendar candidate definition now = .ok (some command))
    (hfresh : Fresh command trigger db)
    (hlog : ∀ decision, evaluate calendar candidate now = .ok (some decision) →
      logged candidate.row.trigger.spec decision.nextFireAt ⊆ log) :
    (trigger.advanced command.nextFireAtAfter command.now).TimedBy log := by
  obtain ⟨hcommands, hdecides⟩ := commandFor_eq_ok hdecided
  have hprecedes := hseen.precedes_of_fresh hcommands hfresh
  have hspec : trigger.spec = candidate.row.trigger.spec := by
    apply hprecedes.spec
    rw [hfresh.revision, hcommands.revision, hseen.revision]
  cases hdecides with
  | failed failure evaluation nominalAt next terminalSkip =>
    rw [next]
    exact timedBy_of_none rfl
  | evaluated decision evaluation nominalAt next terminalSkip =>
    rw [next]
    intro instant hinstant
    have hnext : decision.nextFireAt = some instant := by
      cases hdecision : decision.nextFireAt with
      | none =>
        rw [hdecision] at hinstant
        cases hinstant
      | some following =>
        rw [hdecision] at hinstant
        exact hinstant
    have hsame : (trigger.advanced decision.nextFireAt command.now).spec = trigger.spec := by
      rw [hnext]
      rfl
    obtain ⟨schedule, hschedule⟩ := evaluate_schedule evaluation
    refine ⟨schedule, ?_, hlog decision evaluation (mem_logged.mpr ⟨hschedule, hnext⟩)⟩
    rw [hsame, hspec]
    exact hschedule

theorem exec_timed (hlogged : RequestsLogged system) (hseen : SeenTicks system)
    (h : Timed system.computed system.db) {op : TriggerOp} (hop : op.TimesAreCurrent system) :
    Timed ((triggerEngine policy).exec op system).computed
      ((triggerEngine policy).exec op system).db := by
  rw [exec_computed]
  change Timed _ (system.step policy op).db
  have hkept : Timed (system.computed ++ op.computes system) system.db :=
    h.mono (List.subset_append_left _ _)
  have heffect := TriggerSystem.step_effect policy system op
  generalize (system.step policy op).db = db' at heffect ⊢
  cases heffect with
  | idle => exact hkept
  | engine own core => exact hkept.congr (by rw [own])
  | created computed defines =>
    apply hkept.defines defines
    have htimed := created_timed computed (checked_defined defines)
    apply htimed.mono
    simp only [TriggerOp.computes, computed]
    exact List.subset_append_right _ _
  | provisioned defines => exact hkept.defines defines (timedBy_of_none rfl)
  | updated held named edited amends =>
    apply hkept.amends amends
    apply updated_timed edited amends (hkept _ _ amends.found)
    intro next hnext
    obtain ⟨schedule, hschedule, hmem⟩ := hlogged.updates _ held next hnext
    exact ⟨schedule, hschedule, List.mem_append_left _ hmem⟩
  | @enabled request current _ held named unfinished amends =>
    apply hkept.amends amends
    intro next hnext
    obtain ⟨hspec, -⟩ := hop current (named ▸ amends.found) unfinished
    obtain ⟨schedule, hschedule, hmem⟩ := hlogged.enables _ held next hnext
    exact ⟨schedule, hspec.trans hschedule, List.mem_append_left _ hmem⟩
  | disabled amends => exact hkept.amends amends (timedBy_of_none rfl)
  | removed removes => exact hkept.removes removes
  | @rotated ownerUserId triggerId secret now current _ kind amends =>
    apply hkept.amends amends
    exact hkept current.id current amends.found
  | @scheduled index definitions calendar environment tick candidate definition command trigger
      result middle _ considered decided fresh records amends =>
      have hmiddle := hkept.congr records.definitions
      apply hmiddle.amends amends
      apply advanced_timed (hseen.at considered) decided fresh
      intro decision hdecision
      simp only [TriggerOp.computes, considered, hdecision]
      exact List.subset_append_right _ _
  | delivered held fresh records | published considered named enveloped fresh records =>
    exact hkept.congr records.definitions

end Timed

section Due

variable {policy : QueuePolicy} {system : TriggerSystem} {db db' : TriggerDatabase}
  {before after trigger trigger' : TriggerDefinitionRecord} {id : Nat}

theorem Amends.row (hamends : Amends before after db db')
    (htrigger : db.1.own.triggerDefinitions.find id = some trigger)
    (htrigger' : db'.1.own.triggerDefinitions.find id = some trigger') :
    (id = before.id ∧ trigger = before ∧ trigger' = after) ∨ trigger' = trigger := by
  rw [hamends.definition] at htrigger'
  split at htrigger'
  · rename_i hid
    rw [hid, hamends.found] at htrigger
    exact Or.inl ⟨hid, (Option.some.inj htrigger).symm, (Option.some.inj htrigger').symm⟩
  · exact Or.inr (Option.some.inj (htrigger'.symm.trans htrigger))

theorem TriggerEdit.apply_nextFireAt (edit : TriggerEdit) (schedule : Option ScheduleSpec)
    (now : Instant) (current : TriggerDefinitionRecord) :
    (edit.apply schedule now current).nextFireAt = edit.nextFireAt.or current.nextFireAt := by
  rcases edit.apply_cases schedule now current with ⟨-, h⟩ | h
  · rw [h]
    rfl
  · rw [h]
    rfl

theorem exec_keepsDue (hlogged : RequestsLogged system) {op : TriggerOp}
    (hop : op.TimesAreCurrent system) :
    KeepsDueOccurrences system.db op (system.step policy op).db := by
  have heffect := TriggerSystem.step_effect policy system op
  generalize (system.step policy op).db = db' at heffect ⊢
  intro now hnow id trigger trigger' htrigger htrigger' henabled henabled' due hdue hpast
  cases heffect with
  | idle =>
    obtain rfl := Option.some.inj (htrigger.symm.trans htrigger')
    exact hdue
  | @updated request calendar current schedule _ held named edited amends =>
    obtain rfl := Option.some.inj hnow
    rcases amends.row htrigger htrigger' with ⟨rfl, rfl, rfl⟩ | rfl
    · rw [TriggerEdit.apply_nextFireAt]
      by_cases hrestated : request.edit.schedule = none
      · have hnone : request.edit.nextFireAt = none := by
          by_contra hsome
          obtain ⟨next, hnext⟩ := Option.ne_none_iff_exists'.mp hsome
          obtain ⟨computed, hcomputed, -⟩ := hlogged.updates request held next hnext
          rw [hrestated] at hcomputed
          cases hcomputed
        rw [hnone, Option.none_or]
        exact hdue
      · have hhonours := hop trigger (named ▸ amends.found) edited.unfinished
          (edited.revision _ rfl) hrestated
        rw [hhonours henabled due hdue hpast, Option.some_or]
    · exact hdue
  | @enabled request current _ held named unfinished amends =>
    obtain rfl := Option.some.inj hnow
    rcases amends.row htrigger htrigger' with ⟨rfl, rfl, rfl⟩ | rfl
    · obtain ⟨-, hhonours⟩ := hop trigger (named ▸ amends.found) unfinished
      exact hhonours henabled due hdue hpast
    · exact hdue
  | disabled amends =>
    rcases amends.row htrigger htrigger' with ⟨rfl, rfl, rfl⟩ | rfl
    · cases henabled'
    · exact hdue
  | engine | created | provisioned | removed | rotated | scheduled | delivered | published =>
    cases hnow

end Due

section Runs

variable {policy : QueuePolicy} {system : TriggerSystem}

/-- What every run along current requests keeps. -/
structure FireTimesInvariant (system : TriggerSystem) : Prop where
  logged : RequestsLogged system
  seen : SeenTicks system
  timed : Timed system.computed system.db

theorem reachable_fireTimesInvariant
    (h : (triggerEngine policy).ReachableAlong (fun system op => op.TimesAreCurrent system)
      system) : FireTimesInvariant system := by
  apply h.invariant
  · constructor
    · constructor
      · intro request hrequest
        cases hrequest
      · intro request hrequest
        cases hrequest
    · intro tick htick
      cases htick
    · intro id trigger htrigger
      cases htrigger
  · intro system op hinv hop
    exact ⟨exec_requestsLogged hinv.logged op, step_seenTicks hinv.seen op,
      exec_timed hinv.logged hinv.seen hinv.timed hop⟩

/-- When every request is current, fire times belong to their schedules and no request
drops an occurrence that is due. -/
theorem fireTimes_of_current
    (h : (triggerEngine policy).ReachableAlong (fun system op => op.TimesAreCurrent system)
      system) :
    FireTimesBelong system ∧ ∀ op, op.TimesAreCurrent system →
      KeepsDueOccurrences system.db op ((triggerEngine policy).exec op system).db := by
  have hinv := reachable_fireTimesInvariant h
  refine ⟨?_, fun op hop => exec_keepsDue hinv.logged hop⟩
  intro trigger hmem hkind
  have hcheck := system.db.1.own.triggerDefinitions.lawful.checked trigger hmem
  refine ⟨?_, hinv.timed _ trigger (Table.find_key hmem)⟩
  rw [hcheck.nextFireAlignment]
  exact ⟨fun henabled => ⟨hkind, henabled⟩, And.right⟩

end Runs

def staleEnable : List TriggerOp :=
  [.engine (.configure sampleConfiguration 0), .create (sampleOneTime 10 false) sampleCalendar,
    .prepareEnable 1 1 sampleCalendar 1,
    .prepareUpdate 1 1 1 { schedule := some (.oneTime 50) } sampleCalendar 2,
    .commitUpdate
      { ownerUserId := 1, triggerId := 1, expectedConfigRevision := 1, now := 2
        edit := { displayName := (sampleOneTime 10 false).displayName
                  inputText := (sampleOneTime 10 false).inputText
                  schedule := some (.oneTime 50) } } sampleCalendar,
    .commitEnable ⟨1, 1, some (.oneTime 10), some 10, 1⟩]

/-- A trigger that fires every minute. -/
def sampleInterval : TriggerCreation :=
  { sampleOneTime 0 true with
    kind := .interval
    schedule := some (.interval ⟨60, by decide⟩) }

def overdueEnable : List TriggerOp :=
  [.engine (.configure sampleConfiguration 0), .create sampleInterval sampleCalendar,
    .prepareEnable 1 1 sampleCalendar (seconds 100)]

def overdueRequest : EnableRequest :=
  ⟨1, 1, sampleInterval.schedule, some (seconds 160), seconds 100⟩

set_option maxRecDepth 100000 in
/-- The trigger fires at 10, but its schedule says 50; and the occurrence of 60 s is lost. -/
theorem fireTimes_stale :
    ¬ FireTimesBelong (sampleTriggerRun staleEnable) ∧
      ¬ KeepsDueOccurrences (sampleTriggerRun overdueEnable).db (.commitEnable overdueRequest)
        (sampleTriggerRun (overdueEnable ++ [.commitEnable overdueRequest])).db := by
  constructor
  · decide +kernel
  · intro hkeeps
    have hbefore : ∃ trigger ∈
        (sampleTriggerRun overdueEnable).db.1.own.triggerDefinitions.find 1,
        trigger.enabled = true ∧ trigger.nextFireAt = some (seconds 60) := by
      decide +kernel
    have hafter : ∃ trigger ∈ (sampleTriggerRun
        (overdueEnable ++ [.commitEnable overdueRequest])).db.1.own.triggerDefinitions.find 1,
        trigger.enabled = true ∧ trigger.nextFireAt = some (seconds 160) := by
      decide +kernel
    obtain ⟨before, hfound, henabled, hdue⟩ := hbefore
    obtain ⟨after, hfound', henabled', hnext⟩ := hafter
    have hkept := hkeeps (seconds 100) rfl 1 before after hfound hfound' henabled henabled'
      (seconds 60) hdue (by decide)
    rw [hnext] at hkept
    exact absurd hkept (by decide)

instance (system : TriggerSystem) : DecidablePred (TriggerOp.TimesAreCurrent system)
  | .commitEnable request => inferInstanceAs (Decidable (∀ trigger ∈
      system.db.1.own.triggerDefinitions.find request.triggerId, _ → _ ∧ _))
  | .commitUpdate request _ => inferInstanceAs (Decidable (∀ trigger ∈
      system.db.1.own.triggerDefinitions.find request.triggerId, _ → _ → _ → _))
  | .engine _ | .create _ _ | .createWebhook _ | .prepareUpdate .. | .prepareEnable ..
  | .disable .. | .delete .. | .rotateSecret .. | .beginTick .. | .resolveNext ..
  | .locate .. | .materialize .. | .beginPublication .. | .publishNext .. => isTrue trivial

def enabledFiring : List TriggerOp :=
  [.engine (.configure sampleConfiguration 0), .create (sampleOneTime 10 false) sampleCalendar,
    .prepareEnable 1 1 sampleCalendar 1, .commitEnable ⟨1, 1, some (.oneTime 10), some 10, 1⟩,
    .beginTick 20 schedulerDueBatch none,
    .resolveNext 0 sampleResolver sampleCalendar sampleEnvironment]

set_option maxRecDepth 100000 in
theorem fireTimes_enabledFiring :
    (sampleTriggerRun enabledFiring).db.1.own.triggerOccurrences.rows.length = 1 ∧
      FireTimesBelong (sampleTriggerRun enabledFiring) := by
  refine ⟨by decide +kernel, ?_⟩
  refine (fireTimes_of_current ⟨enabledFiring, ?_, rfl⟩).1
  decide +kernel

end NervOS
