/-
Which exceptions the materializations raise, and in which states: the submission's own
refusals, and what the trigger's authority refuses.
-/
import NervOS.Relational.Exceptions
import NervOS.Refinement.TriggerRuns

namespace NervOS

open Relational

section Submission

variable {submission : Submission} {db : Database} {error : PersistenceError}

def Submission.HasRoom (submission : Submission) (instanceRow : AgentInstanceRecord)
    (db : Tables) : Prop :=
  (db.pending fun _ => True) < submission.capacity ∧
    (db.pending (·.agentInstanceId = submission.agentInstanceId)) < submission.agentCapacity ∧
    (db.pending (·.modelProvider = instanceRow.modelProvider)) < submission.providerCapacity

instance (submission : Submission) (instanceRow : AgentInstanceRecord) (db : Tables) :
    Decidable (submission.HasRoom instanceRow db) :=
  inferInstanceAs (Decidable (_ ∧ _ ∧ _))

def Submission.instance? (submission : Submission) (db : Tables) : Option AgentInstanceRecord :=
  db.configuration.agentInstances.find? fun row => submission.Names row

theorem raises_appendEvent {event : RunEventRecord} (h : event.toolInvocationId = none) :
    (appendEventOnConnection event).Raises db error ↔ False := by
  simp [appendEventOnConnection, verifyInvocationOwnership, InvocationOwnership, h]

theorem raises_insertion (row : Nat → RunRecord) (job : Nat → Nat → JobRecord)
    (created queued : Nat → Nat → RunEventRecord)
    (hcreated : ∀ runId jobId, (created runId jobId).toolInvocationId = none)
    (hqueued : ∀ runId jobId, (queued runId jobId).toolInvocationId = none) :
    (do
      let runId ← Tx.insert row
      let jobId ← Tx.insert (job runId)
      appendEventOnConnection (created runId jobId)
      appendEventOnConnection (queued runId jobId)
      pure runId : Connection Nat).Raises db error ↔ False := by
  simp [raises_appendEvent, hcreated, hqueued]

theorem raises_insertRunAndJob :
    (insertRunAndJobOnConnection submission).Raises db error ↔
      (submission.instance? db.1 = none ∧ error = .durableSubmissionRejected) ∨
        ∃ instanceRow, submission.instance? db.1 = some instanceRow ∧
          ((¬ submission.HasRoom instanceRow db.1 ∧ error = .queueCapacityExceeded) ∨
            (submission.HasRoom instanceRow db.1 ∧ submission.accepted = .error error)) := by
  have htail := fun (instanceRow : AgentInstanceRecord) (inputText : String) (cutoff : Nat) =>
    @raises_insertion db error (submission.run instanceRow inputText cutoff)
      (submission.job instanceRow) submission.created submission.queued (fun _ _ => rfl)
      (fun _ _ => rfl)
  simp only [insertRunAndJobOnConnection, Tx.raises_query_bind, Tx.raises_require_bind,
    Tx.raises_ofExcept_bind, Tx.elim_eq_ok, Tx.elim_eq_error, htail, and_false, exists_false,
      or_false]
  apply or_congr_right
  apply exists_congr
  intro instanceRow
  apply and_congr_right
  intro _
  unfold Submission.HasRoom
  by_cases hpending : db.1.pending (fun _ => True) < submission.capacity
  · by_cases hagent :
      db.1.pending (·.agentInstanceId = submission.agentInstanceId) < submission.agentCapacity
    · by_cases hprovider : db.1.pending (·.modelProvider = instanceRow.modelProvider) <
        submission.providerCapacity
      · simp [hpending, hagent, hprovider]
      · simp [hpending, hagent, hprovider]
    · simp [hpending, hagent]
  · simp [hpending]

end Submission

section Occurrences

variable {trigger : TriggerDefinitionRecord} {facts : OccurrenceFacts} {result : OccurrenceResult}
  {db : TriggerDatabase} {error : TriggerError}

/-- An identity that fits its column. -/
def OccurrenceIdentity.Valid : OccurrenceIdentity → Prop
  | .nominal _ => True
  | .event value | .idempotency value => LengthBetween 1 128 value ∧ hasNul value = false

theorem skipReason_bounds (reason : SkipReason) :
    LengthBetween 1 64 reason.code ∧
      LengthBetween 1 512 (skipMessages reason) ∧ HasText (skipMessages reason) := by
  cases reason <;> decide

theorem row_check_iff {id : Nat} (htrigger : trigger.Check)
    (hidentity : ∀ identity ∈ facts.identity, identity.Valid) :
    (facts.row trigger result id).Check ↔ facts.occurredAt ≤ facts.createdAt := by
  refine ⟨fun h => h.occurredOrder, fun horder => ?_⟩
  constructor
  · exact htrigger.revisionPositive
  · cases result with
    | runCreated runId => exact ⟨Option.some_ne_none _, rfl, rfl⟩
    | skipped reason => exact ⟨rfl, Option.some_ne_none _, Option.some_ne_none _⟩
  · intro code hcode
    cases result with
    | runCreated runId => cases hcode
    | skipped reason =>
      obtain rfl := Option.some.inj hcode
      obtain ⟨hbounds, hmessage⟩ := skipReason_bounds reason
      refine ⟨hbounds, fun message hmem => ?_⟩
      obtain rfl := Option.some.inj hmem
      exact hmessage
  · simp [OccurrenceFacts.row]
  · intro event hevent
    simp only [OccurrenceFacts.row] at hevent
    split at hevent
    · rename_i value hvalue
      obtain rfl := Option.some.inj hevent
      exact hidentity _ hvalue
    · cases hevent
  · intro key hkey
    simp only [OccurrenceFacts.row] at hkey
    split at hkey
    · rename_i value hvalue
      obtain rfl := Option.some.inj hkey
      exact hidentity _ hvalue
    · cases hkey
  · simp only [TriggerOccurrenceRecord.identities, OccurrenceFacts.row]
    cases facts.identity with
    | none => decide
    | some identity => cases identity <;> simp
  · exact horder

theorem raises_writeOccurrence :
    (writeOccurrence trigger facts result).Raises db error ↔
      ¬ (facts.row trigger result 0).Check ∧ error = .invalidTrigger := by
  rw [writeOccurrence, Tx.raises_require_bind]
  refine or_iff_left ?_
  rintro ⟨-, h⟩
  -- The row that was inserted is there to be read.
  simp only [Tx.raises_bind, Tx.raises_insert, Tx.raises_query, Tx.raises_ofExcept,
    Tx.elim_eq_error, Tx.commits_query, false_or] at h
  obtain ⟨id, db', hinserted, _, _, ⟨rfl, rfl⟩, hnone, -⟩ := h
  obtain ⟨rfl, hinserts⟩ := Tx.commits_insert.mp hinserted
  have hfind := hinserts.find (fun _ => rfl) db.1.own.triggerOccurrences.next
  simp only [table_extended, table_triggerOccurrence, if_pos] at hfind hnone
  rw [hfind] at hnone
  cases hnone

end Occurrences

section Submissions

variable {submission : Submission} {db : TriggerDatabase} {error : TriggerError}

theorem raises_submitTriggered :
    (submitTriggered submission).Raises db error ↔
      ∃ refusal, (insertRunAndJobOnConnection submission).Raises db.core refusal ∧
        refusal ≠ .durableSubmissionRejected ∧ error = .persistence refusal := by
  rw [submitTriggered, Tx.raises_savepoint_bind]
  constructor
  · rintro (⟨runId, db', -, h⟩ | ⟨inner, hinner, h⟩)
    · exact absurd h (Tx.raises_pure.mp · |>.elim)
    · obtain ⟨refusal, hrefusal, rfl⟩ := Tx.raises_onCore.mp hinner
      refine ⟨refusal, hrefusal, ?_⟩
      cases refusal <;> simp_all
  · rintro ⟨refusal, hrefusal, hne, rfl⟩
    refine Or.inr ⟨.persistence refusal, Tx.raises_onCore.mpr ⟨refusal, hrefusal, rfl⟩, ?_⟩
    cases refusal <;> simp_all

variable {surroundings : Surroundings} {inputText : String} {ownerUserId agentInstanceId : Nat}
  {definitionId : AgentDefinitionId}

theorem acceptedInput_error {limits : RunLimits} {refusal : PersistenceError}
    (h : acceptedInput surroundings ownerUserId agentInstanceId definitionId inputText limits =
      .error refusal) : refusal = .contextRejected ∨ refusal = .packageNotExecutable := by
  unfold acceptedInput at h
  cases hcontext : ContextBuilder.assemble ⟨limits.inputMaxBytes, limits.inputMaxCodePoints⟩
      inputText [] none (surroundings.memories ownerUserId agentInstanceId) with
  | none =>
    rw [hcontext] at h
    exact Or.inl (Except.error.inj h).symm
  | some context =>
    rw [hcontext] at h
    unfold resolveRunExecutionSnapshot at h
    split at h
    · cases h
    · split at h
      · cases h
      · exact Or.inr (Except.error.inj h).symm

theorem refused_iff {limits : RunLimits} :
    (∃ refusal, acceptedInput surroundings ownerUserId agentInstanceId definitionId inputText
        limits = .error refusal) ↔
      ¬ Acceptable surroundings agentInstanceId definitionId inputText limits := by
  rw [← @acceptedInput_isOk surroundings ownerUserId]
  cases acceptedInput surroundings ownerUserId agentInstanceId definitionId inputText limits with
  | ok | error => simp

theorem raises_submission {trigger : TriggerDefinitionRecord} {caps : PendingCaps}
    {definition : ResolvedAgentDefinition} {now : Instant} :
    (submitTriggered (trigger.submission caps surroundings definition inputText now)).Raises db
        error ↔
      ∃ instanceRow, (trigger.submission caps surroundings definition inputText now).instance?
          db.core.1 = some instanceRow ∧
        ((¬ (trigger.submission caps surroundings definition inputText now).HasRoom instanceRow
            db.core.1 ∧ error = .persistence .queueCapacityExceeded) ∨
          ((trigger.submission caps surroundings definition inputText now).HasRoom instanceRow
            db.core.1 ∧ ∃ refusal, error = .persistence refusal ∧
              acceptedInput surroundings trigger.ownerUserId trigger.agentInstanceId
                definition.definitionId inputText definition.limits = .error refusal)) := by
  simp only [raises_submitTriggered, raises_insertRunAndJob]
  constructor
  · rintro ⟨refusal, ⟨-, rfl⟩ | ⟨instanceRow, hinstance, ⟨hfull, rfl⟩ | ⟨hroom, hrefused⟩⟩, hne,
    rfl⟩
    · exact absurd rfl hne
    · exact ⟨instanceRow, hinstance, Or.inl ⟨hfull, rfl⟩⟩
    · exact ⟨instanceRow, hinstance, Or.inr ⟨hroom, refusal, rfl, hrefused⟩⟩
  · rintro ⟨instanceRow, hinstance, ⟨hfull, rfl⟩ | ⟨hroom, refusal, rfl, hrefused⟩⟩
    · refine ⟨_, Or.inr ⟨instanceRow, hinstance, Or.inl ⟨hfull, rfl⟩⟩, ?_, rfl⟩
      exact PersistenceError.noConfusion
    · refine ⟨refusal, Or.inr ⟨instanceRow, hinstance, Or.inr ⟨hroom, hrefused⟩⟩, ?_, rfl⟩
      rcases acceptedInput_error hrefused with rfl | rfl
      · exact PersistenceError.noConfusion
      · exact PersistenceError.noConfusion

end Submissions

section Materializations

variable {caps : PendingCaps} {surroundings : Surroundings} {db : TriggerDatabase}
  {error : TriggerError}

theorem raises_loadDefinition_bind {α : Type} {id : Nat}
    {f : TriggerDefinitionRecord → TriggerConnection α} :
    (loadDefinition id >>= f).Raises db error ↔
      (db.1.own.triggerDefinitions.find id = none ∧ error = .triggerNotFound) ∨
        ∃ trigger, db.1.own.triggerDefinitions.find id = some trigger ∧
          (f trigger).Raises db error := by
  have hload : (loadDefinition id).Raises db error ↔
      db.1.own.triggerDefinitions.find id = none ∧ error = .triggerNotFound := by
    simp [loadDefinition, Tx.elim_eq_error]
  rw [Tx.raises_bind, hload]
  simp only [commits_loadDefinition]
  apply or_congr_right
  constructor
  · rintro ⟨trigger, db, ⟨hfind, rfl⟩, h⟩
    exact ⟨trigger, hfind, h⟩
  · rintro ⟨trigger, hfind, h⟩
    exact ⟨trigger, db, ⟨hfind, rfl⟩, h⟩

variable {command : ScheduleMaterializationCommand}

theorem scheduleRow_check {trigger : TriggerDefinitionRecord} {result : OccurrenceResult} {id : Nat}
    (htrigger : trigger.Check) : (command.facts.row trigger result id).Check := by
  apply (row_check_iff htrigger ?_).mpr
  · exact le_refl command.now
  · intro identity hidentity
    obtain rfl := Option.some.inj hidentity
    trivial

theorem raises_materializeNew {trigger : TriggerDefinitionRecord} (htrigger : trigger.Check)
    (hmatches : db.1.AgentDefinitionMatches trigger command.definition.definitionId) :
    (materializeNew caps surroundings trigger command).Raises db error ↔
      command.terminalSkip = none ∧ (submitTriggered (trigger.submission caps surroundings
        command.definition trigger.inputText.1 command.now)).Raises db error := by
  unfold materializeNew
  split
  · rename_i reason hskip
    simp [raises_writeOccurrence, scheduleRow_check htrigger, hskip]
  · rename_i hskip
    simp [raises_writeOccurrence, scheduleRow_check htrigger, hskip, hmatches]

theorem raises_materializeSchedule :
    (materializeSchedule caps surroundings command).Raises db error ↔
      (db.1.own.triggerDefinitions.find command.triggerDefinitionId = none ∧
          error = .triggerNotFound) ∨
        ∃ trigger, db.1.own.triggerDefinitions.find command.triggerDefinitionId = some trigger ∧
          db.1.findExisting trigger.id (some (.nominal command.nominalAt)) = none ∧
          db.1.scheduleStaleReason trigger command = none ∧ command.terminalSkip = none ∧
          (submitTriggered (trigger.submission caps surroundings command.definition
            trigger.inputText.1 command.now)).Raises db error := by
  rw [materializeSchedule, raises_loadDefinition_bind]
  apply or_congr_right
  apply exists_congr
  intro trigger
  apply and_congr_right
  intro hfind
  have hcheck := db.1.own.triggerDefinitions.lawful.checked _ (Table.find_eq_some.mp hfind).1
  rw [Tx.raises_query_bind]
  cases db.1.findExisting trigger.id (some (.nominal command.nominalAt)) with
  | some occurrence => simp
  | none =>
    simp only [Tx.raises_query_bind, true_and]
    cases hstale : db.1.scheduleStaleReason trigger command with
    | some reason => simp
    | none =>
      have hmatches := (scheduleStaleReason_eq_none.mp hstale).2.2.2.2.2
      simp [raises_materializeNew hcheck hmatches]

def TriggerStore.StillMatches (db : TriggerStore) (trigger : TriggerDefinitionRecord)
    (command : EventMaterializationCommand) : Prop :=
  (trigger.ownerUserId = command.envelope.ownerUserId ∧ trigger.kind = .event) ∧
    trigger.enabled = true ∧ trigger.eventType = some command.envelope.eventType ∧
    db.AgentDefinitionMatches trigger command.definition.definitionId

instance (db : TriggerStore) (trigger : TriggerDefinitionRecord)
    (command : EventMaterializationCommand) : Decidable (db.StillMatches trigger command) :=
  inferInstanceAs (Decidable ((_ ∧ _) ∧ _ ∧ _ ∧ _))

variable {command : EventMaterializationCommand}

def EventMaterializationCommand.composed (command : EventMaterializationCommand)
    (trigger : TriggerDefinitionRecord) : String :=
  composeEventRunInput trigger.inputText.1 command.envelope.eventType command.envelope.payload.value

end Materializations

section Stores

variable {α : Type} {body : TriggerConnection α} {db : TriggerDatabase} {error : TriggerError}
  {persistence : Persistence}

theorem persistence_raised :
    (persistence.run body db).1 = .error (.raised error) ↔
      persistence ≠ .refused ∧ body.Raises db error := by
  cases persistence with
  | refused => simp [Persistence.run]
  | available => simp [Persistence.run, Tx.run_eq_raised]
  | unacknowledged =>
    rw [← Tx.run_eq_raised]
    unfold Persistence.run
    cases body.run db with
    | mk outcome db' => cases outcome <;> simp

theorem persistence_ok {value : α} {db' : TriggerDatabase}
    (h : persistence.run body db = (.ok value, db')) : body.Commits db value db' := by
  cases persistence with
  | refused => cases h
  | available =>
    rcases Tx.run_cases body db with ⟨value', db₁, hcommits, hrun⟩ | ⟨abort, hrun⟩
    · rw [Persistence.run, hrun] at h
      obtain ⟨hvalue, rfl⟩ := Prod.mk.inj h
      obtain rfl := Except.ok.inj hvalue
      exact hcommits
    · rw [Persistence.run, hrun] at h
      cases h
  | unacknowledged =>
    simp only [Persistence.run] at h
    split at h
    · cases h
    · cases h

end Stores

variable {calendar : Calendar} {anchor now : Instant}

/-- An answer to a question within the contract: a decision about an instant that has
passed and one that has not, or a schedule that cannot be evaluated. -/
def Timely (now : Instant) : Except ScheduleError ScheduleDecision → Prop
  | .ok decision => decision.nominalAt ≤ now ∧ ∀ next ∈ decision.nextFireAt, now < next
  | .error error => error ≠ .invalidTrigger

theorem timely_bind {α : Type} {x : Except ScheduleError α}
    {f : α → Except ScheduleError ScheduleDecision} (hx : x ≠ .error .invalidTrigger)
    (hf : ∀ value, x = .ok value → Timely now (f value)) : Timely now (x >>= f) := by
  cases x with
  | ok value => exact hf value rfl
  | error error =>
    intro herror
    exact hx (by rw [herror])

theorem requireDue_of_due (hdue : anchor ≤ now) : requireDue anchor now = .ok anchor :=
  if_pos hdue

theorem timely_oneTime (hdue : anchor ≤ now) : Timely now (calculateOneTime anchor now) := by
  rw [calculateOneTime, requireDue_of_due hdue]
  refine ⟨hdue, fun next hnext => ?_⟩
  cases hnext

theorem interval_bounds {start stop count : Int} (hcount : 0 < count) (hdue : start ≤ stop) :
    start + seconds ((stop - start).tdiv (seconds 1) / count * count) ≤ stop ∧
      stop < start + seconds ((stop - start).tdiv (seconds 1) / count * count) + seconds count := by
  have hwhole : (stop - start).tdiv (seconds 1) = (stop - start) / 1000000 :=
    Int.tdiv_eq_ediv_of_nonneg (by omega)
  have hnonneg : 0 ≤ (stop - start) / 1000000 := Int.ediv_nonneg (by omega) (by omega)
  rw [hwhole]
  generalize helapsed : (stop - start) / 1000000 = elapsed at hnonneg
  have hbelow := Int.ediv_mul_le elapsed (ne_of_gt hcount)
  have habove := Int.lt_ediv_add_one_mul_self elapsed hcount
  rw [Int.add_mul, Int.one_mul] at habove
  generalize elapsed / count * count = whole at hbelow habove
  change start + whole * 1000000 ≤ stop ∧ stop < start + whole * 1000000 + count * 1000000
  omega

theorem timely_recurring {nominalAt next : Instant} (hpast : nominalAt ≤ now)
    (hfuture : now < next) :
    Timely now (ScheduleDecision.recurring nominalAt next) := by
  unfold ScheduleDecision.recurring
  rw [dif_pos (lt_of_le_of_lt hpast hfuture)]
  refine ⟨hpast, fun other hother => ?_⟩
  obtain rfl := Option.some.inj hother
  exact hfuture

theorem timely_interval {count : IntervalSeconds} (hdue : anchor ≤ now) :
    Timely now (calculateInterval anchor count now) := by
  have hcount : (0 : Int) < count.1 := by
    have hmin : intervalMinSeconds ≤ count.1 := count.2.1
    exact_mod_cast Nat.lt_of_lt_of_le (by decide) hmin
  rw [calculateInterval, requireDue_of_due hdue]
  change Timely now (ite _ _ _)
  split
  · exact fun h => nomatch h
  · obtain ⟨hpast, hfuture⟩ := interval_bounds hcount hdue
    exact timely_recurring hpast hfuture

theorem resolveLocal_ne (wall : Wall) (zone : Zone) :
    resolveLocal wall zone ≠ .error .invalidTrigger := by
  simp only [resolveLocal, gapEnd]
  split
  · exact fun h => nomatch h
  · split
    · exact fun h => nomatch h
    · exact fun h => nomatch h

theorem timely_cronDecision {zone : Zone} {latest following : Wall} (hdue : anchor ≤ now) :
    Timely now (cronDecision zone anchor now latest following) := by
  apply timely_bind (resolveLocal_ne latest zone)
  intro nominal _
  apply timely_bind (resolveLocal_ne following zone)
  intro next _
  by_cases hlate : anchor < nominal ∧ now < nominal
  · rw [if_pos hlate]
    exact fun h => nomatch h
  · by_cases hnext : next ≤ now
    · rw [if_neg hlate, if_pos hnext]
      exact fun h => nomatch h
    · rw [if_neg hlate, if_neg hnext]
      have hpast : nominal ≤ now := by
        by_contra hfuture
        rw [not_le] at hfuture
        exact hlate ⟨lt_of_le_of_lt hdue hfuture, hfuture⟩
      exact timely_recurring hpast (not_le.mp hnext)

theorem timely_cron {expression timezone : String} (hdue : anchor ≤ now) :
    Timely now (calculateCron calendar anchor expression timezone now) := by
  have hzone : zoneFor calendar timezone ≠ .error .invalidTrigger := by
    unfold zoneFor
    cases calendar.zoneInfo timezone <;> exact fun h => nomatch h
  have hmatch : ∀ answer : Except Unit (Option Wall),
      (answer.mapError fun _ => ScheduleError.calculation .invalid) ≠ .error .invalidTrigger := by
    intro answer
    cases answer <;> exact fun h => nomatch h
  apply timely_bind hzone
  intro zone _
  rw [requireDue_of_due hdue]
  apply timely_bind (hmatch _)
  intro latest _
  apply timely_bind (hmatch _)
  intro following _
  cases latest with
  | none => exact fun h => nomatch h
  | some latest =>
    cases following with
    | none => exact fun h => nomatch h
    | some following => exact timely_cronDecision hdue

theorem timely_decideDue {schedule : ScheduleSpec} (hdue : anchor ≤ now) :
    Timely now (decideDue calendar schedule anchor now) := by
  cases schedule with
  | oneTime runAt => exact timely_oneTime hdue
  | interval count => exact timely_interval hdue
  | cron expression timezone => exact timely_cron hdue

theorem evaluate_cases (candidate : DueScheduleCandidate) :
    evaluate calendar candidate now = .ok none ∨
      (∃ failure, evaluate calendar candidate now = .error (.calculation failure)) ∨
        ∃ schedule, evaluate calendar candidate now =
          (decideDue calendar schedule candidate.expectedNextFireAt now).map some := by
  unfold evaluate scheduleOf
  cases candidate.row.trigger.spec with
  | none => exact Or.inl rfl
  | some schedule =>
    cases schedule with
    | oneTime runAt => exact Or.inr (Or.inr ⟨.oneTime runAt, rfl⟩)
    | interval count => exact Or.inr (Or.inr ⟨.interval count, rfl⟩)
    | cron expression timezone =>
      simp only [zoneFor]
      cases calendar.zoneInfo timezone.1 with
      | none => exact Or.inr (Or.inl ⟨.timezone, rfl⟩)
      | some zone => exact Or.inr (Or.inr ⟨.cron expression timezone, rfl⟩)

theorem commandFor_of_due {candidate : DueScheduleCandidate} {definition : ResolvedAgentDefinition}
    (hdue : candidate.expectedNextFireAt ≤ now) :
    ∃ command, commandFor calendar candidate definition now = .ok command := by
  have hdecided : ∀ nominalAt next skip, nominalAt ≤ now → (∀ instant ∈ next, now < instant) →
      ∃ command, (ScheduleMaterializationCommand.decided candidate definition now nominalAt next
        skip).map some = .ok command := by
    intro nominalAt next skip hpast hfuture
    rw [ScheduleMaterializationCommand.decided, dif_pos hpast, dif_pos hfuture]
    exact ⟨_, rfl⟩
  have hterminal : ∀ failure : ScheduleFailure, ∃ command,
      (ScheduleMaterializationCommand.decided candidate definition now candidate.expectedNextFireAt
        none (some failure.skipReason)).map some = .ok command := by
    intro failure
    apply hdecided _ _ _ hdue
    intro instant hinstant
    cases hinstant
  unfold commandFor
  rcases evaluate_cases candidate with hnone | ⟨failure, hfailure⟩ | ⟨schedule, hschedule⟩
  · rw [hnone]
    exact ⟨none, rfl⟩
  · rw [hfailure]
    exact hterminal failure
  · have htimely : Timely now (decideDue calendar schedule candidate.expectedNextFireAt now) :=
      timely_decideDue hdue
    rw [hschedule]
    cases hdecision : decideDue calendar schedule candidate.expectedNextFireAt now with
    | ok decision =>
      rw [hdecision] at htimely
      exact hdecided _ _ _ htimely.1 htimely.2
    | error error =>
      rw [hdecision] at htimely
      cases error with
      | calculation failure => exact hterminal failure
      | invalidTrigger => exact absurd rfl htimely

end NervOS
