/-
A tick of the scheduler over its page: which candidates it resolves, and which one of them
ends it for all the others.
-/
import NervOS.Refinement.TriggerOutcomes

namespace NervOS

open Relational

def DueScheduleCandidate.ResolvedAs (db : TriggerDatabase) (candidate : DueScheduleCandidate)
    (outcome : ScheduleOutcome) : Prop :=
  ∀ occurrence ∈ outcome.occurrence, occurrence ∈ db.1.own.triggerOccurrences.rows ∧
    occurrence.triggerDefinitionId = candidate.row.trigger.id

def TicksAreWhole (system : TriggerSystem) : Prop :=
  ∀ tick ∈ system.ticks, tick.sweep.next = none → tick.sweep.ending ≠ .stopped →
    List.Forall₂ (DueScheduleCandidate.ResolvedAs system.db) tick.sweep.items tick.sweep.outcomes

/-- The target takes the Run that a decision asks for, if it comes to that: the decision
still applies, its schedule could be evaluated, and the queue has room. -/
def ScheduleMaterializationCommand.Submittable (environment : Environment)
    (command : ScheduleMaterializationCommand) (db : TriggerDatabase) : Prop :=
  ∀ trigger ∈ db.1.own.triggerDefinitions.find command.triggerDefinitionId,
    db.1.findExisting trigger.id (some (.nominal command.nominalAt)) = none →
    db.1.scheduleStaleReason trigger command = none → command.terminalSkip = none →
    ∀ instanceRow ∈ (trigger.submission environment.caps environment.surroundings
        command.definition trigger.inputText.1 command.now).instance? db.core.1,
      (trigger.submission environment.caps environment.surroundings command.definition
        trigger.inputText.1 command.now).HasRoom instanceRow db.core.1 →
      Acceptable environment.surroundings trigger.agentInstanceId command.definition.definitionId
        trigger.inputText.1 command.definition.limits

def DueScheduleCandidate.Resolvable (definitions : AgentDefinitionResolver) (calendar : Calendar)
    (environment : Environment) (candidate : DueScheduleCandidate) (now : Instant)
    (db : TriggerDatabase) : Prop :=
  ∃ definition ∈ definitions candidate.row.agentDefinitionId,
    environment.persistence ≠ .refused →
      ∀ command ∈ (commandFor calendar candidate definition now).toOption.join,
        command.Submittable environment db

def TriggerOp.Unpoisoned (system : TriggerSystem) : TriggerOp → Prop
  | .resolveNext index definitions calendar environment =>
    ∀ entry ∈ system.tickAt index,
      entry.2.Resolvable definitions calendar environment entry.1.now system.db
  | _ => True

section Candidates

variable {definitions : AgentDefinitionResolver} {calendar : Calendar} {environment : Environment}
  {candidate : DueScheduleCandidate} {now : Instant} {db : TriggerDatabase}
  {command : ScheduleMaterializationCommand}

theorem apply_raised :
    (∃ error, (command.apply environment db).1 = .raised error) ↔
      environment.persistence ≠ .refused ∧ ∃ error,
        (materializeSchedule environment.caps environment.surroundings command).Raises db error ∧
          error ≠ .triggerNotFound ∧ error ≠ .persistence .queueCapacityExceeded ∧
          error ≠ .persistence .persistenceUnavailable := by
  simp only [← exists_and_left, ← and_assoc, ← persistence_raised]
  unfold ScheduleMaterializationCommand.apply
  split <;> simp_all

theorem escapes_iff :
    (∃ error, (materializeSchedule environment.caps environment.surroundings command).Raises db
        error ∧ error ≠ .triggerNotFound ∧ error ≠ .persistence .queueCapacityExceeded ∧
          error ≠ .persistence .persistenceUnavailable) ↔
      ¬ command.Submittable environment db := by
  simp only [raises_materializeSchedule, raises_submission]
  constructor
  · rintro ⟨error, ⟨-, rfl⟩ | ⟨trigger, hfind, hunrecorded, hstale, hskip, instanceRow, hinstance,
      ⟨-, rfl⟩ | ⟨hroom, refusal, rfl, hrefused⟩⟩, hfound, hcapacity, -⟩ hsubmittable
    · exact hfound rfl
    · exact hcapacity rfl
    · exact refused_iff.mp ⟨refusal, hrefused⟩
        (hsubmittable trigger hfind hunrecorded hstale hskip instanceRow hinstance hroom)
  · intro hunsubmittable
    unfold ScheduleMaterializationCommand.Submittable at hunsubmittable
    push Not at hunsubmittable
    obtain ⟨trigger, hfind, hunrecorded, hstale, hskip, instanceRow, hinstance, hroom,
      hunacceptable⟩ := hunsubmittable
    obtain ⟨refusal, hrefused⟩ := refused_iff.mpr hunacceptable
    refine ⟨.persistence refusal, Or.inr ⟨trigger, hfind, hunrecorded, hstale, hskip, instanceRow,
      hinstance, Or.inr ⟨hroom, refusal, rfl, hrefused⟩⟩, ?_⟩
    rcases acceptedInput_error hrefused with rfl | rfl <;> simp

theorem resolve_raised (hdue : candidate.expectedNextFireAt ≤ now) :
    (∃ error, (resolve definitions calendar environment candidate now db).1 = .raised error) ↔
      ¬ candidate.Resolvable definitions calendar environment now db := by
  unfold resolve DueScheduleCandidate.Resolvable
  cases hdefinition : definitions candidate.row.agentDefinitionId with
  | none => simp
  | some definition =>
    obtain ⟨command, hcommand⟩ := @commandFor_of_due calendar now candidate definition hdue
    simp only [hcommand, Option.mem_some_iff, exists_eq_left']
    cases command with
    | none => simp [Except.toOption]
    | some command => simp [Except.toOption, apply_raised, escapes_iff]

variable {outcome : ScheduleOutcome}

theorem DueScheduleCandidate.ResolvedAs.later {db' : TriggerDatabase}
    (h : candidate.ResolvedAs db outcome) (hlater : Later db db') :
    candidate.ResolvedAs db' outcome :=
  fun occurrence hoccurrence =>
    (h occurrence hoccurrence).imp_left fun hmem => hlater.occurrences.subset hmem

theorem apply_settled (hnamed : command.triggerDefinitionId = candidate.row.trigger.id)
    (h : (command.apply environment db).1 = .settled outcome) :
    candidate.ResolvedAs (command.apply environment db).2 outcome := by
  rw [TriggerSystem.apply_db]
  unfold ScheduleMaterializationCommand.apply at h
  intro occurrence hoccurrence
  split at h
  · rename_i outcome' db' hrun
    obtain rfl := ItemVerdict.settled.inj h
    have hrecorded := recorded_materializeSchedule (persistence_ok hrun) occurrence hoccurrence
    rw [hrun]
    exact ⟨hrecorded.mem, hrecorded.owner.trans hnamed⟩
  · cases h
  · cases h
  · obtain rfl := ItemVerdict.settled.inj h
    cases hoccurrence
  · obtain rfl := ItemVerdict.settled.inj h
    cases hoccurrence
  · cases h

theorem resolve_settled
    (h : (resolve definitions calendar environment candidate now db).1 = .settled outcome) :
    candidate.ResolvedAs (resolve definitions calendar environment candidate now db).2 outcome := by
  unfold resolve at h ⊢
  split at h
  · cases h
  · split at h
    · cases h
    · obtain rfl := ItemVerdict.settled.inj h
      intro occurrence hoccurrence
      cases hoccurrence
    · rename_i command hcommand
      exact apply_settled (commandFor_eq_ok hcommand).1.triggerDefinitionId h

end Candidates

section Runs

variable {policy : QueuePolicy} {system : TriggerSystem}

/-- Every tick holds one outcome for each candidate that it has considered, in their order. -/
def TicksAnswer (system : TriggerSystem) : Prop :=
  ∀ tick ∈ system.ticks, tick.sweep.Answers (DueScheduleCandidate.ResolvedAs system.db)

theorem step_ticksAnswer (h : TicksAnswer system) (op : TriggerOp) :
    TicksAnswer (system.step policy op) := by
  have hlater := (TriggerSystem.step_effect policy system op).later
  have hkept : ∀ tick ∈ system.ticks,
      tick.sweep.Answers (DueScheduleCandidate.ResolvedAs (system.step policy op).db) :=
    fun tick hmem => (h tick hmem).imp fun _ _ hresolved => hresolved.later hlater
  intro tick hmem
  rcases (TriggerSystem.step_frame policy system op).ticks tick hmem with hold |
    ⟨batch, cursor, hsweep⟩ | ⟨index, definitions, calendar, environment, old, candidate, rfl,
      hat, rfl⟩
  · exact hkept tick hold
  · rw [hsweep]
    exact Sweep.answers_nil _
  · obtain ⟨hold, hnext⟩ := tickAt_eq_some.mp hat
    apply (hkept old (List.mem_of_getElem? hold)).record hnext
    intro outcome houtcome
    have hdb : (system.step policy (.resolveNext index definitions calendar environment)).db =
        (resolve definitions calendar environment candidate old.now system.db).2 := by
      simp only [TriggerSystem.step, TriggerSystem.resolveNext, hat]
    rw [hdb]
    exact resolve_settled houtcome

/-- No candidate of a tick has raised an exception. -/
def TicksUnbroken (system : TriggerSystem) : Prop :=
  ∀ tick ∈ system.ticks, ¬ tick.sweep.Aborted

theorem step_ticksUnbroken {op : TriggerOp} (hseen : SeenTicks system) (h : TicksUnbroken system)
    (hop : op.Unpoisoned system) : TicksUnbroken (system.step policy op) := by
  intro tick hmem
  rcases (TriggerSystem.step_frame policy system op).ticks tick hmem with hold |
    ⟨batch, cursor, hsweep⟩ | ⟨index, definitions, calendar, environment, old, candidate, rfl,
      hat, rfl⟩
  · exact h tick hold
  · rw [hsweep]
    rintro ⟨error, herror⟩
    cases herror
  · have hnext := (tickAt_eq_some.mp hat).2
    have hresolvable := hop _ hat
    rw [Tick.record, Sweep.aborted_record hnext, resolve_raised (hseen.at hat).due]
    exact not_not.mpr hresolvable

structure IsolationInvariant (system : TriggerSystem) : Prop where
  seen : SeenTicks system
  answer : TicksAnswer system
  unbroken : TicksUnbroken system

theorem reachable_isolation
    (h : (triggerEngine policy).ReachableAlong (fun system op => op.Unpoisoned system) system) :
    IsolationInvariant system := by
  apply h.invariant
  · constructor
    · intro tick htick
      cases htick
    · intro tick htick
      cases htick
    · intro tick htick
      cases htick
  · intro system op hinv hop
    exact ⟨step_seenTicks hinv.seen op, step_ticksAnswer hinv.answer op,
      step_ticksUnbroken hinv.seen hinv.unbroken hop⟩

/-- Ticks over resolvable candidates are whole, and a candidate that is not resolvable
ends its tick. -/
theorem ticksAreWhole_of_unpoisoned
    (h : (triggerEngine policy).ReachableAlong (fun system op => op.Unpoisoned system) system) :
    TicksAreWhole system ∧
      ∀ index definitions calendar environment tick candidate,
        system.tickAt index = some (tick, candidate) →
        ((∃ error, (resolve definitions calendar environment candidate tick.now system.db).1 =
            .raised error) ↔
          ¬ candidate.Resolvable definitions calendar environment tick.now system.db) := by
  have hinv := reachable_isolation h
  constructor
  · intro tick hmem hover hstopped
    apply (hinv.answer tick hmem).complete ?_ hover
    have hunbroken := hinv.unbroken tick hmem
    cases hending : tick.sweep.ending with
    | running => rfl
    | stopped => exact absurd hending hstopped
    | raised error => exact absurd ⟨error, hending⟩ hunbroken
  · intro index definitions calendar environment tick candidate hat
    exact resolve_raised (hinv.seen.at hat).due

end Runs

def pageOfTwo (definitions : AgentDefinitionResolver) (environment : Environment) :
    List TriggerOp :=
  [.engine (.configure sampleConfiguration 0), .create (sampleOneTime 10 true) sampleCalendar,
    .create (sampleOneTime 11 true) sampleCalendar, .beginTick 20 schedulerDueBatch none,
    .resolveNext 0 definitions sampleCalendar environment,
    .resolveNext 0 sampleResolver sampleCalendar sampleEnvironment]

theorem narrow_positive : 0 < 4 ∧ 0 < toolEnabledLimits.inputMaxCodePoints ∧
    0 < toolEnabledLimits.outputMaxBytes ∧ 0 < toolEnabledLimits.outputMaxCodePoints ∧
    0 < toolEnabledLimits.providerTimeoutMs ∧ 0 < toolEnabledLimits.maxOutputTokens ∧
    0 < toolEnabledLimits.maxModelCalls ∧ 0 < toolEnabledLimits.toolTimeoutMs ∧
    0 < toolEnabledLimits.toolResultMaxBytes ∧
      0 < toolEnabledLimits.maxConsecutiveToolFailures := by
  decide

/-- A definition whose limits the instruction of the sample triggers exceeds. -/
def narrowResolver : AgentDefinitionResolver := fun definitionId =>
  some ⟨definitionId, { toolEnabledLimits with inputMaxBytes := 4, positive := narrow_positive }⟩

/-- The sample Agent Instance is bound to a package that is being removed. -/
def pendingRemoval : Environment :=
  { sampleEnvironment with
    surroundings :=
      { memories := fun _ _ => []
        binding := fun _ => some ⟨"assistant", "1", .pendingRemoval, .ready⟩ } }

theorem not_whole {system : TriggerSystem}
    (h : ∃ tick ∈ system.ticks, tick.sweep.next.isNone = true ∧ tick.sweep.ending ≠ .stopped ∧
      tick.sweep.items.length ≠ tick.sweep.outcomes.length) : ¬ TicksAreWhole system := by
  obtain ⟨tick, hmem, hover, hstopped, hlength⟩ := h
  intro hwhole
  have hanswers := hwhole tick hmem (Option.isNone_iff_eq_none.mp hover) hstopped
  exact hlength hanswers.length_eq

set_option maxRecDepth 100000 in
/-- An unknown definition, an oversized instruction or a package that may not execute ends
the tick before the second trigger is considered. -/
theorem ticksAreWhole_poisoned :
    ¬ TicksAreWhole (sampleTriggerRun (pageOfTwo (fun _ => none) sampleEnvironment)) ∧
      ¬ TicksAreWhole (sampleTriggerRun (pageOfTwo narrowResolver sampleEnvironment)) ∧
      ¬ TicksAreWhole (sampleTriggerRun (pageOfTwo sampleResolver pendingRemoval)) := by
  refine ⟨not_whole ?_, not_whole ?_, not_whole ?_⟩
  · decide +kernel
  · decide +kernel
  · decide +kernel

instance (environment : Environment) (command : ScheduleMaterializationCommand)
    (db : TriggerDatabase) : Decidable (command.Submittable environment db) :=
  inferInstanceAs (Decidable (∀ trigger ∈ _, _ = none → _ = none → _ = none →
    ∀ instanceRow ∈ _, _ → _))

instance (definitions : AgentDefinitionResolver) (calendar : Calendar)
    (environment : Environment) (candidate : DueScheduleCandidate) (now : Instant)
    (db : TriggerDatabase) :
    Decidable (candidate.Resolvable definitions calendar environment now db) :=
  inferInstanceAs (Decidable (∃ definition ∈ _, _ → ∀ command ∈ _, _))

instance TriggerOp.decidableUnpoisoned (system : TriggerSystem) :
    DecidablePred (TriggerOp.Unpoisoned system)
  | .resolveNext index definitions calendar environment =>
    inferInstanceAs (Decidable (∀ entry ∈ system.tickAt index,
      entry.2.Resolvable definitions calendar environment entry.1.now system.db))
  | .engine _ | .create _ _ | .createWebhook _ | .prepareUpdate .. | .prepareEnable ..
  | .commitUpdate .. | .commitEnable .. | .disable .. | .delete .. | .rotateSecret ..
  | .beginTick .. | .locate .. | .materialize .. | .beginPublication .. | .publishNext .. =>
    isTrue trivial

set_option maxRecDepth 100000 in
theorem ticksAreWhole_pageOfTwo :
    TicksAreWhole (sampleTriggerRun (pageOfTwo sampleResolver sampleEnvironment)) := by
  refine (ticksAreWhole_of_unpoisoned ⟨pageOfTwo sampleResolver sampleEnvironment, ?_, rfl⟩).1
  decide +kernel

end NervOS
