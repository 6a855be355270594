/-
The publications of events: one outcome for each matching trigger, one occurrence for
each trigger and event, and what a publication of the same event answers again.
-/
import NervOS.Refinement.TriggerOutcomes

namespace NervOS

open Relational

def JoinedTrigger.PublishedAs (db : TriggerDatabase) (envelope : EventEnvelope)
    (candidate : JoinedTrigger) (outcome : EventOccurrenceOutcome) : Prop :=
  outcome.triggerId = candidate.trigger.id ∧
    ∀ occurrence ∈ outcome.outcome.occurrence, Recorded db candidate.trigger.id
      (some (.event envelope.eventId.1)) occurrence

def Submission.Full (submission : Submission) (db : Tables) : Prop :=
  ∃ instanceRow ∈ submission.instance? db, ¬ submission.HasRoom instanceRow db

def EventMaterializationCommand.Publishable (environment : Environment)
    (command : EventMaterializationCommand) (db : TriggerDatabase) : Prop :=
  ∃ trigger ∈ db.1.own.triggerDefinitions.find command.triggerDefinitionId,
    db.1.findExisting trigger.id (some (.event command.envelope.eventId.1)) = none →
    db.1.StillMatches trigger command →
      (validateInputText (command.composed trigger) command.definition.limits = true ∧
        (trigger.submission environment.caps environment.surroundings command.definition
          (command.composed trigger) command.now).Full db.core.1) ∨
      (command.envelope.occurredAt ≤ command.now ∧
        (validateInputText (command.composed trigger) command.definition.limits = true →
          ((trigger.submission environment.caps environment.surroundings command.definition
            (command.composed trigger) command.now).instance? db.core.1).isSome →
          ∀ row ∈ environment.surroundings.binding trigger.agentInstanceId,
            row.Executable command.definition.definitionId))

def JoinedTrigger.Publishable (resolver : EventResolver) (environment : Environment)
    (publication : Publication) (candidate : JoinedTrigger) (db : TriggerDatabase) : Prop :=
  match resolver.definitions candidate.agentDefinitionId with
  | none =>
    resolver.builtIn = true ∧
      db.1.findExisting candidate.trigger.id (some (.event publication.envelope.eventId.1)) = none
  | some definition =>
    environment.persistence ≠ .refused →
      EventMaterializationCommand.Publishable environment
        ⟨candidate.trigger.id, publication.envelope, definition, publication.now⟩ db

def TriggerOp.Publishable (system : TriggerSystem) : TriggerOp → Prop
  | .publishNext index resolver environment =>
    ∀ entry ∈ system.publicationAt index,
      entry.2.Publishable resolver environment entry.1 system.db
  | _ => True

section Candidates

variable {resolver : EventResolver} {environment : Environment} {publication : Publication}
  {candidate : JoinedTrigger} {db : TriggerDatabase} {command : EventMaterializationCommand}

theorem acceptable_of_valid {surroundings : Surroundings} {agentInstanceId : Nat}
    {definitionId : AgentDefinitionId} {inputText : String} {limits : RunLimits}
    (hvalid : validateInputText inputText limits = true)
    (hbinding : ∀ row ∈ surroundings.binding agentInstanceId, row.Executable definitionId) :
    Acceptable surroundings agentInstanceId definitionId inputText limits := by
  simp only [validateInputText, Bool.and_eq_true, decide_eq_true_eq] at hvalid
  exact ⟨⟨hvalid.2, hvalid.1.2⟩, hbinding⟩

variable {envelope : EventEnvelope} {outcome : EventOccurrenceOutcome}

theorem JoinedTrigger.PublishedAs.later {db' : TriggerDatabase}
    (h : candidate.PublishedAs db envelope outcome) (hlater : Later db db') :
    candidate.PublishedAs db' envelope outcome :=
  ⟨h.1, fun occurrence hoccurrence => (h.2 occurrence hoccurrence).later hlater⟩

/-- A candidate that some earlier discovery read: whatever became of its trigger, the row
that is there now is a later state of it. -/
structure Discovered (db : TriggerDatabase) (envelope : EventEnvelope) (candidate : JoinedTrigger) :
    Prop where
  old : candidate.trigger.id < db.1.own.triggerDefinitions.next
  kind : candidate.trigger.kind = .event
  owner : candidate.trigger.ownerUserId = envelope.ownerUserId
  current : ∀ trigger, db.1.own.triggerDefinitions.find candidate.trigger.id = some trigger →
    candidate.trigger.Precedes trigger

theorem Discovered.later {db' : TriggerDatabase} (h : Discovered db envelope candidate)
    (hlater : Later db db') :
    Discovered db' envelope candidate := by
  refine ⟨Nat.lt_of_lt_of_le h.old hlater.next, h.kind, h.owner, ?_⟩
  intro trigger htrigger
  rcases hlater.definition _ trigger htrigger with hnew | ⟨before, hbefore, hprecedes⟩
  · exact absurd h.old (Nat.not_lt.mpr hnew)
  · exact (h.current before hbefore).trans hprecedes

variable {occurrence : TriggerOccurrenceRecord}

end Candidates

section Runs

variable {policy : QueuePolicy} {system : TriggerSystem} {publication : Publication}
  {candidate : JoinedTrigger}

theorem publicationAt_eq_some {index : Nat} :
    system.publicationAt index = some (publication, candidate) ↔
      system.publications[index]? = some publication ∧ publication.sweep.next = some candidate := by
  simp only [TriggerSystem.publicationAt, Option.bind_eq_bind, Option.bind_eq_some_iff]
  constructor
  · rintro ⟨_, hpublication, _, hnext, h⟩
    obtain ⟨rfl, rfl⟩ := Prod.mk.inj (Option.some.inj h)
    exact ⟨hpublication, hnext⟩
  · rintro ⟨hpublication, hnext⟩
    exact ⟨publication, hpublication, candidate, hnext, rfl⟩

/-- What every publication holds: candidates that were discovered, and one outcome for
each of them that was considered, in their order. -/
structure PublicationsAnswer (system : TriggerSystem) : Prop where
  discovered : ∀ publication ∈ system.publications, ∀ candidate ∈ publication.sweep.items,
    Discovered system.db publication.envelope candidate
  answers : ∀ publication ∈ system.publications,
    publication.sweep.Answers (JoinedTrigger.PublishedAs system.db publication.envelope)

theorem PublicationsAnswer.at {index : Nat} (h : PublicationsAnswer system)
    (hat : system.publicationAt index = some (publication, candidate)) :
    Discovered system.db publication.envelope candidate := by
  obtain ⟨hpublication, hnext⟩ := publicationAt_eq_some.mp hat
  exact h.discovered publication (List.mem_of_getElem? hpublication) candidate
    (Sweep.next_mem hnext)

end Runs

instance (submission : Submission) (db : Tables) : Decidable (submission.Full db) :=
  inferInstanceAs (Decidable (∃ instanceRow ∈ submission.instance? db, _))

instance (environment : Environment) (command : EventMaterializationCommand)
    (db : TriggerDatabase) : Decidable (command.Publishable environment db) :=
  inferInstanceAs (Decidable (∃ trigger ∈ _, _ = none → _ → (_ ∧ _) ∨ (_ ∧ (_ → _ →
    ∀ row ∈ _, _))))

instance JoinedTrigger.decidablePublishable (resolver : EventResolver) (environment : Environment)
    (publication : Publication) (candidate : JoinedTrigger) (db : TriggerDatabase) :
    Decidable (candidate.Publishable resolver environment publication db) := by
  unfold JoinedTrigger.Publishable
  cases resolver.definitions candidate.agentDefinitionId with
  | none => exact inferInstanceAs (Decidable (_ ∧ _))
  | some definition => exact inferInstanceAs (Decidable (_ → _))

instance TriggerOp.decidablePublishable (system : TriggerSystem) :
    DecidablePred (TriggerOp.Publishable system)
  | .publishNext index resolver environment =>
    inferInstanceAs (Decidable (∀ entry ∈ system.publicationAt index,
      entry.2.Publishable resolver environment entry.1 system.db))
  | .engine _ | .create _ _ | .createWebhook _ | .prepareUpdate .. | .prepareEnable ..
  | .commitUpdate .. | .commitEnable .. | .disable .. | .delete .. | .rotateSecret ..
  | .beginTick .. | .locate .. | .materialize .. | .beginPublication .. | .resolveNext .. =>
    isTrue trivial

end NervOS
