/-
A due schedule moves: while no request puts a fire time back to an instant that has fired,
every candidate that is still current makes its trigger fire and go on.
-/
import NervOS.Guarantees.CronDecisions
import NervOS.Guarantees.FireTimes
import NervOS.Guarantees.TickIsolation

namespace NervOS

open Relational

def FiredFor (db : TriggerDatabase) (triggerId : Nat) (instant : Instant) : Prop :=
  ∃ occurrence ∈ db.1.own.triggerOccurrences.rows,
    occurrence.triggerDefinitionId = triggerId ∧ occurrence.nominalAt = some instant

def AfterFired (db : TriggerDatabase) (triggerId : Nat) (next : Instant) : Prop :=
  ∀ instant, FiredFor db triggerId instant → instant < next

def latestMatch (calendar : Calendar) (expression timezone : String) (now : Instant) :
    Except ScheduleError (Option Instant) := do
  let zone ← zoneFor calendar timezone
  let latest ← atOrBefore calendar expression (zone.reading now)
  match latest with
  | some wall => (resolveLocal wall zone).map some
  | none => pure none

def DueScheduleCandidate.Unrepeated (calendar : Calendar) (candidate : DueScheduleCandidate)
    (now : Instant) (db : TriggerDatabase) : Prop :=
  ∀ expression timezone instant, candidate.row.trigger.spec = some (.cron expression timezone) →
    latestMatch calendar expression.1 timezone.1 now = .ok (some instant) →
      candidate.expectedNextFireAt ≤ instant ∨
        ¬ FiredFor db candidate.row.trigger.id instant

def TriggerOp.KeepsAhead (system : TriggerSystem) : TriggerOp → Prop
  | .commitUpdate request _ =>
    ∀ next ∈ request.edit.nextFireAt, AfterFired system.db request.triggerId next
  | .commitEnable request =>
    ∀ next ∈ request.nextFireAt, AfterFired system.db request.triggerId next
  | .resolveNext index _ calendar _ =>
    ∀ entry ∈ system.tickAt index, entry.2.Unrepeated calendar entry.1.now system.db
  | _ => True

/-- What the write transaction reads is what the decision was computed from. -/
def StillCurrent (db : TriggerDatabase) (candidate : DueScheduleCandidate)
    (definition : ResolvedAgentDefinition) : Prop :=
  ∃ trigger, db.1.own.triggerDefinitions.find candidate.row.trigger.id = some trigger ∧
    trigger.configRevision = candidate.expectedConfigRevision ∧ trigger.enabled = true ∧
      trigger.nextFireAt = some candidate.expectedNextFireAt ∧
        db.1.AgentDefinitionMatches trigger definition.definitionId

/-- Neither the queue nor the store refused. -/
def Unrefused (verdict : ScheduleVerdict) : Prop :=
  verdict ≠ .stopped ∧ verdict ≠ .settled .deferredCapacity ∧
    ∀ error, verdict ≠ .raised (.trigger (.persistence error))

structure Moves (verdict : ScheduleVerdict) (db : TriggerDatabase) (triggerId : Nat)
    (now : Instant) : Prop where
  settled : ∃ occurrence, verdict = .settled (.materialized occurrence) ∨
    verdict = .settled (.skipped occurrence)
  moved : ∃ trigger, db.1.own.triggerDefinitions.find triggerId = some trigger ∧
    ((trigger.nextFireAt = none ∧ trigger.enabled = false) ∨
      ∃ next, trigger.nextFireAt = some next ∧ now < next)

section Ahead

variable {policy : QueuePolicy} {system : TriggerSystem} {db db' : TriggerDatabase}

def AheadOfHistory (db : TriggerDatabase) : Prop :=
  ∀ id trigger, db.1.own.triggerDefinitions.find id = some trigger →
    ∀ next ∈ trigger.nextFireAt, AfterFired db id next

theorem AheadOfHistory.congr (h : AheadOfHistory db) (hown : db'.1.own = db.1.own) :
    AheadOfHistory db' := by
  unfold AheadOfHistory AfterFired FiredFor
  rw [hown]
  exact h

theorem AheadOfHistory.amends {before after : TriggerDefinitionRecord} (h : AheadOfHistory db)
    (hamends : Amends before after db db')
    (hafter : ∀ next ∈ after.nextFireAt, AfterFired db before.id next) : AheadOfHistory db' := by
  unfold AheadOfHistory AfterFired FiredFor
  rw [hamends.occurrences]
  intro id trigger htrigger
  rw [hamends.definition] at htrigger
  split at htrigger
  · rename_i hid
    obtain rfl := Option.some.inj htrigger
    subst hid
    exact hafter
  · exact h id trigger htrigger

variable {trigger : TriggerDefinitionRecord}

theorem AheadOfHistory.defines (h : AheadOfHistory db) (hdefines : Defines trigger db db') :
    AheadOfHistory db' := by
  intro id row hrow next hnext instant hfired
  rw [FiredFor, hdefines.occurrences] at hfired
  rw [hdefines.definition] at hrow
  split at hrow
  · rename_i hid
    -- A new id has no occurrence yet: the foreign key would dangle.
    obtain ⟨occurrence, hoccurrence, howner, -⟩ := hfired
    have hknown := db.2.2.occurrenceTrigger occurrence hoccurrence
    rw [howner, hid, hdefines.fresh, Table.find_next] at hknown
    cases hknown
  · exact h id row hrow next hnext instant hfired

theorem AheadOfHistory.removes {triggerId : Nat} (h : AheadOfHistory db)
    (hremoves : Removes triggerId db db') : AheadOfHistory db' := by
  intro id row hrow next hnext instant hfired
  rw [FiredFor, hremoves.occurrences] at hfired
  exact h id row (hremoves.definition id row hrow).2 next hnext instant hfired

variable {caps : PendingCaps} {result : OccurrenceResult} {facts : OccurrenceFacts}

theorem Records.firedFor {id : Nat} {instant : Instant}
    (hrecords : Records caps trigger facts result db db') (h : FiredFor db' id instant) :
    FiredFor db id instant ∨ id = trigger.id ∧
      (facts.row trigger result db.1.own.triggerOccurrences.next).nominalAt = some instant := by
  obtain ⟨occurrence, hoccurrence, howner, hnominal⟩ := h
  rw [hrecords.occurrences] at hoccurrence
  rcases List.mem_append.mp hoccurrence with hold | hnew
  · exact Or.inl ⟨occurrence, hold, howner, hnominal⟩
  · obtain rfl := List.mem_singleton.mp hnew
    exact Or.inr ⟨howner.symm, hnominal⟩

theorem AheadOfHistory.records (h : AheadOfHistory db)
    (hrecords : Records caps trigger facts result db db')
    (hnominal : (facts.row trigger result db.1.own.triggerOccurrences.next).nominalAt = none) :
    AheadOfHistory db' := by
  intro id row hrow next hnext instant hfired
  rw [hrecords.definitions] at hrow
  rcases hrecords.firedFor hfired with hold | ⟨-, hnew⟩
  · exact h id row hrow next hnext instant hold
  · rw [hnominal] at hnew
    cases hnew

theorem AheadOfHistory.scheduled {command : ScheduleMaterializationCommand}
    {middle : TriggerDatabase} (h : AheadOfHistory db) (hfresh : Fresh command trigger db)
    (hrecords : Records caps trigger command.facts result db middle)
    (hamends : Amends trigger (trigger.advanced command.nextFireAtAfter command.now) middle db') :
    AheadOfHistory db' := by
  intro id row hrow next hnext instant hfired
  rw [FiredFor, hamends.occurrences] at hfired
  rw [hamends.definition, hrecords.definitions] at hrow
  have hold := hrecords.firedFor hfired
  split at hrow
  · rename_i hid
    subst hid
    obtain rfl := Option.some.inj hrow
    have hfuture : command.now < next := by
      cases hafter : command.nextFireAtAfter with
      | none =>
        rw [hafter] at hnext
        cases hnext
      | some later =>
        rw [hafter] at hnext
        obtain rfl : later = next := Option.some.inj hnext
        exact command.nextFuture later hafter
    rcases hold with hearlier | ⟨-, hnew⟩
    · have hbefore := h trigger.id trigger hfresh.found _ hfresh.next instant hearlier
      exact (hbefore.trans_le hfresh.due).trans hfuture
    · obtain rfl : command.nominalAt = instant := Option.some.inj hnew
      exact command.nominalPast.trans_lt hfuture
  · rename_i hid
    rcases hold with hearlier | ⟨hsame, -⟩
    · exact h id row hrow next hnext instant hearlier
    · exact absurd hsame hid

theorem exec_aheadOfHistory (h : AheadOfHistory system.db) {op : TriggerOp}
    (hop : op.KeepsAhead system) : AheadOfHistory ((triggerEngine policy).exec op system).db := by
  change AheadOfHistory (system.step policy op).db
  have heffect := TriggerSystem.step_effect policy system op
  generalize (system.step policy op).db = db' at heffect ⊢
  cases heffect with
  | idle => exact h
  | engine own core => exact h.congr own
  | created computed defines | provisioned defines => exact h.defines defines
  | @updated request calendar current schedule _ held named edited amends =>
    apply h.amends amends
    intro next hnext
    rw [TriggerEdit.apply_nextFireAt] at hnext
    rw [named]
    cases hrequested : request.edit.nextFireAt with
    | none =>
      rw [hrequested, Option.none_or] at hnext
      exact named ▸ h current.id current amends.found next hnext
    | some requested =>
      rw [hrequested, Option.some_or] at hnext
      exact hop next (hrequested.trans hnext)
  | @enabled request current _ held named unfinished amends =>
    apply h.amends amends
    intro next hnext
    rw [named]
    exact hop next hnext
  | disabled amends =>
    apply h.amends amends
    intro next hnext
    cases hnext
  | removed removes => exact h.removes removes
  | @rotated ownerUserId triggerId secret now current _ kind amends =>
    exact h.amends amends (h current.id current amends.found)
  | scheduled considered decided fresh records amends => exact h.scheduled fresh records amends
  | delivered held fresh records => exact h.records records (delivery_nominalAt _ _ _ _)
  | published considered named enveloped fresh records => exact h.records records rfl

theorem reachable_aheadOfHistory
    (h : (triggerEngine policy).ReachableAlong (fun system op => op.KeepsAhead system) system) :
    AheadOfHistory system.db := by
  apply h.invariant (I := fun system => AheadOfHistory system.db)
  · intro id trigger htrigger
    cases htrigger
  · exact fun system op hahead hop => exec_aheadOfHistory hahead hop

end Ahead

section Decisions

variable {calendar : Calendar} {candidate : DueScheduleCandidate} {now : Instant}
   {decision : ScheduleDecision}

theorem spec_ne_none {trigger : TriggerDefinitionRecord} (hcheck : trigger.Check)
    (hkind : trigger.kind.IsSchedule) : trigger.spec ≠ none := by
  have hshape := hcheck.kindShape
  unfold TriggerDefinitionRecord.spec
  cases hexpression : trigger.cronExpression <;> cases htimezone : trigger.timezone <;>
    cases hk : trigger.kind <;>
      simp_all [TriggerDefinitionRecord.shape, TriggerKind.shape, TriggerKind.IsSchedule,
        Option.isSome_iff_ne_none]

theorem evaluate_ne_none (hcheck : candidate.row.trigger.Check)
    (hkind : candidate.row.trigger.kind.IsSchedule) :
    evaluate calendar candidate now ≠ .ok none := by
  intro h
  unfold evaluate at h
  obtain ⟨schedule, hschedule, h⟩ := bind_eq_ok.mp h
  obtain rfl := scheduleOf_eq_ok hschedule
  cases hspec : candidate.row.trigger.spec with
  | none => exact spec_ne_none hcheck hkind hspec
  | some schedule =>
    rw [hspec] at h
    obtain ⟨_, -, hsome⟩ := map_eq_ok.mp h
    cases hsome

variable {anchor : Instant}

theorem calculateOneTime_nominalAt (h : calculateOneTime anchor now = .ok decision) :
    decision.nominalAt = anchor := by
  unfold calculateOneTime requireDue at h
  split_ifs at h
  · obtain rfl := Except.ok.inj h
    rfl
  · cases h

theorem calculateInterval_nominalAt {count : IntervalSeconds}
    (h : calculateInterval anchor count now = .ok decision) : anchor ≤ decision.nominalAt := by
  unfold calculateInterval requireDue at h
  split_ifs at h with hdue
  · simp only [bind_eq_ok, Except.ok.injEq] at h
    obtain ⟨_, rfl, h⟩ := h
    split_ifs at h with hbudget
    unfold ScheduleDecision.recurring at h
    split_ifs at h
    obtain rfl := Except.ok.inj h
    have helapsed : 0 ≤ seconds ((now - anchor).tdiv (seconds 1) / (count.1 : Int) * count.1) := by
      apply Int.mul_nonneg _ (by decide)
      apply Int.mul_nonneg _ (Int.natCast_nonneg _)
      apply Int.ediv_nonneg _ (Int.natCast_nonneg _)
      exact Int.tdiv_nonneg (Int.sub_nonneg.mpr hdue) (by decide)
    exact Int.le_add_of_nonneg_right helapsed
  · cases h

theorem calculateCron_nominalAt {expression timezone : String}
    (h : calculateCron calendar anchor expression timezone now = .ok decision) :
    latestMatch calendar expression timezone now = .ok (some decision.nominalAt) := by
  unfold calculateCron at h
  simp only [bind_eq_ok] at h
  obtain ⟨zone, hzone, _, -, latest, hlatest, following, -, h⟩ := h
  cases latest with
  | none => cases h
  | some latest =>
    cases following with
    | none => cases h
    | some following =>
      simp only [cronDecision, bind_eq_ok] at h
      obtain ⟨nominal, hnominal, next, -, h⟩ := h
      split_ifs at h
      unfold ScheduleDecision.recurring at h
      split_ifs at h
      obtain rfl := Except.ok.inj h
      rw [latestMatch]
      exact bind_eq_ok.mpr ⟨zone, hzone, bind_eq_ok.mpr ⟨some latest, hlatest,
        map_eq_ok.mpr ⟨nominal, hnominal, rfl⟩⟩⟩

theorem evaluate_nominalAt (h : evaluate calendar candidate now = .ok (some decision)) :
    candidate.expectedNextFireAt ≤ decision.nominalAt ∨
      ∃ expression timezone, candidate.row.trigger.spec = some (.cron expression timezone) ∧
        latestMatch calendar expression.1 timezone.1 now = .ok (some decision.nominalAt) := by
  unfold evaluate at h
  obtain ⟨schedule, hschedule, h⟩ := bind_eq_ok.mp h
  obtain rfl := scheduleOf_eq_ok hschedule
  cases hspec : candidate.row.trigger.spec with
  | none =>
    rw [hspec] at h
    cases h
  | some schedule =>
    rw [hspec] at h
    obtain ⟨_, hdecided, hsome⟩ := map_eq_ok.mp h
    obtain rfl := Option.some.inj hsome
    cases schedule with
    | oneTime runAt => exact Or.inl (calculateOneTime_nominalAt hdecided).ge
    | interval count => exact Or.inl (calculateInterval_nominalAt hdecided)
    | cron expression timezone =>
      exact Or.inr ⟨expression, timezone, rfl, calculateCron_nominalAt hdecided⟩

theorem nominal_unrecorded {command : ScheduleMaterializationCommand} {db : TriggerDatabase}
    (hafter : AfterFired db candidate.row.trigger.id candidate.expectedNextFireAt)
    (hunrepeated : candidate.Unrepeated calendar now db)
    (hdecides : DecidesDue calendar candidate now command) :
    db.1.findExisting candidate.row.trigger.id (some (.nominal command.nominalAt)) = none := by
  cases hexisting : db.1.findExisting candidate.row.trigger.id
      (some (.nominal command.nominalAt)) with
  | none => rfl
  | some occurrence =>
    exfalso
    have hrecorded := recorded_findExisting hexisting
    have hfired : FiredFor db candidate.row.trigger.id command.nominalAt :=
      ⟨occurrence, hrecorded.mem, hrecorded.owner, hrecorded.identified _ rfl⟩
    have hbefore := hafter _ hfired
    cases hdecides with
    | failed failure evaluation nominalAt next terminalSkip =>
      rw [nominalAt] at hbefore
      exact lt_irrefl _ hbefore
    | evaluated decision evaluation nominalAt next terminalSkip =>
      rw [nominalAt] at hbefore hfired
      rcases evaluate_nominalAt evaluation with hlater |
        ⟨expression, timezone, hspec, hlatest⟩
      · exact absurd hbefore (not_lt.mpr hlater)
      · rcases hunrepeated expression timezone _ hspec hlatest with hlater | hunfired
        · exact absurd hbefore (not_lt.mpr hlater)
        · exact hunfired hfired

end Decisions

section Resolution

variable {db db' : TriggerDatabase}
  {definitions : AgentDefinitionResolver} {calendar : Calendar} {environment : Environment}
  {candidate : DueScheduleCandidate} {definition : ResolvedAgentDefinition} {now : Instant}
  {command : ScheduleMaterializationCommand} {trigger : TriggerDefinitionRecord}

theorem commits_fresh {caps : PendingCaps} {surroundings : Surroundings} {outcome : ScheduleOutcome}
    (hfresh : Fresh command trigger db)
    (h : (materializeSchedule caps surroundings command).Commits db outcome db') :
    Moves (.settled outcome) db' trigger.id command.now := by
  obtain ⟨hfound, hnamed, hunrecorded, hkind, hrevision, henabled, hnext, hdue, hmatches⟩ := hfresh
  have hstale : db.1.scheduleStaleReason trigger command = none :=
    scheduleStaleReason_eq_none.mpr ⟨hkind, hrevision, henabled, hnext, hdue, hmatches⟩
  simp only [materializeSchedule, Tx.commits_bind, Tx.commits_query, commits_loadDefinition] at h
  obtain ⟨loaded, db, ⟨hload, rfl⟩, existing, db, ⟨hexisting, rfl⟩, h⟩ := h
  rw [← hnamed, hfound] at hload
  obtain rfl := Option.some.inj hload
  rw [hunrecorded] at hexisting
  subst hexisting
  simp only [Tx.commits_bind, Tx.commits_query] at h
  obtain ⟨stale, db, ⟨rfl, rfl⟩, h⟩ := h
  rw [hstale] at h
  simp only [Tx.commits_bind, Tx.commits_update, Tx.commits_pure] at h
  obtain ⟨occurrence, db₁, hnew, _, db₂, ⟨-, hupdates⟩, rfl, rfl⟩ := h
  obtain ⟨result, hrecords⟩ := commits_materializeNew hnew
  constructor
  · refine ⟨occurrence, ?_⟩
    split
    · exact Or.inr rfl
    · exact Or.inl rfl
  · have hamends :
        Amends trigger (trigger.advanced command.nextFireAtAfter command.now) db₁ db' := by
      apply amends_of_updates hupdates
      · rw [hrecords.definitions]
        exact hfound
      · rfl
      · exact fun _ hother => hother
      · intro other
        unfold TriggerDefinitionRecord.advanced
        split
        · rfl
        · rfl
    refine ⟨_, (hamends.definition trigger.id).trans (if_pos rfl), ?_⟩
    cases hafter : command.nextFireAtAfter with
    | none => exact Or.inl ⟨rfl, rfl⟩
    | some next => exact Or.inr ⟨next, rfl, command.nextFuture next hafter⟩

theorem apply_moves (hfresh : Fresh command trigger db)
    (hunrefused : Unrefused (command.apply environment db).1) :
    Moves (command.apply environment db).1 (command.apply environment db).2 trigger.id
      command.now := by
  have hraised : ∀ error, (materializeSchedule environment.caps environment.surroundings
      command).Raises db error → ∃ refusal, error = .persistence refusal := by
    intro error herror
    rcases raises_materializeSchedule.mp herror with ⟨hgone, -⟩ | ⟨_, -, -, -, -, hsubmission⟩
    · rw [← hfresh.named, hfresh.found] at hgone
      cases hgone
    · obtain ⟨_, -, ⟨-, rfl⟩ | ⟨-, refusal, rfl, -⟩⟩ := raises_submission.mp hsubmission
      · exact ⟨_, rfl⟩
      · exact ⟨_, rfl⟩
  rw [TriggerSystem.apply_db]
  obtain ⟨hstopped, hdeferred, hpersistence⟩ := hunrefused
  unfold ScheduleMaterializationCommand.apply at hstopped hdeferred hpersistence ⊢
  split at hstopped
  · rename_i outcome db' hrun
    have hmoves := commits_fresh hfresh (persistence_ok hrun)
    simp only [hrun]
    exact hmoves
  · exact absurd rfl hstopped
  · exact absurd rfl hstopped
  · rename_i hrun
    have hnotFound := (persistence_raised.mp (congrArg Prod.fst hrun)).2
    obtain ⟨refusal, ⟨⟩⟩ := hraised _ hnotFound
  · rename_i hrun
    simp only [hrun] at hdeferred
    exact absurd rfl hdeferred
  · rename_i error db' _ _ _ hrun
    obtain ⟨refusal, rfl⟩ := hraised _ (persistence_raised.mp (congrArg Prod.fst hrun)).2
    simp only [hrun] at hpersistence
    exact absurd rfl (hpersistence refusal)

section

variable (hseen : Seen db now candidate) (hahead : AheadOfHistory db)
    (hunrepeated : candidate.Unrepeated calendar now db)

include hseen hahead hunrepeated

theorem fresh_of_current (hcommands : Commands candidate definition now command)
    (hdecides : DecidesDue calendar candidate now command)
    (hfound : db.1.own.triggerDefinitions.find candidate.row.trigger.id = some trigger)
    (hrevision : trigger.configRevision = candidate.expectedConfigRevision)
    (henabled : trigger.enabled = true)
    (hnext : trigger.nextFireAt = some candidate.expectedNextFireAt)
    (hmatches : db.1.AgentDefinitionMatches trigger definition.definitionId) :
    Fresh command trigger db := by
  have hid : trigger.id = candidate.row.trigger.id := (Table.find_eq_some.mp hfound).2
  constructor
  · rwa [hid]
  · rw [hid, hcommands.triggerDefinitionId]
  · rw [hid]
    exact nominal_unrecorded (hahead _ _ hfound _ hnext) hunrepeated hdecides
  · rw [(hseen.current trigger hfound).kind]
    exact hseen.schedule
  · rw [hrevision, hcommands.revision]
  · exact henabled
  · rw [hnext, hcommands.nextFireAt]
  · rw [hcommands.nextFireAt, hcommands.now]
    exact hseen.due
  · rw [hcommands.definition]
    exact hmatches

theorem resolve_moves (hdefinition : definitions candidate.row.agentDefinitionId = some definition)
    (hcurrent : StillCurrent db candidate definition)
    (hunrefused : Unrefused (resolve definitions calendar environment candidate now db).1) :
    Moves (resolve definitions calendar environment candidate now db).1
      (resolve definitions calendar environment candidate now db).2 candidate.row.trigger.id
      now := by
  obtain ⟨trigger, hfound, hrevision, henabled, hnext, hmatches⟩ := hcurrent
  obtain ⟨outcome, hcommand⟩ := @commandFor_of_due calendar now candidate definition hseen.due
  cases outcome with
  | none =>
    have hnone : evaluate calendar candidate now = .ok none := by
      unfold commandFor at hcommand
      split at hcommand
      · assumption
      · obtain ⟨_, -, ⟨⟩⟩ := map_eq_ok.mp hcommand
      · obtain ⟨_, -, ⟨⟩⟩ := map_eq_ok.mp hcommand
      · cases hcommand
    exact absurd hnone (evaluate_ne_none hseen.checked hseen.schedule)
  | some command =>
    obtain ⟨hcommands, hdecides⟩ := commandFor_eq_ok hcommand
    have hfresh := fresh_of_current hseen hahead hunrepeated hcommands hdecides hfound hrevision
      henabled hnext hmatches
    have hresolve : resolve definitions calendar environment candidate now db =
        command.apply environment db := by
      simp only [resolve, hdefinition, hcommand]
    rw [hresolve] at hunrefused ⊢
    have hmoves := apply_moves hfresh hunrefused
    rwa [hfresh.named, hcommands.triggerDefinitionId, hcommands.now] at hmoves

end

end Resolution

/-- In every run in which no request puts a fire time back over its history, a due candidate that
is still current, and is not refused, is materialized or skipped, and its trigger goes on. -/
theorem due_candidates_move {policy : QueuePolicy} {system : TriggerSystem}
    (h : (triggerEngine policy).ReachableAlong (fun system op => op.KeepsAhead system) system)
    {index : Nat} {definitions : AgentDefinitionResolver} {calendar : Calendar}
    {environment : Environment} {tick : Tick} {candidate : DueScheduleCandidate}
    {definition : ResolvedAgentDefinition}
    (hop : (TriggerOp.resolveNext index definitions calendar environment).KeepsAhead system)
    (hat : system.tickAt index = some (tick, candidate))
    (hdefinition : definitions candidate.row.agentDefinitionId = some definition)
    (hcurrent : StillCurrent system.db candidate definition)
    (hunrefused : Unrefused
      (resolve definitions calendar environment candidate tick.now system.db).1) :
    Moves (resolve definitions calendar environment candidate tick.now system.db).1
      ((triggerEngine policy).exec (.resolveNext index definitions calendar environment) system).db
      candidate.row.trigger.id tick.now := by
  have hseen := (reachable_seenTicks h.reachable).at hat
  have hmoves := resolve_moves hseen (reachable_aheadOfHistory h) (hop _ hat) hdefinition hcurrent
    hunrefused
  have hdb : ((triggerEngine policy).exec (.resolveNext index definitions calendar environment)
      system).db = (resolve definitions calendar environment candidate tick.now system.db).2 := by
    change (system.step policy _).db = _
    simp only [TriggerSystem.step, TriggerSystem.resolveNext, hat]
  rwa [hdb]

def sampleDue : List TriggerOp :=
  [.engine (.configure sampleConfiguration 0), .create (sampleOneTime 10 true) sampleCalendar,
    .beginTick 20 schedulerDueBatch none]

/-- Whether a materialization answered with an occurrence that was there. -/
def ScheduleVerdict.repeats? : ScheduleVerdict → Option Bool
  | .settled (.materialized _) => some false
  | .settled (.duplicated _) => some true
  | _ => none

theorem unrefused_of_repeats {verdict : ScheduleVerdict} {repeated : Bool}
    (h : verdict.repeats? = some repeated) : Unrefused verdict := by
  refine ⟨?_, ?_, ?_⟩
  · rintro rfl
    cases h
  · rintro rfl
    cases h
  · rintro error rfl
    cases h

theorem stillCurrent_of_find {db : TriggerDatabase} {candidate : DueScheduleCandidate}
    (h : ∃ trigger ∈ db.1.own.triggerDefinitions.find candidate.row.trigger.id,
      trigger.configRevision = candidate.expectedConfigRevision ∧ trigger.enabled = true ∧
        trigger.nextFireAt = some candidate.expectedNextFireAt ∧
          db.1.AgentDefinitionMatches trigger candidate.row.agentDefinitionId) :
    StillCurrent db candidate ⟨candidate.row.agentDefinitionId, toolEnabledLimits⟩ :=
  h

set_option maxRecDepth 100000 in
theorem due_candidates_move_sampleDue :
    (∃ entry, (sampleTriggerRun sampleDue).tickAt 0 = some entry) ∧
      ∀ tick candidate, (sampleTriggerRun sampleDue).tickAt 0 = some (tick, candidate) →
        Moves (resolve sampleResolver sampleCalendar sampleEnvironment candidate tick.now
            (sampleTriggerRun sampleDue).db).1
          ((triggerEngine productionQueuePolicy).exec (.resolveNext 0 sampleResolver sampleCalendar
            sampleEnvironment) (sampleTriggerRun sampleDue)).db
              candidate.row.trigger.id tick.now := by
  refine ⟨Option.isSome_iff_exists.mp (by decide +kernel), ?_⟩
  intro tick candidate hat
  have hkind : ∀ entry ∈ (sampleTriggerRun sampleDue).tickAt 0,
      entry.2.row.trigger.kind = .oneTime := by
    decide +kernel
  have hcurrent : ∀ entry ∈ (sampleTriggerRun sampleDue).tickAt 0,
      ∃ trigger ∈ (sampleTriggerRun sampleDue).db.1.own.triggerDefinitions.find
          entry.2.row.trigger.id, trigger.configRevision = entry.2.expectedConfigRevision ∧
        trigger.enabled = true ∧ trigger.nextFireAt = some entry.2.expectedNextFireAt ∧
          (sampleTriggerRun sampleDue).db.1.AgentDefinitionMatches trigger
            entry.2.row.agentDefinitionId := by
    decide +kernel
  have hmaterialized : ∀ entry ∈ (sampleTriggerRun sampleDue).tickAt 0,
      (resolve sampleResolver sampleCalendar sampleEnvironment entry.2 entry.1.now
        (sampleTriggerRun sampleDue).db).1.repeats? = some false := by
    decide +kernel
  refine due_candidates_move ⟨sampleDue, ⟨trivial, trivial, trivial, trivial⟩, rfl⟩ ?_ hat rfl
    (stillCurrent_of_find (hcurrent _ hat)) ?_
  · intro entry hentry expression timezone instant hspec
    rw [TriggerDefinitionRecord.spec, hkind entry hentry] at hspec
    cases hrunAt : entry.2.row.trigger.runAt <;> simp [hrunAt] at hspec
  · exact unrefused_of_repeats (hmaterialized _ hat)

/-- Half past every hour, created an hour before the clock is set back. -/
def halfPastTrigger : TriggerCreation :=
  { sampleOneTime 0 true with
    kind := .cron
    schedule := some (.cron halfPastExpression sampleTimezone)
    now := seconds 356400 }

def repeatedHour : List TriggerOp :=
  [.engine (.configure sampleConfiguration 0), .create halfPastTrigger halfPastCalendar,
    .beginTick (seconds 358200) schedulerDueBatch none,
    .resolveNext 0 sampleResolver halfPastCalendar sampleEnvironment,
    .disable 1 1 (seconds 360900), .prepareEnable 1 1 halfPastCalendar (seconds 360900),
    .commitEnable ⟨1, 1, halfPastTrigger.schedule, some (seconds 358200), seconds 360900⟩,
    .beginTick (seconds 360900) schedulerDueBatch none]

set_option maxRecDepth 100000 in
/-- The enable is given the instant that has fired, and the due trigger is a duplicate. -/
theorem due_duplicated : ¬ ∀ (system : TriggerSystem),
    (triggerEngine productionQueuePolicy).Reachable system →
      ∀ (index : Nat) (definitions : AgentDefinitionResolver) (calendar : Calendar)
        (environment : Environment) (tick : Tick) (candidate : DueScheduleCandidate)
        (definition : ResolvedAgentDefinition), system.tickAt index = some (tick, candidate) →
          definitions candidate.row.agentDefinitionId = some definition →
            StillCurrent system.db candidate definition →
              Unrefused (resolve definitions calendar environment candidate tick.now
                system.db).1 →
                Moves (resolve definitions calendar environment candidate tick.now system.db).1
                  ((triggerEngine productionQueuePolicy).exec
                    (.resolveNext index definitions calendar environment) system).db
                  candidate.row.trigger.id tick.now := by
  intro h
  obtain ⟨⟨tick, candidate⟩, hat⟩ :
      ∃ entry, (sampleTriggerRun repeatedHour).tickAt 1 = some entry :=
    Option.isSome_iff_exists.mp (by decide +kernel)
  have hcurrent : ∀ entry ∈ (sampleTriggerRun repeatedHour).tickAt 1,
      ∃ trigger ∈ (sampleTriggerRun repeatedHour).db.1.own.triggerDefinitions.find
          entry.2.row.trigger.id, trigger.configRevision = entry.2.expectedConfigRevision ∧
        trigger.enabled = true ∧ trigger.nextFireAt = some entry.2.expectedNextFireAt ∧
          (sampleTriggerRun repeatedHour).db.1.AgentDefinitionMatches trigger
            entry.2.row.agentDefinitionId := by
    decide +kernel
  have hduplicated : ∀ entry ∈ (sampleTriggerRun repeatedHour).tickAt 1,
      (resolve sampleResolver halfPastCalendar sampleEnvironment entry.2 entry.1.now
        (sampleTriggerRun repeatedHour).db).1.repeats? = some true := by
    decide +kernel
  have hverdict : (resolve sampleResolver halfPastCalendar sampleEnvironment candidate tick.now
      (sampleTriggerRun repeatedHour).db).1.repeats? = some true := hduplicated _ hat
  have hmoves := h _ (sampleTriggerRun_reachable repeatedHour) 1 sampleResolver halfPastCalendar
    sampleEnvironment tick candidate _ hat rfl (stillCurrent_of_find (hcurrent _ hat))
    (unrefused_of_repeats hverdict)
  obtain ⟨occurrence, hsettled | hsettled⟩ := hmoves.settled
  · rw [hsettled] at hverdict
    cases hverdict
  · rw [hsettled] at hverdict
    cases hverdict

end NervOS
