/-
What the mediator of a tool call tells the model is what is durable, in every run in which the
denial that it is about to tell can still be written.
-/
import NervOS.Application.ToolInvocationMediator
import NervOS.Guarantees.Calls
import NervOS.Relational.Exceptions

namespace NervOS

open Relational

def ToolInvocationRecord.Tells (input : MediatorInput) (system : MediatorSystem)
    (status : InvocationStatus) (row : ToolInvocationRecord) : Prop :=
  system.invocation = some row.id ∧ row.attemptId = input.claim.attemptId ∧
    row.status = status

def ToolInvocationOutcome.Durable (input : MediatorInput) (system : MediatorSystem) :
    ToolInvocationOutcome → Prop
  | .succeeded envelope => ∃ row ∈ system.settled,
      row.Tells input system .succeeded ∧ row.resultDigest = some envelope.digest
  | .failed _ => ∃ row ∈ system.settled, row.Tells input system .failed
  | .denied => ∃ row ∈ system.settled, row.Tells input system .denied
  | .invalidArguments => ∃ event ∈ system.refusal, event.runId = input.claim.runId ∧
      event.attemptId = some input.claim.attemptId ∧ event.eventType = .toolDenied

structure MediatorSystem.Truthful (input : MediatorInput) (system : MediatorSystem) : Prop where
  once : system.entered.length ≤ 1
  started : ∀ invocationId ∈ system.entered, ∃ row ∈ system.started,
    row.id = invocationId ∧ row.Tells input system .started
  durable : ∀ outcome, system.phase = .ended (.returned outcome) → outcome.Durable input system
  unknown : ∀ outcome ∈ system.effect, outcome.EffectUnknown →
    (∀ told, system.phase ≠ .ended (.returned told)) ∧
      system.written ≠ some .succeeded ∧ system.written ≠ some .failed

/-- The denial that a step writes in order to return it: the call, and the clock reading. -/
def MediatorSystem.denial? (system : MediatorSystem) (op : MediatorOp) :
    Option (Nat × Instant) :=
  match op, system.phase with
  | .write now, .denying invocationId _ false => some (invocationId, now)
  | _, _ => none

def DenialStands (input : MediatorInput) (system : MediatorSystem) (op : MediatorOp) : Prop :=
  ∀ denial ∈ system.denial? op, Authorized system.db.1 input.claim denial.2 ∧
    ∃ row ∈ system.db.1.toolInvocations.find denial.1,
      input.claim.HoldsCall denial.1 .requested row ∧
        row.runId = input.claim.runId ∧ row.jobId = input.claim.jobId

instance (input : MediatorInput) (system : MediatorSystem) (op : MediatorOp) :
    Decidable (DenialStands input system op) :=
  inferInstanceAs (Decidable (∀ denial ∈ system.denial? op, _ ∧
    ∃ row ∈ system.db.1.toolInvocations.find denial.1, _))

section Writes

variable {claim : ClaimedAttempt} {invocationId : Nat} {now : Instant} {db db' : Database}

theorem toolEventInserted_calls {eventType : RunEventType}
    (h : ToolEventInserted claim eventType now db db') :
    db'.1.toolInvocations = db.1.toolInvocations := by
  obtain ⟨_, _, _, t', -, hstore⟩ := h
  rw [hstore]
  rfl

variable {source : InvocationStatus} {move : ToolInvocationRecord → ToolInvocationRecord}

theorem find_of_callUpdated (h : Tx.Updates (claim.HoldsCall invocationId source) move db db')
    (hcount : db.1.toolInvocations.rows.countP
      (fun row => decide (claim.HoldsCall invocationId source row)) = 1)
    (hid : ∀ call, (move call).id = call.id) :
    ∃ row, claim.HoldsCall invocationId source row ∧
      db'.1.toolInvocations.find invocationId = some (move row) := by
  obtain ⟨row, hrow, hholds⟩ : ∃ row ∈ db.1.toolInvocations.rows,
      claim.HoldsCall invocationId source row := by
    have hpos := List.countP_pos_iff.mp (by omega : 0 < db.1.toolInvocations.rows.countP
      (fun row => decide (claim.HoldsCall invocationId source row)))
    simpa using hpos
  have hfind := h.find hid invocationId
  simp only [table_toolInvocation] at hfind
  rw [Table.find_eq_some.mpr ⟨hrow, hholds.1⟩, Option.map_some, Table.amend_of_pos hholds] at hfind
  exact ⟨row, hholds, hfind⟩

theorem find_of_moveCall {append : Connection Unit}
    (h : (moveCall claim invocationId source move append now).Commits db true db')
    (hid : ∀ call, (move call).id = call.id)
    (happend : ∀ {middle final}, append.Commits middle () final →
      final.1.toolInvocations = middle.1.toolInvocations) :
    ∃ row, claim.HoldsCall invocationId source row ∧
      db'.1.toolInvocations.find invocationId = some (move row) := by
  simp only [moveCall, Tx.commits_bind, Tx.commits_query, Tx.commits_ite, Tx.commits_pure,
    Tx.commits_updateOne] at h
  obtain ⟨_, db, ⟨rfl, rfl⟩, ⟨-, hfalse, -⟩ | ⟨-, _, db₁, ⟨hcount, hupdates⟩, _, _, hevent,
    -, rfl⟩⟩ := h
  · cases hfalse
  · rw [happend hevent]
    exact find_of_callUpdated hupdates hcount hid

theorem commits_appendDenied {named : Option Nat}
    (h : (appendDenied claim named now).Commits db () db') :
    db'.1.toolInvocations = db.1.toolInvocations :=
  toolEventInserted_calls (commits_appendToolEvent h)

theorem find_of_mark {settlement : Settlement} {reason : String}
    (h : (settlement.mark claim invocationId reason now).Commits db true db') :
    ∃ row ∈ db'.1.toolInvocations.find invocationId, row.id = invocationId ∧
      row.attemptId = claim.attemptId ∧ row.status = settlement.status ∧
      ∀ envelope, settlement = .succeeded envelope →
        row.resultDigest = some envelope.digest := by
  cases settlement with
  | succeeded envelope =>
    obtain ⟨row, ⟨hid, howner, -⟩, hfind⟩ := find_of_moveCall h (fun _ => rfl)
      fun happend => toolEventInserted_calls (commits_appendToolEvent happend)
    refine ⟨_, hfind, hid, howner, rfl, ?_⟩
    rintro _ ⟨rfl⟩
    rfl
  | failed | exception | ambiguous =>
    obtain ⟨row, ⟨hid, howner, -⟩, hfind⟩ := find_of_moveCall h (fun _ => rfl)
      fun happend => toolEventInserted_calls (commits_appendToolEvent happend)
    exact ⟨_, hfind, hid, howner, rfl, nofun⟩

variable {decision : PermissionDecision}

theorem find_of_markDenied (h : (markDenied claim invocationId decision now).Commits db true db') :
    ∃ row ∈ db'.1.toolInvocations.find invocationId, row.id = invocationId ∧
      row.attemptId = claim.attemptId ∧ row.status = .denied := by
  obtain ⟨row, ⟨hid, howner, -⟩, hfind⟩ := find_of_moveCall h (fun _ => rfl)
    commits_appendDenied
  exact ⟨_, hfind, hid, howner, rfl⟩

theorem find_of_startDecided {outcome : StartOutcome}
    (h : (startDecided claim invocationId decision now).Commits db outcome db') :
    ∃ row ∈ db'.1.toolInvocations.find invocationId, row.id = invocationId ∧
      row.attemptId = claim.attemptId ∧
      (outcome = .started invocationId ∧ row.status = .started ∨
        outcome = .denied invocationId decision ∧ row.status = .denied) := by
  cases decision with
  | denied reason =>
    simp only [startDecided, Tx.commits_bind, Tx.commits_updateOne, Tx.commits_pure] at h
    obtain ⟨_, db₁, ⟨hcount, hupdates⟩, _, _, hevent, rfl, rfl⟩ := h
    obtain ⟨row, ⟨hid, howner, -⟩, hfind⟩ :=
      find_of_callUpdated hupdates hcount fun _ => rfl
    rw [commits_appendDenied hevent]
    exact ⟨_, hfind, hid, howner, Or.inr ⟨rfl, rfl⟩⟩
  | allowed =>
    simp only [startDecided, Tx.commits_bind, Tx.commits_updateOne, Tx.commits_pure] at h
    obtain ⟨_, db₁, ⟨hcount, hupdates⟩, _, _, hevent, rfl, rfl⟩ := h
    obtain ⟨row, ⟨hid, howner, -⟩, hfind⟩ :=
      find_of_callUpdated hupdates hcount fun _ => rfl
    rw [toolEventInserted_calls (commits_appendToolEvent hevent)]
    exact ⟨_, hfind, hid, howner, Or.inl ⟨rfl, rfl⟩⟩

theorem find_of_markStarted {approval : Option ApprovalRequest} {outcome : StartOutcome}
    (h : (markStarted claim invocationId approval now).Commits db outcome db') :
    outcome = .fenced ∨ outcome = .cancelled invocationId ∨
      ∃ row ∈ db'.1.toolInvocations.find invocationId, row.id = invocationId ∧
        row.attemptId = claim.attemptId ∧
        (outcome = .started invocationId ∧ row.status = .started ∨
          (∃ decision, outcome = .denied invocationId decision) ∧ row.status = .denied) := by
  simp only [markStarted, Tx.commits_bind, Tx.commits_query, Tx.commits_ite,
    Tx.commits_pure] at h
  obtain ⟨_, db, ⟨rfl, rfl⟩, _, db, ⟨rfl, rfl⟩, row, db, ⟨-, rfl⟩, h⟩ := h
  rcases h with ⟨-, rfl, -⟩ | ⟨-, ⟨-, _, _, -, rfl, -⟩ | ⟨-, h⟩⟩
  · exact Or.inl rfl
  · exact Or.inr (Or.inl rfl)
  · cases row with
    | none => exact Or.inl (Tx.commits_pure.mp h).1
    | some row =>
      simp only [Tx.commits_ite, Tx.commits_bind, Tx.commits_query, Tx.commits_pure] at h
      rcases h with ⟨-, _, db, ⟨rfl, rfl⟩, _, db₁, -, hstart⟩ | ⟨-, rfl, -⟩
      · obtain ⟨row, hfind, hid, howner, houtcome⟩ := find_of_startDecided hstart
        refine Or.inr (Or.inr ⟨row, hfind, hid, howner, ?_⟩)
        rcases houtcome with hstarted | ⟨hdenied, hstatus⟩
        · exact Or.inl hstarted
        · exact Or.inr ⟨⟨_, hdenied⟩, hstatus⟩
      · exact Or.inl rfl

theorem event_of_refusal
    (h : (recordPreDispatchRefusal claim now).Commits db .recorded db') :
    ∃ event ∈ db'.1.runEvents.rows.getLast?, event.runId = claim.runId ∧
      event.attemptId = some claim.attemptId ∧ event.eventType = .toolDenied := by
  simp only [recordPreDispatchRefusal, Tx.commits_bind, Tx.commits_query, Tx.commits_ite,
    Tx.commits_pure] at h
  obtain ⟨_, db, ⟨rfl, rfl⟩, _, db, ⟨rfl, rfl⟩, h⟩ := h
  rcases h with ⟨-, hfenced, -⟩ | ⟨-, ⟨-, hcancelled, -⟩ | ⟨-, _, _, hevent, -, rfl⟩⟩
  · cases hfenced
  · cases hcancelled
  · obtain ⟨_, _, _, hinserts⟩ := commits_appendToolEvent hevent
    have hrows := hinserts.rows
    simp only [table_runEvent] at hrows
    rw [hrows, List.getLast?_append]
    exact ⟨_, rfl, rfl, rfl, rfl⟩

end Writes

section Refusals

variable {claim : ClaimedAttempt} {invocationId : Nat} {now : Instant} {db : Database}
  {row : ToolInvocationRecord}

theorem appendDenied_not_raises (hrow : db.1.toolInvocations.find invocationId = some row)
    (hrun : row.runId = claim.runId) (hjob : row.jobId = claim.jobId)
    (howner : row.attemptId = claim.attemptId) (error : PersistenceError) :
    ¬ (appendDenied claim (some invocationId) now).Raises db error := by
  intro h
  simp only [appendDenied, appendToolEvent, sequenceBase, appendEventOnConnection,
    verifyInvocationOwnership, Tx.raises_bind, Tx.raises_query, Tx.commits_query,
    Tx.raises_require, Tx.raises_insert, Tx.raises_pure, false_or, or_false,
    and_false, exists_false] at h
  obtain ⟨_, db, ⟨-, rfl⟩, _, db, ⟨rfl, rfl⟩, hunowned, -⟩ := h
  rw [decide_eq_true_iff] at hunowned
  apply hunowned
  rintro _ ⟨rfl⟩
  exact ⟨claim.attemptId, rfl, row, hrow, hrun, hjob, howner⟩

theorem markDenied_stands {decision : PermissionDecision} (hauthorized : Authorized db.1 claim now)
    (hrow : db.1.toolInvocations.find invocationId = some row)
    (hholds : claim.HoldsCall invocationId .requested row) (hrun : row.runId = claim.runId)
    (hjob : row.jobId = claim.jobId) :
    fencedResult ((markDenied claim invocationId decision now).run db).1 ≠ some false := by
  have hcount : db.1.toolInvocations.rows.countP
      (fun row => decide (claim.HoldsCall invocationId .requested row)) = 1 :=
    Table.countP_eq_one (Table.find_eq_some.mp hrow).1 hholds
      fun other _ hother => hother.1.trans hholds.1.symm
  rcases Tx.run_outcome (markDenied claim invocationId decision now) db with
    ⟨value, db', hcommits, hrun'⟩ | ⟨error, hraises, -⟩ | ⟨-, hrun'⟩
  · rw [hrun']
    simp only [markDenied, moveCall, Tx.commits_bind, Tx.commits_query, Tx.commits_ite,
      Tx.commits_pure] at hcommits
    obtain ⟨_, db, ⟨rfl, rfl⟩, ⟨hfalse, -⟩ | ⟨-, _, _, -, _, _, -, rfl, -⟩⟩ := hcommits
    · exact absurd hauthorized (of_decide_eq_false hfalse)
    · simp [fencedResult]
  · exfalso
    simp only [markDenied, moveCall, Tx.raises_bind, Tx.raises_query, Tx.commits_query,
      Tx.raises_ite, Tx.raises_pure, Tx.raises_updateOne, Tx.commits_updateOne,
      table_toolInvocation, ne_eq, and_false, exists_false, or_false, false_or] at hraises
    obtain ⟨_, db, ⟨-, rfl⟩, -, ⟨hother, -⟩ | ⟨_, db₁, ⟨-, hupdates⟩, hraises⟩⟩ := hraises
    · exact hother hcount
    have hfind := hupdates.find (fun _ => rfl) invocationId
    simp only [table_toolInvocation, hrow, Option.map_some, Table.amend_of_pos hholds] at hfind
    exact appendDenied_not_raises hfind hrun hjob hholds.2.1 error hraises
  · rw [hrun']
    simp [fencedResult]

end Refusals

section Standing

variable {input : MediatorInput} {system : MediatorSystem}

structure MediatorSystem.Unentered (system : MediatorSystem) : Prop where
  entered : system.entered = []
  effect : system.effect = none
  written : system.written = none

/-- The executor was entered for the call, behind its committed start. -/
structure MediatorSystem.EnteredFor (input : MediatorInput) (system : MediatorSystem)
    (invocationId : Nat) : Prop where
  entered : system.entered = [invocationId]
  started : ∃ row ∈ system.started, row.id = invocationId ∧ row.Tells input system .started
  written : system.written = none

/-- What holds at each place of `invoke`. -/
def MediatorSystem.Standing (input : MediatorInput) (system : MediatorSystem) : Prop :=
  match system.phase with
  | .validated | .recording _ => system.Unentered
  | .denying invocationId _ _ | .admitting invocationId | .waiting invocationId
  | .withdrawing invocationId | .starting invocationId =>
    system.Unentered ∧ system.invocation = some invocationId
  | .executing invocationId => system.EnteredFor input invocationId ∧
      system.invocation = some invocationId ∧ system.effect = none
  | .settling invocationId _ settlement => system.EnteredFor input invocationId ∧
      system.invocation = some invocationId ∧
        ∀ outcome ∈ system.effect, outcome.EffectUnknown → settlement = .ambiguous
  | .ended _ => system.Truthful input

theorem MediatorSystem.Unentered.truthful (h : system.Unentered)
    (hdurable : ∀ outcome, system.phase = .ended (.returned outcome) →
      outcome.Durable input system) : system.Truthful input where
  once := by simp [h.entered]
  started := by simp [h.entered]
  durable := hdurable
  unknown := by simp [h.effect]

theorem MediatorSystem.EnteredFor.truthful {invocationId : Nat}
    (h : system.EnteredFor input invocationId)
    (hrunning : ∀ outcome, system.phase ≠ .ended (.returned outcome)) :
    system.Truthful input where
  once := by simp [h.entered]
  started := by
    rw [h.entered]
    rintro _ hmem
    obtain rfl := List.mem_singleton.mp hmem
    exact h.started
  durable outcome hended := absurd hended (hrunning outcome)
  unknown _ _ _ := ⟨hrunning, by simp [h.written], by simp [h.written]⟩

theorem MediatorSystem.Standing.truthful (h : system.Standing input) :
    system.Truthful input := by
  obtain ⟨db, phase, invocation, entered, started, effect, written, settled, refusal⟩ := system
  cases phase with
  | validated | recording decision => exact MediatorSystem.Unentered.truthful h nofun
  | denying | admitting | waiting | withdrawing | starting | executing | settling =>
    exact h.1.truthful nofun
  | ended ending => exact h

theorem MediatorSystem.Truthful.finish {db : Database} {ending : MediatorEnding}
    (h : system.Truthful input) (hsilent : ∀ outcome, ending ≠ .returned outcome) :
    (system.finish db ending).Standing input where
  once := h.once
  started := h.started
  durable outcome hended :=
    absurd (MediatorPhase.ended.inj hended) (hsilent outcome)
  unknown outcome heffect hunknown :=
    ⟨fun told hended => hsilent told (MediatorPhase.ended.inj hended),
      (h.unknown outcome heffect hunknown).2⟩

end Standing

theorem commits_of_fencedResult {x : Connection Bool} {db : Database}
    (h : fencedResult (x.run db).1 = some true) : x.Commits db true (x.run db).2 := by
  rcases Tx.run_cases x db with ⟨value, db', hcommits, hrun⟩ | ⟨abort, hrun⟩
  · rw [hrun] at h ⊢
    obtain rfl : value = true := Option.some.inj h
    exact hcommits
  · rw [hrun] at h
    unfold fencedResult at h
    split at h
    · cases ‹_ = Except.ok _›
    · cases h
    · cases h
    · cases h

theorem startResult_error (abort : Abort PersistenceError) :
    startResult (.error abort) = some .fenced ∨ startResult (.error abort) = none := by
  unfold startResult
  split
  · cases ‹_ = Except.ok _›
  · exact Or.inl rfl
  · exact Or.inl rfl
  · exact Or.inr rfl

section Steps

variable {input : MediatorInput} {system : MediatorSystem} {now : Instant}

theorem standing_refuse (h : system.Unentered) (hstanding : system.Standing input) :
    (system.refuse input now).Standing input := by
  unfold MediatorSystem.refuse
  rcases Tx.run_cases (recordPreDispatchRefusal input.claim now) system.db with
    ⟨outcome, db, hcommits, hrun⟩ | ⟨abort, hrun⟩
  · rw [hrun]
    cases outcome with
    | recorded =>
      have hunentered : ({ system with
          db
          phase := .ended (.returned .invalidArguments)
          refusal := db.1.runEvents.rows.getLast? } : MediatorSystem).Unentered :=
        ⟨h.entered, h.effect, h.written⟩
      refine hunentered.truthful ?_
      rintro _ ⟨rfl⟩
      exact event_of_refusal hcommits
    | cancelled | fenced => exact hstanding.truthful.finish nofun
  · rw [hrun]
    exact hstanding.truthful.finish nofun

variable {invocationId : Nat} {decision : PermissionDecision}

theorem standing_dispatch (hphase : system.phase = input.dispatch invocationId decision)
    (h : system.Unentered) (hinvocation : system.invocation = some invocationId) :
    system.Standing input := by
  unfold MediatorSystem.Standing
  rw [hphase]
  unfold MediatorInput.dispatch
  cases decision with
  | denied reason => exact ⟨h, hinvocation⟩
  | allowed =>
    cases input.gated with
    | none | some => exact ⟨h, hinvocation⟩

theorem standing_record (h : system.Unentered) (hstanding : system.Standing input) :
    (system.record input decision now).Standing input := by
  unfold MediatorSystem.record
  split
  · exact standing_dispatch rfl ⟨h.entered, h.effect, h.written⟩ rfl
  · exact hstanding.truthful.finish nofun
  · exact hstanding.truthful.finish nofun

theorem standing_denied {db : Database} (h : system.Unentered)
    (hinvocation : system.invocation = some invocationId)
    (hrow : ∃ row ∈ db.1.toolInvocations.find invocationId, row.id = invocationId ∧
      row.attemptId = input.claim.attemptId ∧ row.status = .denied) :
    (system.returnOutcome db invocationId .denied).Standing input := by
  obtain ⟨row, hfind, hid, howner, hstatus⟩ := hrow
  have hunentered : (system.returnOutcome db invocationId .denied).Unentered :=
    ⟨h.entered, h.effect, h.written⟩
  refine hunentered.truthful ?_
  rintro _ ⟨rfl⟩
  exact ⟨row, hfind, hinvocation.trans (congrArg some hid.symm), howner, hstatus⟩

theorem standing_deny {unavailable : Bool}
    (hphase : system.phase = .denying invocationId decision unavailable) (h : system.Unentered)
    (hinvocation : system.invocation = some invocationId) (hstanding : system.Standing input)
    (hstands : DenialStands input system (.write now)) :
    (system.deny input invocationId decision unavailable now).Standing input := by
  unfold MediatorSystem.deny
  simp only
  cases hresult : fencedResult
      ((markDenied input.claim invocationId decision now).run system.db).1 with
  | none => exact hstanding.truthful.finish nofun
  | some accepted =>
    cases unavailable with
    | true => exact hstanding.truthful.finish nofun
    | false =>
      have hdenial : system.denial? (.write now) = some (invocationId, now) := by
        simp only [MediatorSystem.denial?, hphase]
      obtain ⟨hauthorized, row, hrow, hholds, hrun, hjob⟩ := hstands _ hdenial
      have hwritten : fencedResult
          ((markDenied input.claim invocationId decision now).run system.db).1 ≠ some false :=
        markDenied_stands hauthorized hrow hholds hrun hjob
      cases accepted with
      | false => exact absurd hresult hwritten
      | true =>
        simp only [Bool.false_eq_true, if_false]
        exact standing_denied h hinvocation
          (find_of_markDenied (commits_of_fencedResult hresult))

theorem standing_start (h : system.Unentered) (hinvocation : system.invocation = some invocationId)
    (hstanding : system.Standing input) :
    (system.start input invocationId now).Standing input := by
  unfold MediatorSystem.start
  simp only
  rcases Tx.run_cases (markStarted input.claim invocationId input.gated now) system.db with
    ⟨outcome, db, hcommits, hrun⟩ | ⟨abort, hrun⟩
  · rw [hrun]
    rcases find_of_markStarted hcommits with rfl | rfl | ⟨row, hfind, hid, howner, hrow⟩
    · exact hstanding.truthful.finish nofun
    · exact hstanding.truthful.finish nofun
    · rcases hrow with ⟨rfl, hstatus⟩ | ⟨⟨decision, rfl⟩, hstatus⟩
      · refine ⟨⟨?_, ⟨row, hfind, hid, ?_, howner, hstatus⟩, h.written⟩, hinvocation, h.effect⟩
        · rw [h.entered]
          rfl
        · exact hinvocation.trans (congrArg some hid.symm)
      · exact standing_denied h hinvocation ⟨row, hfind, hid, howner, hstatus⟩
  · rw [hrun]
    rcases startResult_error abort with hresult | hresult
    · rw [hresult]
      exact hstanding.truthful.finish nofun
    · rw [hresult]
      exact hstanding.truthful.finish nofun

theorem standing_settle {reason : String} {settlement : Settlement}
    (hinvocation : system.invocation = some invocationId)
    (heffect : ∀ outcome ∈ system.effect, outcome.EffectUnknown → settlement = .ambiguous)
    (hstanding : system.Standing input) :
    (system.settle input invocationId reason settlement now).Standing input := by
  unfold MediatorSystem.settle
  simp only
  cases hresult : fencedResult
      ((settlement.mark input.claim invocationId reason now).run system.db).1 with
  | none => exact hstanding.truthful.finish nofun
  | some accepted =>
    have hbefore := hstanding.truthful
    refine ⟨hbefore.once, hbefore.started, ?_, ?_⟩
    · intro outcome hended
      cases accepted with
      | false => cases settlement <;> cases hended
      | true =>
        obtain ⟨row, hfind, hid, howner, hstatus, hdigest⟩ :=
          find_of_mark (commits_of_fencedResult hresult)
        have htells : row.Tells input system settlement.status :=
          ⟨hinvocation.trans (congrArg some hid.symm), howner, hstatus⟩
        cases settlement with
        | succeeded envelope =>
          obtain rfl := MediatorEnding.returned.inj (MediatorPhase.ended.inj hended)
          exact ⟨row, hfind, htells, hdigest envelope rfl⟩
        | failed message =>
          obtain rfl := MediatorEnding.returned.inj (MediatorPhase.ended.inj hended)
          exact ⟨row, hfind, htells⟩
        | exception | ambiguous => cases hended
    · intro outcome hmem hunknown
      obtain rfl := heffect outcome hmem hunknown
      cases accepted <;> exact ⟨nofun, nofun, nofun⟩

theorem standing_environment (h : system.Standing input) (db : Database) :
    ({ system with db } : MediatorSystem).Standing input := by
  obtain ⟨_, phase, invocation, entered, started, effect, written, settled, refusal⟩ := system
  cases phase with
  | validated | recording decision => exact ⟨h.entered, h.effect, h.written⟩
  | denying | admitting | waiting | withdrawing | starting =>
    exact ⟨⟨h.1.entered, h.1.effect, h.1.written⟩, h.2⟩
  | executing invocationId => exact ⟨⟨h.1.entered, h.1.started, h.1.written⟩, h.2⟩
  | settling invocationId reason settlement =>
    exact ⟨⟨h.1.entered, h.1.started, h.1.written⟩, h.2⟩
  | ended ending => exact ⟨h.once, h.started, h.durable, h.unknown⟩

theorem standing_write (h : system.Standing input)
    (hstands : DenialStands input system (.write now)) :
    (system.write input now).Standing input := by
  have hstanding := h
  unfold MediatorSystem.write
  unfold MediatorSystem.Standing at h
  split <;> rename_i hphase <;> rw [hphase] at h
  · by_cases hvalid : input.argumentsValid = true
    · rw [if_pos hvalid]
      exact hstanding
    · rw [if_neg hvalid]
      exact standing_refuse h hstanding
  · exact standing_record h hstanding
  · exact standing_deny hphase h.1 h.2 hstanding hstands
  · exact hstanding.truthful.finish nofun
  · exact standing_start h.1 h.2 hstanding
  · exact standing_settle h.2.1 h.2.2 hstanding
  · exact hstanding
  · exact hstanding
  · exact hstanding
  · exact hstanding

theorem standing_executed (outcome : ExecutorOutcome) (h : system.EnteredFor input invocationId)
    (hinvocation : system.invocation = some invocationId) :
    ({ system with
      phase := MediatorSystem.conclude invocationId outcome, effect := some outcome } :
        MediatorSystem).Standing input := by
  cases outcome with
  | result | failure | exception =>
    refine ⟨⟨h.entered, h.started, h.written⟩, hinvocation, ?_⟩
    simp [ExecutorOutcome.EffectUnknown]
  | unknown | timeout => exact ⟨⟨h.entered, h.started, h.written⟩, hinvocation, fun _ _ _ => rfl⟩
  | cancelled =>
    have hentered : ({ system with
        phase := .ended .propagated, effect := some .cancelled } : MediatorSystem).EnteredFor
          input invocationId := ⟨h.entered, h.started, h.written⟩
    exact hentered.truthful nofun

theorem standing_admit (answer : ApprovalAdmission) (h : system.Unentered)
    (hinvocation : system.invocation = some invocationId) :
    ({ system with phase := MediatorSystem.afterAdmission invocationId answer } :
      MediatorSystem).Standing input := by
  cases answer with
  | approved | requested | refused | unavailable =>
    exact ⟨⟨h.entered, h.effect, h.written⟩, hinvocation⟩

theorem standing_exec {op : MediatorOp} (h : system.Standing input)
    (hstands : DenialStands input system op) : (system.exec input op).Standing input := by
  have hplace := h
  unfold MediatorSystem.Standing at hplace
  unfold MediatorSystem.exec
  split
  case h_1 => exact standing_environment h _
  case h_2 hphase =>
    rw [hphase] at hplace
    by_cases hvalid : input.argumentsValid = true
    · rw [if_pos hvalid]
      exact ⟨hplace.entered, hplace.effect, hplace.written⟩
    · rw [if_neg hvalid]
      exact h
  case h_3 hphase =>
    rw [hphase] at hplace
    exact ⟨⟨hplace.1.entered, hplace.1.effect, hplace.1.written⟩, hplace.2⟩
  case h_4 hphase =>
    rw [hphase] at hplace
    exact ⟨⟨hplace.1.entered, hplace.1.effect, hplace.1.written⟩, hplace.2⟩
  case h_5 answer _ hphase =>
    rw [hphase] at hplace
    exact standing_admit answer hplace.1 hplace.2
  case h_6 hphase =>
    rw [hphase] at hplace
    exact ⟨⟨hplace.1.entered, hplace.1.effect, hplace.1.written⟩, hplace.2⟩
  case h_7 outcome _ hphase =>
    rw [hphase] at hplace
    exact standing_executed outcome hplace.1 hplace.2.1
  case h_8 hphase =>
    rw [hphase] at hplace
    exact standing_executed .cancelled hplace.1 hplace.2.1
  case h_9 => exact h
  case h_10 => exact h.truthful.finish nofun
  case h_11 => exact standing_write h hstands
  case h_12 => exact h

end Steps

/-- In a run whose every denial stands when it is written, the mediator tells only what is
durable. -/
theorem mediator_truthful {input : MediatorInput} {db : Database} {system : MediatorSystem}
    (h : (mediator input db).ReachableAlong (DenialStands input) system) :
    system.Truthful input := by
  apply MediatorSystem.Standing.truthful
  apply h.invariant
  · exact ⟨rfl, rfl, rfl⟩
  · intro system op hstanding hstands
    exact standing_exec hstanding hstands

def sampleMediation : MediatorInput where
  claim := sampleClaim 1 0
  request := sampleRequest
  argumentsValid := true
  approval := none

def mediatedCall : List MediatorOp :=
  [.permission .allowed, .write 2, .write 3, .executed (.result ⟨.text "", 0⟩), .write 4]

/-- The Run is cancelled between the request of a call without a grant and its denial. -/
def overtakenDenial : List MediatorOp :=
  [.permission (.denied .notGranted), .write 2,
    .environment (sampleRun (sampleStart 3 ++
      [.worker (sampleClaim 1 0) (.recordRequested sampleRequest) 2, .cancelRun 1 1 3])).db,
    .write 4]

def sampleMediated (ops : List MediatorOp) : MediatorSystem :=
  (mediator sampleMediation (sampleRun (sampleStart 3)).db).run ops
    (mediator sampleMediation (sampleRun (sampleStart 3)).db).init

theorem sampleMediated_reachable (ops : List MediatorOp) :
    (mediator sampleMediation (sampleRun (sampleStart 3)).db).Reachable (sampleMediated ops) :=
  ⟨ops, rfl⟩

theorem sampleMediated_along {ops : List MediatorOp}
    (h : (mediator sampleMediation (sampleRun (sampleStart 3)).db).Along
      (DenialStands sampleMediation) ops
      (mediator sampleMediation (sampleRun (sampleStart 3)).db).init) :
    (mediator sampleMediation (sampleRun (sampleStart 3)).db).ReachableAlong
      (DenialStands sampleMediation) (sampleMediated ops) :=
  ⟨ops, h, rfl⟩

theorem mediator_truthful_mediatedCall :
    (sampleMediated mediatedCall).phase =
        .ended (.returned (.succeeded ⟨.text "", 0⟩)) ∧
      (sampleMediated mediatedCall).Truthful sampleMediation := by
  have halong : (mediator sampleMediation (sampleRun (sampleStart 3)).db).Along
      (DenialStands sampleMediation) mediatedCall
      (mediator sampleMediation (sampleRun (sampleStart 3)).db).init := by
    decide +kernel
  exact ⟨by decide +kernel, mediator_truthful (sampleMediated_along halong)⟩

theorem not_truthful_of_denied {input : MediatorInput} {system : MediatorSystem}
    {status : InvocationStatus} (hended : system.phase = .ended (.returned .denied))
    (hsettled : system.settled.map (·.status) = some status) (hother : status ≠ .denied) :
    ¬ system.Truthful input := by
  intro h
  obtain ⟨row, hrow, -, -, hdenied⟩ := h.durable .denied hended
  rw [Option.mem_def.mp hrow, Option.map_some, hdenied] at hsettled
  exact hother (Option.some.inj hsettled).symm

/-- The refused denial is returned all the same, about a call that the cancellation closed. -/
theorem mediator_untruthful_overtakenDenial :
    (mediator sampleMediation (sampleRun (sampleStart 3)).db).Reachable
        (sampleMediated overtakenDenial) ∧
      ¬ (sampleMediated overtakenDenial).Truthful sampleMediation := by
  refine ⟨sampleMediated_reachable overtakenDenial, ?_⟩
  have hended : (sampleMediated overtakenDenial).phase = .ended (.returned .denied) := by
    decide +kernel
  have hclosed : (sampleMediated overtakenDenial).settled.map (·.status) = some .cancelled := by
    decide +kernel
  exact not_truthful_of_denied hended hclosed (by decide)

end NervOS
