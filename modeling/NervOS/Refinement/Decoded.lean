/-
A workflow loads again, whatever moved it, as long as every committed directive was decoded.
Runs whose step results come from the Worker's decoding: each one is bound to the snapshot that
its package was handed, and so to the step that it commits.
-/
import NervOS.Workflow.Decisions
import NervOS.Refinement.WorkflowHanded
import NervOS.Relational.Fallible

namespace NervOS

open Relational

/-- The keys of a wait were there, or the wait is over. -/
structure WorkflowExecutionRecord.KeysKept (execution execution' : WorkflowExecutionRecord) :
    Prop where
  signalKey : execution'.signalKey = none ∨ execution'.signalKey = execution.signalKey
  decisionKey : execution'.decisionKey = none ∨ execution'.decisionKey = execution.decisionKey

namespace Workflow

variable {core : Tables} {w w' : Workflow}

theorem Moves.commit_or_keysKept {act : WorkflowAct} (h : w.Moves core act w') :
    (∃ runId result now, ∃ commit : Commit w runId, act = .commit runId result now ∧
        w' = commit.after result now) ∨ w.execution.KeysKept w'.execution := by
  cases h with
  | commit commit => exact Or.inl ⟨_, _, _, commit, rfl, rfl⟩
  | rotate _ | relink _ _ _ | finishLate _ _ _ | setPaused _ =>
    exact Or.inr ⟨Or.inr rfl, Or.inr rfl⟩
  | loseRun _ | miss _ _ | close _ _ _ | loseAuthority _ _ _ _ _ | dispatch _ | cancel _ =>
    exact Or.inr ⟨Or.inl rfl, Or.inl rfl⟩
  | wake _ _ _ => exact Or.inr ⟨Or.inl rfl, Or.inr rfl⟩
  | @decide w verdict _ _ =>
    rcases decided_execution w verdict with ⟨-, hexecution⟩ | ⟨-, hexecution⟩
    · rw [hexecution]
      exact Or.inr ⟨Or.inr rfl, Or.inl rfl⟩
    · rw [hexecution]
      exact Or.inr ⟨Or.inr rfl, Or.inr rfl⟩

theorem loads_opens {w : Workflow} {request : WorkflowCreationRequest} {run : RunRecord}
    (h : w.Opens core request run) : w.execution.Loads :=
  h.loads

theorem loads_of_grows (h : w.execution.Loads) (hgrows : w.Grows w')
    (hsteps : w'.execution.stepCount ≤ w'.execution.budget.maxSteps)
    (hsignal : ∀ key ∈ w'.execution.signalKey, ValidSafeKey key)
    (hdecision : ∀ key ∈ w'.execution.decisionKey, key.ValidSafeKey) : w'.execution.Loads := by
  have hid : w'.execution.id = w.execution.id :=
    frozen_column hgrows.frozen WorkflowExecutionRecord.id fun _ => rfl
  have howner : w'.execution.ownerUserId = w.execution.ownerUserId :=
    frozen_column hgrows.frozen WorkflowExecutionRecord.ownerUserId fun _ => rfl
  have hagent : w'.execution.agentInstanceId = w.execution.agentInstanceId :=
    frozen_column hgrows.frozen WorkflowExecutionRecord.agentInstanceId fun _ => rfl
  have hkind : w'.execution.workflowKind = w.execution.workflowKind :=
    frozen_column hgrows.frozen WorkflowExecutionRecord.workflowKind fun _ => rfl
  have hsubmission : w'.execution.submissionKey = w.execution.submissionKey :=
    frozen_column hgrows.frozen WorkflowExecutionRecord.submissionKey fun _ => rfl
  refine ⟨?_, ?_, ?_, hsteps, hsignal, hdecision⟩
  · rw [hid, howner, hagent]
    exact h.positive
  · rw [hkind]
    exact h.kind
  · rw [hsubmission]
    exact h.submission

theorem Commit.keys_valid {w : Workflow} {runId : Nat} {result : WorkflowStepResult}
    (commit : Commit w runId) (now : Instant)
    (hbound : result.Bound commit.step.expectedCheckpointRevision) :
    (∀ key ∈ (commit.after result now).execution.signalKey, ValidSafeKey key) ∧
      ∀ key ∈ (commit.after result now).execution.decisionKey, key.ValidSafeKey := by
  constructor
  · intro key hkey
    change key ∈ if result.directive.kind = .wait then result.directive.signalKey else none at hkey
    split at hkey
    · exact hbound.signalKey key hkey
    · cases hkey
  · intro key hkey
    change key ∈ if result.directive.kind = .wait then result.directive.decisionKey else none
      at hkey
    split at hkey
    · exact hbound.decisionKey key hkey
    · cases hkey

theorem loads_moves {act : WorkflowAct} (h : w.execution.Loads) (hbound : act.Bound w)
    (hmoves : w.Moves core act w') :
    w'.execution.Loads := by
  have hgrows := hmoves.grows
  have hsteps : w'.execution.stepCount ≤ w'.execution.budget.maxSteps := by
    rw [hgrows.budget]
    rcases hmoves.dispatch_or_undrawn with ⟨now, dispatch, -, rfl⟩ | hundrawn
    · exact dispatch.steps
    · rw [hundrawn.stepCount]
      exact h.steps
  rcases hmoves.commit_or_keysKept with ⟨runId, result, now, commit, rfl, rfl⟩ | hkept
  · obtain ⟨hsignal, hdecision⟩ := commit.keys_valid now
      (hbound commit.step commit.owned commit.linked)
    exact loads_of_grows h hgrows hsteps hsignal hdecision
  · apply loads_of_grows h hgrows hsteps
    · rcases hkept.signalKey with hkey | hkey <;> rw [hkey]
      · exact nofun
      · exact h.signal
    · rcases hkept.decisionKey with hkey | hkey <;> rw [hkey]
      · exact nofun
      · exact h.decision

end Workflow

section Decoding

variable {snapshot : WorkflowStepSnapshot} {executable : ExecutableSnapshot} {decodedAt : Instant}
  {decisionKey : DecisionKey}

theorem decisionRequest_bound {item : JsonMembers} {request : WorkflowDecisionRequest}
    (h : decisionRequest item snapshot executable decodedAt = .ok (decisionKey, request)) :
    decisionKey.ValidSafeKey ∧ request.checkpointRevision = snapshot.checkpointRevision := by
  simp only [decisionRequest, bind_eq_ok] at h
  obtain ⟨expires, -, ⟨upstream, tool⟩, -, arguments, -, preview, -, h⟩ := h
  split at h
  · obtain ⟨rfl, rfl⟩ := Prod.mk.inj (Except.ok.inj h)
    exact ⟨trivial, rfl⟩
  · cases h

variable {directive : WorkflowDirective} {fields : DirectiveFields}

theorem validDirective_fields (h : validDirective fields = .ok directive) :
    directive.toDirectiveFields = fields := by
  unfold validDirective at h
  split at h
  · rw [← Except.ok.inj h]
  · cases h

variable {request : Option WorkflowDecisionRequest}

theorem asks_of_keyless (revision : Nat) (hsignal : fields.signalKey = none)
    (hdecision : fields.decisionKey = none)
    (h : (validDirective fields >>= fun directive => .ok (directive, none)) =
      Except.ok (directive, request)) : directive.Asks request revision := by
  obtain ⟨resolved, hvalid, heq⟩ := bind_eq_ok.mp h
  obtain ⟨rfl, rfl⟩ := Prod.mk.inj (Except.ok.inj heq)
  have hfields := validDirective_fields hvalid
  constructor
  · rw [hfields, hsignal]
    exact nofun
  · rw [hfields, hdecision]
    exact nofun
  · exact nofun
  · exact fun hrequest => absurd rfl hrequest

theorem asks_of_signal {key : String} {revision : Nat}
    (h : (validDirective { kind := .wait, waitKind := some .signal, signalKey := some key } >>=
      fun directive => .ok (directive, none)) = Except.ok (directive, request)) :
    directive.Asks request revision := by
  obtain ⟨resolved, hvalid, heq⟩ := bind_eq_ok.mp h
  obtain ⟨rfl, rfl⟩ := Prod.mk.inj (Except.ok.inj heq)
  have hfields := validDirective_fields hvalid
  have hkey := resolved.valid
  rw [hfields] at hkey
  constructor
  · rw [hfields]
    rintro _ ⟨⟩
    exact of_decide_eq_true hkey.2.2
  · rw [hfields]
    exact nofun
  · exact nofun
  · exact fun hrequest => absurd rfl hrequest

theorem asks_of_proposal {proposal : WorkflowDecisionRequest} {revision : Nat}
    (hproposal : decisionKey.ValidSafeKey ∧ proposal.checkpointRevision = revision)
    (h : (validDirective
        { kind := .wait, waitKind := some .ownerDecision, decisionKey := some decisionKey } >>=
      fun directive => .ok (directive, some proposal)) = Except.ok (directive, request)) :
    directive.Asks request revision := by
  obtain ⟨resolved, hvalid, heq⟩ := bind_eq_ok.mp h
  obtain ⟨rfl, rfl⟩ := Prod.mk.inj (Except.ok.inj heq)
  have hfields := validDirective_fields hvalid
  constructor
  · rw [hfields]
    exact nofun
  · rw [hfields]
    rintro _ ⟨⟩
    exact hproposal.1
  · rintro _ ⟨⟩
    exact hproposal.2
  · intro _
    rw [hfields]

theorem workflowDirective_asks {value : JsonMembers}
    (h : workflowDirective value snapshot executable decodedAt = .ok (directive, request)) :
    directive.Asks request snapshot.checkpointRevision := by
  unfold workflowDirective at h
  split at h
  · exact asks_of_keyless _ rfl rfl h
  · exact asks_of_keyless _ rfl rfl h
  · split at h
    · split at h
      · split at h
        · cases h
        · exact asks_of_keyless _ rfl rfl h
      · cases h
    · split at h
      · split at h
        · cases h
        · exact asks_of_signal h
      · cases h
    · split at h
      · obtain ⟨⟨decisionKey, proposal⟩, hproposal, h⟩ := bind_eq_ok.mp h
        exact asks_of_proposal (decisionRequest_bound hproposal) h
      · cases h
    · cases h
  · cases h

variable {result : WorkflowStepResult}

theorem validResult_eq {state : FrozenState}
    {summary : { summary : Option String // ∀ text ∈ summary, ValidSummary text }}
    (h : validResult directive state summary request = .ok result) :
    result.directive = directive ∧ result.decisionRequest = request := by
  unfold validResult at h
  split at h
  · obtain rfl := Except.ok.inj h
    exact ⟨rfl, rfl⟩
  · cases h

theorem workflowStepResult_bound {value : Option Json.Value}
    (h : workflowStepResult value (some snapshot) executable decodedAt = .ok (some result)) :
    result.Bound snapshot.checkpointRevision := by
  unfold workflowStepResult at h
  split at h
  · cases h
  · cases h
  · cases h
  · rename_i handed payload heq
    obtain rfl := Option.some.inj heq
    split at h
    · rename_i directive _
      obtain ⟨summary, -, h⟩ := bind_eq_ok.mp h
      obtain ⟨⟨resolved, request⟩, hdirective, h⟩ := bind_eq_ok.mp h
      obtain ⟨state, -, h⟩ := bind_eq_ok.mp h
      obtain ⟨decoded, hresult, heq⟩ := bind_eq_ok.mp h
      obtain rfl := Option.some.inj (Except.ok.inj heq)
      obtain ⟨hresolved, hrequest⟩ := validResult_eq hresult
      rw [WorkflowStepResult.Bound, hresolved, hrequest]
      exact workflowDirective_asks hdirective
    · cases h
  · cases h

end Decoding

theorem exists_completedResult {own : WorkflowTables} {runId : Nat} {result : WorkflowStepResult}
    (h : stepResult own runId none = .ok (some result)) :
    ∃ state, result = completedResult state := by
  simp only [stepResult] at h
  split at h
  · cases h
  · rename_i step _
    cases hload : loadState step.stateJson with
    | none =>
      rw [hload] at h
      cases h
    | some state =>
      rw [hload] at h
      exact ⟨state, (Option.some.inj (Except.ok.inj h)).symm⟩

def WorkflowOp.Decoded (system : WorkflowSystem) : WorkflowOp → Prop
  | .succeed claim _ (some result) _ => ∃ snapshot value executable decodedAt,
      (claim.runId, snapshot) ∈ system.handed ∧
        workflowStepResult value (some snapshot) executable decodedAt = .ok (some result)
  | .succeed _ _ none _ | .engine _ | .create _ _ | .readStep _ | .tick _ | .deliverSignal _
  | .decide _ | .setPaused _ _ _ _ | .cancel _ _ _ => True

theorem decoded_of_handed {system : WorkflowSystem} {claim : ClaimedAttempt} {revision : Nat}
    {result : WorkflowStepResult}
    (hhanded : (claim.runId, revision) ∈
      system.handed.map fun entry => (entry.1, entry.2.checkpointRevision))
    (hdecodes : ∀ snapshot : WorkflowStepSnapshot, snapshot.checkpointRevision = revision →
      ∃ value executable decodedAt,
        workflowStepResult value (some snapshot) executable decodedAt = .ok (some result))
    (completion : Completion) (now : Instant) :
    (WorkflowOp.succeed claim completion (some result) now).Decoded system := by
  obtain ⟨⟨runId, snapshot⟩, hentry, heq⟩ := List.mem_map.mp hhanded
  obtain ⟨rfl, rfl⟩ := Prod.mk.inj heq
  obtain ⟨value, executable, decodedAt, hvalue⟩ := hdecodes snapshot rfl
  exact ⟨snapshot, value, executable, decodedAt, hentry, hvalue⟩

namespace WorkflowSystem

variable {policy : QueuePolicy} {system : WorkflowSystem} {op : WorkflowOp} {act : WorkflowAct}
  {id : Nat} {w : Workflow}

section

variable (h : (workflowEngine policy).Reachable system)

include h

theorem decoded_bound {runId : Nat} {snapshot : WorkflowStepSnapshot}
    (hhanded : (runId, snapshot) ∈ system.handed) {result : WorkflowStepResult}
    (hbound : result.Bound snapshot.checkpointRevision) (hw : system.workflow id = some w) :
    ∀ step ∈ w.steps, step.runId = some runId →
      result.Bound step.expectedCheckpointRevision := by
  intro step hstep hrun
  obtain ⟨id', w', hw', other, hother, hrun', -, hrevision, -⟩ :=
    reachable_handed h _ hhanded
  obtain rfl := eq_of_step_run ((mem_steps hw').mp hother).1 ((mem_steps hw).mp hstep).1 hrun' hrun
  rw [hrevision]
  exact hbound

theorem settled_bound {claim : ClaimedAttempt} {workflowStep : Option WorkflowStepResult}
    {now : Instant}
    (hdecoded : ∀ result ∈ workflowStep, ∃ snapshot value executable decodedAt,
      (claim.runId, snapshot) ∈ system.handed ∧
        workflowStepResult value (some snapshot) executable decodedAt = .ok (some result))
    (hact : system.settled claim workflowStep now = some act) (hw : system.workflow id = some w) :
    act.Bound w := by
  unfold WorkflowSystem.settled at hact
  split at hact
  · rename_i result hresult
    obtain rfl := Option.some.inj hact
    cases workflowStep with
    | some given =>
      obtain rfl := Option.some.inj (Except.ok.inj hresult)
      obtain ⟨snapshot, value, executable, decodedAt, hhanded, hvalue⟩ := hdecoded given rfl
      exact decoded_bound h hhanded (workflowStepResult_bound hvalue) hw
    | none =>
      obtain ⟨state, rfl⟩ := exists_completedResult hresult
      exact fun step _ _ => completedResult_bound state _
  all_goals cases hact

theorem act_bound (hdecoded : op.Decoded system) (hact : op.act system = some act)
    (hw : system.workflow id = some w) : act.Bound w := by
  cases op with
  | engine op =>
    obtain ⟨claim, now, hsettled⟩ := act_engine hact
    apply settled_bound h _ hsettled hw
    intro result hresult
    cases hresult
  | succeed claim completion workflowStep now =>
    apply settled_bound h _ hact hw
    rintro result rfl
    exact hdecoded
  | create request preparation | readStep runId => cases hact
  | tick | deliverSignal | decide | setPaused | cancel =>
    obtain rfl := Option.some.inj hact
    trivial

end

theorem decoded_invariant {ok : WorkflowSystem → WorkflowOp → Prop} {I : Workflow → Prop}
    (hok : ∀ system op, ok system op → op.Decoded system)
    (hopens : ∀ core w request run, w.Opens core request run → I w)
    (hmoves : ∀ core act w w', I w → act.Bound w → w.Moves core act w' → I w')
    (h : (workflowEngine policy).ReachableAlong ok system) (hw : system.workflow id = some w) :
    I w := by
  apply workflow_invariant_along ok WorkflowAct.Bound _ hopens hmoves h hw
  intro system op act id w hreach hop hact hw
  exact Or.inl (act_bound hreach.reachable (hok system op hop) hact hw)

variable (h : (workflowEngine policy).ReachableAlong (fun system op => op.Decoded system) system)
    (hw : system.workflow id = some w)

include h hw

theorem decoded_loads : w.execution.Loads :=
  decoded_invariant (fun _ _ hop => hop) (fun _ _ _ _ => Workflow.loads_opens)
    (fun _ _ _ _ => Workflow.loads_moves) h hw

theorem decoded_proposing : w.Proposing :=
  decoded_invariant (fun _ _ hop => hop) (fun _ _ _ _ => .opens) (fun _ _ _ _ h => h.moves) h hw

end WorkflowSystem

end NervOS
