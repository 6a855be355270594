/-
The constructors of a directive and of a step result, on the fields as a step hands them over,
and their field exclusivity.  The constructors refuse most ambiguous combinations; what they let
through is listed here, and nothing else is.
-/
import NervOS.Domain.Workflows

namespace NervOS

/-- A `datetime`: without a zone, with one, or with one and outside the years of UTC. -/
inductive Timestamp where
  | naive (reading : Instant)
  | aware (instant : Instant)
  | beyond
deriving DecidableEq

inductive DirectiveError where
  | invalidWorkflow (message : String)
  | invalidState
  | overflow
deriving DecidableEq

/-- The arguments of `WorkflowDirective`. -/
structure DirectiveArguments where
  kind : WorkflowDirectiveKind
  waitKind : Option WorkflowWaitKind := none
  wakeupAt : Option Timestamp := none
  waitSeconds : Option Int := none
  signalKey : Option String := none
  decisionKey : Option String := none
deriving DecidableEq

/-- The arguments of `WorkflowStepResult`, but for the directive. -/
structure StepResultArguments where
  state : Json.Value
  summary : Option String := none
  decisionRequest : Option WorkflowDecisionRequest := none

def utc : Timestamp → Except DirectiveError Instant
  | .naive _ => .error (.invalidWorkflow "workflow timestamps must be timezone-aware")
  | .aware instant => .ok instant
  | .beyond => .error .overflow

def validateSafeKey (key fieldName : String) : Except DirectiveError Unit :=
  if ValidSafeKey key then .ok ()
  else .error (.invalidWorkflow ("invalid workflow " ++ fieldName))

def validateSummary : Option String → Except DirectiveError Unit
  | none => .ok ()
  | some summary =>
    if ValidSummary summary then .ok ()
    else .error (.invalidWorkflow "workflow step summary is invalid")

/-- The fields that a completing or next-step directive is checked for. -/
def DirectiveArguments.CarriesWaitFields (fields : DirectiveArguments) : Prop :=
  fields.waitKind ≠ none ∨ fields.wakeupAt ≠ none ∨ fields.waitSeconds ≠ none ∨
    fields.signalKey ≠ none

instance : DecidablePred DirectiveArguments.CarriesWaitFields := fun _ =>
  inferInstanceAs (Decidable (_ ∨ _ ∨ _ ∨ _))

def refuseWaitFields (fields : DirectiveArguments) (message : String) :
    Except DirectiveError DirectiveArguments :=
  if fields.CarriesWaitFields then .error (.invalidWorkflow message) else .ok fields

def constructTimeWait (fields : DirectiveArguments) :
    Except DirectiveError DirectiveArguments :=
  if fields.signalKey ≠ none ∨ fields.decisionKey ≠ none then
    .error (.invalidWorkflow "a time wait carries no signal identity")
  else
    match fields.wakeupAt, fields.waitSeconds with
    | none, none | some _, some _ =>
      .error (.invalidWorkflow
        "a time wait needs exactly one of wakeup_at or wait_seconds")
    | some wakeupAt, none =>
      match utc wakeupAt with
      | .error error => .error error
      | .ok instant => .ok { fields with wakeupAt := some (.aware instant) }
    | none, some waitSeconds =>
      if 1 ≤ waitSeconds ∧ waitSeconds ≤ maxWaitSeconds then .ok fields
      else .error (.invalidWorkflow "wait_seconds is outside its bounds")

def constructKeyWait (fields : DirectiveArguments) (key : Option String)
    (carriesTime requiresKey fieldName : String) :
    Except DirectiveError DirectiveArguments :=
  if fields.wakeupAt ≠ none ∨ fields.waitSeconds ≠ none then
    .error (.invalidWorkflow carriesTime)
  else
    match key with
    | none => .error (.invalidWorkflow requiresKey)
    | some key =>
      match validateSafeKey key fieldName with
      | .error error => .error error
      | .ok () => .ok fields

def constructSignalWait (fields : DirectiveArguments) :
    Except DirectiveError DirectiveArguments :=
  constructKeyWait fields fields.signalKey "a signal wait carries no time field"
    "a signal wait requires signal_key" "signal key"

def constructDecisionWait (fields : DirectiveArguments) :
    Except DirectiveError DirectiveArguments :=
  constructKeyWait fields fields.decisionKey "a decision wait carries no time field"
    "a decision wait requires decision_key" "decision key"

/-- `WorkflowDirective.__post_init__`. -/
def constructDirective (fields : DirectiveArguments) :
    Except DirectiveError DirectiveArguments :=
  match fields.kind with
  | .complete => refuseWaitFields fields "a completing directive carries no wait fields"
  | .next => refuseWaitFields fields "a next-step directive carries no wait fields"
  | .wait =>
    match fields.waitKind with
    | some .time => constructTimeWait fields
    | some .signal => constructSignalWait fields
    | some .ownerDecision => constructDecisionWait fields
    | none => .error (.invalidWorkflow "a wait directive requires a wait kind")

/-- `WorkflowStepResult.__post_init__`, for a directive that was constructed. -/
def constructStepResult (directive : DirectiveArguments) (result : StepResultArguments) :
    Except DirectiveError FrozenState :=
  match freezeState result.state with
  | none => .error .invalidState
  | some state =>
    match validateSummary result.summary with
    | .error error => .error error
    | .ok () =>
      if result.decisionRequest.isNone ∧ directive.kind = .wait ∧
          directive.waitKind = some .ownerDecision then
        .error (.invalidWorkflow "a decision wait requires a decision request")
      else if result.decisionRequest.isSome ∧ directive.kind ≠ .wait then
        .error (.invalidWorkflow "a decision request requires a decision wait")
      else .ok state

/-- Both constructors in turn. -/
def constructStep (fields : DirectiveArguments) (result : StepResultArguments) :
    Except DirectiveError FrozenState := do
  let directive ← constructDirective fields
  constructStepResult directive result

/-- What the constructor of a directive checks. -/
def DirectiveArguments.Accepted (fields : DirectiveArguments) : Prop :=
  match fields.kind, fields.waitKind with
  | .complete, _ | .next, _ => ¬ fields.CarriesWaitFields
  | .wait, some .time =>
    fields.signalKey = none ∧ fields.decisionKey = none ∧
      ((∃ instant, fields.wakeupAt = some (.aware instant) ∧ fields.waitSeconds = none) ∨
        (∃ count, fields.wakeupAt = none ∧ fields.waitSeconds = some count ∧
          1 ≤ count ∧ count ≤ maxWaitSeconds))
  | .wait, some .signal =>
    fields.wakeupAt = none ∧ fields.waitSeconds = none ∧
      ∃ key, fields.signalKey = some key ∧ ValidSafeKey key
  | .wait, some .ownerDecision =>
    fields.wakeupAt = none ∧ fields.waitSeconds = none ∧
      ∃ key, fields.decisionKey = some key ∧ ValidSafeKey key
  | .wait, none => False

/-- What the constructor of a result checks. -/
structure StepResultArguments.Accepted (directive : DirectiveArguments)
    (result : StepResultArguments) : Prop where
  state : Freezable checkpointMaxBytes result.state
  summary : ∀ summary ∈ result.summary, ValidSummary summary
  requested : directive.kind = .wait → directive.waitKind = some .ownerDecision →
    result.decisionRequest ≠ none
  waited : result.decisionRequest ≠ none → directive.kind = .wait

theorem isOk_refuseWaitFields (fields : DirectiveArguments) (message : String) :
    (refuseWaitFields fields message).isOk = true ↔ ¬ fields.CarriesWaitFields := by
  rw [refuseWaitFields]
  by_cases hcarries : fields.CarriesWaitFields
  · simp [hcarries, Except.isOk, Except.toBool]
  · simp [hcarries, Except.isOk, Except.toBool]

theorem isOk_validateSafeKey (key fieldName : String) :
    (validateSafeKey key fieldName).isOk = true ↔ ValidSafeKey key := by
  rw [validateSafeKey]
  by_cases hkey : ValidSafeKey key
  · simp [hkey, Except.isOk, Except.toBool]
  · simp [hkey, Except.isOk, Except.toBool]

theorem isOk_constructTimeWait (fields : DirectiveArguments) :
    (constructTimeWait fields).isOk = true ↔
      fields.signalKey = none ∧ fields.decisionKey = none ∧
        ((∃ instant, fields.wakeupAt = some (.aware instant) ∧ fields.waitSeconds = none) ∨
          (∃ count, fields.wakeupAt = none ∧ fields.waitSeconds = some count ∧
            1 ≤ count ∧ count ≤ maxWaitSeconds)) := by
  rw [constructTimeWait]
  by_cases hkeys : fields.signalKey ≠ none ∨ fields.decisionKey ≠ none
  · rw [if_pos hkeys]
    simp only [Except.isOk, Except.toBool, Bool.false_eq_true, false_iff]
    rintro ⟨hsignal, hdecision, -⟩
    cases hkeys with
    | inl hkey => exact hkey hsignal
    | inr hkey => exact hkey hdecision
  · rw [if_neg hkeys]
    simp only [not_or, not_not] at hkeys
    simp only [hkeys.1, hkeys.2, true_and]
    cases hwakeup : fields.wakeupAt with
    | none =>
      cases hseconds : fields.waitSeconds with
      | none => simp [Except.isOk, Except.toBool]
      | some count =>
        by_cases hbounds : 1 ≤ count ∧ count ≤ maxWaitSeconds
        · simp [hbounds, Except.isOk, Except.toBool]
        · simp [hbounds, Except.isOk, Except.toBool]
    | some wakeupAt =>
      cases hseconds : fields.waitSeconds with
      | none => cases wakeupAt <;> simp [utc, Except.isOk, Except.toBool]
      | some count => simp [Except.isOk, Except.toBool]

theorem isOk_constructKeyWait (fields : DirectiveArguments) (key : Option String)
    (carriesTime requiresKey fieldName : String) :
    (constructKeyWait fields key carriesTime requiresKey fieldName).isOk = true ↔
      fields.wakeupAt = none ∧ fields.waitSeconds = none ∧
        ∃ name, key = some name ∧ ValidSafeKey name := by
  unfold constructKeyWait
  by_cases htimes : fields.wakeupAt ≠ none ∨ fields.waitSeconds ≠ none
  · rw [if_pos htimes]
    simp only [Except.isOk, Except.toBool, Bool.false_eq_true, false_iff]
    rintro ⟨hwakeup, hseconds, -⟩
    cases htimes with
    | inl htime => exact htime hwakeup
    | inr htime => exact htime hseconds
  · rw [if_neg htimes]
    simp only [not_or, not_not] at htimes
    simp only [htimes.1, htimes.2, true_and]
    cases key with
    | none => simp [Except.isOk, Except.toBool]
    | some name =>
      have hname := isOk_validateSafeKey name fieldName
      cases hkey : validateSafeKey name fieldName with
      | error | ok =>
        rw [hkey] at hname
        simpa [hkey, Except.isOk, Except.toBool] using hname

theorem isOk_constructDirective (fields : DirectiveArguments) :
    (constructDirective fields).isOk = true ↔ fields.Accepted := by
  rw [constructDirective, DirectiveArguments.Accepted]
  cases fields.kind with
  | complete | next => exact isOk_refuseWaitFields _ _
  | wait =>
    cases fields.waitKind with
    | none => simp [Except.isOk, Except.toBool]
    | some waitKind =>
      cases waitKind with
      | time => exact isOk_constructTimeWait fields
      | signal | ownerDecision => exact isOk_constructKeyWait fields _ _ _ _

theorem eq_of_refuseWaitFields {fields directive : DirectiveArguments} {message : String}
    (h : refuseWaitFields fields message = .ok directive) : directive = fields := by
  rw [refuseWaitFields] at h
  by_cases hcarries : fields.CarriesWaitFields
  · rw [if_pos hcarries] at h
    cases h
  · rw [if_neg hcarries] at h
    cases h
    rfl

theorem eq_of_constructKeyWait {fields directive : DirectiveArguments} {key : Option String}
    {carriesTime requiresKey fieldName : String}
    (h : constructKeyWait fields key carriesTime requiresKey fieldName = .ok directive) :
    directive = fields := by
  unfold constructKeyWait at h
  by_cases htimes : fields.wakeupAt ≠ none ∨ fields.waitSeconds ≠ none
  · rw [if_pos htimes] at h
    cases h
  · rw [if_neg htimes] at h
    cases key with
    | none => cases h
    | some name =>
      cases hname : validateSafeKey name fieldName with
      | error error =>
        simp only [hname] at h
        cases h
      | ok =>
        simp only [hname] at h
        cases h
        rfl

theorem eq_of_constructTimeWait {fields directive : DirectiveArguments}
    (h : constructTimeWait fields = .ok directive) : directive = fields := by
  obtain ⟨-, -, htime⟩ := (isOk_constructTimeWait fields).1 (by rw [h]; rfl)
  have hkeys : ¬ (fields.signalKey ≠ none ∨ fields.decisionKey ≠ none) := by
    intro hkeys
    rw [constructTimeWait, if_pos hkeys] at h
    cases h
  rw [constructTimeWait, if_neg hkeys] at h
  cases htime with
  | inl hwakeup =>
    obtain ⟨instant, hwakeup, hseconds⟩ := hwakeup
    simp only [hwakeup, hseconds, utc, Except.ok.injEq] at h
    rw [← h]
    cases fields
    simp only at hwakeup hseconds
    simp [hwakeup, hseconds]
  | inr hseconds =>
    obtain ⟨count, hwakeup, hseconds, hbounds⟩ := hseconds
    simp only [hwakeup, hseconds, if_pos hbounds, Except.ok.injEq] at h
    exact h.symm

theorem eq_of_constructDirective {fields directive : DirectiveArguments}
    (h : constructDirective fields = .ok directive) : directive = fields := by
  rw [constructDirective] at h
  cases hkind : fields.kind with
  | complete | next =>
    rw [hkind] at h
    exact eq_of_refuseWaitFields h
  | wait =>
    rw [hkind] at h
    cases hwait : fields.waitKind with
    | none =>
      simp only [hwait] at h
      cases h
    | some waitKind =>
      cases waitKind with
      | time =>
        simp only [hwait] at h
        exact eq_of_constructTimeWait h
      | signal | ownerDecision =>
        simp only [hwait] at h
        exact eq_of_constructKeyWait h

theorem isOk_validateSummary (summary : Option String) :
    (validateSummary summary).isOk = true ↔ ∀ text ∈ summary, ValidSummary text := by
  cases summary with
  | none => simp [validateSummary, Except.isOk, Except.toBool]
  | some text =>
    by_cases htext : ValidSummary text
    · simp [validateSummary, htext, Except.isOk, Except.toBool]
    · simp [validateSummary, htext, Except.isOk, Except.toBool]

theorem isOk_constructStepResult (directive : DirectiveArguments)
    (result : StepResultArguments) :
    (constructStepResult directive result).isOk = true ↔ result.Accepted directive := by
  unfold constructStepResult
  by_cases hstate : Freezable checkpointMaxBytes result.state
  · have hsummary := isOk_validateSummary result.summary
    rw [freezeState, dif_pos hstate]
    cases hvalidated : validateSummary result.summary with
    | error error =>
      rw [hvalidated] at hsummary
      have hinvalid := mt hsummary.2 (by simp [Except.isOk, Except.toBool])
      simp only [Except.isOk, Except.toBool, Bool.false_eq_true, false_iff]
      exact fun haccepted => hinvalid haccepted.summary
    | ok =>
      have hvalid := hsummary.1 (by rw [hvalidated]; rfl)
      dsimp only
      by_cases hrequested : result.decisionRequest.isNone ∧ directive.kind = .wait ∧
          directive.waitKind = some .ownerDecision
      · rw [if_pos hrequested]
        simp only [Except.isOk, Except.toBool, Bool.false_eq_true, false_iff]
        intro haccepted
        apply haccepted.requested hrequested.2.1 hrequested.2.2
        exact Option.isNone_iff_eq_none.1 hrequested.1
      · rw [if_neg hrequested]
        by_cases hwaited : result.decisionRequest.isSome ∧ directive.kind ≠ .wait
        · rw [if_pos hwaited]
          simp only [Except.isOk, Except.toBool, Bool.false_eq_true, false_iff]
          intro haccepted
          apply hwaited.2
          apply haccepted.waited
          exact Option.isSome_iff_ne_none.1 hwaited.1
        · rw [if_neg hwaited]
          simp only [Except.isOk, Except.toBool, true_iff]
          constructor
          · exact hstate
          · exact hvalid
          · intro hkind hwait hnone
            exact hrequested ⟨by rw [hnone]; rfl, hkind, hwait⟩
          · intro hsome
            by_contra hkind
            exact hwaited ⟨Option.isSome_iff_ne_none.2 hsome, hkind⟩
  · rw [freezeState, dif_neg hstate]
    simp only [Except.isOk, Except.toBool, Bool.false_eq_true, false_iff]
    exact fun haccepted => hstate haccepted.state

theorem isOk_constructStep (fields : DirectiveArguments) (result : StepResultArguments) :
    (constructStep fields result).isOk = true ↔
      fields.Accepted ∧ result.Accepted fields := by
  rw [constructStep, ← isOk_constructDirective, ← isOk_constructStepResult]
  cases hdirective : constructDirective fields with
  | error error => simp [Except.isOk, Except.toBool, bind, Except.bind]
  | ok directive =>
    rw [eq_of_constructDirective hdirective]
    simp [Except.isOk, Except.toBool, bind, Except.bind]

/-- The fields of an accepted directive, as the rest of the engine reads them. -/
def DirectiveArguments.fields (fields : DirectiveArguments) : DirectiveFields where
  kind := fields.kind
  waitKind := fields.waitKind
  wakeupAt := fields.wakeupAt.bind fun timestamp =>
    match timestamp with
    | .aware instant => some instant
    | .naive _ | .beyond => none
  waitSeconds := fields.waitSeconds.map Int.toNat
  signalKey := fields.signalKey
  decisionKey := fields.decisionKey.map .name

section Exclusive

def DirectiveArguments.Exclusive (fields : DirectiveArguments) : Prop :=
  match fields.kind, fields.waitKind with
  | .complete, waitKind | .next, waitKind =>
    waitKind = none ∧ fields.wakeupAt = none ∧ fields.waitSeconds = none ∧
      fields.signalKey = none ∧ fields.decisionKey = none
  | .wait, some .time =>
    (fields.wakeupAt = none ↔ fields.waitSeconds ≠ none) ∧
      fields.signalKey = none ∧ fields.decisionKey = none
  | .wait, some .signal =>
    fields.signalKey ≠ none ∧ fields.wakeupAt = none ∧ fields.waitSeconds = none ∧
      fields.decisionKey = none
  | .wait, some .ownerDecision =>
    fields.decisionKey ≠ none ∧ fields.wakeupAt = none ∧ fields.waitSeconds = none ∧
      fields.signalKey = none
  | .wait, none => False

def StepResultArguments.Exclusive (fields : DirectiveArguments)
    (result : StepResultArguments) : Prop :=
  fields.Exclusive ∧
    (result.decisionRequest ≠ none ↔
      fields.kind = .wait ∧ fields.waitKind = some .ownerDecision)

def DirectiveArguments.CarriesUnread (fields : DirectiveArguments) : Prop :=
  match fields.kind, fields.waitKind with
  | .complete, _ | .next, _ | .wait, some .signal => fields.decisionKey ≠ none
  | .wait, some .ownerDecision => fields.signalKey ≠ none
  | .wait, some .time | .wait, none => False

def StepResultArguments.RequestsElsewhere (fields : DirectiveArguments)
    (result : StepResultArguments) : Prop :=
  result.decisionRequest ≠ none ∧ fields.kind = .wait ∧
    fields.waitKind ≠ some .ownerDecision

variable {fields : DirectiveArguments}

theorem exclusive_iff_of_accepted (haccepted : fields.Accepted) :
    fields.Exclusive ↔ ¬ fields.CarriesUnread := by
  rw [DirectiveArguments.Accepted] at haccepted
  rw [DirectiveArguments.Exclusive, DirectiveArguments.CarriesUnread]
  cases hkind : fields.kind with
  | complete | next =>
    simp only [hkind, DirectiveArguments.CarriesWaitFields, not_or, not_not] at haccepted
    simp [haccepted]
  | wait =>
    cases hwait : fields.waitKind with
    | none => simp [hkind, hwait] at haccepted
    | some waitKind =>
      cases waitKind with
      | time =>
        simp only [hkind, hwait] at haccepted
        obtain ⟨hsignal, hdecision, htime⟩ := haccepted
        cases htime with
        | inl hwakeup =>
          obtain ⟨instant, hwakeup, hseconds⟩ := hwakeup
          simp [hsignal, hdecision, hwakeup, hseconds]
        | inr hseconds =>
          obtain ⟨count, hwakeup, hseconds, -⟩ := hseconds
          simp [hsignal, hdecision, hwakeup, hseconds]
      | signal =>
        simp only [hkind, hwait] at haccepted
        obtain ⟨hwakeup, hseconds, key, hsignal, -⟩ := haccepted
        simp [hwakeup, hseconds, hsignal]
      | ownerDecision =>
        simp only [hkind, hwait] at haccepted
        obtain ⟨hwakeup, hseconds, key, hdecision, -⟩ := haccepted
        simp [hwakeup, hseconds, hdecision]

theorem requested_iff_of_accepted {result : StepResultArguments}
    (haccepted : result.Accepted fields) :
    (result.decisionRequest ≠ none ↔
        fields.kind = .wait ∧ fields.waitKind = some .ownerDecision) ↔
      ¬ result.RequestsElsewhere fields := by
  rw [StepResultArguments.RequestsElsewhere]
  constructor
  · intro hiff helsewhere
    exact helsewhere.2.2 (hiff.1 helsewhere.1).2
  · intro hnowhere
    constructor
    · intro hrequest
      have hkind := haccepted.waited hrequest
      refine ⟨hkind, ?_⟩
      by_contra hwait
      exact hnowhere ⟨hrequest, hkind, hwait⟩
    · intro hdecision
      exact haccepted.requested hdecision.1 hdecision.2

end Exclusive

/-- A constructed directive has one interpretation, and with a constructed result one
interpretation together, exactly when the accepted arguments carry no field that is
not read and ask for no decision elsewhere. -/
theorem directives_exclusive (fields : DirectiveArguments) (result : StepResultArguments) :
    (((constructDirective fields).isOk = true → fields.Exclusive) ↔
        ¬ (fields.Accepted ∧ fields.CarriesUnread)) ∧
      (((constructStep fields result).isOk = true → result.Exclusive fields) ↔
        ¬ (fields.Accepted ∧ result.Accepted fields ∧
          (fields.CarriesUnread ∨ result.RequestsElsewhere fields))) := by
  rw [isOk_constructDirective, isOk_constructStep]
  constructor
  · constructor
    · intro hexclusive hunread
      exact (exclusive_iff_of_accepted hunread.1).1 (hexclusive hunread.1) hunread.2
    · intro hread haccepted
      rw [exclusive_iff_of_accepted haccepted]
      exact fun hunread => hread ⟨haccepted, hunread⟩
  · constructor
    · intro hexclusive hslip
      obtain ⟨hfields, hresult, hslip⟩ := hslip
      have hboth := hexclusive ⟨hfields, hresult⟩
      cases hslip with
      | inl hunread => exact (exclusive_iff_of_accepted hfields).1 hboth.1 hunread
      | inr helsewhere => exact (requested_iff_of_accepted hresult).1 hboth.2 helsewhere
    · intro hread haccepted
      constructor
      · rw [exclusive_iff_of_accepted haccepted.1]
        exact fun hunread => hread ⟨haccepted.1, haccepted.2, Or.inl hunread⟩
      · rw [requested_iff_of_accepted haccepted.2]
        exact fun helsewhere => hread ⟨haccepted.1, haccepted.2, Or.inr helsewhere⟩

/-- A completing directive that names a decision is constructed, with its result. -/
theorem directives_not_exclusive :
    ¬ ∀ (fields : DirectiveArguments) (result : StepResultArguments),
      (constructStep fields result).isOk = true → result.Exclusive fields := by
  intro hexclusive
  have hboth := hexclusive { kind := .complete, decisionKey := some "approve" }
    { state := .obj [] } (by decide +kernel)
  exact absurd hboth.1.2.2.2.2 (by decide)

end NervOS
