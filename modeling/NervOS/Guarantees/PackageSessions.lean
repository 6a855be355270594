/-
A package Run stays inside its session, whatever its host sends: the budgets, one answer for each
request, the tools that were declared and pinned, and an outcome only behind a clean exit.
-/
import NervOS.Guarantees.ImmutableConfiguration
import NervOS.Worker.PackageSession

namespace NervOS

open Json Relational

def PackageCall.Resolved (input : PackageInput) (call : PackageCall) : Prop :=
  match input.binding? call.name with
  | some binding => call.descriptor.toolDefinitionId = binding.definitionId ∧
      call.descriptor.fingerprint = binding.fingerprint
  | none => call.descriptor.sourceKind = .builtin ∧ call.descriptor.upstreamName = call.name

def Capable (input : PackageInput) (features : List Value) : Prop :=
  (input.integration.structuredContext = true →
    .str runtimeIntegrationHostCapability ∈ features) ∧
    (input.integration.workflow = true ∨ input.isStep = true →
      .str workflowHostCapability ∈ features)

section Ledger

variable {input : PackageInput} {session : PackageSession}

/-- What the session's books say, wherever it stands. -/
structure PackageSession.Ledger (input : PackageInput) (session : PackageSession) : Prop where
  charged : session.requests.length ≤ session.modelCalls
  modelCalls : session.requests.length ≤ input.limits.maxModelCalls
  toolCalls : session.calls.length ≤ input.limits.maxToolCalls
  once : session.seenRequestIds.Nodup
  resolved : ∀ call ∈ session.calls, call.name ∈ input.declaredTools ∧ call.Resolved input
  numbered : session.calls.map (·.toolSequence) = List.range' 1 session.calls.length
  named : ∀ call ∈ session.calls,
    call.providerCallId = providerCallId input.attemptId call.toolSequence
  capable : ∀ features ∈ session.initialized, Capable input features

/-- The requests that are answered, and the one that is not yet. -/
structure PackageSession.Owes (session : PackageSession) (pending : List String)
    (results : Nat) : Prop where
  seen : session.seenRequestIds = session.responses.map (·.requestId) ++ pending
  results : session.results = results
  sequence : session.toolSequence = session.calls.length

/-- What holds at each place of the loop. -/
def PackageSession.Standing (input : PackageInput) (session : PackageSession) : Prop :=
  match session.phase with
  | .greeting | .initializing | .reading => session.Owes [] 0
  | .completing requestId | .invoking requestId => session.Owes [requestId] 0
  | .gathering requestId name _ => session.Owes [requestId] 0 ∧ name ∈ input.declaredTools
  | .exiting _ => session.Owes [] 1
  | .ended (.returned _) => session.Owes [] 1 ∧ session.exitCode = some 0 ∧
      session.used ≤ maxTotalOutputBytes
  | .ended (.raised _) | .ended .cancelled => ∃ pending, pending.length ≤ 1 ∧
      session.seenRequestIds = session.responses.map (·.requestId) ++ pending

/-- Both. -/
structure PackageSession.Kept (input : PackageInput) (session : PackageSession) : Prop where
  ledger : session.Ledger input
  standing : session.Standing input

theorem PackageSession.Standing.answered (h : session.Standing input) :
    ∃ pending, pending.length ≤ 1 ∧
      session.seenRequestIds = session.responses.map (·.requestId) ++ pending := by
  unfold Standing at h
  split at h
  · exact ⟨[], by simp, h.seen⟩
  · exact ⟨[], by simp, h.seen⟩
  · exact ⟨[], by simp, h.seen⟩
  · exact ⟨_, le_refl 1, h.seen⟩
  · exact ⟨_, le_refl 1, h.seen⟩
  · exact ⟨_, le_refl 1, h.1.seen⟩
  · exact ⟨[], by simp, h.seen⟩
  · exact ⟨[], by simp, h.1.seen⟩
  · exact h
  · exact h

theorem providerCallId_injective {attemptId left right : Nat}
    (h : providerCallId attemptId left = providerCallId attemptId right) : left = right := by
  unfold providerCallId at h
  have hdigits : Nat.toDigits 10 left = Nat.toDigits 10 right := by
    simpa using congrArg String.toList h
  rw [← Nat.ofDigitChars_ten_toDigits (n := left), hdigits, Nat.ofDigitChars_ten_toDigits]

theorem PackageSession.Ledger.distinct (h : session.Ledger input) :
    (session.calls.map (·.providerCallId)).Nodup := by
  have hnumbers : (session.calls.map (·.toolSequence)).Nodup := by
    rw [h.numbered]
    exact List.nodup_range'
  have hnames : session.calls.map (·.providerCallId) =
      (session.calls.map (·.toolSequence)).map (providerCallId input.attemptId) := by
    rw [List.map_map]
    exact List.map_congr_left h.named
  rw [hnames]
  exact List.Nodup.map (fun _ _ hequal => providerCallId_injective hequal) hnumbers

end Ledger

section Steps

variable {input : PackageInput} {session : PackageSession}

theorem PackageSession.Ledger.of_books {after : PackageSession} (h : session.Ledger input)
    (hrequests : after.requests = session.requests)
    (hmodelCalls : after.modelCalls = session.modelCalls) (hcalls : after.calls = session.calls)
    (hseen : after.seenRequestIds = session.seenRequestIds)
    (hinitialized : after.initialized = session.initialized) : after.Ledger input where
  charged := by rw [hrequests, hmodelCalls]; exact h.charged
  modelCalls := by rw [hrequests]; exact h.modelCalls
  toolCalls := by rw [hcalls]; exact h.toolCalls
  once := by rw [hseen]; exact h.once
  resolved := by rw [hcalls]; exact h.resolved
  numbered := by rw [hcalls]; exact h.numbered
  named := by rw [hcalls]; exact h.named
  capable := by rw [hinitialized]; exact h.capable

theorem PackageSession.Kept.raise (h : session.Kept input) (errorCode : String) :
    (session.raise errorCode).Kept input :=
  ⟨h.ledger.of_books rfl rfl rfl rfl rfl, h.standing.answered⟩

theorem PackageSession.Kept.cancelled (h : session.Kept input) :
    PackageSession.Kept input { session with phase := .ended .cancelled } :=
  ⟨h.ledger.of_books rfl rfl rfl rfl rfl, h.standing.answered⟩

theorem PackageSession.Ledger.respond (h : session.Ledger input) {requestId : String}
    (howes : session.Owes [requestId] 0) (type : String) (payload : Value) :
    (session.respond type requestId payload).Kept input where
  ledger := h.of_books rfl rfl rfl rfl rfl
  standing := by
    refine ⟨?_, howes.results, howes.sequence⟩
    simp [PackageSession.respond, howes.seen]

theorem PackageSession.Ledger.take (h : session.Ledger input) {requestId : String}
    (hnew : requestId ∉ session.seenRequestIds) (modelCalls : Nat)
    (hcharged : session.modelCalls ≤ modelCalls) :
    PackageSession.Ledger input { session with
      seenRequestIds := session.seenRequestIds ++ [requestId], modelCalls := modelCalls } where
  charged := le_trans h.charged hcharged
  modelCalls := h.modelCalls
  toolCalls := h.toolCalls
  once := by
    rw [List.nodup_append]
    refine ⟨h.once, by simp, ?_⟩
    rintro seen hseen taken htaken rfl
    rw [List.mem_singleton] at htaken
    exact hnew (htaken ▸ hseen)
  resolved := h.resolved
  numbered := h.numbered
  named := h.named
  capable := h.capable

theorem PackageSession.Owes.take (h : session.Owes [] 0) (requestId : String)
    (modelCalls : Nat) :
    PackageSession.Owes { session with
      seenRequestIds := session.seenRequestIds ++ [requestId], modelCalls := modelCalls }
      [requestId] 0 := by
  refine ⟨?_, h.results, h.sequence⟩
  simp [h.seen]

theorem PackageSession.Ledger.modelRequest (h : session.Ledger input)
    (howes : session.Owes [] 0) (message : HostMessage) :
    (session.modelRequest input message).Kept input := by
  have hkept : ∀ code, (session.raise code).Kept input := fun code =>
    ⟨h.of_books rfl rfl rfl rfl rfl, [], by simp, howes.seen⟩
  unfold PackageSession.modelRequest
  by_cases hseen : message.requestId ∈ session.seenRequestIds
  · rw [if_pos hseen]
    exact hkept _
  · rw [if_neg hseen]
    have hledger := h.take hseen (session.modelCalls + 1) (Nat.le_succ _)
    have htaken := howes.take message.requestId (session.modelCalls + 1)
    by_cases hbudget : input.limits.maxModelCalls < session.modelCalls + 1
    · rw [if_pos hbudget]
      exact ⟨hledger.of_books rfl rfl rfl rfl rfl, _, le_refl 1, htaken.seen⟩
    · rw [if_neg hbudget]
      cases packageModelRequest input message.payload with
      | error error =>
        exact ⟨hledger.of_books rfl rfl rfl rfl rfl, _, le_refl 1, htaken.seen⟩
      | ok request =>
        refine ⟨?_, htaken.seen, htaken.results, htaken.sequence⟩
        have hcharged := h.charged
        constructor
        case charged => simpa using hcharged
        case modelCalls =>
          rw [List.length_append, List.length_singleton]
          change session.requests.length + 1 ≤ _
          omega
        case toolCalls => exact h.toolCalls
        case once => exact hledger.once
        case resolved => exact h.resolved
        case numbered => exact h.numbered
        case named => exact h.named
        case capable => exact h.capable

theorem requestedTool_declared {payload arguments : Value} {name : String}
    (h : requestedTool input payload = some (name, arguments)) : name ∈ input.declaredTools := by
  unfold requestedTool at h
  split at h
  · split at h
    case isTrue hdeclared =>
      simp only [Option.some.injEq, Prod.mk.injEq] at h
      exact h.1 ▸ hdeclared.1
    case isFalse => simp at h
  · simp at h

theorem PackageSession.Ledger.toolRequest (h : session.Ledger input)
    (howes : session.Owes [] 0) (message : HostMessage) :
    (session.toolRequest input message).Kept input := by
  unfold PackageSession.toolRequest
  by_cases hseen : message.requestId ∈ session.seenRequestIds
  · rw [if_pos hseen]
    exact ⟨h.of_books rfl rfl rfl rfl rfl, [], by simp, howes.seen⟩
  · rw [if_neg hseen]
    have hledger := h.take hseen session.modelCalls (le_refl _)
    have htaken := howes.take message.requestId session.modelCalls
    cases hrequested : requestedTool input message.payload with
    | none => exact hledger.respond htaken _ _
    | some requested =>
      exact ⟨hledger.of_books rfl rfl rfl rfl rfl, ⟨htaken.seen, htaken.results,
        htaken.sequence⟩, requestedTool_declared hrequested⟩

theorem PackageSession.Ledger.runResult (h : session.Ledger input)
    (howes : session.Owes [] 0) (message : HostMessage) :
    (session.runResult message).Kept input := by
  unfold PackageSession.runResult
  have hraised : PackageSession.Kept input (PackageSession.protocolError
      { session with results := session.results + 1 }) :=
    ⟨h.of_books rfl rfl rfl rfl rfl, [], by simp, howes.seen⟩
  split
  case h_1 finalMessage hmessage =>
    by_cases hblank : isBlankText finalMessage
    · rw [if_pos hblank]
      exact hraised
    · rw [if_neg hblank]
      refine ⟨h.of_books rfl rfl rfl rfl rfl, howes.seen, ?_, howes.sequence⟩
      simp [howes.results]
  case h_2 => exact hraised

theorem capable_of_refusal {features : List Value}
    (h : hostCapabilityRefusal input features = none) : Capable input features := by
  unfold hostCapabilityRefusal at h
  split_ifs at h with hcontext hworkflow
  constructor
  · intro hstructured
    by_contra hmissing
    exact hcontext ⟨hstructured, hmissing⟩
  · intro hneeded
    by_contra hmissing
    exact hworkflow ⟨hneeded, hmissing⟩

section

variable (h : session.Ledger input) (howes : session.Owes [] 0)

include h howes

theorem PackageSession.Ledger.hello (message : HostMessage) :
    (session.hello input message).Kept input := by
  have hrefused : session.protocolError.Kept input :=
    ⟨h.of_books rfl rfl rfl rfl rfl, [], by simp, howes.seen⟩
  unfold PackageSession.hello
  by_cases htype : message.type = "host_hello"
  · rw [if_pos htype]
    cases helloFeatures message.payload with
    | none => exact hrefused
    | some features =>
      cases hrefusal : hostCapabilityRefusal input features with
      | some refusal => simpa only [hrefusal] using hrefused
      | none =>
        simp only [hrefusal]
        refine ⟨⟨h.charged, h.modelCalls, h.toolCalls, h.once, h.resolved, h.numbered,
          h.named, ?_⟩, howes.seen, howes.results, howes.sequence⟩
        simpa using capable_of_refusal hrefusal
  · rw [if_neg htype]
    exact hrefused

theorem PackageSession.Ledger.ready (message : HostMessage) :
    (session.ready message).Kept input := by
  unfold PackageSession.ready
  by_cases htype : message.type = "ready"
  · rw [if_pos htype]
    exact ⟨h.of_books rfl rfl rfl rfl rfl, howes.seen, howes.results, howes.sequence⟩
  · rw [if_neg htype]
    exact ⟨h.of_books rfl rfl rfl rfl rfl, [], by simp, howes.seen⟩

theorem PackageSession.Ledger.message (message : HostMessage) :
    (session.message input message).Kept input := by
  unfold PackageSession.message
  split
  · exact h.modelRequest howes message
  · exact h.toolRequest howes message
  · exact h.runResult howes message
  · exact ⟨h.of_books rfl rfl rfl rfl rfl, [], by simp, howes.seen⟩

theorem PackageSession.Ledger.frame (bytes : Nat) (document : Value) :
    (session.frame input bytes document).Kept input := by
  have hread : PackageSession.Ledger input { session with used := session.used + bytes } :=
    h.of_books rfl rfl rfl rfl rfl
  have howing : PackageSession.Owes { session with used := session.used + bytes } [] 0 :=
    ⟨howes.seen, howes.results, howes.sequence⟩
  have hrefused : PackageSession.Kept input
      (PackageSession.protocolError { session with used := session.used + bytes }) :=
    ⟨h.of_books rfl rfl rfl rfl rfl, [], by simp, howes.seen⟩
  unfold PackageSession.frame
  by_cases hbudget : maxTotalOutputBytes < session.used + bytes ∨ maxFrameBytes + 8 < bytes
  · rw [if_pos hbudget]
    exact hrefused
  · rw [if_neg hbudget]
    split
    · exact hread.hello howing _
    · exact hread.ready howing _
    · exact hread.message howing _
    · exact hrefused

end

variable {descriptors : List ToolDescriptor} {descriptor : ToolDescriptor}

theorem resolveTool_resolved {name : String}
    (h : resolveTool input name descriptors = some descriptor) (arguments : Value)
    (toolSequence : Nat) (callId : String) :
    PackageCall.Resolved input ⟨name, descriptor, arguments, toolSequence, callId⟩ := by
  unfold resolveTool at h
  unfold PackageCall.Resolved
  cases hbinding : input.binding? name with
  | some | none =>
    simp only [hbinding] at h ⊢
    simpa using List.find?_some h

theorem PackageSession.Ledger.dispatch (h : session.Ledger input) {requestId name : String}
    (howes : session.Owes [requestId] 0) (hdeclared : name ∈ input.declaredTools)
    (arguments : Value) (hresolved : resolveTool input name descriptors = some descriptor) :
    (session.dispatch input requestId name arguments descriptor).Kept input := by
  unfold PackageSession.dispatch
  have hsequence := howes.sequence
  by_cases hbudget : input.limits.maxToolCalls < session.toolSequence + 1
  · rw [if_pos hbudget]
    exact ⟨h.of_books rfl rfl rfl rfl rfl, _, le_refl 1, howes.seen⟩
  · rw [if_neg hbudget]
    refine ⟨?_, howes.seen, howes.results, ?_⟩
    · constructor
      case charged => exact h.charged
      case modelCalls => exact h.modelCalls
      case toolCalls =>
        rw [List.length_append, List.length_singleton]
        change session.calls.length + 1 ≤ _
        omega
      case once => exact h.once
      case resolved =>
        intro call hcall
        rw [List.mem_append, List.mem_singleton] at hcall
        rcases hcall with hcall | rfl
        · exact h.resolved call hcall
        · exact ⟨hdeclared, resolveTool_resolved hresolved _ _ _⟩
      case numbered =>
        rw [List.map_append, List.length_append, List.length_singleton, List.range'_concat,
          h.numbered]
        simp [hsequence, Nat.add_comm]
      case named =>
        intro call hcall
        rw [List.mem_append, List.mem_singleton] at hcall
        rcases hcall with hcall | rfl
        · exact h.named call hcall
        · rfl
      case capable => exact h.capable
    · simp [hsequence]

theorem PackageSession.Ledger.exit (h : session.Ledger input) (howes : session.Owes [] 1)
    (finalMessage : String) (returnCode : Int) :
    (session.exit input finalMessage returnCode).Kept input := by
  have hraised : ∀ code, PackageSession.Kept input
      (PackageSession.raise { session with exitCode := some returnCode } code) := fun code =>
    ⟨h.of_books rfl rfl rfl rfl rfl, [], by simp, howes.seen⟩
  unfold PackageSession.exit
  by_cases hexit : maxTotalOutputBytes < session.used ∨ returnCode ≠ 0
  · rw [if_pos hexit]
    exact hraised _
  · rw [if_neg hexit]
    split_ifs
    · exact hraised _
    · exact hraised _
    · rw [not_or, not_not, Nat.not_lt] at hexit
      refine ⟨h.of_books rfl rfl rfl rfl rfl, ⟨howes.seen, howes.results, howes.sequence⟩, ?_,
        hexit.1⟩
      simp [hexit.2]

end Steps

section Sessions

variable {input : PackageInput} {session : PackageSession}

theorem PackageSession.Kept.stderr (h : session.Kept input)
    (hopen : ∀ ending, session.phase ≠ .ended ending) (bytes : Nat) :
    PackageSession.Kept input { session with used := session.used + bytes } := by
  refine ⟨h.ledger.of_books rfl rfl rfl rfl rfl, ?_⟩
  have hstanding := h.standing
  unfold PackageSession.Standing at hstanding ⊢
  cases hphase : session.phase with
  | ended ending => exact absurd hphase (hopen ending)
  | gathering requestId name arguments =>
    rw [hphase] at hstanding
    exact ⟨⟨hstanding.1.seen, hstanding.1.results, hstanding.1.sequence⟩, hstanding.2⟩
  | greeting | initializing | reading | completing | invoking | exiting =>
    rw [hphase] at hstanding
    exact ⟨hstanding.seen, hstanding.results, hstanding.sequence⟩

theorem PackageSession.Kept.exec (h : session.Kept input) (event : SessionEvent) :
    (session.exec input event).Kept input := by
  obtain ⟨hledger, hstanding⟩ := h
  have hkept : session.Kept input := ⟨hledger, hstanding⟩
  unfold Standing at hstanding
  unfold PackageSession.exec
  split
  case h_1 => exact hkept
  case h_2 => exact hkept.cancelled
  case h_3 => exact hkept.raise _
  case h_4 _ hopen => exact hkept.stderr hopen _
  case h_5 hphase =>
    rw [hphase] at hstanding
    exact hledger.frame hstanding _ _
  case h_6 hphase =>
    rw [hphase] at hstanding
    exact hledger.frame hstanding _ _
  case h_7 hphase =>
    rw [hphase] at hstanding
    exact hledger.frame hstanding _ _
  case h_8 hphase =>
    rw [hphase] at hstanding
    exact hledger.respond hstanding _ _
  case h_9 => exact hkept.raise _
  case h_10 hphase =>
    rw [hphase] at hstanding
    split
    · exact hledger.respond hstanding.1 _ _
    case h_2 hresolved => exact hledger.dispatch hstanding.1 hstanding.2 _ hresolved
  case h_11 hphase =>
    rw [hphase] at hstanding
    exact hledger.respond hstanding _ _
  case h_12 => exact hkept.raise _
  case h_13 hphase =>
    rw [hphase] at hstanding
    exact hledger.exit hstanding _ _
  case h_14 => exact hkept

end Sessions

end NervOS
