/-
The Attempts that share a Gemini adapter do not disturb each other, as long as their call ids
stay apart and the entries fit.
-/
import NervOS.Refinement.Signatures

namespace NervOS

open Relational Gemini

namespace SignatureSystem

variable {α : Type} [DecidableEq α] {reader : JsonReader} {sha256Hex : String → String}

omit [DecidableEq α] in
theorem lookup_own (attempt : α) (response : Except ModelProviderError ModelResponse)
    (owners : AList fun _ : String => α) (callId : String) :
    (own attempt response owners).lookup callId =
      if callId ∈ calledIds response then some attempt else owners.lookup callId := by
  cases response with
  | error error => rfl
  | ok response =>
    rw [own, calledIds]
    induction response.toolCalls generalizing owners with
    | nil => rfl
    | cons call calls ih =>
      rw [List.foldl_cons, ih, List.map_cons]
      by_cases hcall : callId = call.callId
      · subst hcall
        simp [AList.lookup_insert]
      · simp [hcall, AList.lookup_insert_ne hcall]

theorem observedBy_begin (system : SignatureSystem α) (attempt actor : α)
    (request : ModelRequest) :
    (system.begin reader actor request).observedBy attempt = system.observedBy attempt ++
      if actor = attempt then [.rendered (contents reader system.signatures request)] else [] := by
  by_cases hactor : actor = attempt <;> simp [observedBy, begin, hactor]

theorem observedBy_answer (system : SignatureSystem α) (attempt actor : α)
    (request : ModelRequest) (response : Response) :
    (system.answer sha256Hex actor request response).observedBy attempt =
      system.observedBy attempt ++
        if actor = attempt then
          [.normalized (received sha256Hex response request system.signatures).1]
        else [] := by
  by_cases hactor : actor = attempt <;> simp [observedBy, answer, hactor]

/-- What an Attempt would have alone: of the entries those that were kept for it, its own call
in flight, and what it has seen. -/
structure Isolated (attempt : α) (shared alone : SignatureSystem α) : Prop where
  signatures : ∀ callId, alone.signatures.lookup callId =
    if shared.owners.lookup callId = some attempt then shared.signatures.lookup callId else none
  inFlight : alone.inFlight attempt = shared.inFlight attempt
  observed : alone.observedBy attempt = shared.observedBy attempt

theorem Isolated.init (attempt : α) :
    Isolated attempt (SignatureSystem.init : SignatureSystem α) .init where
  signatures callId := by simp [SignatureSystem.init]
  inFlight := rfl
  observed := rfl

variable {attempt : α} {shared alone : SignatureSystem α}

theorem Isolated.lookup_eq (h : Isolated attempt shared alone) {callId : String}
    (hunshared : shared.Unshared attempt callId) :
    alone.signatures.lookup callId = shared.signatures.lookup callId := by
  rw [h.signatures]
  split_ifs with howner
  · rfl
  · exact (AList.lookup_eq_none.mpr fun hmem => howner (hunshared hmem)).symm

theorem Isolated.length_le (h : Isolated attempt shared alone) (turns : List ConversationTurn) :
    (releaseSignatures turns alone.signatures).entries.length ≤
      (releaseSignatures turns shared.signatures).entries.length := by
  refine length_le_of_forall_mem fun callId hmem => ?_
  rw [← AList.lookup_isSome, lookup_releaseSignatures, h.signatures] at hmem
  rw [← AList.lookup_isSome, lookup_releaseSignatures]
  split_ifs at hmem ⊢ with hresult howner
  · exact hmem
  · exact hmem
  · cases hmem

variable {request : ModelRequest} (h : Isolated attempt shared alone)

include h

theorem Isolated.begin_own
    (hapart : ∀ callId ∈ request.turns.flatMap ConversationTurn.callIds,
      shared.Unshared attempt callId) :
    Isolated attempt (shared.begin reader attempt request)
      (alone.begin reader attempt request) := by
  have hcontents : contents reader alone.signatures request =
      contents reader shared.signatures request :=
    contents_congr fun callId hmem => h.lookup_eq (hapart callId hmem)
  refine ⟨h.signatures, ?_, ?_⟩
  · simp only [begin, hcontents, Function.update_self]
  · rw [observedBy_begin, observedBy_begin, hcontents, h.observed]

theorem Isolated.answer_own {response : Response}
    (hapart : ∀ callId ∈ request.turns.flatMap ConversationTurn.callIds ++
      responseCallIds sha256Hex response, shared.Unshared attempt callId)
    (hroom : (releaseSignatures request.turns shared.signatures).entries.length +
      (responseCallIds sha256Hex response).length ≤ maxPendingSignatures) :
    Isolated attempt (shared.answer sha256Hex attempt request response)
      (alone.answer sha256Hex attempt request response) := by
  have hreleased (callId : String) (hcallId : shared.Unshared attempt callId) :
      (releaseSignatures request.turns alone.signatures).lookup callId =
        (releaseSignatures request.turns shared.signatures).lookup callId := by
    rw [lookup_releaseSignatures, lookup_releaseSignatures, h.lookup_eq hcallId]
  obtain ⟨result, staged, hids, hsub, hnormalized⟩ := normalizedResponse_eq sha256Hex response
    request.modelName (! request.tools.isEmpty)
    (releaseSignatures request.turns shared.signatures)
  have hshared : received sha256Hex response request shared.signatures =
      (result, keep staged (releaseSignatures request.turns shared.signatures)) :=
    hnormalized _ (fun _ _ => Iff.rfl) hroom
  have halone : received sha256Hex response request alone.signatures =
      (result, keep staged (releaseSignatures request.turns alone.signatures)) := by
    refine hnormalized _ (fun callId hmem => mem_iff_of_lookup_eq (hreleased callId ?_)) ?_
    · exact hapart callId (List.mem_append_right _ hmem)
    · have hlength := h.length_le request.turns
      omega
  refine ⟨fun callId => ?_, ?_, ?_⟩
  · simp only [answer, hshared, halone, lookup_own, hids]
    by_cases hmem : callId ∈ staged.map Prod.fst
    · rw [if_pos hmem, if_pos rfl]
      exact lookup_keep_congr (Or.inl hmem)
    · rw [if_neg hmem, lookup_keep_of_notMem hmem, lookup_keep_of_notMem hmem,
        lookup_releaseSignatures, lookup_releaseSignatures, h.signatures]
      split_ifs <;> rfl
  · simp only [answer, Function.update_self]
  · rw [observedBy_answer, observedBy_answer, hshared, halone, h.observed]

theorem Isolated.begin_other {actor : α} (hactor : actor ≠ attempt) (request : ModelRequest) :
    Isolated attempt (shared.begin reader actor request) alone := by
  refine ⟨h.signatures, ?_, ?_⟩
  · exact h.inFlight.trans (Function.update_of_ne hactor.symm _ _).symm
  · rw [observedBy_begin, if_neg hactor, List.append_nil, h.observed]

theorem Isolated.answer_other {actor : α} (hactor : actor ≠ attempt) {response : Response}
    (hapart : ∀ callId ∈ request.turns.flatMap ConversationTurn.callIds ++
      responseCallIds sha256Hex response, shared.Unshared actor callId)
    (hroom : (releaseSignatures request.turns shared.signatures).entries.length +
      (responseCallIds sha256Hex response).length ≤ maxPendingSignatures) :
    Isolated attempt (shared.answer sha256Hex actor request response) alone := by
  obtain ⟨result, staged, hids, hsub, hnormalized⟩ := normalizedResponse_eq sha256Hex response
    request.modelName (! request.tools.isEmpty)
    (releaseSignatures request.turns shared.signatures)
  have hshared : received sha256Hex response request shared.signatures =
      (result, keep staged (releaseSignatures request.turns shared.signatures)) :=
    hnormalized _ (fun _ _ => Iff.rfl) hroom
  -- An id of the other Attempt is not one under which this Attempt has an entry.
  have hforeign (callId : String) (hunshared : shared.Unshared actor callId) :
      alone.signatures.lookup callId = none := by
    rw [h.signatures]
    split_ifs with howner
    · refine AList.lookup_eq_none.mpr fun hmem => hactor ?_
      exact Option.some.inj ((hunshared hmem).symm.trans howner)
    · rfl
  refine ⟨fun callId => ?_, ?_, ?_⟩
  · simp only [answer, hshared, lookup_own, hids]
    by_cases hmem : callId ∈ staged.map Prod.fst
    · rw [if_pos hmem, if_neg fun heq => hactor (Option.some.inj heq)]
      exact hforeign callId (hapart callId (List.mem_append_right _ (hsub callId hmem)))
    · rw [if_neg hmem, lookup_keep_of_notMem hmem, lookup_releaseSignatures]
      by_cases hresult : callId ∈ resultIds request.turns
      · have hturns := resultIds_subset request.turns hresult
        rw [if_pos hresult, ite_self]
        exact hforeign callId (hapart callId (List.mem_append_left _ hturns))
      · rw [if_neg hresult]
        exact h.signatures callId
  · exact h.inFlight.trans (Function.update_of_ne hactor.symm _ _).symm
  · rw [observedBy_answer, if_neg hactor, List.append_nil, h.observed]

theorem Isolated.exec_own {op : SignatureOp α} (hown : op.attempt = attempt)
    (hapart : shared.Apart sha256Hex op) :
    Isolated attempt (shared.exec reader sha256Hex op) (alone.exec reader sha256Hex op) := by
  subst hown
  cases op with
  | begun actor request =>
    have hbusy : alone.inFlight actor = shared.inFlight actor := h.inFlight
    simp only [exec, hbusy]
    cases shared.inFlight actor with
    | some _ => exact h
    | none => exact h.begin_own hapart
  | returned actor response =>
    have hbusy : alone.inFlight actor = shared.inFlight actor := h.inFlight
    simp only [Apart] at hapart
    simp only [exec, hbusy]
    cases hrequest : shared.inFlight actor with
    | none => exact h
    | some request =>
      cases response with
      | none =>
        refine ⟨h.signatures, ?_, h.observed⟩
        simp only [SignatureOp.attempt, Function.update_self]
      | some response =>
        rw [hrequest] at hapart
        exact h.answer_own hapart.1 hapart.2

theorem Isolated.exec_other {op : SignatureOp α} (hother : op.attempt ≠ attempt)
    (hapart : shared.Apart sha256Hex op) :
    Isolated attempt (shared.exec reader sha256Hex op) alone := by
  cases op with
  | begun actor request =>
    simp only [exec]
    cases shared.inFlight actor with
    | some _ => exact h
    | none => exact h.begin_other hother request
  | returned actor response =>
    simp only [Apart] at hapart
    simp only [exec]
    cases hrequest : shared.inFlight actor with
    | none => exact h
    | some request =>
      cases response with
      | none =>
        refine ⟨h.signatures, ?_, h.observed⟩
        exact h.inFlight.trans (Function.update_of_ne (Ne.symm hother) _ _).symm
      | some response =>
        rw [hrequest] at hapart
        exact h.answer_other hother hapart.1 hapart.2

end SignatureSystem

/-- In every run in which the Attempts keep apart, each of them sees what it would see alone. -/
theorem signatures_isolated (α : Type) [DecidableEq α] (reader : JsonReader)
    (sha256Hex : String → String) (ops : List (SignatureOp α))
    (hapart : (signatureSystem α reader sha256Hex).Along (SignatureSystem.Apart sha256Hex) ops .init)
    (attempt : α) :
    ((signatureSystem α reader sha256Hex).run ops .init).observedBy attempt =
      ((signatureSystem α reader sha256Hex).run
        (ops.filter fun op => op.attempt = attempt) .init).observedBy attempt := by
  have hisolated := @Machine.Along.isolated _ _ (signatureSystem α reader sha256Hex) _
    (SignatureSystem.Isolated attempt) (fun op => op.attempt = attempt)
    (SignatureSystem.Isolated.init attempt)
    (fun shared alone op h hapart hown => h.exec_own (of_decide_eq_true hown) hapart)
    (fun shared alone op h hapart hother => h.exec_other (of_decide_eq_false hother) hapart)
    ops hapart
  exact hisolated.observed.symm

def firstRequest : ModelRequest where
  systemInstruction := ""
  userText := "u"
  modelName := "m"
  maxOutputTokens := 1
  timeoutMs := 1
  tools := [⟨"read", "", .obj []⟩]

/-- A response that asks for a tool under an id. -/
def askingFor (callId : String) : Response where
  candidates := some [⟨some "STOP", some "model", some [{
    functionCall := some ⟨some callId, some "read", some .empty⟩ }]⟩]

/-- Two Attempts, each of which gets one call. -/
def twoAttempts (firstId secondId : String) : List (SignatureOp Nat) :=
  [.begun 1 firstRequest, .begun 2 firstRequest, .returned 1 (some (askingFor firstId)),
    .returned 2 (some (askingFor secondId))]

theorem signatures_isolated_twoAttempts :
    ((signatureSystem Nat canonicalReader id).run (twoAttempts "a" "b") .init).observedBy 2 =
      ((signatureSystem Nat canonicalReader id).run
        ((twoAttempts "a" "b").filter fun op => op.attempt = 2) .init).observedBy 2 :=
  signatures_isolated Nat canonicalReader id (twoAttempts "a" "b") (by decide +kernel) 2

/-- A call id that another Attempt has pending makes a response unusable that is accepted
alone. -/
theorem signatures_isolated_repeated :
    ¬ ∀ (ops : List (SignatureOp Nat)) (attempt : Nat),
      ((signatureSystem Nat canonicalReader id).run ops .init).observedBy attempt =
        ((signatureSystem Nat canonicalReader id).run
          (ops.filter fun op => op.attempt = attempt) .init).observedBy attempt := by
  intro h
  have hsucceeded := congrArg (List.map Observation.succeeded) (h (twoAttempts "a" "a") 2)
  revert hsucceeded
  decide +kernel

end NervOS
