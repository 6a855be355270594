/-
One Gemini adapter under all the Attempts of a worker, and what it reads and writes of the
signatures it keeps: the entries of the call ids that a request mentions and of those that a
response brings, and no other.
-/
import Mathlib.Logic.Function.Basic
import NervOS.Models.Gemini
import NervOS.Relational.Machine
import NervOS.Relational.Fallible

namespace NervOS

open Relational Gemini

/-- An Attempt begins a call, or its call comes back: with a response, or having raised. -/
inductive SignatureOp (α : Type) where
  | begun (attempt : α) (request : ModelRequest)
  | returned (attempt : α) (response : Option Response)

def SignatureOp.attempt {α : Type} : SignatureOp α → α
  | .begun attempt _ | .returned attempt _ => attempt

inductive Observation where
  | rendered (contents : Except ModelProviderError (List Content))
  | normalized (response : Except ModelProviderError ModelResponse)

/-- Whether the call went on. -/
def Observation.succeeded : Observation → Bool
  | .rendered (.ok _) | .normalized (.ok _) => true
  | .rendered (.error _) | .normalized (.error _) => false

/-- The instance with the calls in flight and all that was observed.  `owners` is a history
variable: the Attempt that a pending entry was kept for. -/
structure SignatureSystem (α : Type) where
  signatures : Signatures
  inFlight : α → Option ModelRequest
  observed : List (α × Observation)
  owners : AList fun _ : String => α

section Calls

variable (sha256Hex : String → String)

def partCallIds (response : Response) : Nat → List Part → List String
  | _, [] => []
  | index, part :: parts =>
    match part.functionCall with
    | some ⟨callId, some name, some args⟩ =>
      (callId.filter (· ≠ "")).getD
          (generatedCallId sha256Hex response index name args.text) ::
        partCallIds response (index + 1) parts
    | _ => partCallIds response (index + 1) parts

def responseCallIds (response : Response) : List String :=
  match response.candidates with
  | some [candidate] => partCallIds sha256Hex response 0 (candidate.parts.getD [])
  | _ => []

end Calls

def ConversationTurn.callIds : ConversationTurn → List String
  | .assistant turn => turn.toolCalls.map (·.callId)
  | .toolResult turn => [turn.callId]

namespace SignatureSystem

variable {α : Type}

def init : SignatureSystem α where
  signatures := ∅
  inFlight := fun _ => none
  observed := []
  owners := ∅

variable [DecidableEq α] (reader : JsonReader) (sha256Hex : String → String)

def own (attempt : α) (response : Except ModelProviderError ModelResponse)
    (owners : AList fun _ : String => α) : AList fun _ : String => α :=
  match response with
  | .error _ => owners
  | .ok response => response.toolCalls.foldl (fun owners call => owners.insert call.callId attempt)
      owners

def begin (system : SignatureSystem α) (attempt : α) (request : ModelRequest) :
    SignatureSystem α :=
  let rendered := contents reader system.signatures request
  { system with
    inFlight := Function.update system.inFlight attempt (rendered.toOption.map fun _ => request)
    observed := system.observed ++ [(attempt, .rendered rendered)] }

def answer (system : SignatureSystem α) (attempt : α) (request : ModelRequest)
    (response : Response) : SignatureSystem α :=
  let received := received sha256Hex response request system.signatures
  { signatures := received.2
    inFlight := Function.update system.inFlight attempt none
    observed := system.observed ++ [(attempt, .normalized received.1)]
    owners := own attempt received.1 system.owners }

def exec (op : SignatureOp α) (system : SignatureSystem α) : SignatureSystem α :=
  match op with
  | .begun attempt request =>
    match system.inFlight attempt with
    | some _ => system
    | none => system.begin reader attempt request
  | .returned attempt response =>
    match system.inFlight attempt, response with
    | none, _ => system
    | some _, none => { system with inFlight := Function.update system.inFlight attempt none }
    | some request, some response => system.answer sha256Hex attempt request response

def observedBy (attempt : α) (system : SignatureSystem α) : List Observation :=
  (system.observed.filter (·.1 = attempt)).map Prod.snd

/-- No other Attempt has an entry pending under this id. -/
def Unshared (system : SignatureSystem α) (attempt : α) (callId : String) : Prop :=
  callId ∈ system.signatures → system.owners.lookup callId = some attempt

instance (system : SignatureSystem α) (attempt : α) : DecidablePred (system.Unshared attempt) :=
  fun _ => inferInstanceAs (Decidable (_ → _))

def Fits (system : SignatureSystem α) (attempt : α) : Option ModelRequest → Option Response → Prop
  | some request, some response =>
    (∀ callId ∈ request.turns.flatMap ConversationTurn.callIds ++
        responseCallIds sha256Hex response, system.Unshared attempt callId) ∧
      (releaseSignatures request.turns system.signatures).entries.length +
        (responseCallIds sha256Hex response).length ≤ maxPendingSignatures
  | some _, none | none, _ => True

instance (system : SignatureSystem α) (attempt : α) :
    ∀ request response, Decidable (system.Fits sha256Hex attempt request response)
  | some _, some _ => inferInstanceAs (Decidable (_ ∧ _))
  | some _, none | none, _ => isTrue trivial

def Apart (system : SignatureSystem α) : SignatureOp α → Prop
  | .begun attempt request =>
    ∀ callId ∈ request.turns.flatMap ConversationTurn.callIds, system.Unshared attempt callId
  | .returned attempt response =>
    system.Fits sha256Hex attempt (system.inFlight attempt) response

instance (system : SignatureSystem α) : ∀ op, Decidable (system.Apart sha256Hex op)
  | .begun attempt request =>
    inferInstanceAs (Decidable (∀ callId ∈ request.turns.flatMap ConversationTurn.callIds,
      system.Unshared attempt callId))
  | .returned attempt response =>
    inferInstanceAs (Decidable (system.Fits sha256Hex attempt (system.inFlight attempt) response))

end SignatureSystem

/-- Every run of the Attempts that share an adapter. -/
def signatureSystem (α : Type) [DecidableEq α] (reader : JsonReader)
    (sha256Hex : String → String) : Machine (SignatureSystem α) (SignatureOp α) where
  init := .init
  exec := SignatureSystem.exec reader sha256Hex

end NervOS

namespace NervOS

open Relational Gemini

namespace Gemini

def keep (staged : List (String × SignatureEntry)) (signatures : Signatures) : Signatures :=
  staged.foldl (fun signatures entry => remember entry signatures) signatures

section Store

variable {left right signatures : Signatures} {callId : String}

theorem mem_iff_of_lookup_eq (h : left.lookup callId = right.lookup callId) :
    callId ∈ left ↔ callId ∈ right := by
  rw [← AList.lookup_isSome, ← AList.lookup_isSome, h]

@[simp]
theorem keep_cons (entry : String × SignatureEntry) (staged : List (String × SignatureEntry)) :
    keep (entry :: staged) signatures = keep staged (remember entry signatures) :=
  rfl

theorem lookup_remember (entry : String × SignatureEntry) :
    (remember entry signatures).lookup callId =
      if callId = entry.1 then some entry.2 else signatures.lookup callId := by
  rw [remember]
  split_ifs with h
  · rw [h, AList.lookup_insert]
  · exact AList.lookup_insert_ne h

theorem length_remember_le (entry : String × SignatureEntry) :
    (remember entry signatures).entries.length ≤ signatures.entries.length + 1 := by
  rw [remember, AList.entries_insert, List.length_cons]
  exact Nat.succ_le_succ (List.kerase_sublist _ _).length_le

variable {staged : List (String × SignatureEntry)}

theorem lookup_keep_of_notMem (h : callId ∉ staged.map Prod.fst) :
    (keep staged signatures).lookup callId = signatures.lookup callId := by
  induction staged generalizing signatures with
  | nil => rfl
  | cons entry staged ih =>
    rw [List.map_cons, List.mem_cons, not_or] at h
    rw [keep_cons, ih h.2, lookup_remember, if_neg h.1]

theorem lookup_keep_congr
    (h : callId ∈ staged.map Prod.fst ∨ left.lookup callId = right.lookup callId) :
    (keep staged left).lookup callId = (keep staged right).lookup callId := by
  induction staged generalizing left right with
  | nil => simpa [keep] using h
  | cons entry staged ih =>
    rw [keep_cons, keep_cons]
    refine ih ?_
    by_cases hentry : callId = entry.1
    · simp [lookup_remember, hentry]
    · simpa [lookup_remember, hentry] using h

theorem length_keep_le (staged : List (String × SignatureEntry)) (signatures : Signatures) :
    (keep staged signatures).entries.length ≤ signatures.entries.length + staged.length := by
  induction staged generalizing signatures with
  | nil => simp [keep]
  | cons entry staged ih =>
    have hentry := @length_remember_le signatures entry
    have hrest := ih (remember entry signatures)
    rw [keep_cons, List.length_cons]
    omega

theorem evict_of_le (h : signatures.entries.length ≤ maxPendingSignatures) :
    evict signatures = signatures :=
  AList.ext (List.take_of_length_le h)

theorem length_le_of_forall_mem (h : ∀ callId ∈ left, callId ∈ right) :
    left.entries.length ≤ right.entries.length := by
  have hkeys : left.keys.length ≤ right.keys.length :=
    (List.subperm_of_subset left.keys_nodup fun callId hmem => h callId hmem).length_le
  simpa [AList.keys, List.keys] using hkeys

def resultIds (turns : List ConversationTurn) : List String :=
  turns.filterMap fun turn =>
    match turn with
    | .assistant _ => none
    | .toolResult turn => some turn.callId

theorem resultIds_subset (turns : List ConversationTurn) :
    resultIds turns ⊆ turns.flatMap ConversationTurn.callIds := by
  intro callId hmem
  obtain ⟨turn, hturn, heq⟩ := List.mem_filterMap.mp hmem
  refine List.mem_flatMap.mpr ⟨turn, hturn, ?_⟩
  cases turn with
  | assistant turn => cases heq
  | toolResult turn => exact List.mem_singleton.mpr (Option.some.inj heq).symm

theorem lookup_releaseSignatures (turns : List ConversationTurn) (signatures : Signatures)
    (callId : String) :
    (releaseSignatures turns signatures).lookup callId =
      if callId ∈ resultIds turns then none else signatures.lookup callId := by
  induction turns generalizing signatures with
  | nil => simp [releaseSignatures, resultIds]
  | cons turn turns ih =>
    cases turn with
    | assistant turn => exact ih signatures
    | toolResult turn =>
      have hcons : callId ∈ resultIds (.toolResult turn :: turns) ↔
          callId = turn.callId ∨ callId ∈ resultIds turns := by
        simp [resultIds]
      refine (ih (signatures.erase turn.callId)).trans ?_
      by_cases heq : callId = turn.callId
      · subst heq
        simp only [hcons, true_or, if_true, AList.lookup_erase, ite_self]
      · simp only [hcons, heq, false_or, AList.lookup_erase_ne heq]

end Store

section Contents

variable {reader : JsonReader} {left right : Signatures}

theorem callsParts_congr {calls : List ToolCall}
    (h : ∀ callId ∈ calls.map (·.callId), left.lookup callId = right.lookup callId) :
    callsParts reader left calls = callsParts reader right calls := by
  induction calls with
  | nil => rfl
  | cons call calls ih =>
    rw [List.map_cons, List.forall_mem_cons] at h
    simp only [callsParts, callParts, h.1, ih h.2]

theorem turnContents_congr {turns : List ConversationTurn}
    (h : ∀ callId ∈ turns.flatMap ConversationTurn.callIds,
      left.lookup callId = right.lookup callId) (pending : List WirePart) :
    turnContents reader left pending turns = turnContents reader right pending turns := by
  induction turns generalizing pending with
  | nil => rfl
  | cons turn turns ih =>
    rw [List.flatMap_cons, List.forall_mem_append] at h
    cases turn with
    | assistant turn =>
      simp only [turnContents, assistantParts, callsParts_congr h.1, ih h.2]
    | toolResult turn =>
      have hturn : left.lookup turn.callId = right.lookup turn.callId :=
        h.1 _ (List.mem_singleton_self _)
      simp only [turnContents, resultPart, hturn, ih h.2]

theorem contents_congr {request : ModelRequest}
    (h : ∀ callId ∈ request.turns.flatMap ConversationTurn.callIds,
      left.lookup callId = right.lookup callId) :
    contents reader left request = contents reader right request := by
  rw [contents, contents, turnContents_congr h]

end Contents

variable {sha256Hex : String → String} {response : Response} {left right : Signatures} {index : Nat}

theorem stageCall_eq_ok {part : Part} {call : FunctionCall} {thoughts : List Part}
    {staged : String × SignatureEntry × ToolCall} (hpart : part.functionCall = some call)
    (h : stageCall sha256Hex response index part call thoughts = .ok staged) (parts : List Part) :
    staged.2.2.callId = staged.1 ∧
      partCallIds sha256Hex response index (part :: parts) =
        staged.1 :: partCallIds sha256Hex response (index + 1) parts := by
  obtain ⟨callId, name, args⟩ := call
  cases name with
  | none => cases h
  | some name =>
    cases args with
    | none => cases h
    | some args =>
      rw [stageCall] at h
      dsimp only at h
      split_ifs at h
      obtain rfl := Except.ok.inj h
      exact ⟨rfl, by rw [partCallIds, hpart]⟩

variable {thoughts parts : List Part}

theorem inspectParts_congr {toolsEnabled : Bool} {inspected : Inspected}
    (h : ∀ callId ∈ partCallIds sha256Hex response index parts, callId ∈ left ↔ callId ∈ right) :
    inspectParts sha256Hex response toolsEnabled left index thoughts parts inspected =
      inspectParts sha256Hex response toolsEnabled right index thoughts parts inspected := by
  induction parts generalizing index thoughts inspected with
  | nil => rfl
  | cons part parts ih =>
    have hrest : (∀ callId ∈ partCallIds sha256Hex response (index + 1) parts,
        callId ∈ left ↔ callId ∈ right) := by
      intro callId hmem
      refine h callId ?_
      rw [partCallIds]
      split
      · exact List.mem_cons_of_mem _ hmem
      · exact hmem
    by_cases hsupported : part.unsupported = true
    · simp only [inspectParts, hsupported, if_true]
    rw [inspectParts, inspectParts, if_neg hsupported, if_neg hsupported]
    cases hcall : part.functionCall with
    | none =>
      cases part.text with
      | none => rfl
      | some text => simp only [ih hrest]
    | some call =>
      cases part.text with
      | some text => rfl
      | none =>
        dsimp only
        by_cases hdisabled : toolsEnabled = false
        · rw [if_pos hdisabled, if_pos hdisabled]
        rw [if_neg hdisabled, if_neg hdisabled]
        cases hstage : stageCall sha256Hex response index part call thoughts with
        | error error => rfl
        | ok staged =>
          obtain ⟨-, hids⟩ := stageCall_eq_ok hcall hstage parts
          have hhead : staged.1 ∈ left ↔ staged.1 ∈ right := by
            refine h _ ?_
            rw [hids]
            exact List.mem_cons_self
          simp only [bind, Except.bind, hhead, ih hrest]

theorem inspectParts_staged {toolsEnabled : Bool} {inspected result : Inspected}
    (h : inspectParts sha256Hex response toolsEnabled left index thoughts parts inspected =
      .ok result) (hcalls : inspected.staged.map Prod.fst = inspected.calls.map (·.callId)) :
    result.staged.map Prod.fst = result.calls.map (·.callId) ∧
      ∃ more, result.staged.map Prod.fst = inspected.staged.map Prod.fst ++ more ∧
        more.Sublist (partCallIds sha256Hex response index parts) := by
  induction parts generalizing index thoughts inspected with
  | nil =>
    rw [inspectParts] at h
    obtain rfl := Except.ok.inj h
    exact ⟨hcalls, [], by simp, .slnil⟩
  | cons part parts ih =>
    have hskip : (partCallIds sha256Hex response (index + 1) parts).Sublist
        (partCallIds sha256Hex response index (part :: parts)) := by
      rw [partCallIds]
      split
      · exact List.sublist_cons_self _ _
      · exact List.Sublist.refl _
    by_cases hsupported : part.unsupported = true
    · rw [inspectParts, if_pos hsupported] at h
      cases h
    rw [inspectParts, if_neg hsupported] at h
    cases hcall : part.functionCall with
    | none =>
      cases htext : part.text with
      | none =>
        rw [hcall, htext] at h
        cases h
      | some text =>
        rw [hcall, htext] at h
        dsimp only at h
        split_ifs at h
        all_goals
          obtain ⟨heq, more, hmore, hsub⟩ := ih h hcalls
          exact ⟨heq, more, hmore, hsub.trans hskip⟩
    | some call =>
      cases htext : part.text with
      | some text =>
        rw [hcall, htext] at h
        cases h
      | none =>
        rw [hcall, htext] at h
        dsimp only at h
        by_cases hdisabled : toolsEnabled = false
        · rw [if_pos hdisabled] at h
          cases h
        rw [if_neg hdisabled] at h
        obtain ⟨⟨correlationId, entry, toolCall⟩, hstage, h⟩ := bind_eq_ok.mp h
        dsimp only at h
        split_ifs at h
        obtain ⟨hid, hids⟩ := stageCall_eq_ok hcall hstage parts
        dsimp only at hid hids
        obtain ⟨heq, more, hmore, hsub⟩ := ih h (by simp [hcalls, hid])
        refine ⟨heq, correlationId :: more, by simpa using hmore, ?_⟩
        rw [hids]
        exact hsub.cons_cons _

def calledIds : Except ModelProviderError ModelResponse → List String
  | .error _ => []
  | .ok response => response.toolCalls.map (·.callId)

theorem soleCandidate_eq_ok {outcome : StopOutcome} {parts : List Part}
    (h : soleCandidate response = .ok (outcome, some parts)) :
    responseCallIds sha256Hex response = partCallIds sha256Hex response 0 parts := by
  rw [soleCandidate] at h
  split_ifs at h
  match hcandidates : response.candidates with
  | some [candidate] =>
    rw [hcandidates] at h
    obtain ⟨_, -, h⟩ := bind_eq_ok.mp h
    split_ifs at h
    have hparts : candidate.parts = some parts := congrArg Prod.snd (Except.ok.inj h)
    rw [responseCallIds, hcandidates]
    simp only [hparts, Option.getD_some]
  | none | some [] | some (_ :: _ :: _) =>
    rw [hcandidates] at h
    cases h

theorem concluded_eq {inspected : Inspected} {room : Nat}
    (hcalls : inspected.staged.map Prod.fst = inspected.calls.map (·.callId))
    (hroom : inspected.staged.length ≤ room) (response : Response) (modelName : String)
    (outcome : StopOutcome) :
    ∃ (result : Except ModelProviderError ModelResponse)
      (staged : List (String × SignatureEntry)),
      calledIds result = staged.map Prod.fst ∧ (staged = [] ∨ staged = inspected.staged) ∧
      ∀ store : Signatures, store.entries.length + room ≤ maxPendingSignatures →
        concluded response modelName store outcome inspected = (result, keep staged store) := by
  simp only [concluded]
  split_ifs with hrefused hinvalid hincomplete htool hblank
  · exact ⟨_, [], rfl, Or.inl rfl, fun _ _ => rfl⟩
  · exact ⟨_, [], rfl, Or.inl rfl, fun _ _ => rfl⟩
  · exact ⟨_, [], rfl, Or.inl rfl, fun _ _ => rfl⟩
  · refine ⟨.ok ⟨"".intercalate inspected.texts, providerId, modelName, .toolUse,
      usage response, inspected.calls⟩, inspected.staged, hcalls.symm, Or.inr rfl,
      fun store hstore => ?_⟩
    have hkept := length_keep_le inspected.staged store
    have hevict : evict (keep inspected.staged store) = keep inspected.staged store :=
      evict_of_le (by omega)
    exact congrArg (Prod.mk _) hevict
  · exact ⟨_, [], rfl, Or.inl rfl, fun _ _ => rfl⟩
  · exact ⟨_, [], rfl, Or.inl rfl, fun _ _ => rfl⟩

theorem normalizedResponse_eq (sha256Hex : String → String) (response : Response)
    (modelName : String) (toolsEnabled : Bool) (signatures : Signatures) :
    ∃ (result : Except ModelProviderError ModelResponse)
      (staged : List (String × SignatureEntry)),
      calledIds result = staged.map Prod.fst ∧
      (∀ callId ∈ staged.map Prod.fst, callId ∈ responseCallIds sha256Hex response) ∧
      ∀ store : Signatures,
        (∀ callId ∈ responseCallIds sha256Hex response,
          callId ∈ store ↔ callId ∈ signatures) →
        store.entries.length + (responseCallIds sha256Hex response).length ≤
          maxPendingSignatures →
        normalizedResponse sha256Hex response modelName toolsEnabled store =
          (result, keep staged store) := by
  match hsole : soleCandidate response with
  | .error error => exact ⟨.error error, [], rfl, nofun, fun _ _ _ => by
    simp only [normalizedResponse, hsole]
    rfl⟩
  | .ok (outcome, none) =>
    simp only [normalizedResponse, hsole]
    split_ifs
    · exact ⟨_, [], rfl, nofun, fun _ _ _ => rfl⟩
    · exact ⟨_, [], rfl, nofun, fun _ _ _ => rfl⟩
  | .ok (outcome, some parts) =>
    simp only [normalizedResponse, hsole, soleCandidate_eq_ok hsole]
    match hinspect : inspectParts sha256Hex response toolsEnabled signatures 0 [] parts {} with
    | .error error =>
      refine ⟨.error error, [], rfl, nofun, fun store hstore _ => ?_⟩
      rw [inspectParts_congr hstore, hinspect]
      rfl
    | .ok inspected =>
      obtain ⟨hcalls, more, hmore, hsub⟩ := inspectParts_staged hinspect rfl
      rw [List.map_nil, List.nil_append] at hmore
      have hroom : inspected.staged.length ≤
          (partCallIds sha256Hex response 0 parts).length := by
        simpa [← hmore] using hsub.length_le
      obtain ⟨result, staged, hids, hstaged, heq⟩ :=
        concluded_eq hcalls hroom response modelName outcome
      refine ⟨result, staged, hids, ?_, fun store hstore hlength => ?_⟩
      · rcases hstaged with rfl | rfl
        · exact nofun
        · exact fun callId hmem => hsub.subset (hmore ▸ hmem)
      · rw [inspectParts_congr hstore, hinspect]
        exact heq store hlength

end Gemini

end NervOS
