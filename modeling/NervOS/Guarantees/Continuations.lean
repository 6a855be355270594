/-
Which conversations of the tool loop can be continued against the three providers.
-/
import NervOS.Refinement.GeminiContinuations

namespace NervOS

/-- Before every model call of every run: the OpenAI and the Anthropic adapter render the whole
conversation, and the Gemini adapter does exactly while there was at most one tool round.  The
Gemini adapter may start with what earlier Attempts left. -/
theorem conversations_continue (reader : JsonReader) (sha256Hex : String → String)
    (initial : Gemini.Signatures) (input : LoopInput) :
    (∀ system, (toolLoop (OpenAI.adapter reader) reader input).Reachable system →
      ∀ retries, system.phase = .modelTurn retries →
        Continues reader (OpenAI.format reader) (ToolLoop.request input system.state)
          ((OpenAI.adapter reader).render system.adapterState
            (ToolLoop.request input system.state))) ∧
    (∀ system, (toolLoop (Anthropic.adapter reader) reader input).Reachable system →
      ∀ retries, system.phase = .modelTurn retries →
        Continues reader (Anthropic.format reader) (ToolLoop.request input system.state)
          ((Anthropic.adapter reader).render system.adapterState
            (ToolLoop.request input system.state))) ∧
    (∀ system,
      (toolLoop (Gemini.adapter reader sha256Hex initial) reader input).Reachable system →
      ∀ retries, system.phase = .modelTurn retries →
        (Continues reader (Gemini.format reader sha256Hex initial)
            (ToolLoop.request input system.state)
            ((Gemini.adapter reader sha256Hex initial).render system.adapterState
              (ToolLoop.request input system.state)) ↔
          (assistantTurns system.state.turns).length ≤ 1)) := by
  refine ⟨?_, ?_, ?_⟩
  · intro system hreachable retries hphase
    obtain ⟨rounds, hturns, hnone⟩ := LoopSystem.rounds_of_reachable
      (OpenAI.adapter_decided reader) (OpenAI.adapter_keeps reader input) hreachable hphase
    rw [List.map_eq_nil_iff] at hnone
    rw [hnone] at hturns
    exact OpenAI.continues reader hturns
  · intro system hreachable retries hphase
    obtain ⟨rounds, hturns, hcanonical⟩ := LoopSystem.rounds_of_reachable
      (Anthropic.adapter_decided reader) (Anthropic.adapter_keeps reader input) hreachable hphase
    exact Anthropic.continues reader hturns fun round hround =>
      hcanonical _ (List.mem_map.mpr ⟨round, hround, rfl⟩)
  · intro system hreachable retries hphase
    obtain ⟨rounds, hturns, hkept⟩ := LoopSystem.rounds_of_reachable
      (Gemini.adapter_decided initial) (Gemini.adapter_keeps initial input) hreachable hphase
    rw [hturns, assistantTurns_flatMap, List.length_map]
    exact Gemini.continues_iff reader initial hturns hkept

def roundsInput : LoopInput where
  systemInstruction := ""
  userText := "u"
  modelName := "m"
  limits := toolEnabledLimits
  catalog := [⟨"read", "", .obj []⟩]
  history := []
  compactionContext := none
  userMemoryContext := none
  agentMemoryContext := none

def geminiRound (callId : String) : List (LoopOp Gemini.Response) :=
  [.answered (.ok {
      candidates := some [⟨some "STOP", some "model", some [{
        functionCall := some
          ⟨some callId, some "read", some .empty⟩ }]⟩] }) true,
    .dispatched (.succeeded "r" none)]

def geminiLoop (ops : List (LoopOp Gemini.Response)) :
    LoopSystem (Gemini.adapter canonicalReader id ∅) :=
  (toolLoop (Gemini.adapter canonicalReader id ∅) canonicalReader roundsInput).run ops
    (.init _ roundsInput)

/-- After one round the conversation goes on. -/
theorem conversations_continue_geminiRound :
    Continues canonicalReader (Gemini.format canonicalReader id ∅)
      (ToolLoop.request roundsInput (geminiLoop (geminiRound "a")).state)
      (Gemini.contents canonicalReader (geminiLoop (geminiRound "a")).adapterState
        (ToolLoop.request roundsInput (geminiLoop (geminiRound "a")).state)) := by
  refine ((conversations_continue canonicalReader id ∅ roundsInput).2.2
    (geminiLoop (geminiRound "a")) ⟨geminiRound "a", rfl⟩ 0 ?_).mpr ?_
  · rfl
  · decide +kernel

/-- After two rounds, a third request cannot be rendered. -/
theorem conversations_continue_twoRounds :
    ¬ ∀ system, (toolLoop (Gemini.adapter canonicalReader id ∅) canonicalReader
        roundsInput).Reachable system →
      ∀ retries, system.phase = .modelTurn retries →
        ∃ wire, (Gemini.adapter canonicalReader id ∅).render system.adapterState
          (ToolLoop.request roundsInput system.state) = .ok wire := by
  intro h
  obtain ⟨wire, hwire⟩ := h (geminiLoop (geminiRound "a" ++ geminiRound "b")) ⟨_, rfl⟩ 0 rfl
  have hfails : (Gemini.contents canonicalReader
      (geminiLoop (geminiRound "a" ++ geminiRound "b")).adapterState
      (ToolLoop.request roundsInput
        (geminiLoop (geminiRound "a" ++ geminiRound "b")).state)).isOk = false := by
    decide +kernel
  have hrender : Gemini.contents canonicalReader
      (geminiLoop (geminiRound "a" ++ geminiRound "b")).adapterState
      (ToolLoop.request roundsInput
        (geminiLoop (geminiRound "a" ++ geminiRound "b")).state) = .ok wire := hwire
  rw [hrender] at hfails
  cases hfails

end NervOS
