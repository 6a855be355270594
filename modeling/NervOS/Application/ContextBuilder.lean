/-
Context assembly: the canonical rendering, the stored compaction format, the rows that an
assembled context is made of, and the deterministic bounded assembly of them: approved memories,
the recent history that fits, the compaction of what is older, and the current message.
-/
import NervOS.Application.Tools
import NervOS.Domain.Triggers

namespace NervOS

inductive MessageRole where
  | user
  | assistant
deriving DecidableEq, Repr

def MessageRole.label : MessageRole → String
  | .user => "User"
  | .assistant => "Assistant"

inductive MemoryScope where
  | user
  | agent
deriving DecidableEq, Repr

inductive MemoryProvenanceType where
  | userAuthored
  | userApprovedInferred
deriving DecidableEq, Repr

def maxContextBytes : Nat := 8000
def maxContextCodePoints : Nat := 4000
def maxInjectedMemoryBytes : Nat := 4000
def maxRecentHistoryMessages : Nat := 20

def compactionHeaderStored : String := "[Conversation Compaction v1]"
def compactionWrapperPrefix : String := "[Earlier Conversation Context]\n"
def userMemoryHeader : String := "[User Profile Memory]"
def agentMemoryHeader : String := "[Agent Memory]"

structure HistoricalMessage where
  turnId : Nat
  sequence : Nat
  messageId : Nat
  role : MessageRole
  content : String
deriving DecidableEq

structure ConversationMessage where
  id : Nat
  turnId : Nat
  content : String
deriving DecidableEq

structure CandidateTurn where
  sequence : Nat
  user : ConversationMessage
  assistant : ConversationMessage
deriving DecidableEq

structure RetrievedMemoryItem where
  itemId : Nat
  version : Nat
  scope : MemoryScope
  provenanceType : MemoryProvenanceType
  content : String
  contentDigest : Digest
  createdAt : Instant
deriving DecidableEq

structure CompactionData where
  version : Nat
  sourceStartSequence : Nat
  sourceEndSequence : Nat
  content : String
deriving DecidableEq

def joinBlank (parts : List String) : String :=
  "\n\n".intercalate parts

/-- One turn of the stored compaction format. -/
def turnBlock (sequence : Nat) (userText assistantText : String) : String :=
  "Turn " ++ toString sequence ++ ":\nUser: " ++ userText ++ "\nAssistant: " ++ assistantText

def formatStoredCompactionV1 (turns : List (Nat × String × String)) : String :=
  if turns.isEmpty then compactionHeaderStored
  else
    compactionHeaderStored ++ "\n" ++
      joinBlank (turns.map fun turn => turnBlock turn.1 turn.2.1 turn.2.2)

def present (part : Option String) : List String :=
  (part.filter (· ≠ "")).toList

def historyLine (message : HistoricalMessage) : String :=
  "Turn " ++ toString message.sequence ++ " (" ++ message.role.label ++ "): " ++ message.content

/-- What is rendered around the current message, in its order of authority. -/
structure ContextParts where
  userMemory : Option String := none
  agentMemory : Option String := none
  compaction : Option String := none
  history : List HistoricalMessage := []

def renderContextV2 (currentUserText : String) (parts : ContextParts) : String :=
  joinBlank <|
    present parts.userMemory ++ present parts.agentMemory ++
      (present parts.compaction).map (compactionWrapperPrefix ++ ·) ++
      (if parts.history.isEmpty then [] else [joinBlank (parts.history.map historyLine)]) ++
      [currentUserText]

def computeContextDigest (renderedContext : String) : Digest :=
  .text renderedContext

structure ContextBudget where
  maxBytes : Nat := maxContextBytes
  maxCodePoints : Nat := maxContextCodePoints

def ContextBudget.Fits (budget : ContextBudget) (text : String) : Prop :=
  utf8Length text ≤ budget.maxBytes ∧ text.toList.length ≤ budget.maxCodePoints

instance (budget : ContextBudget) : DecidablePred budget.Fits := fun _ =>
  inferInstanceAs (Decidable (_ ∧ _))

structure ContextSnapshotData where
  currentUserText : String
  historyMessages : List HistoricalMessage
  selectedTurnIds : List Nat
  selectedMessageIds : List Nat
  compactionVersion : Option Nat
  compactionSourceStart : Option Nat
  compactionSourceEnd : Option Nat
  injectedCompactionText : Option String
  maxTotalBytes : Nat
  maxTotalCodePoints : Nat
  actualTotalBytes : Nat
  actualTotalCodePoints : Nat
  renderedContext : String
  contentDigest : Digest
  selectedMemories : List RetrievedMemoryItem
  injectedUserMemoryText : Option String
  injectedAgentMemoryText : Option String
deriving DecidableEq

namespace ContextBuilder

variable (budget : ContextBudget) (currentUserText : String)

def memoryText (header : String) (items : List RetrievedMemoryItem) : String :=
  header ++ "\n" ++ "\n".intercalate (items.map fun item => "- " ++ item.content)

def injectedText (header : String) (items : List RetrievedMemoryItem) : Option String :=
  if items.isEmpty then none else some (memoryText header items)

/-- Keep each item, in order, whose addition still passes `admits`. -/
def selectItems (admits : List RetrievedMemoryItem → Bool)
    (items : List RetrievedMemoryItem) : List RetrievedMemoryItem :=
  items.foldl (fun selected item =>
    if admits (selected ++ [item]) then selected ++ [item] else selected) []

def availableMemoryBytes : Nat :=
  min maxInjectedMemoryBytes (budget.maxBytes - utf8Length currentUserText)

def selectUserMemories (items : List RetrievedMemoryItem) : List RetrievedMemoryItem :=
  selectItems (fun selected =>
      let text := memoryText userMemoryHeader selected
      decide (budget.Fits (renderContextV2 currentUserText { userMemory := some text })) &&
        decide (utf8Length text ≤ availableMemoryBytes budget currentUserText))
    (items.filter (·.scope = .user))

def selectAgentMemories (userText : Option String) (items : List RetrievedMemoryItem) :
    List RetrievedMemoryItem :=
  selectItems (fun selected =>
      let text := memoryText agentMemoryHeader selected
      decide (budget.Fits (renderContextV2 currentUserText
        { userMemory := userText, agentMemory := some text })) &&
        decide (((userText.filter (· ≠ "")).elim 0 fun user => utf8Length user + 2) +
          utf8Length text ≤ availableMemoryBytes budget currentUserText))
    (items.filter (·.scope = .agent))

def CandidateTurn.messages (turn : CandidateTurn) : List HistoricalMessage :=
  [⟨turn.user.turnId, turn.sequence, turn.user.id, .user, turn.user.content⟩,
    ⟨turn.assistant.turnId, turn.sequence, turn.assistant.id, .assistant, turn.assistant.content⟩]

def turnMessages (turns : List CandidateTurn) : List HistoricalMessage :=
  turns.flatMap CandidateTurn.messages

/-- Scan from the newest turn back, and stop at the first that does not fit. -/
def selectTurns (parts : ContextParts) : List CandidateTurn → List CandidateTurn →
    List CandidateTurn
  | [], selected => selected
  | turn :: older, selected =>
    if budget.Fits (renderContextV2 currentUserText
        { parts with history := turnMessages (turn :: selected) }) then
      selectTurns parts older (turn :: selected)
    else selected

def recentCandidates (turns : List CandidateTurn) : List CandidateTurn :=
  turns.drop (turns.length - maxRecentHistoryMessages / 2)

def expectedCompactionEnd (turns selected : List CandidateTurn) : Option Nat :=
  match selected.head? with
  | some oldest => ((turns.map (·.sequence)).filter (· < oldest.sequence)).max?
  | none => (turns.map (·.sequence)).max?

def storedBody (content : String) : List Char :=
  let header := compactionHeaderStored.toList
  if (header ++ ['\n']).isPrefixOf content.toList then content.toList.drop (header.length + 1)
  else if header.isPrefixOf content.toList then
    (content.toList.drop header.length).dropWhile (· = '\n')
  else content.toList

/-- `[b.strip() for b in body.split("\n\n") if b.strip()]` -/
def storedBlocks (body : List Char) : List (List Char) :=
  ((Text.splitPairs '\n' body).map (Text.trim isPythonSpace)).filter (! ·.isEmpty)

def joinBlocks (blocks : List (List Char)) : String :=
  String.ofList (Text.joinPairs '\n' blocks)

/-- Scan from the newest block back, and stop at the first that does not fit. -/
def fitBlocks (fits : String → Bool) : List (List Char) → List (List Char) →
    List (List Char)
  | [], fitted => fitted
  | block :: older, fitted =>
    if fits (joinBlocks (block :: fitted)) then fitBlocks fits older (block :: fitted)
    else fitted

def injectCompaction (parts : ContextParts) (content : String) : Option String :=
  let body := storedBody content
  let fits := fun text => decide (budget.Fits (renderContextV2 currentUserText
    { parts with compaction := some text }))
  if fits (String.ofList body) then some (String.ofList body)
  else
    let fitted := fitBlocks fits (storedBlocks body).reverse []
    if fitted.isEmpty then none else some (joinBlocks fitted)

def validCompaction (turns selected : List CandidateTurn) (current : Option CompactionData) :
    Option CompactionData :=
  current.filter fun compaction =>
    ! turns.isEmpty && expectedCompactionEnd turns selected = some compaction.sourceEndSequence &&
      compaction.sourceStartSequence ≤ compaction.sourceEndSequence

def assemble (candidateTurns : List CandidateTurn) (currentCompaction : Option CompactionData)
    (memoryCandidates : List RetrievedMemoryItem) : Option ContextSnapshotData :=
  if ¬ budget.Fits currentUserText then none
  else
    let userMemories := selectUserMemories budget currentUserText memoryCandidates
    let userText := injectedText userMemoryHeader userMemories
    let agentMemories := selectAgentMemories budget currentUserText userText memoryCandidates
    let agentText := injectedText agentMemoryHeader agentMemories
    let parts : ContextParts := { userMemory := userText, agentMemory := agentText }
    let selected := selectTurns budget currentUserText parts
      (recentCandidates candidateTurns).reverse []
    let history := turnMessages selected
    let valid := validCompaction candidateTurns selected currentCompaction
    let injected := valid.bind fun compaction =>
      injectCompaction budget currentUserText { parts with history := history } compaction.content
    let used := if injected.isSome then valid else none
    let rendered := renderContextV2 currentUserText
      { parts with history := history, compaction := injected }
    some
      { currentUserText := currentUserText
        historyMessages := history
        selectedTurnIds := selected.map (·.user.turnId)
        selectedMessageIds := history.map (·.messageId)
        compactionVersion := used.map (·.version)
        compactionSourceStart := used.map (·.sourceStartSequence)
        compactionSourceEnd := used.map (·.sourceEndSequence)
        injectedCompactionText := injected
        maxTotalBytes := budget.maxBytes
        maxTotalCodePoints := budget.maxCodePoints
        actualTotalBytes := utf8Length rendered
        actualTotalCodePoints := rendered.toList.length
        renderedContext := rendered
        contentDigest := computeContextDigest rendered
        selectedMemories := userMemories ++ agentMemories
        injectedUserMemoryText := userText
        injectedAgentMemoryText := agentText }

end ContextBuilder

end NervOS
