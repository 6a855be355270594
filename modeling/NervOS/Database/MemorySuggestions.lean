/-
The suggestions of a Run: what it proposes to remember, what the owner decides about it, and
what is retained without asking.
-/
import NervOS.Database.Memory
import NervOS.Relational.Keyed
import NervOS.Relational.Machine

namespace NervOS

open Relational

inductive SuggestionState where
  | pending
  | saved
  | dismissed
  | duplicate
  | quota
deriving DecidableEq

/-- A row of `memory_suggestions`. -/
structure MemorySuggestionRecord where
  id : Nat
  ownerUserId : Nat
  agentInstanceId : Nat
  sourceRunId : Nat
  scope : MemoryScope
  content : String
  contentDigest : Digest
  state : SuggestionState := .pending
  memoryItemId : Option Nat := none

def MemorySuggestionRecord.holder (row : MemorySuggestionRecord) : MemoryHolder where
  ownerUserId := row.ownerUserId
  agentInstanceId := if row.scope = .agent then some row.agentInstanceId else none

namespace MemoryStore

variable (db : MemoryStore) (holder : MemoryHolder) (contentDigest : Digest)

def Holds (item : MemoryItemRecord) : Prop :=
  item.ownerUserId = holder.ownerUserId ∧ item.agentInstanceId = holder.agentInstanceId ∧
    item.scope = holder.scope

instance : DecidablePred (Holds holder) := fun _ => inferInstanceAs (Decidable (_ ∧ _ ∧ _))

def IsCurrent : Prop :=
  ∃ item ∈ db.items, Holds holder item ∧ item.status = .active ∧
    ∃ record ∈ db.versions, record.memoryItemId = item.id ∧
      record.version = item.currentVersion ∧ record.contentDigest = contentDigest

def WasHeld : Prop :=
  ∃ item ∈ db.items, Holds holder item ∧
    ∃ record ∈ db.versions, record.memoryItemId = item.id ∧ record.contentDigest = contentDigest

instance : Decidable (db.IsCurrent holder contentDigest) :=
  inferInstanceAs (Decidable (∃ item ∈ db.items, _))

instance : Decidable (db.WasHeld holder contentDigest) :=
  inferInstanceAs (Decidable (∃ item ∈ db.items, _))

end MemoryStore

/-- One item that a suggestion created, with the memory as it was found. -/
structure Saving where
  row : MemorySuggestionRecord
  automatic : Bool
  before : MemoryStore

structure SuggestionStore where
  memory : MemoryStore
  suggestions : List MemorySuggestionRecord
  nextSuggestionId : Nat
  savings : List Saving

inductive SuggestionFailure where
  | notFound
  | conflict (message : String)

inductive MemoryMode where
  | manual
  | review
  | automaticPrivate
deriving DecidableEq

structure MemoryProposal where
  scope : MemoryScope
  content : String

/-- A pending row of `run_integrations`, with what is read of its conversation and its policy. -/
structure PendingRun where
  runId : Nat
  ownerUserId : Nat
  agentInstanceId : Nat
  memoryMode : MemoryMode
  policyMode : MemoryMode
  eligible : Bool
  policyCurrent : Bool
  proposals : List MemoryProposal

namespace SuggestionStore

variable (db : SuggestionStore) (now : Instant)

def resolve (suggestion : Nat) (state : SuggestionState) (memoryItemId : Option Nat) :
    List MemorySuggestionRecord :=
  Keyed.update (·.id) suggestion (fun row => { row with state, memoryItemId }) db.suggestions

/-- `_save_suggestion` -/
def saveSuggestion (row : MemorySuggestionRecord) (automatic : Bool) : SuggestionStore :=
  if db.memory.IsCurrent row.holder row.contentDigest then
    { db with suggestions := db.resolve row.id .duplicate row.memoryItemId }
  else if automatic = true ∧ db.memory.WasHeld row.holder row.contentDigest then db
  else if maxActiveMemoryItemsPerScope ≤ (db.memory.activeItems row.holder).length then
    { db with suggestions := db.resolve row.id .quota row.memoryItemId }
  else
    { db with
      memory := db.memory.insertItem row.holder now row.content row.contentDigest
        .userApprovedInferred
      suggestions := db.resolve row.id .saved (some db.memory.nextItemId)
      savings := db.savings ++ [⟨row, automatic, db.memory⟩] }

/-- `decide_suggestion` -/
def decideSuggestion (owner suggestion : Nat) (approve : Bool) :
    Except SuggestionFailure SuggestionStore :=
  match db.suggestions.find? fun row => row.id = suggestion ∧ row.ownerUserId = owner with
  | none => .error .notFound
  | some row =>
    if row.state ≠ .pending then .error (.conflict "suggestion already resolved")
    else if approve then .ok (db.saveSuggestion now row false)
    else .ok { db with suggestions := db.resolve suggestion .dismissed row.memoryItemId }

def propose (run : PendingRun) (proposal : MemoryProposal) : MemorySuggestionRecord where
  id := db.nextSuggestionId
  ownerUserId := run.ownerUserId
  agentInstanceId := run.agentInstanceId
  sourceRunId := run.runId
  scope := proposal.scope
  content := proposal.content
  contentDigest := .text proposal.content

def materialize (run : PendingRun) (proposal : MemoryProposal) : SuggestionStore :=
  let row := db.propose run proposal
  if ∃ prior ∈ db.suggestions, prior.sourceRunId = row.sourceRunId ∧ prior.scope = row.scope ∧
      prior.contentDigest = row.contentDigest then db
  else
    let inserted := { db with
      suggestions := db.suggestions ++ [row]
      nextSuggestionId := db.nextSuggestionId + 1 }
    if run.memoryMode = .automaticPrivate ∧ run.policyMode = .automaticPrivate ∧
        proposal.scope = .agent then inserted.saveSuggestion now row true
    else inserted

/-- One row of `materialize_pending`. -/
def materializeRun (run : PendingRun) : SuggestionStore :=
  if run.eligible = false ∨ run.policyMode = .manual ∨ run.policyCurrent = false then db
  else run.proposals.foldl (fun db proposal => db.materialize now run proposal) db

/-- `materialize_pending`, on the rows that its query selects. -/
def materializePending (runs : List PendingRun) : SuggestionStore :=
  runs.foldl (fun db run => db.materializeRun now run) db

end SuggestionStore

/-- The transactions on memory. A promotion has the text of its source, unless that is invalid. -/
inductive MemoryAction where
  | create (holder : MemoryHolder) (content : String) (contentDigest : Digest)
      (provenanceType : MemoryProvenanceType)
  | promote (holder : MemoryHolder) (source : Option String)
  | edit (ownerUserId memoryItemId expectedVersion : Nat) (content : String)
      (contentDigest : Digest)
  | delete (ownerUserId memoryItemId : Nat) (expectedVersion : Option Nat)
  | decide (owner suggestion : Nat) (approve : Bool)
  | materialize (runs : List PendingRun)

namespace SuggestionStore

def empty : SuggestionStore where
  memory := ⟨[], [], 1, .nil, .nil, nofun, nofun, nofun⟩
  suggestions := []
  nextSuggestionId := 1
  savings := []

/-- What a transaction on the items leaves: all of it, or nothing. -/
def commit (db : SuggestionStore) (outcome : Except MemoryFailure MemoryStore) : SuggestionStore :=
  { db with memory := outcome.toOption.getD db.memory }

def exec (input : Instant × MemoryAction) (db : SuggestionStore) : SuggestionStore :=
  match input with
  | (now, .create holder content contentDigest provenanceType) =>
    db.commit (db.memory.createMemory holder now content contentDigest provenanceType)
  | (_, .promote _ none) => db
  | (now, .promote holder (some content)) =>
    db.commit (db.memory.createMemory holder now content (.text content) .userApprovedInferred)
  | (now, .edit ownerUserId memoryItemId expectedVersion content contentDigest) =>
    db.commit (db.memory.editMemory now ownerUserId memoryItemId expectedVersion content
      contentDigest)
  | (_, .delete ownerUserId memoryItemId expectedVersion) =>
    db.commit (db.memory.deleteMemory ownerUserId memoryItemId expectedVersion)
  | (now, .decide owner suggestion approve) =>
    (db.decideSuggestion now owner suggestion approve).toOption.getD db
  | (now, .materialize runs) => db.materializePending now runs

def machine : Machine SuggestionStore (Instant × MemoryAction) :=
  ⟨empty, exec⟩

end SuggestionStore

end NervOS
