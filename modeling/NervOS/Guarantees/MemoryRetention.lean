/-
Memory over every run of its transactions: versions without gaps, scopes within their capacity,
suggestions saved once, and nothing retained automatically that was held before.
-/
import NervOS.Database.MemorySuggestions
import NervOS.Relational.Rows

namespace NervOS

open Relational

namespace MemoryStore

variable {db : MemoryStore} {holder : MemoryHolder} {item : MemoryItemRecord}

/-- The version numbers of an item, in the order they were written. -/
def versionsOf (db : MemoryStore) (memoryItemId : Nat) : List Nat :=
  (db.versions.filter (·.memoryItemId = memoryItemId)).map (·.version)

structure Sound (db : MemoryStore) : Prop where
  numbered : ∀ item ∈ db.items, Numbered (db.versionsOf item.id) item.currentVersion
  bounded : ∀ holder, (db.activeItems holder).length ≤ maxActiveMemoryItemsPerScope

theorem length_filter_setItem_le (memoryItemId : Nat) (change : MemoryItemRecord → MemoryItemRecord)
    {p : MemoryItemRecord → Bool} (hp : ∀ item, p (change item) = true → p item = true) :
    ((db.setItem memoryItemId change).filter p).length ≤ (db.items.filter p).length := by
  rw [setItem, ← List.countP_eq_length_filter, ← List.countP_eq_length_filter, List.countP_map]
  apply List.countP_mono_left
  intro item _ hitem
  rw [Function.comp_apply] at hitem
  split_ifs at hitem
  · exact hp item hitem
  · exact hitem

theorem versionsOf_concat {versions : List MemoryVersionRecord} (record : MemoryVersionRecord)
    (memoryItemId : Nat) :
    ((versions ++ [record]).filter (·.memoryItemId = memoryItemId)).map (·.version) =
      (versions.filter (·.memoryItemId = memoryItemId)).map (·.version) ++
        if record.memoryItemId = memoryItemId then [record.version] else [] := by
  rw [filter_append_singleton, List.map_append]
  by_cases hid : record.memoryItemId = memoryItemId
  · simp [hid]
  · simp [hid]

theorem versionsOf_next : db.versionsOf db.nextItemId = [] := by
  rw [versionsOf, List.map_eq_nil_iff, List.filter_eq_nil_iff]
  intro record hrecord hid
  obtain ⟨item, hitem, hsame, -⟩ := db.written record hrecord
  have hnext : item.id = db.nextItemId := hsame.trans (of_decide_eq_true hid)
  exact absurd hnext (db.assigned item hitem).ne

theorem Sound.insertItem (h : db.Sound) {now : Instant} {content : String} {contentDigest : Digest}
    {provenanceType : MemoryProvenanceType}
    (hroom : (db.activeItems holder).length < maxActiveMemoryItemsPerScope) :
    (db.insertItem holder now content contentDigest provenanceType).Sound where
  numbered := by
    intro item hitem
    rw [versionsOf, MemoryStore.insertItem, versionsOf_concat, ← versionsOf]
    rcases List.mem_append.mp hitem with hold | hnew
    · rw [if_neg (db.assigned item hold).ne', List.append_nil]
      exact h.numbered item hold
    · have hsame : item = db.newItem holder := List.mem_singleton.mp hnew
      have hnone : db.versionsOf item.id = [] := hsame ▸ versionsOf_next
      have hid : db.nextItemId = (db.newItem holder).id := rfl
      rw [hnone, hsame, if_pos hid, List.nil_append]
      rfl
  bounded := by
    intro other
    rw [activeItems, MemoryStore.insertItem, filter_append_singleton, List.length_append]
    split_ifs with hmatch
    · obtain ⟨howner, hagent, -⟩ := of_decide_eq_true hmatch
      have hsame : other = holder := by
        cases other
        cases holder
        exact congrArg₂ MemoryHolder.mk howner.symm hagent.symm
      rw [hsame]
      exact hroom
    · exact h.bounded other

theorem Sound.createMemory (h : db.Sound) {now : Instant} {content : String}
    {contentDigest : Digest} {provenanceType : MemoryProvenanceType} {db' : MemoryStore}
    (hcreate : db.createMemory holder now content contentDigest provenanceType = .ok db') :
    db'.Sound := by
  unfold MemoryStore.createMemory at hcreate
  split_ifs at hcreate with hfull
  cases hcreate
  exact h.insertItem (Nat.lt_of_not_le hfull)

theorem Sound.editItem (h : db.Sound) (hitem : item ∈ db.items) {now : Instant} {content : String}
    {contentDigest : Digest} : (db.editItem now item hitem content contentDigest).Sound where
  numbered := by
    intro row hrow
    obtain ⟨before, hbefore, rfl⟩ := mem_setItem hrow
    have hnumbered := h.numbered before hbefore
    rw [versionsOf, MemoryStore.editItem, versionsOf_concat]
    split_ifs with hid howner howner
    · rw [eq_of_key db.itemIds hbefore hitem hid]
      exact (h.numbered item hitem).concat
    · exact absurd hid.symm howner
    · exact absurd howner.symm hid
    · rw [List.append_nil]
      exact hnumbered
  bounded := by
    intro other
    refine (length_filter_setItem_le _ (·.advanced) fun item hactive => ?_).trans (h.bounded other)
    exact hactive

theorem Sound.editMemory (h : db.Sound) {now : Instant} {content : String} {contentDigest : Digest}
    {ownerUserId memoryItemId expectedVersion : Nat} {db' : MemoryStore}
    (hedit : db.editMemory now ownerUserId memoryItemId expectedVersion content contentDigest =
      .ok db') : db'.Sound := by
  unfold MemoryStore.editMemory at hedit
  split at hedit
  · cases hedit
  · split_ifs at hedit
    cases hedit
    exact h.editItem _

theorem Sound.deleteItem (h : db.Sound) {memoryItemId : Nat} :
    (db.deleteItem memoryItemId).Sound where
  numbered := by
    intro row hrow
    obtain ⟨before, hbefore, rfl⟩ := mem_setItem hrow
    have hnumbered := h.numbered before hbefore
    split_ifs <;> exact hnumbered
  bounded := by
    intro other
    refine (length_filter_setItem_le _ (·.deleted) fun item hactive => ?_).trans (h.bounded other)
    simp [MemoryItemRecord.deleted] at hactive

theorem Sound.deleteMemory (h : db.Sound) {ownerUserId memoryItemId : Nat}
    {expectedVersion : Option Nat} {db' : MemoryStore}
    (hdelete : db.deleteMemory ownerUserId memoryItemId expectedVersion = .ok db') : db'.Sound := by
  unfold MemoryStore.deleteMemory at hdelete
  split at hdelete
  · cases hdelete
  · split_ifs at hdelete
    · cases hdelete
      exact h
    · split at hdelete
      · cases hdelete
      · cases hdelete
        exact h.deleteItem

end MemoryStore

namespace SuggestionStore

variable {db : SuggestionStore} {row : MemorySuggestionRecord} {now : Instant}

structure Retains (db : SuggestionStore) : Prop where
  memory : db.memory.Sound
  marked : ∀ row ∈ db.suggestions, row.state = .saved ↔ row.id ∈ db.savings.map (·.row.id)
  once : (db.savings.map (·.row.id)).Nodup
  unheld : ∀ saving ∈ db.savings, saving.automatic = true →
    ¬ saving.before.WasHeld saving.row.holder saving.row.contentDigest

structure Kept (db : SuggestionStore) : Prop extends Retains db where
  known : ∀ id ∈ db.savings.map (·.row.id), id < db.nextSuggestionId
  assigned : ∀ row ∈ db.suggestions, row.id < db.nextSuggestionId

theorem Kept.setMemory (h : db.Kept) {memory : MemoryStore} (hmemory : memory.Sound) :
    { db with memory }.Kept :=
  { h with memory := hmemory }

theorem mem_resolve {suggestion : Nat} {state : SuggestionState} {memoryItemId : Option Nat}
    (hrow : row ∈ db.resolve suggestion state memoryItemId) :
    ∃ before ∈ db.suggestions, row.id = before.id ∧
      row.state = if before.id = suggestion then state else before.state := by
  obtain ⟨before, hbefore, rfl⟩ := Keyed.mem_update hrow
  refine ⟨before, hbefore, ?_⟩
  split_ifs <;> exact ⟨rfl, rfl⟩

section Resolving

variable (h : db.Kept) (hrow : row ∈ db.suggestions) (hpending : row.state = .pending)

include h hrow hpending

theorem Kept.unsaved : row.id ∉ db.savings.map (·.row.id) := by
  rw [← h.marked row hrow, hpending]
  decide

theorem Kept.refuse {state : SuggestionState} (hstate : state ≠ .saved)
    {memoryItemId : Option Nat} :
    { db with suggestions := db.resolve row.id state memoryItemId }.Kept :=
  { h with
    assigned := by
      intro other hother
      obtain ⟨before, hbefore, hid, -⟩ := mem_resolve hother
      exact hid ▸ h.assigned before hbefore
    marked := by
      intro other hother
      obtain ⟨before, hbefore, hid, hbecomes⟩ := mem_resolve hother
      rw [hid, hbecomes]
      split_ifs with hsame
      · have hunsaved := h.unsaved hrow hpending
        rw [hsame]
        exact iff_of_false hstate hunsaved
      · exact h.marked before hbefore }

theorem Kept.saveSuggestion {automatic : Bool} :
    (db.saveSuggestion now row automatic).Kept := by
  unfold SuggestionStore.saveSuggestion
  split_ifs with hcurrent hheld hfull
  · exact h.refuse hrow hpending (by decide)
  · exact h
  · exact h.refuse hrow hpending (by decide)
  · have hunsaved := h.unsaved hrow hpending
    refine ⟨⟨h.memory.insertItem (Nat.lt_of_not_le hfull), ?marked, ?once, ?unheld⟩, ?known,
      ?assigned⟩
    case known =>
      intro id hid
      rw [List.map_append, List.mem_append] at hid
      rcases hid with hid | hid
      · exact h.known id hid
      · rw [List.map_singleton, List.mem_singleton] at hid
        exact hid ▸ h.assigned row hrow
    case assigned =>
      intro other hother
      obtain ⟨before, hbefore, hid, -⟩ := mem_resolve hother
      exact hid ▸ h.assigned before hbefore
    case marked =>
      intro other hother
      obtain ⟨before, hbefore, hid, hbecomes⟩ := mem_resolve hother
      rw [hid, hbecomes, List.map_append, List.mem_append, List.map_singleton,
        List.mem_singleton]
      split_ifs with hsame
      · exact iff_of_true rfl (Or.inr hsame)
      · rw [h.marked before hbefore, or_iff_left hsame]
    case once =>
      rw [List.map_append, List.map_singleton, ← List.concat_eq_append]
      exact h.once.concat hunsaved
    case unheld =>
      intro saving hsaving hautomatic
      rcases List.mem_append.mp hsaving with hold | hnew
      · exact h.unheld saving hold hautomatic
      · rw [List.mem_singleton.mp hnew] at hautomatic ⊢
        exact fun hwas => hheld ⟨hautomatic, hwas⟩

end Resolving

theorem Kept.decideSuggestion (h : db.Kept) {owner suggestion : Nat} {approve : Bool}
    {db' : SuggestionStore} (hdecide : db.decideSuggestion now owner suggestion approve = .ok db') :
    db'.Kept := by
  unfold SuggestionStore.decideSuggestion at hdecide
  split at hdecide
  · cases hdecide
  · case h_2 row hfound =>
    have hrow := List.mem_of_find?_eq_some hfound
    obtain ⟨hid, -⟩ : row.id = suggestion ∧ row.ownerUserId = owner := by
      simpa using List.find?_some hfound
    split_ifs at hdecide with hstate
    · cases hdecide
      exact h.saveSuggestion hrow (not_not.mp hstate)
    · cases hdecide
      exact hid ▸ h.refuse hrow (not_not.mp hstate) (by decide)

theorem Kept.materialize (h : db.Kept) {run : PendingRun} {proposal : MemoryProposal} :
    (db.materialize now run proposal).Kept := by
  have hnew : { db with
      suggestions := db.suggestions ++ [db.propose run proposal]
      nextSuggestionId := db.nextSuggestionId + 1 }.Kept :=
    { h with
      known := fun id hid => (h.known id hid).trans (Nat.lt_succ_self _)
      assigned := by
        intro row hrow
        rcases List.mem_append.mp hrow with hold | hnew
        · exact (h.assigned row hold).trans (Nat.lt_succ_self _)
        · rw [List.mem_singleton.mp hnew]
          exact Nat.lt_succ_self _
      marked := by
        intro row hrow
        rcases List.mem_append.mp hrow with hold | hnew
        · exact h.marked row hold
        · rw [List.mem_singleton.mp hnew]
          refine iff_of_false (by simp [propose]) fun hlisted => ?_
          exact absurd (h.known _ hlisted) (lt_irrefl _) }
  unfold SuggestionStore.materialize
  dsimp only
  split_ifs
  · exact h
  · exact hnew.saveSuggestion (List.mem_append_right _ (List.mem_singleton.mpr rfl)) rfl
  · exact hnew

theorem Kept.materializePending (h : db.Kept) {runs : List PendingRun} :
    (db.materializePending now runs).Kept := by
  refine List.foldlRecOn runs _ h fun db hdb run _ => ?_
  unfold materializeRun
  split_ifs
  · exact hdb
  · exact List.foldlRecOn run.proposals _ hdb fun _ hproposed _ _ => hproposed.materialize

theorem Kept.commit (h : db.Kept) {outcome : Except MemoryFailure MemoryStore}
    (houtcome : ∀ memory, outcome = .ok memory → memory.Sound) : (db.commit outcome).Kept := by
  cases outcome with
  | error failure => exact h
  | ok memory => exact h.setMemory (houtcome memory rfl)

theorem Kept.exec (h : db.Kept) (input : Instant × MemoryAction) : (exec input db).Kept := by
  obtain ⟨now, action⟩ := input
  cases action with
  | create => exact h.commit fun _ hcreate => h.memory.createMemory hcreate
  | promote holder source =>
    cases source with
    | none => exact h
    | some content => exact h.commit fun _ hpromote => h.memory.createMemory hpromote
  | edit => exact h.commit fun _ hedit => h.memory.editMemory hedit
  | delete => exact h.commit fun _ hdelete => h.memory.deleteMemory hdelete
  | decide owner suggestion approve =>
    unfold SuggestionStore.exec
    dsimp only
    cases hdecide : db.decideSuggestion now owner suggestion approve with
    | error failure => exact h
    | ok db' => exact h.decideSuggestion hdecide
  | materialize runs => exact h.materializePending

theorem kept_empty : empty.Kept where
  memory := ⟨nofun, fun _ => Nat.zero_le _⟩
  marked := nofun
  once := .nil
  unheld := nofun
  known := nofun
  assigned := nofun

/-- Whatever transactions on memory came before, in any order. -/
theorem memory_retention (hreach : machine.Reachable db) : db.Retains := by
  have hkept : db.Kept := hreach.invariant kept_empty fun _ input h => h.exec input
  exact hkept.toRetains

def sampleMemoryRun : List (Instant × MemoryAction) :=
  let proposals : List MemoryProposal := [⟨.agent, "tea"⟩, ⟨.agent, "milk"⟩]
  [(1, .create ⟨1, some 1⟩ "tea" (.text "tea") .userAuthored),
    (2, .edit 1 1 1 "coffee" (.text "coffee")),
    (3, .materialize [⟨7, 1, 1, .automaticPrivate, .automaticPrivate, true, true, proposals⟩]),
    (4, .delete 1 1 none),
    (5, .decide 1 1 true)]

/-- The corrected fact is not brought back, the other is retained; the owner may restore both. -/
theorem memory_retention_sample :
    ((machine.run sampleMemoryRun machine.init).savings.map fun saving =>
      (saving.row.id, saving.automatic)) = [(2, true), (1, false)] ∧
    (machine.run sampleMemoryRun machine.init).Retains :=
  ⟨by decide, memory_retention ⟨sampleMemoryRun, rfl⟩⟩

end SuggestionStore

end NervOS
