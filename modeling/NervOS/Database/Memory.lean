/-
Memory items and their versions: the owner's operations on them, and the retrieval of the
candidates for a context.
-/
import NervOS.Application.ContextBuilder
import NervOS.Relational.Keyset

namespace NervOS

open Relational

inductive MemoryStatus where
  | active
  | deleted
deriving DecidableEq, Repr

inductive MemoryFailure where
  | capacityExceeded (message : String)
  | memoryNotFound (message : String)
  | staleVersion (message : String)
deriving DecidableEq, Repr

def maxActiveMemoryItemsPerScope : Nat := 1000

def MemoryScope.value : MemoryScope → String
  | .user => "user"
  | .agent => "agent"

structure MemoryHolder where
  ownerUserId : Nat
  agentInstanceId : Option Nat
deriving DecidableEq

def MemoryHolder.scope (holder : MemoryHolder) : MemoryScope :=
  if holder.agentInstanceId.isSome then .agent else .user

/-- A row of `memory_items`; its check constraint ties the scope to the agent column. -/
structure MemoryItemRecord where
  id : Nat
  ownerUserId : Nat
  agentInstanceId : Option Nat
  scope : MemoryScope
  status : MemoryStatus
  currentVersion : Nat
deriving DecidableEq

/-- The update of an edit. -/
def MemoryItemRecord.advanced (item : MemoryItemRecord) : MemoryItemRecord :=
  { item with currentVersion := item.currentVersion + 1 }

/-- The update of a deletion. -/
def MemoryItemRecord.deleted (item : MemoryItemRecord) : MemoryItemRecord :=
  { item with status := .deleted }

/-- A row of `memory_versions`. -/
structure MemoryVersionRecord where
  memoryItemId : Nat
  version : Nat
  content : String
  contentDigest : Digest
  provenanceType : MemoryProvenanceType
  createdAt : Instant
deriving DecidableEq

def MemoryVersionRecord.key (record : MemoryVersionRecord) : Nat × Nat :=
  (record.memoryItemId, record.version)

/-- The two tables, with the keys that the database enforces and the current version that every
writer leaves behind. -/
structure MemoryStore where
  items : List MemoryItemRecord
  versions : List MemoryVersionRecord
  nextItemId : Nat
  itemIds : (items.map (·.id)).Nodup
  versionKeys : (versions.map (·.key)).Nodup
  assigned : ∀ item ∈ items, item.id < nextItemId
  present : ∀ item ∈ items, ∃ record ∈ versions, record.key = (item.id, item.currentVersion)
  written : ∀ record ∈ versions, ∃ item ∈ items,
    item.id = record.memoryItemId ∧ record.version ≤ item.currentVersion

namespace MemoryStore

variable (db : MemoryStore)

/-- The rows that a query for one scope selects. -/
def IsActiveUser (ownerUserId : Nat) (item : MemoryItemRecord) : Prop :=
  item.ownerUserId = ownerUserId ∧ item.scope = .user ∧ item.status = .active

def IsActiveAgent (ownerUserId agentInstanceId : Nat) (item : MemoryItemRecord) : Prop :=
  item.ownerUserId = ownerUserId ∧ item.agentInstanceId = some agentInstanceId ∧
    item.scope = .agent ∧ item.status = .active

instance (ownerUserId : Nat) : DecidablePred (IsActiveUser ownerUserId) := fun _ =>
  inferInstanceAs (Decidable (_ ∧ _ ∧ _))

instance (ownerUserId agentInstanceId : Nat) :
    DecidablePred (IsActiveAgent ownerUserId agentInstanceId) := fun _ =>
  inferInstanceAs (Decidable (_ ∧ _ ∧ _ ∧ _))

def joinedRow (item : MemoryItemRecord) (record : MemoryVersionRecord) : RetrievedMemoryItem where
  itemId := item.id
  version := record.version
  scope := item.scope
  provenanceType := record.provenanceType
  content := record.content
  contentDigest := record.contentDigest
  createdAt := record.createdAt

def joined (items : List MemoryItemRecord) : List RetrievedMemoryItem :=
  items.flatMap fun item =>
    (db.versions.filter (·.key = (item.id, item.currentVersion))).map (joinedRow item)

/-- `ORDER BY id DESC` -/
def newestFirst (row : RetrievedMemoryItem) : ℕᵒᵈ := OrderDual.toDual row.itemId

def candidateRows (selected : MemoryItemRecord → Prop) [DecidablePred selected]
    (below : Option Nat) (limit : Nat) : List RetrievedMemoryItem :=
  Keyset.page newestFirst limit (below.map OrderDual.toDual)
    (db.joined (db.items.filter fun item => selected item))

def targetPerScope : Nat := 25

/-- `_retrieve_memory_candidates_on_connection`: a quota for each scope, and a refill of one scope
where the other has too few rows for its quota. -/
def retrieveMemoryCandidates (ownerUserId agentInstanceId : Nat) (candidateLimit : Nat) :
    List RetrievedMemoryItem :=
  let userRows := db.candidateRows (IsActiveUser ownerUserId) none targetPerScope
  let agentRows := db.candidateRows (IsActiveAgent ownerUserId agentInstanceId) none targetPerScope
  if userRows.length < targetPerScope ∧ agentRows.length = targetPerScope then
    let additionalRows := db.candidateRows (IsActiveAgent ownerUserId agentInstanceId)
      (agentRows.getLast?.map (·.itemId)) (targetPerScope - userRows.length)
    (userRows ++ (agentRows ++ additionalRows)).take candidateLimit
  else if agentRows.length < targetPerScope ∧ userRows.length = targetPerScope then
    let additionalRows := db.candidateRows (IsActiveUser ownerUserId)
      (userRows.getLast?.map (·.itemId)) (targetPerScope - agentRows.length)
    ((userRows ++ additionalRows) ++ agentRows).take candidateLimit
  else (userRows ++ agentRows).take candidateLimit

section Writers

variable (holder : MemoryHolder) (now : Instant)

def activeItems : List MemoryItemRecord :=
  db.items.filter fun item => item.ownerUserId = holder.ownerUserId ∧
    item.agentInstanceId = holder.agentInstanceId ∧ item.scope = holder.scope ∧
    item.status = .active

def newItem : MemoryItemRecord where
  id := db.nextItemId
  ownerUserId := holder.ownerUserId
  agentInstanceId := holder.agentInstanceId
  scope := holder.scope
  status := .active
  currentVersion := 1

theorem eq_of_key {α β : Type} {key : α → β} {rows : List α} (hkeys : (rows.map key).Nodup)
    {left right : α} (hleft : left ∈ rows) (hright : right ∈ rows) (heq : key left = key right) :
    left = right :=
  List.inj_on_of_nodup_map hkeys hleft hright heq

def insertItem (content : String) (contentDigest : Digest) (provenanceType : MemoryProvenanceType) :
    MemoryStore where
  items := db.items ++ [db.newItem holder]
  versions := db.versions ++ [⟨db.nextItemId, 1, content, contentDigest, provenanceType, now⟩]
  nextItemId := db.nextItemId + 1
  itemIds := by
    rw [List.map_append, List.nodup_append']
    refine ⟨db.itemIds, List.nodup_singleton _, ?_⟩
    rw [List.disjoint_right]
    intro id hnew hold
    obtain ⟨item, hitem, rfl⟩ := List.mem_map.mp hold
    exact absurd (List.mem_singleton.mp hnew) (db.assigned item hitem).ne
  versionKeys := by
    rw [List.map_append, List.nodup_append']
    refine ⟨db.versionKeys, List.nodup_singleton _, ?_⟩
    rw [List.disjoint_right]
    intro key hnew hold
    obtain ⟨record, hrecord, rfl⟩ := List.mem_map.mp hold
    obtain ⟨item, hitem, hid, -⟩ := db.written record hrecord
    have hfirst : record.memoryItemId = db.nextItemId :=
      congrArg Prod.fst (List.mem_singleton.mp hnew)
    exact absurd (hid.trans hfirst) (db.assigned item hitem).ne
  assigned := by
    intro item hitem
    rcases List.mem_append.mp hitem with hold | hnew
    · exact (db.assigned item hold).trans (Nat.lt_succ_self _)
    · rw [List.mem_singleton.mp hnew]
      exact Nat.lt_succ_self _
  present := by
    intro item hitem
    rcases List.mem_append.mp hitem with hold | hnew
    · obtain ⟨record, hrecord, hkey⟩ := db.present item hold
      exact ⟨record, List.mem_append_left _ hrecord, hkey⟩
    · rw [List.mem_singleton.mp hnew]
      exact ⟨_, List.mem_append_right _ (List.mem_singleton.mpr rfl), rfl⟩
  written := by
    intro record hrecord
    rcases List.mem_append.mp hrecord with hold | hnew
    · obtain ⟨item, hitem, hid⟩ := db.written record hold
      exact ⟨item, List.mem_append_left _ hitem, hid⟩
    · rw [List.mem_singleton.mp hnew]
      exact ⟨_, List.mem_append_right _ (List.mem_singleton.mpr rfl), rfl, le_refl 1⟩

/-- `create_memory`; a promotion stores its item the same way. -/
def createMemory (content : String) (contentDigest : Digest)
    (provenanceType : MemoryProvenanceType) : Except MemoryFailure MemoryStore :=
  if maxActiveMemoryItemsPerScope ≤ (db.activeItems holder).length then
    .error (.capacityExceeded ("Memory scope " ++ holder.scope.value ++
      " capacity exceeded (maximum 1000 active items)"))
  else .ok (db.insertItem holder now content contentDigest provenanceType)

variable (ownerUserId memoryItemId : Nat)

def ownedItem? : Option MemoryItemRecord :=
  db.items.find? fun item => item.id = memoryItemId ∧ item.ownerUserId = ownerUserId

def notFound : MemoryFailure :=
  .memoryNotFound ("Memory " ++ toString memoryItemId ++ " not found")

def mismatch (expected current : Nat) : MemoryFailure :=
  .staleVersion ("Memory item " ++ toString memoryItemId ++ " version mismatch: expected " ++
    toString expected ++ ", got " ++ toString current)

def setItem (change : MemoryItemRecord → MemoryItemRecord) : List MemoryItemRecord :=
  db.items.map fun item => if item.id = memoryItemId then change item else item

variable {db} {memoryItemId} in
theorem mem_setItem {change : MemoryItemRecord → MemoryItemRecord} {item : MemoryItemRecord}
    (hitem : item ∈ db.setItem memoryItemId change) :
    ∃ before ∈ db.items,
      item = if before.id = memoryItemId then change before else before := by
  obtain ⟨before, hbefore, heq⟩ := List.mem_map.mp hitem
  exact ⟨before, hbefore, heq.symm⟩

theorem ids_setItem {change : MemoryItemRecord → MemoryItemRecord}
    (hid : ∀ item, (change item).id = item.id) :
    (db.setItem memoryItemId change).map (·.id) = db.items.map (·.id) := by
  rw [setItem, List.map_map]
  refine List.map_congr_left fun item _ => ?_
  rw [Function.comp_apply]
  split_ifs
  · exact hid item
  · rfl

def editItem (item : MemoryItemRecord) (hitem : item ∈ db.items) (content : String)
    (contentDigest : Digest) : MemoryStore where
  items := db.setItem item.id (·.advanced)
  versions := db.versions ++
    [⟨item.id, item.currentVersion + 1, content, contentDigest, .userAuthored, now⟩]
  nextItemId := db.nextItemId
  itemIds := by
    have hkept : ∀ row : MemoryItemRecord, row.advanced.id = row.id := fun _ => rfl
    rw [db.ids_setItem item.id hkept]
    exact db.itemIds
  versionKeys := by
    rw [List.map_append, List.nodup_append']
    refine ⟨db.versionKeys, List.nodup_singleton _, ?_⟩
    rw [List.disjoint_right]
    intro key hnew hold
    obtain ⟨record, hrecord, rfl⟩ := List.mem_map.mp hold
    obtain ⟨hid, hversion⟩ := Prod.mk.inj (List.mem_singleton.mp hnew)
    obtain ⟨owner, howner, hsame, hle⟩ := db.written record hrecord
    have howned : owner = item := eq_of_key db.itemIds howner hitem (hsame.trans hid)
    have hnext : record.version = item.currentVersion + 1 := hversion
    rw [howned, hnext] at hle
    exact absurd hle (Nat.not_succ_le_self _)
  assigned := by
    intro row hrow
    obtain ⟨before, hbefore, rfl⟩ := mem_setItem hrow
    have hassigned := db.assigned before hbefore
    split_ifs <;> exact hassigned
  present := by
    intro row hrow
    obtain ⟨before, hbefore, rfl⟩ := mem_setItem hrow
    split_ifs with hid
    · have hsame : before = item := eq_of_key db.itemIds hbefore hitem hid
      rw [hsame]
      exact ⟨_, List.mem_append_right _ (List.mem_singleton.mpr rfl), rfl⟩
    · obtain ⟨record, hrecord, hkey⟩ := db.present before hbefore
      exact ⟨record, List.mem_append_left _ hrecord, hkey⟩
  written := by
    intro record hrecord
    rcases List.mem_append.mp hrecord with hold | hnew
    · obtain ⟨before, hbefore, hid, hle⟩ := db.written record hold
      refine ⟨_, List.mem_map_of_mem hbefore, ?_⟩
      split_ifs
      · exact ⟨hid, hle.trans (Nat.le_succ _)⟩
      · exact ⟨hid, hle⟩
    · rw [List.mem_singleton.mp hnew]
      refine ⟨_, List.mem_map_of_mem hitem, ?_⟩
      rw [if_pos rfl]
      exact ⟨rfl, le_refl _⟩

/-- `edit_memory` -/
def editMemory (expectedVersion : Nat) (content : String) (contentDigest : Digest) :
    Except MemoryFailure MemoryStore :=
  match hitem : db.ownedItem? ownerUserId memoryItemId with
  | none => .error (notFound memoryItemId)
  | some item =>
    if item.status ≠ .active then .error (notFound memoryItemId)
    else if item.currentVersion ≠ expectedVersion then
      .error (mismatch memoryItemId expectedVersion item.currentVersion)
    else .ok (db.editItem now item (List.mem_of_find?_eq_some hitem) content contentDigest)

def deleteItem : MemoryStore where
  items := db.setItem memoryItemId (·.deleted)
  versions := db.versions
  nextItemId := db.nextItemId
  itemIds := by
    have hkept : ∀ row : MemoryItemRecord, row.deleted.id = row.id := fun _ => rfl
    rw [db.ids_setItem memoryItemId hkept]
    exact db.itemIds
  versionKeys := db.versionKeys
  assigned := by
    intro row hrow
    obtain ⟨before, hbefore, rfl⟩ := mem_setItem hrow
    have hassigned := db.assigned before hbefore
    split_ifs <;> exact hassigned
  present := by
    intro row hrow
    obtain ⟨before, hbefore, rfl⟩ := mem_setItem hrow
    have hpresent := db.present before hbefore
    split_ifs <;> exact hpresent
  written := by
    intro record hrecord
    obtain ⟨before, hbefore, hid, hle⟩ := db.written record hrecord
    refine ⟨_, List.mem_map_of_mem hbefore, ?_⟩
    split_ifs <;> exact ⟨hid, hle⟩

/-- `delete_memory`: what is deleted already stays so. -/
def deleteMemory (expectedVersion : Option Nat) : Except MemoryFailure MemoryStore :=
  match db.ownedItem? ownerUserId memoryItemId with
  | none => .error (notFound memoryItemId)
  | some item =>
    if item.status = .deleted then .ok db
    else
      match expectedVersion.filter (· ≠ item.currentVersion) with
      | some expected => .error (mismatch memoryItemId expected item.currentVersion)
      | none => .ok (db.deleteItem memoryItemId)

end Writers

variable {db}

theorem filter_key {α β : Type} [DecidableEq β] {key : α → β} {rows : List α}
    (hkeys : (rows.map key).Nodup) {row : α} (hrow : row ∈ rows) :
    rows.filter (fun other => key other = key row) = [row] := by
  induction rows with
  | nil => cases hrow
  | cons first rest ih =>
    rw [List.map_cons, List.nodup_cons] at hkeys
    rcases List.mem_cons.mp hrow with rfl | hrest
    · have hnone : rest.filter (fun other => key other = key row) = [] := by
        rw [List.filter_eq_nil_iff]
        intro other hother heq
        exact hkeys.1 (of_decide_eq_true heq ▸ List.mem_map_of_mem hother)
      rw [List.filter_cons, if_pos (decide_eq_true rfl), hnone]
    · have hother : ¬ key first = key row := fun heq =>
        hkeys.1 (heq ▸ List.mem_map_of_mem hrest)
      rw [List.filter_cons, if_neg (by simpa using hother), ih hkeys.2 hrest]

def Shows (db : MemoryStore) (item : MemoryItemRecord) (row : RetrievedMemoryItem) : Prop :=
  ∃ record ∈ db.versions, record.memoryItemId = item.id ∧ record.version = item.currentVersion ∧
    row = joinedRow item record

variable {items : List MemoryItemRecord}

theorem shows_joined (hitems : ∀ item ∈ items, item ∈ db.items) :
    List.Forall₂ db.Shows items (db.joined items) := by
  induction items with
  | nil => exact .nil
  | cons item rest ih =>
    rw [List.forall_mem_cons] at hitems
    obtain ⟨record, hrecord, hkey⟩ := db.present item hitems.1
    obtain ⟨hid, hversion⟩ := Prod.mk.inj hkey
    have hone : db.joined (item :: rest) = joinedRow item record :: db.joined rest := by
      rw [joined, List.flatMap_cons, ← hkey, filter_key db.versionKeys hrecord]
      rfl
    rw [hone]
    exact .cons ⟨record, hrecord, hid, hversion, rfl⟩ (ih hitems.2)

theorem ids_of_shows {rows : List RetrievedMemoryItem} (hshows : List.Forall₂ db.Shows items rows) :
    rows.map (·.itemId) = items.map (·.id) := by
  induction hshows with
  | nil => rfl
  | cons hshow _ ih =>
    obtain ⟨record, -, -, -, rfl⟩ := hshow
    rw [List.map_cons, List.map_cons, ih]
    rfl

variable (db) in
def newest (selected : MemoryItemRecord → Prop) [DecidablePred selected] :
    List MemoryItemRecord :=
  Keyset.ordered (fun item => OrderDual.toDual item.id) (db.items.filter fun item => selected item)

variable {selected : MemoryItemRecord → Prop} [DecidablePred selected]

theorem mem_newest {item : MemoryItemRecord} :
    item ∈ db.newest selected ↔ item ∈ db.items ∧ selected item := by
  rw [newest, Keyset.mem_ordered, List.mem_filter, decide_eq_true_eq]

theorem shows_newest :
    List.Forall₂ db.Shows (db.newest selected) (db.joined (db.newest selected)) :=
  shows_joined fun _ hitem => (mem_newest.mp hitem).1

theorem selected_keys :
    ((db.items.filter fun item => selected item).map fun item =>
      OrderDual.toDual item.id).Nodup :=
  db.itemIds.sublist (List.filter_sublist.map _)

theorem newest_descending :
    (db.newest selected).Pairwise fun left right => right.id < left.id :=
  Keyset.strict_ordered selected_keys

theorem ordered_joined :
    Keyset.ordered newestFirst (db.joined (db.items.filter fun item => selected item)) =
      db.joined (db.newest selected) := by
  refine Keyset.ordered_eq ?_ ?_
  · exact Keyset.perm_ordered.flatMap_right _
  · have hids : (db.joined (db.newest selected)).map (·.itemId) =
        (db.newest selected).map (·.id) := ids_of_shows shows_newest
    have hdescending : ((db.newest selected).map (·.id)).Pairwise fun left right =>
        right < left := List.pairwise_map.mpr newest_descending
    rw [← hids, List.pairwise_map] at hdescending
    exact hdescending

theorem joined_keys :
    ((db.joined (db.items.filter fun item => selected item)).map newestFirst).Nodup := by
  have hids := ids_of_shows (@shows_joined db (db.items.filter fun item => selected item)
    fun _ hitem => List.mem_of_mem_filter hitem)
  have hnodup : ((db.joined (db.items.filter fun item => selected item)).map
      (·.itemId)).Nodup := hids ▸ selected_keys
  exact hnodup

theorem candidateRows_first (limit : Nat) :
    db.candidateRows selected none limit = (db.joined (db.newest selected)).take limit := by
  rw [candidateRows, Keyset.page, Option.map_none, Keyset.beyond_none, ordered_joined]

theorem candidateRows_refill {limit : Nat} {last : RetrievedMemoryItem}
    (hlast : (db.candidateRows selected none limit).getLast? = some last) (more : Nat) :
    db.candidateRows selected (some last.itemId) more =
      ((db.joined (db.newest selected)).drop limit).take more := by
  rw [candidateRows, Keyset.page] at hlast
  have hdrop := Keyset.ordered_beyond_last joined_keys hlast
  rw [Option.map_none, Keyset.beyond_none, ordered_joined] at hdrop
  rw [candidateRows, Keyset.page, ← hdrop]
  rfl

theorem candidateRows_append {limit : Nat} (hfull : (db.candidateRows selected none limit).length =
    limit) (hlimit : 0 < limit) (more : Nat) :
    db.candidateRows selected none limit ++
        db.candidateRows selected
          ((db.candidateRows selected none limit).getLast?.map (·.itemId)) more =
      (db.joined (db.newest selected)).take (limit + more) := by
  cases hlast : (db.candidateRows selected none limit).getLast? with
  | none =>
    rw [List.getLast?_eq_none_iff, ← List.length_eq_zero_iff] at hlast
    omega
  | some last =>
    rw [Option.map_some, candidateRows_refill hlast, candidateRows_first, List.take_add]

variable (db) (ownerUserId agentInstanceId : Nat)

def activeUsers : List MemoryItemRecord := db.newest (IsActiveUser ownerUserId)

def activeAgents : List MemoryItemRecord := db.newest (IsActiveAgent ownerUserId agentInstanceId)

theorem retrieveMemoryCandidates_eq (candidateLimit : Nat) :
    db.retrieveMemoryCandidates ownerUserId agentInstanceId candidateLimit =
      ((db.joined (db.activeUsers ownerUserId)).take
          (max 25 (50 - (db.joined (db.activeAgents ownerUserId agentInstanceId)).length)) ++
        (db.joined (db.activeAgents ownerUserId agentInstanceId)).take
          (max 25 (50 - (db.joined (db.activeUsers ownerUserId)).length))).take
        candidateLimit := by
  have huser : db.candidateRows (IsActiveUser ownerUserId) none targetPerScope =
      (db.joined (db.activeUsers ownerUserId)).take 25 := candidateRows_first 25
  have hagent : db.candidateRows (IsActiveAgent ownerUserId agentInstanceId) none targetPerScope =
      (db.joined (db.activeAgents ownerUserId agentInstanceId)).take 25 := candidateRows_first 25
  have hmoreUsers := @candidateRows_append db (IsActiveUser ownerUserId) _ targetPerScope
  have hmoreAgents := @candidateRows_append db (IsActiveAgent ownerUserId agentInstanceId) _
    targetPerScope
  change _ → _ → ∀ more, _ = (db.joined (db.activeUsers ownerUserId)).take _ at hmoreUsers
  change _ → _ → ∀ more, _ = (db.joined (db.activeAgents ownerUserId agentInstanceId)).take _
    at hmoreAgents
  generalize db.joined (db.activeUsers ownerUserId) = users at *
  generalize db.joined (db.activeAgents ownerUserId agentInstanceId) = agents at *
  rw [retrieveMemoryCandidates]
  simp only
  split_ifs with hrefillAgents hrefillUsers
  · rw [hmoreAgents hrefillAgents.2 (by decide)]
    rw [huser, hagent, List.length_take, List.length_take, targetPerScope] at *
    rw [show max 25 (50 - agents.length) = 25 by omega,
      show 25 + (25 - min 25 users.length) = max 25 (50 - users.length) by omega]
  · rw [hmoreUsers hrefillUsers.2 (by decide)]
    rw [huser, hagent, List.length_take, List.length_take, targetPerScope] at *
    rw [show max 25 (50 - users.length) = 25 by omega,
      show 25 + (25 - min 25 agents.length) = max 25 (50 - agents.length) by omega]
  · rw [huser, hagent, List.length_take, List.length_take, targetPerScope] at *
    have htakeUsers : users.take 25 = users.take (max 25 (50 - agents.length)) :=
      List.take_eq_take_iff.mpr (by omega)
    have htakeAgents : agents.take 25 = agents.take (max 25 (50 - users.length)) :=
      List.take_eq_take_iff.mpr (by omega)
    rw [htakeUsers, htakeAgents]

end MemoryStore

end NervOS
