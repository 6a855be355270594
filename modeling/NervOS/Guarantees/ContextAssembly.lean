/-
The memories that are candidates for a context, and what an assembled context is made of.
-/
import Mathlib.Order.Bounds.Basic
import NervOS.Database.Memory

namespace NervOS

namespace MemoryStore

variable (db : MemoryStore) (ownerUserId agentInstanceId : Nat)

/-- The items that a retrieval of fifty shows, in its order. -/
def quotaItems : List MemoryItemRecord :=
  (db.activeUsers ownerUserId).take
      (max 25 (50 - (db.activeAgents ownerUserId agentInstanceId).length)) ++
    (db.activeAgents ownerUserId agentInstanceId).take
      (max 25 (50 - (db.activeUsers ownerUserId).length))

theorem length_joined_newest (selected : MemoryItemRecord → Prop) [DecidablePred selected] :
    (db.joined (db.newest selected)).length = (db.newest selected).length :=
  (@shows_newest db selected _).length_eq.symm

theorem length_quotaItems :
    (db.quotaItems ownerUserId agentInstanceId).length =
      min 50 ((db.activeUsers ownerUserId).length +
        (db.activeAgents ownerUserId agentInstanceId).length) := by
  rw [quotaItems, List.length_append, List.length_take, List.length_take]
  omega

theorem shows_quotaItems :
    List.Forall₂ db.Shows (db.quotaItems ownerUserId agentInstanceId)
      (db.retrieveMemoryCandidates ownerUserId agentInstanceId 50) := by
  have husers : (db.joined (db.activeUsers ownerUserId)).length =
      (db.activeUsers ownerUserId).length := length_joined_newest db _
  have hagents : (db.joined (db.activeAgents ownerUserId agentInstanceId)).length =
      (db.activeAgents ownerUserId agentInstanceId).length := length_joined_newest db _
  have hshown : List.Forall₂ db.Shows (db.quotaItems ownerUserId agentInstanceId)
      ((db.joined (db.activeUsers ownerUserId)).take
          (max 25 (50 - (db.activeAgents ownerUserId agentInstanceId).length)) ++
        (db.joined (db.activeAgents ownerUserId agentInstanceId)).take
          (max 25 (50 - (db.activeUsers ownerUserId).length))) :=
    List.rel_append (List.forall₂_take _ shows_newest) (List.forall₂_take _ shows_newest)
  have hlength := length_quotaItems db ownerUserId agentInstanceId
  rw [hshown.length_eq] at hlength
  rw [retrieveMemoryCandidates_eq, husers, hagents, List.take_of_length_le (by omega)]
  exact hshown

theorem nodup_quotaItems : ((db.quotaItems ownerUserId agentInstanceId).map (·.id)).Nodup := by
  have hgroup (selected : MemoryItemRecord → Prop) [DecidablePred selected] (limit : Nat) :
      (((db.newest selected).take limit).map (·.id)).Nodup := by
    rw [List.Nodup, List.pairwise_map]
    exact (newest_descending.sublist (List.take_sublist _ _)).imp fun h => h.ne'
  rw [quotaItems, List.map_append, List.nodup_append']
  refine ⟨hgroup _ _, hgroup _ _, ?_⟩
  intro id hleft hright
  obtain ⟨user, huser, hid⟩ := List.mem_map.mp hleft
  obtain ⟨agent, hagent, rfl⟩ := List.mem_map.mp hright
  obtain ⟨huserItem, -, huserScope, -⟩ := mem_newest.mp (List.mem_of_mem_take huser)
  obtain ⟨hagentItem, -, -, hagentScope, -⟩ := mem_newest.mp (List.mem_of_mem_take hagent)
  have hsame : user = agent := eq_of_key db.itemIds huserItem hagentItem hid
  rw [hsame, hagentScope] at huserScope
  cases huserScope

/-- A retrieval of fifty candidates fills its quota fairly: it shows the newest user items, as many
as the agent items leave room for and twenty-five at least, then the newest agent items in the same
way, each at its current version, and nothing else. -/
theorem memory_retrieval_fills_quota :
    List.Forall₂ db.Shows (db.quotaItems ownerUserId agentInstanceId)
        (db.retrieveMemoryCandidates ownerUserId agentInstanceId 50) ∧
      (db.retrieveMemoryCandidates ownerUserId agentInstanceId 50).length =
        min 50 ((db.activeUsers ownerUserId).length +
          (db.activeAgents ownerUserId agentInstanceId).length) ∧
      ((db.retrieveMemoryCandidates ownerUserId agentInstanceId 50).map (·.itemId)).Nodup ∧
      ∀ row ∈ db.retrieveMemoryCandidates ownerUserId agentInstanceId 50,
        ∃ item ∈ db.items, db.Shows item row ∧
          (IsActiveUser ownerUserId item ∨ IsActiveAgent ownerUserId agentInstanceId item) := by
  have hshows := shows_quotaItems db ownerUserId agentInstanceId
  refine ⟨hshows, ?_, ?_, ?_⟩
  · rw [← hshows.length_eq, length_quotaItems]
  · rw [ids_of_shows hshows]
    exact nodup_quotaItems db ownerUserId agentInstanceId
  · intro row hrow
    obtain ⟨index, hindex, rfl⟩ := List.mem_iff_getElem.mp hrow
    have hbound : index < (db.quotaItems ownerUserId agentInstanceId).length :=
      hshows.length_eq ▸ hindex
    have hshow := hshows.get hbound hindex
    have hmem : (db.quotaItems ownerUserId agentInstanceId)[index] ∈
        db.quotaItems ownerUserId agentInstanceId := List.getElem_mem hbound
    rcases List.mem_append.mp hmem with huser | hagent
    · obtain ⟨hitem, hactive⟩ := mem_newest.mp (List.mem_of_mem_take huser)
      exact ⟨_, hitem, hshow, .inl hactive⟩
    · obtain ⟨hitem, hactive⟩ := mem_newest.mp (List.mem_of_mem_take hagent)
      exact ⟨_, hitem, hshow, .inr hactive⟩

end MemoryStore

namespace ContextBuilder

section Selections

variable {budget : ContextBudget} {currentUserText : String}

end Selections

variable {budget : ContextBudget} {currentUserText : String}

end ContextBuilder

end NervOS
