/-
The members of an object are sorted by their keys, so an object is known by its members in
any order.
-/
import Mathlib.Data.List.Nodup
import Mathlib.Data.List.Perm.Basic
import Mathlib.Data.List.Perm.Subperm
import NervOS.Json.Value

namespace Json

namespace Value

variable {key : String} {value : Value} {members : List (String × Value)} {member : String × Value}

theorem mem_of_mem_assign (h : member ∈ assign key value members) :
    member = (key, value) ∨ member ∈ members := by
  induction members with
  | nil => exact Or.inl (List.mem_singleton.mp h)
  | cons first rest ih =>
    rw [assign] at h
    split_ifs at h with hbefore hsame
    · rcases List.mem_cons.mp h with heq | hmem
      · exact Or.inr (heq ▸ List.mem_cons_self)
      · exact (ih hmem).imp id (List.mem_cons_of_mem first)
    · exact (List.mem_cons.mp h).imp id (List.mem_cons_of_mem first)
    · exact List.mem_cons.mp h

theorem ascending_assign (h : (members.map Prod.fst).Pairwise (· < ·)) :
    ((assign key value members).map Prod.fst).Pairwise (· < ·) := by
  induction members with
  | nil => exact List.pairwise_singleton _ _
  | cons first rest ih =>
    obtain ⟨hfirst, hrest⟩ := List.pairwise_cons.mp h
    rw [assign]
    split_ifs with hbefore hsame
    · refine List.pairwise_cons.mpr ⟨?_, ih hrest⟩
      intro other hother
      obtain ⟨member, hmember, rfl⟩ := List.mem_map.mp hother
      rcases mem_of_mem_assign hmember with rfl | hmember
      · exact hbefore
      · exact hfirst _ (List.mem_map_of_mem hmember)
    · exact List.pairwise_cons.mpr ⟨hsame ▸ hfirst, hrest⟩
    · have hafter : key < first.1 := lt_of_le_of_ne (not_lt.mp hbefore) fun heq => hsame heq.symm
      refine List.pairwise_cons.mpr ⟨?_, h⟩
      intro other hother
      rcases List.mem_cons.mp hother with rfl | hother
      · exact hafter
      · exact hafter.trans (hfirst other hother)

theorem ascending_ofMembers (members : List (String × Value)) :
    ((ofMembers members).map Prod.fst).Pairwise (· < ·) := by
  have hfold : ∀ rest object : List (String × Value), (object.map Prod.fst).Pairwise (· < ·) →
      ((rest.foldl (fun object member => assign member.1 member.2 object) object).map
        Prod.fst).Pairwise (· < ·) := by
    intro rest
    induction rest with
    | nil => exact fun _ h => h
    | cons member rest ih => exact fun object h => ih _ (ascending_assign h)
  exact hfold members [] List.Pairwise.nil

theorem perm_assign (hnew : key ∉ members.map Prod.fst) :
    (assign key value members).Perm ((key, value) :: members) := by
  induction members with
  | nil => rfl
  | cons first rest ih =>
    rw [List.map_cons, List.mem_cons, not_or] at hnew
    rw [assign]
    split_ifs with hbefore hsame
    · exact ((ih hnew.2).cons first).trans (List.Perm.swap _ _ _)
    · exact absurd hsame.symm hnew.1
    · exact List.Perm.refl _

theorem perm_ofMembers (h : (members.map Prod.fst).Nodup) :
    (ofMembers members).Perm members := by
  have hfold : ∀ rest object : List (String × Value), ((object ++ rest).map Prod.fst).Nodup →
      (rest.foldl (fun object member => assign member.1 member.2 object) object).Perm
        (object ++ rest) := by
    intro rest
    induction rest with
    | nil =>
      intro object _
      rw [List.append_nil]
      exact List.Perm.refl _
    | cons member rest ih =>
      intro object hobject
      have hmoved : (object ++ member :: rest).Perm (member :: object ++ rest) := List.perm_middle
      have hnodup := (hmoved.map Prod.fst).nodup_iff.mp hobject
      have hnew : member.1 ∉ object.map Prod.fst := by
        rw [List.cons_append, List.map_cons, List.nodup_cons, List.map_append,
          List.mem_append, not_or] at hnodup
        exact hnodup.1.1
      have hassign : (assign member.1 member.2 object ++ rest).Perm (member :: object ++ rest) :=
        (perm_assign hnew).append_right rest
      rw [List.foldl_cons]
      exact (ih _ ((hassign.map Prod.fst).nodup_iff.mpr hnodup)).trans
        (hassign.trans hmoved.symm)
  exact hfold members [] h

variable {left right : List (String × Value)}

theorem ofMembers_eq_iff (hleft : (left.map Prod.fst).Nodup) (hright : (right.map Prod.fst).Nodup) :
    ofMembers left = ofMembers right ↔ left.Perm right := by
  constructor
  · intro heq
    exact (perm_ofMembers hleft).symm.trans (heq ▸ perm_ofMembers hright)
  · intro hperm
    have hsorted := ((perm_ofMembers hleft).trans hperm).trans (perm_ofMembers hright).symm
    have hascending : ∀ members, (ofMembers members).Pairwise fun first second =>
        first.1 < second.1 := fun members => List.pairwise_map.mp (ascending_ofMembers members)
    exact hsorted.eq_of_pairwise
      (fun first second _ _ hbefore hafter => absurd hbefore (lt_asymm hafter))
      (hascending left) (hascending right)

theorem mem_of_mem_ofMembers (h : member ∈ ofMembers members) :
    member ∈ members := by
  have hfold : ∀ rest object : List (String × Value),
      member ∈ rest.foldl (fun object member => assign member.1 member.2 object) object →
        member ∈ object ∨ member ∈ rest := by
    intro rest
    induction rest with
    | nil => exact fun _ h => Or.inl h
    | cons first rest ih =>
      intro object h
      rcases ih _ h with hassigned | hrest
      · rcases mem_of_mem_assign hassigned with heq | hold
        · exact Or.inr (heq ▸ List.mem_cons_self)
        · exact Or.inl hold
      · exact Or.inr (List.mem_cons_of_mem first hrest)
  exact (hfold members [] h).resolve_left List.not_mem_nil

theorem lookup_assign {key name : String} :
    (assign key value members).lookup name =
      if name = key then some value else members.lookup name := by
  by_cases hname : name = key
  · rw [if_pos hname, hname]
    induction members with
    | nil => exact List.lookup_cons_self
    | cons first rest ih =>
      rw [assign]
      split_ifs with hbefore hsame
      · rw [List.lookup_cons, beq_false_of_ne hbefore.ne', ih]
      · exact List.lookup_cons_self
      · exact List.lookup_cons_self
  · rw [if_neg hname]
    induction members with
    | nil => rw [assign, List.lookup_cons, beq_false_of_ne hname]
    | cons first rest ih =>
      rw [assign]
      split_ifs with hbefore hsame
      · rw [List.lookup_cons, ih, List.lookup_cons]
      · rw [List.lookup_cons, beq_false_of_ne hname, List.lookup_cons,
          beq_false_of_ne (hsame ▸ hname)]
      · rw [List.lookup_cons, beq_false_of_ne hname]

theorem lookup_eq_some_iff (h : (members.map Prod.fst).Nodup) :
    members.lookup key = some value ↔ (key, value) ∈ members := by
  induction members with
  | nil => simp
  | cons first rest ih =>
    obtain ⟨name, other⟩ := first
    obtain ⟨hnew, hrest⟩ := List.nodup_cons.mp h
    rw [List.lookup_cons]
    by_cases hkey : key = name
    · subst hkey
      have hnone : (key, value) ∉ rest := fun hmem => hnew (List.mem_map.mpr ⟨_, hmem, rfl⟩)
      simp [hnone, eq_comm]
    · simp [beq_false_of_ne hkey, ih hrest, hkey]

theorem eq_of_lookup (hleft : (left.map Prod.fst).Pairwise (· < ·))
    (hright : (right.map Prod.fst).Pairwise (· < ·)) (h : ∀ key, left.lookup key = right.lookup key)
    : left = right := by
  have hnodup : ∀ {members : List (String × Value)}, (members.map Prod.fst).Pairwise (· < ·) →
      (members.map Prod.fst).Nodup := fun hmembers => hmembers.imp fun hlt => hlt.ne
  have hperm : left.Perm right := by
    have hdistinct : left.Nodup ∧ right.Nodup :=
      ⟨List.Nodup.of_map Prod.fst (hnodup hleft), List.Nodup.of_map Prod.fst (hnodup hright)⟩
    refine (List.perm_ext_iff_of_nodup hdistinct.1 hdistinct.2).mpr ?_
    rintro ⟨key, value⟩
    rw [← lookup_eq_some_iff (hnodup hleft), ← lookup_eq_some_iff (hnodup hright), h]
  have hsorted := (ofMembers_eq_iff (hnodup hleft) (hnodup hright)).mpr hperm
  rwa [ofMembers_of_ascending hleft, ofMembers_of_ascending hright] at hsorted

theorem wellFormedItems_iff {items : List Value} :
    WellFormedItems items ↔ ∀ item ∈ items, item.WellFormed := by
  induction items with
  | nil => simp [WellFormedItems]
  | cons item rest ih => rw [WellFormedItems, ih, List.forall_mem_cons]

theorem wellFormedMembers_iff :
    WellFormedMembers members ↔ ∀ member ∈ members, member.2.WellFormed := by
  induction members with
  | nil => simp [WellFormedMembers]
  | cons member rest ih => rw [WellFormedMembers, ih, List.forall_mem_cons]

theorem wellFormed_obj_iff :
    (obj members).WellFormed ↔ (members.map Prod.fst).Pairwise (· < ·) ∧
      ∀ key value, members.lookup key = some value → value.WellFormed := by
  rw [WellFormed, wellFormedMembers_iff, and_congr_right_iff]
  intro hascending
  have hnodup : (members.map Prod.fst).Nodup := hascending.imp fun hlt => hlt.ne
  constructor
  · exact fun h key value hlookup => h _ ((lookup_eq_some_iff hnodup).mp hlookup)
  · exact fun h member hmember => h member.1 member.2 ((lookup_eq_some_iff hnodup).mpr hmember)

end Value

end Json
