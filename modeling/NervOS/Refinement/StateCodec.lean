/-
What each recursion of the codec makes of a value: the normalisation, the freezing and the
thawing are copies of one kind, the contract and the measure are bounds on the whole tree.
-/
import NervOS.Domain.StateCodec
import NervOS.Python.Reading

namespace NervOS

namespace StateCodec

open Python Python.Value

section Plain

variable {κ : Type} {str? : κ → Option Text}

theorem asPlainItems_keyed {items : List (Value Text)}
    (ih : ∀ item ∈ items, ∀ stack, asPlainJson str? item.keyed stack =
      if item.depth ≤ stack then some (item.ofKind .plain) else none) (stack : Nat) :
    asPlainItems str? (items.map keyed) stack =
      if depthItems items ≤ stack then some (items.map (ofKind .plain)) else none := by
  induction items with
  | nil => simp [asPlainItems, depthItems]
  | cons item rest ihrest =>
    have hrest := ihrest fun other hother => ih other (List.mem_cons_of_mem item hother)
    rw [List.map_cons, asPlainItems, ih item List.mem_cons_self, hrest, depthItems]
    by_cases hitem : item.depth ≤ stack
    · by_cases hothers : depthItems rest ≤ stack
      · simp [hitem, hothers]
      · simp [hitem, hothers]
    · simp [hitem]

theorem asPlainMembers_keyed {members : List (Text × Value Text)}
    (ih : ∀ member ∈ members, ∀ stack, asPlainJson str? member.2.keyed stack =
      if member.2.depth ≤ stack then some (member.2.ofKind .plain) else none) (stack : Nat) :
    asPlainMembers str? (members.map fun member => (Key.str member.1, member.2.keyed)) stack =
      if depthMembers members ≤ stack then
        some (members.map fun member => (member.1, member.2.ofKind .plain)) else none := by
  induction members with
  | nil => simp [asPlainMembers, depthMembers]
  | cons member rest ihrest =>
    have hrest := ihrest fun other hother => ih other (List.mem_cons_of_mem member hother)
    rw [List.map_cons, asPlainMembers, ih member List.mem_cons_self, hrest, depthMembers]
    by_cases hmember : member.2.depth ≤ stack
    · by_cases hothers : depthMembers rest ≤ stack
      · simp [hmember, hothers, keyText]
      · simp [hmember, hothers, keyText]
    · simp [hmember, keyText]

theorem asPlainJson_keyed {value : Value Text} (hdistinct : value.Distinct) (stack : Nat) :
    asPlainJson str? value.keyed stack =
      if value.depth ≤ stack then some (value.ofKind .plain) else none := by
  induction value generalizing stack with
  | scalar s =>
    cases stack with
    | zero => simp [asPlainJson, depth]
    | succ stack => simp [asPlainJson, depth, keyed, ofKind]
  | sequence kind items ih =>
    obtain ⟨-, hitems⟩ := all_sequence.mp hdistinct
    cases stack with
    | zero => simp [asPlainJson, depth]
    | succ stack =>
      have hcopied := asPlainItems_keyed
        (fun item hitem => ih item hitem (hitems item hitem)) stack
      rw [keyed, rebuilt_sequence, asPlainJson, depth, ofKind, rebuilt_sequence]
      change (asPlainItems str? (items.map keyed) stack).map _ = _
      rw [hcopied]
      by_cases hdepth : depthItems items ≤ stack
      · simp [hdepth, ofKind]
      · simp [hdepth]
  | mapping kind members ih =>
    obtain ⟨-, hkeys, hmembers⟩ := all_mapping.mp hdistinct
    cases stack with
    | zero => simp [asPlainJson, depth]
    | succ stack =>
      have hcopied := asPlainMembers_keyed
        (fun member hmember => ih member hmember (hmembers member hmember)) stack
      rw [keyed, rebuilt_mapping, asPlainJson, depth, ofKind, rebuilt_mapping]
      change (asPlainMembers str?
        (members.map fun member => (Key.str member.1, member.2.keyed)) stack).map _ = _
      rw [hcopied]
      by_cases hdepth : depthMembers members ≤ stack
      · have hdict : dict (members.map fun member => (member.1, member.2.ofKind .plain)) =
            members.map fun member => (member.1, member.2.ofKind .plain) := by
          apply dict_of_nodup
          rw [List.map_map]
          exact hkeys
        simp only [hdepth, if_true, Option.map_some, hdict, Nat.add_le_add_iff_right]
        rfl
      · simp [hdepth]

theorem asPlainItems_ofKind {items : List (Value (Key κ))}
    (ih : ∀ item ∈ items, ∀ stack plain, asPlainJson str? item stack = some plain →
      plain.OfKind .plain) (stack : Nat) {plain : List (Value Text)}
    (h : asPlainItems str? items stack = some plain) : ∀ item ∈ plain, item.OfKind .plain := by
  induction items generalizing plain with
  | nil =>
    rw [asPlainItems, Option.some.injEq] at h
    simp [← h]
  | cons item rest ihrest =>
    simp only [asPlainItems, Option.bind_eq_bind, Option.bind_eq_some_iff, Option.pure_def,
      Option.some.injEq] at h
    obtain ⟨first, hfirst, others, hothers, rfl⟩ := h
    rw [List.forall_mem_cons]
    constructor
    · exact ih item List.mem_cons_self stack first hfirst
    · apply ihrest _ hothers
      exact fun other hother => ih other (List.mem_cons_of_mem item hother)

theorem asPlainMembers_ofKind {members : List (Key κ × Value (Key κ))}
    (ih : ∀ member ∈ members, ∀ stack plain, asPlainJson str? member.2 stack = some plain →
      plain.OfKind .plain) (stack : Nat) {plain : List (Text × Value Text)}
    (h : asPlainMembers str? members stack = some plain) :
    ∀ member ∈ plain, member.2.OfKind .plain := by
  induction members generalizing plain with
  | nil =>
    rw [asPlainMembers, Option.some.injEq] at h
    simp [← h]
  | cons member rest ihrest =>
    simp only [asPlainMembers, Option.bind_eq_bind, Option.bind_eq_some_iff, Option.pure_def,
      Option.some.injEq] at h
    obtain ⟨key, -, first, hfirst, others, hothers, rfl⟩ := h
    rw [List.forall_mem_cons]
    constructor
    · exact ih member List.mem_cons_self stack first hfirst
    · apply ihrest _ hothers
      exact fun other hother => ih other (List.mem_cons_of_mem member hother)

theorem asPlainJson_ofKind {value : Value (Key κ)} {stack : Nat} {plain : Value Text}
    (h : asPlainJson str? value stack = some plain) : plain.OfKind .plain := by
  induction value generalizing stack plain with
  | scalar s =>
    cases stack with
    | zero => simp [asPlainJson] at h
    | succ stack =>
      rw [asPlainJson, Option.some.injEq] at h
      rw [← h]
      exact all_scalar.mpr trivial
  | sequence kind items ih =>
    cases stack with
    | zero => simp [asPlainJson] at h
    | succ stack =>
      rw [asPlainJson, Option.map_eq_some_iff] at h
      obtain ⟨copied, hcopied, rfl⟩ := h
      exact all_sequence.mpr ⟨rfl, asPlainItems_ofKind
        (fun item hitem stack plain => ih item hitem) stack hcopied⟩
  | mapping kind members ih =>
    cases stack with
    | zero => simp [asPlainJson] at h
    | succ stack =>
      rw [asPlainJson, Option.map_eq_some_iff] at h
      obtain ⟨copied, hcopied, rfl⟩ := h
      have hparts := asPlainMembers_ofKind
        (fun member hmember stack plain => ih member hmember) stack hcopied
      exact all_mapping.mpr ⟨rfl, trivial, fun member hmember =>
        hparts member (mem_of_mem_dict hmember)⟩

end Plain

section Contract

variable {maxDepth : Nat}

theorem validateItems_of_items {items : List (Value Text)} {depth : Nat}
    (h : ∀ item ∈ items, ∀ path, validateJsonValue some maxDepth item path depth = none)
    (path : Text) (index : Nat) : validateItems some maxDepth items path index depth = none := by
  induction items generalizing index with
  | nil => rw [validateItems]
  | cons item rest ih =>
    rw [validateItems, h item List.mem_cons_self]
    apply ih
    exact fun other hother => h other (List.mem_cons_of_mem item hother)

theorem validateMembers_of_members {members : List (Text × Value Text)} {depth : Nat}
    (h : ∀ member ∈ members, ∀ path,
      validateJsonValue some maxDepth member.2 path depth = none) (path : Text) :
    validateMembers some maxDepth members path depth = none := by
  induction members with
  | nil => rw [validateMembers]
  | cons member rest ih =>
    rw [validateMembers]
    dsimp only
    rw [h member List.mem_cons_self]
    apply ih
    exact fun other hother => h other (List.mem_cons_of_mem member hother)

theorem validateItems_eq_none {items : List (Value Text)} {path : Text} {index depth : Nat}
    (h : validateItems some maxDepth items path index depth = none) :
    ∀ item ∈ items, ∃ path, validateJsonValue some maxDepth item path depth = none := by
  induction items generalizing index with
  | nil => simp
  | cons item rest ih =>
    rw [validateItems] at h
    split at h
    · cases h
    · rw [List.forall_mem_cons]
      exact ⟨⟨_, by assumption⟩, ih h⟩

theorem validateMembers_eq_none {members : List (Text × Value Text)} {path : Text}
    {depth : Nat} (h : validateMembers some maxDepth members path depth = none) :
    ∀ member ∈ members, ∃ path,
      validateJsonValue some maxDepth member.2 path depth = none := by
  induction members with
  | nil => simp
  | cons member rest ih =>
    rw [validateMembers] at h
    dsimp only at h
    split at h
    · cases h
    · rw [List.forall_mem_cons]
      exact ⟨⟨_, by assumption⟩, ih h⟩

theorem depth_le_of_mem_items {items : List (Value Text)} {item : Value Text}
    (h : item ∈ items) : item.depth ≤ depthItems items := by
  induction items with
  | nil => cases h
  | cons first rest ih =>
    rw [depthItems]
    rcases List.mem_cons.mp h with rfl | hrest
    · exact Nat.le_max_left _ _
    · exact (ih hrest).trans (Nat.le_max_right _ _)

theorem depth_le_of_mem_members {members : List (Text × Value Text)} {member : Text × Value Text}
    (h : member ∈ members) : member.2.depth ≤ depthMembers members := by
  induction members with
  | nil => cases h
  | cons first rest ih =>
    rw [depthMembers]
    rcases List.mem_cons.mp h with rfl | hrest
    · exact Nat.le_max_left _ _
    · exact (ih hrest).trans (Nat.le_max_right _ _)

theorem validate_of_admissible {value : Value Text} (hplain : value.OfKind .plain)
    (hadmissible : value.Admissible) {depth : Nat} (hdepth : depth + value.depth ≤ maxDepth)
    (path : Text) : validateJsonValue some maxDepth value path depth = none := by
  induction value generalizing depth path with
  | scalar s =>
    have hscalar := all_scalar.mp hadmissible
    cases s with
    | nonFinite => exact absurd rfl hscalar.1
    | foreign => exact absurd rfl hscalar.2
    | none | bool | int | float | str => rw [validateJsonValue]
  | sequence kind items ih =>
    obtain ⟨rfl, hkinds⟩ := all_sequence.mp hplain
    obtain ⟨-, hscalars⟩ := all_sequence.mp hadmissible
    rw [Value.depth] at hdepth
    rw [validateJsonValue, if_neg (by omega)]
    apply validateItems_of_items
    intro item hitem path
    have hle := depth_le_of_mem_items hitem
    exact ih item hitem (hkinds item hitem) (hscalars item hitem) (by omega) path
  | mapping kind members ih =>
    obtain ⟨rfl, -, hkinds⟩ := all_mapping.mp hplain
    obtain ⟨-, -, hscalars⟩ := all_mapping.mp hadmissible
    rw [Value.depth] at hdepth
    rw [validateJsonValue, if_neg (by omega)]
    apply validateMembers_of_members
    intro member hmember path
    have hle := depth_le_of_mem_members hmember
    exact ih member hmember (hkinds member hmember) (hscalars member hmember) (by omega) path

theorem admissible_of_validate {value : Value Text} {path : Text} {depth : Nat}
    (h : validateJsonValue some maxDepth value path depth = none) : value.Admissible := by
  induction value generalizing depth path with
  | scalar s =>
    apply all_scalar.mpr
    constructor
    · rintro rfl
      simp [validateJsonValue] at h
    · rintro rfl
      simp [validateJsonValue] at h
  | sequence kind items ih =>
    cases kind with
    | frozen => simp [validateJsonValue] at h
    | plain =>
      rw [validateJsonValue] at h
      split at h
      · cases h
      · apply all_sequence.mpr
        refine ⟨trivial, fun item hitem => ?_⟩
        obtain ⟨_, hnone⟩ := validateItems_eq_none h item hitem
        exact ih item hitem hnone
  | mapping kind members ih =>
    cases kind with
    | frozen => simp [validateJsonValue] at h
    | plain =>
      rw [validateJsonValue] at h
      split at h
      · cases h
      · apply all_mapping.mpr
        refine ⟨trivial, trivial, fun member hmember => ?_⟩
        obtain ⟨_, hnone⟩ := validateMembers_eq_none h member hmember
        exact ih member hmember hnone

section Exact

variable {K : Type} {string? : K → Option Text}

def IsJson (string? : K → Option Text) (value : Value K) : Prop :=
  value.All (fun s => s ≠ .nonFinite ∧ s ≠ .foreign) (· = .plain)
    fun keys => ∀ key ∈ keys, (string? key).isSome

theorem validateItems_none_iff {items : List (Value K)} {depth : Nat} {p : Value K → Prop}
    (h : ∀ item ∈ items, ∀ path,
      validateJsonValue string? maxDepth item path depth = none ↔ p item) (path : Text)
    (index : Nat) :
    validateItems string? maxDepth items path index depth = none ↔ ∀ item ∈ items, p item := by
  induction items generalizing index with
  | nil => simp [validateItems]
  | cons item rest ih =>
    rw [List.forall_mem_cons] at h
    have hrest := ih h.2 (index + 1)
    rw [validateItems, List.forall_mem_cons, ← hrest,
      ← h.1 (path ++ text "[" ++ text (toString index) ++ text "]")]
    cases validateJsonValue string? maxDepth item
      (path ++ text "[" ++ text (toString index) ++ text "]") depth with
    | none | some => simp

theorem validateMembers_none_iff {members : List (K × Value K)} {depth : Nat}
    {p : Value K → Prop}
    (h : ∀ member ∈ members, ∀ path,
      validateJsonValue string? maxDepth member.2 path depth = none ↔ p member.2) (path : Text) :
    validateMembers string? maxDepth members path depth = none ↔
      (∀ key ∈ members.map Prod.fst, (string? key).isSome) ∧
        ∀ member ∈ members, p member.2 := by
  induction members with
  | nil => simp [validateMembers]
  | cons member rest ih =>
    obtain ⟨key, value⟩ := member
    rw [List.forall_mem_cons] at h
    have hrest := ih h.2
    rw [validateMembers, List.map_cons, List.forall_mem_cons, List.forall_mem_cons]
    cases string? key with
    | none => simp
    | some name =>
      dsimp only
      rw [← h.1 (path ++ text "." ++ name)]
      cases validateJsonValue string? maxDepth value (path ++ text "." ++ name) depth with
      | none => simp [hrest]
      | some rejection => simp

theorem validateJsonValue_none_iff {value : Value K} {depth : Nat} (hdepth : depth ≤ maxDepth)
    (path : Text) :
    validateJsonValue string? maxDepth value path depth = none ↔
      IsJson string? value ∧ depth + value.nesting ≤ maxDepth := by
  induction value generalizing depth path with
  | scalar s =>
    rw [IsJson, all_scalar, Value.nesting]
    cases s <;> simp [validateJsonValue, hdepth]
  | sequence kind items ih =>
    rw [IsJson, all_sequence, Value.nesting]
    cases kind with
    | frozen => simp [validateJsonValue]
    | plain =>
      rw [validateJsonValue]
      by_cases hfull : maxDepth ≤ depth
      · rw [if_pos hfull]
        refine iff_of_false (by simp) ?_
        rintro ⟨-, hle⟩
        omega
      · rw [if_neg hfull, validateItems_none_iff fun item hitem path =>
          ih item hitem (Nat.succ_le_of_lt (not_le.mp hfull)) path]
        have hnesting := @Value.nestingItems_le K items (maxDepth - (depth + 1))
        constructor
        · intro h
          have hle := hnesting.mpr fun item hitem => by
            have := (h item hitem).2
            omega
          exact ⟨⟨rfl, fun item hitem => (h item hitem).1⟩, by omega⟩
        · rintro ⟨⟨-, h⟩, hle⟩ item hitem
          have hitems := hnesting.mp (by omega) item hitem
          exact ⟨h item hitem, by omega⟩
  | mapping kind members ih =>
    rw [IsJson, all_mapping, Value.nesting]
    cases kind with
    | frozen => simp [validateJsonValue]
    | plain =>
      rw [validateJsonValue]
      by_cases hfull : maxDepth ≤ depth
      · rw [if_pos hfull]
        refine iff_of_false (by simp) ?_
        rintro ⟨-, hle⟩
        omega
      · rw [if_neg hfull, validateMembers_none_iff
          (p := fun value => IsJson string? value ∧ depth + 1 + value.nesting ≤ maxDepth)
          fun member hmember path => ih member hmember (Nat.succ_le_of_lt (not_le.mp hfull)) path]
        have hnesting := @Value.nestingMembers_le K members (maxDepth - (depth + 1))
        constructor
        · rintro ⟨hkeys, h⟩
          have hle := hnesting.mpr fun member hmember => by
            have := (h member hmember).2
            omega
          exact ⟨⟨rfl, hkeys, fun member hmember => (h member hmember).1⟩, by omega⟩
        · rintro ⟨⟨-, hkeys, h⟩, hle⟩
          refine ⟨hkeys, fun member hmember => ?_⟩
          have hmembers := hnesting.mp (by omega) member hmember
          exact ⟨h member hmember, by omega⟩

end Exact

end Contract

theorem measureItems_eq_ok {items : List (Value Text)} {depth counter count : Nat}
    (ih : ∀ item ∈ items, ∀ counter count, measure some item depth counter = .ok count ↔
      depth + item.depth ≤ jsonMaxDepth + 1 ∧ counter + item.nodes ≤ jsonMaxNodes ∧
        count = counter + item.nodes) (hcounter : counter ≤ jsonMaxNodes)
    (hdepth : depth ≤ jsonMaxDepth + 1) :
    measureItems some items depth counter = .ok count ↔
      depth + depthItems items ≤ jsonMaxDepth + 1 ∧
        counter + nodesItems items ≤ jsonMaxNodes ∧ count = counter + nodesItems items := by
  induction items generalizing counter with
  | nil =>
    simp only [measureItems, Except.ok.injEq, depthItems, nodesItems, Nat.add_zero]
    constructor
    · rintro rfl
      exact ⟨hdepth, hcounter, rfl⟩
    · rintro ⟨-, -, rfl⟩
      rfl
  | cons item rest ihrest =>
    have hothers := fun other hother => ih other (List.mem_cons_of_mem item hother)
    rw [measureItems, depthItems, nodesItems]
    cases hitem : measure some item depth counter with
    | error message =>
      have hnot := ih item List.mem_cons_self counter (counter + item.nodes)
      rw [hitem] at hnot
      constructor
      · intro h
        cases h
      · intro h
        have hitself := hnot.mpr ⟨by omega, by omega, rfl⟩
        cases hitself
    | ok counted =>
      obtain ⟨hitemDepth, hitemNodes, rfl⟩ :=
        (ih item List.mem_cons_self counter counted).mp hitem
      change measureItems some rest depth (counter + item.nodes) = .ok count ↔ _
      rw [ihrest hothers hitemNodes]
      omega

theorem measureMembers_eq_ok {members : List (Text × Value Text)} {depth counter count : Nat}
    (ih : ∀ member ∈ members, ∀ counter count,
      measure some member.2 depth counter = .ok count ↔
        depth + member.2.depth ≤ jsonMaxDepth + 1 ∧
          counter + member.2.nodes ≤ jsonMaxNodes ∧ count = counter + member.2.nodes)
    (hcounter : counter ≤ jsonMaxNodes) (hdepth : depth ≤ jsonMaxDepth + 1) :
    measureMembers some members depth counter = .ok count ↔
      depth + depthMembers members ≤ jsonMaxDepth + 1 ∧
        counter + nodesMembers members ≤ jsonMaxNodes ∧
          count = counter + nodesMembers members := by
  induction members generalizing counter with
  | nil =>
    simp only [measureMembers, Except.ok.injEq, depthMembers, nodesMembers, Nat.add_zero]
    constructor
    · rintro rfl
      exact ⟨hdepth, hcounter, rfl⟩
    · rintro ⟨-, -, rfl⟩
      rfl
  | cons member rest ihrest =>
    have hothers := fun other hother => ih other (List.mem_cons_of_mem member hother)
    rw [measureMembers, depthMembers, nodesMembers, if_neg (by simp)]
    cases hmember : measure some member.2 depth counter with
    | error message =>
      have hnot := ih member List.mem_cons_self counter (counter + member.2.nodes)
      rw [hmember] at hnot
      constructor
      · intro h
        cases h
      · intro h
        have hitself := hnot.mpr ⟨by omega, by omega, rfl⟩
        cases hitself
    | ok counted =>
      obtain ⟨hmemberDepth, hmemberNodes, rfl⟩ :=
        (ih member List.mem_cons_self counter counted).mp hmember
      change measureMembers some rest depth (counter + member.2.nodes) = .ok count ↔ _
      rw [ihrest hothers hmemberNodes]
      omega

theorem measure_eq_ok {value : Value Text} (hadmissible : value.Admissible)
    {depth counter count : Nat} :
    measure some value depth counter = .ok count ↔
      depth + value.depth ≤ jsonMaxDepth + 1 ∧ counter + value.nodes ≤ jsonMaxNodes ∧
        count = counter + value.nodes := by
  induction value generalizing depth counter count with
  | scalar s =>
    have hscalar := (all_scalar.mp hadmissible).1
    rw [measure, Value.depth, Value.nodes]
    by_cases hdepth : jsonMaxDepth < depth
    · rw [if_pos hdepth]
      exact iff_of_false (fun heq => by cases heq) (by omega)
    · by_cases hnodes : jsonMaxNodes < counter + 1
      · rw [if_neg hdepth, if_pos hnodes]
        exact iff_of_false (fun heq => by cases heq) (by omega)
      · rw [if_neg hdepth, if_neg hnodes]
        rw [if_neg hscalar, Except.ok.injEq]
        omega
  | sequence kind items ih =>
    obtain ⟨-, hitems⟩ := all_sequence.mp hadmissible
    rw [measure, Value.depth, Value.nodes]
    by_cases hdepth : jsonMaxDepth < depth
    · rw [if_pos hdepth]
      exact iff_of_false (fun heq => by cases heq) (by omega)
    · by_cases hnodes : jsonMaxNodes < counter + 1
      · rw [if_neg hdepth, if_pos hnodes]
        exact iff_of_false (fun heq => by cases heq) (by omega)
      · rw [if_neg hdepth, if_neg hnodes]
        rw [measureItems_eq_ok (fun item hitem _ _ => ih item hitem (hitems item hitem))
          (by omega) (by omega)]
        omega
  | mapping kind members ih =>
    obtain ⟨-, -, hmembers⟩ := all_mapping.mp hadmissible
    rw [measure, Value.depth, Value.nodes]
    by_cases hdepth : jsonMaxDepth < depth
    · rw [if_pos hdepth]
      exact iff_of_false (fun heq => by cases heq) (by omega)
    · by_cases hnodes : jsonMaxNodes < counter + 1
      · rw [if_neg hdepth, if_pos hnodes]
        exact iff_of_false (fun heq => by cases heq) (by omega)
      · rw [if_neg hdepth, if_neg hnodes]
        rw [measureMembers_eq_ok
          (fun member hmember _ _ => ih member hmember (hmembers member hmember))
          (by omega) (by omega)]
        omega

theorem freezeItems_eq {items : List (Value Text)} :
    freezeItems items = items.map freeze := by
  induction items with
  | nil => rfl
  | cons item rest ih => rw [freezeItems, ih, List.map_cons]

theorem freezeMembers_eq {members : List (Text × Value Text)} :
    freezeMembers members = members.map fun member => (member.1, freeze member.2) := by
  induction members with
  | nil => rfl
  | cons member rest ih => rw [freezeMembers, ih, List.map_cons]

theorem thawItems_eq {items : List (Value Text)} :
    thawItems items = items.map thawState := by
  induction items with
  | nil => rfl
  | cons item rest ih => rw [thawItems, ih, List.map_cons]

theorem thawMembers_eq {members : List (Text × Value Text)} :
    thawMembers members = members.map fun member => (member.1, thawState member.2) := by
  induction members with
  | nil => rfl
  | cons member rest ih => rw [thawMembers, ih, List.map_cons]

theorem dict_map {members : List (Text × Value Text)} (f : Value Text → Value Text)
    (hkeys : (members.map Prod.fst).Nodup) :
    dict (members.map fun member => (member.1, f member.2)) =
      members.map fun member => (member.1, f member.2) := by
  apply dict_of_nodup
  rw [List.map_map]
  exact hkeys

theorem freeze_eq {value : Value Text} (hdistinct : value.Distinct)
    (hplain : value.OfKind .plain) : freeze value = value.ofKind .frozen := by
  induction value with
  | scalar s => simp [freeze, ofKind]
  | sequence kind items ih =>
    obtain ⟨-, hdistincts⟩ := all_sequence.mp hdistinct
    obtain ⟨rfl, hplains⟩ := all_sequence.mp hplain
    rw [freeze, freezeItems_eq, ofKind, rebuilt_sequence]
    congr 1
    apply List.map_congr_left
    exact fun item hitem => ih item hitem (hdistincts item hitem) (hplains item hitem)
  | mapping kind members ih =>
    obtain ⟨-, hkeys, hdistincts⟩ := all_mapping.mp hdistinct
    obtain ⟨rfl, -, hplains⟩ := all_mapping.mp hplain
    rw [freeze, freezeMembers_eq, dict_map freeze hkeys, ofKind, rebuilt_mapping]
    congr 1
    apply List.map_congr_left
    intro member hmember
    rw [ih member hmember (hdistincts member hmember) (hplains member hmember)]
    rfl

theorem thawState_eq {value : Value Text} (hdistinct : value.Distinct)
    (hfrozen : value.OfKind .frozen) : thawState value = value.ofKind .plain := by
  induction value with
  | scalar s => simp [thawState, ofKind]
  | sequence kind items ih =>
    obtain ⟨-, hdistincts⟩ := all_sequence.mp hdistinct
    obtain ⟨rfl, hfrozens⟩ := all_sequence.mp hfrozen
    rw [thawState, thawItems_eq, ofKind, rebuilt_sequence]
    congr 1
    apply List.map_congr_left
    exact fun item hitem => ih item hitem (hdistincts item hitem) (hfrozens item hitem)
  | mapping kind members ih =>
    obtain ⟨-, hkeys, hdistincts⟩ := all_mapping.mp hdistinct
    obtain ⟨rfl, -, hfrozens⟩ := all_mapping.mp hfrozen
    rw [thawState, thawMembers_eq, dict_map thawState hkeys, ofKind, rebuilt_mapping]
    congr 1
    apply List.map_congr_left
    intro member hmember
    rw [ih member hmember (hdistincts member hmember) (hfrozens member hmember)]
    rfl

theorem jsonItems?_eq {f : Value Text → Value Text} {items : List (Value Text)}
    (ih : ∀ item ∈ items, json? (f item) = json? item) :
    jsonItems? (items.map f) = jsonItems? items := by
  induction items with
  | nil => rfl
  | cons item rest ihrest =>
    rw [List.map_cons, jsonItems?, jsonItems?, ih item List.mem_cons_self, ihrest]
    exact fun other hother => ih other (List.mem_cons_of_mem item hother)

theorem jsonMembers?_eq {f : Value Text → Value Text} {members : List (Text × Value Text)}
    (ih : ∀ member ∈ members, json? (f member.2) = json? member.2) :
    jsonMembers? (members.map fun member => (member.1, f member.2)) = jsonMembers? members := by
  induction members with
  | nil => rfl
  | cons member rest ihrest =>
    rw [List.map_cons, jsonMembers?, jsonMembers?, ih member List.mem_cons_self, ihrest]
    exact fun other hother => ih other (List.mem_cons_of_mem member hother)

theorem json?_ofKind (kind : Kind) (value : Value Text) :
    json? (value.ofKind kind) = json? value := by
  induction value with
  | scalar s => simp [ofKind]
  | sequence k items ih =>
    rw [ofKind, rebuilt_sequence, json?, json?]
    change (jsonItems? (items.map (ofKind kind))).map _ = _
    rw [jsonItems?_eq ih]
  | mapping k members ih =>
    rw [ofKind, rebuilt_mapping, json?, json?]
    change (jsonMembers? (members.map fun member =>
      (member.1, member.2.ofKind kind))).map _ = _
    rw [jsonMembers?_eq ih]

/-- Every scalar and every key can be written. -/
def Writable (value : Value Text) : Prop :=
  value.All (fun s => (scalarJson? s).isSome) (fun _ => True)
    fun keys => ∀ key ∈ keys, (encode? key).isSome

theorem jsonItems?_isSome {items : List (Value Text)} :
    (jsonItems? items).isSome ↔ ∀ item ∈ items, (json? item).isSome := by
  induction items with
  | nil => simp [jsonItems?]
  | cons item rest ih =>
    rw [jsonItems?, List.forall_mem_cons, ← ih]
    cases json? item with
    | none => simp
    | some first =>
      cases jsonItems? rest with
      | none | some => simp

theorem jsonMembers?_isSome {members : List (Text × Value Text)} :
    (jsonMembers? members).isSome ↔
      ∀ member ∈ members, (encode? member.1).isSome ∧ (json? member.2).isSome := by
  induction members with
  | nil => simp [jsonMembers?]
  | cons member rest ih =>
    rw [jsonMembers?, List.forall_mem_cons, ← ih]
    cases encode? member.1 with
    | none => simp
    | some key =>
      cases json? member.2 with
      | none => simp
      | some first =>
        cases jsonMembers? rest with
        | none | some => simp

theorem json?_isSome {value : Value Text} : (json? value).isSome ↔ Writable value := by
  induction value with
  | scalar s => rw [json?, Writable, all_scalar]
  | sequence kind items ih =>
    rw [json?, Option.isSome_map, jsonItems?_isSome, Writable, all_sequence]
    simp only [true_and]
    exact forall₂_congr ih
  | mapping kind members ih =>
    rw [json?, Option.isSome_map, jsonMembers?_isSome, Writable, all_mapping]
    simp only [true_and, List.forall_mem_map]
    rw [← forall₂_and]
    exact forall₂_congr fun member hmember => and_congr_right fun _ => ih member hmember

variable {κ : Type} {str? : κ → Option Text} {stack : Nat} {value : Value (Key κ)}
  {plain : Value Text}

def IsObject : Value Text → Prop
  | .mapping _ _ => True
  | .sequence _ _ | .scalar _ => False

structure Bounded (value : Value Text) : Prop where
  object : IsObject value
  admissible : value.Admissible
  depth : value.depth ≤ jsonMaxDepth
  nodes : value.nodes ≤ jsonMaxNodes

theorem freezeState_of_bounded (hplain : asPlainJson str? value stack = some plain)
    (hbounded : Bounded plain) : freezeState str? stack value =
      (json? plain).elim (.error .raised) fun json =>
        if checkpointMaxBytes < utf8Length (Json.canonicalText json) then
          .error (.invalidWorkflow (text "workflow state exceeds the byte bound"))
        else .ok (freeze plain) := by
  have hkind := asPlainJson_ofKind hplain
  have hvalid : validateJsonValue some jsonValueMaxDepth plain (text "$") 0 = none := by
    apply validate_of_admissible hkind hbounded.admissible
    have hdepth := hbounded.depth
    change plain.depth ≤ 16 at hdepth
    change 0 + plain.depth ≤ 16
    omega
  have hmeasured : measure some plain 1 0 = .ok plain.nodes := by
    rw [measure_eq_ok hbounded.admissible]
    have hdepth := hbounded.depth
    have hnodes := hbounded.nodes
    omega
  cases plain with
  | scalar | sequence => exact absurd hbounded.object id
  | mapping kind members =>
    obtain ⟨rfl, -⟩ := all_mapping.mp hkind
    simp only [freezeState, requireStateObject, requireStateJson, hplain, hvalid, bind,
      Except.bind, hmeasured]
    cases json? (.mapping .plain members) with
    | none | some => rfl

theorem freezeState_of_not_bounded (hplain : asPlainJson str? value stack = some plain)
    (hbounded : ¬ Bounded plain) :
    ∃ message, freezeState str? stack value = .error (.invalidWorkflow message) := by
  cases hvalid : validateJsonValue some jsonValueMaxDepth plain (text "$") 0 with
  | some rejection =>
    simp only [freezeState, requireStateObject, requireStateJson, hplain, hvalid]
    exact ⟨_, rfl⟩
  | none =>
    have hadmissible := admissible_of_validate hvalid
    have hkind := asPlainJson_ofKind hplain
    cases plain with
    | scalar | sequence =>
      simp only [freezeState, requireStateObject, requireStateJson, hplain, hvalid]
      exact ⟨_, rfl⟩
    | mapping kind members =>
      obtain ⟨rfl, -⟩ := all_mapping.mp hkind
      cases hmeasured : measure some (.mapping .plain members) 1 0 with
      | ok count =>
        obtain ⟨hdepth, hnodes, -⟩ := (measure_eq_ok hadmissible).mp hmeasured
        exact absurd ⟨trivial, hadmissible, by omega, by omega⟩ hbounded
      | error message =>
        simp only [freezeState, requireStateObject, requireStateJson, hplain, hvalid, bind,
          Except.bind, hmeasured]
        exact ⟨_, rfl⟩

end StateCodec

end NervOS
