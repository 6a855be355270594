/-
Keyset pages: rows in the order of a key, read a page at a time after a cursor.
-/
import Mathlib.Data.List.Sort
import Mathlib.Data.Finset.Card

namespace Relational

namespace Keyset

variable {κ ρ : Type} [LinearOrder κ]

section Pages

variable (key : ρ → κ)

def ordered (rows : List ρ) : List ρ :=
  rows.insertionSort fun left right => key left ≤ key right

def beyond (cursor : Option κ) (rows : List ρ) : List ρ :=
  rows.filter fun row => cursor.all (· < key row)

def page (limit : Nat) (cursor : Option κ) (rows : List ρ) : List ρ :=
  (ordered key (beyond key cursor rows)).take limit

def follow (limit : Nat) (rows : List ρ) : Nat → Option κ → List ρ
  | 0, _ => []
  | requests + 1, cursor =>
    let found := page key (limit + 1) cursor rows
    if limit < found.length then
      found.take limit ++
        follow limit rows requests ((found.take limit).getLast?.map key)
    else found

end Pages

section Order

variable {key : ρ → κ} {rows : List ρ} {cursor : Option κ} {limit : Nat}

theorem perm_ordered : (ordered key rows).Perm rows :=
  List.perm_insertionSort _ rows

theorem mem_ordered {row : ρ} : row ∈ ordered key rows ↔ row ∈ rows :=
  perm_ordered.mem_iff

theorem mem_beyond {row : ρ} :
    row ∈ beyond key cursor rows ↔ row ∈ rows ∧ ∀ position ∈ cursor, position < key row := by
  cases cursor <;> simp [beyond]

theorem pairwise_ordered : (ordered key rows).Pairwise fun left right => key left ≤ key right := by
  have htotal : Std.Total fun left right : ρ => key left ≤ key right :=
    ⟨fun left right => le_total _ _⟩
  have htrans : IsTrans ρ fun left right => key left ≤ key right :=
    ⟨fun _ _ _ => le_trans⟩
  exact List.pairwise_insertionSort _ rows

theorem strict_ordered (hkeys : (rows.map key).Nodup) :
    (ordered key rows).Pairwise fun left right => key left < key right := by
  have hnodup : ((ordered key rows).map key).Nodup := (perm_ordered.map key).nodup_iff.mpr hkeys
  rw [List.Nodup, List.pairwise_map] at hnodup
  exact (pairwise_ordered.and hnodup).imp fun h => lt_of_le_of_ne h.1 h.2

theorem ordered_eq {sorted : List ρ} (hperm : sorted.Perm rows)
    (hsorted : sorted.Pairwise fun left right => key left < key right) :
    ordered key rows = sorted := by
  have hkeys : (sorted.map key).Nodup := by
    rw [List.Nodup, List.pairwise_map]
    exact hsorted.imp ne_of_lt
  refine List.Perm.eq_of_pairwise ?_ (strict_ordered ((hperm.map key).nodup_iff.mp hkeys)) hsorted
    (perm_ordered.trans hperm.symm)
  intro left right _ _ hlt hgt
  exact absurd hgt (lt_asymm hlt)

theorem beyond_keys (hkeys : (rows.map key).Nodup) :
    ((beyond key cursor rows).map key).Nodup :=
  hkeys.sublist (List.filter_sublist.map key)

theorem ordered_beyond (hkeys : (rows.map key).Nodup) :
    ordered key (beyond key cursor rows) = beyond key cursor (ordered key rows) :=
  ordered_eq (perm_ordered.filter _) ((strict_ordered hkeys).sublist List.filter_sublist)

theorem beyond_append {front back : List ρ} {last : ρ}
    (hsorted : (front ++ [last] ++ back).Pairwise fun left right => key left < key right) :
    beyond key (some (key last)) (front ++ [last] ++ back) = back := by
  obtain ⟨hfirst, -, hback⟩ := List.pairwise_append.mp hsorted
  obtain ⟨-, -, hlast⟩ := List.pairwise_append.mp hfirst
  have hout : (front ++ [last]).filter (fun row => key last < key row) = [] := by
    rw [List.filter_eq_nil_iff]
    intro row hrow
    rw [decide_eq_true_eq, not_lt]
    rcases List.mem_append.mp hrow with hrow | hrow
    · exact le_of_lt (hlast row hrow last (List.mem_singleton.mpr rfl))
    · rw [List.mem_singleton.mp hrow]
  have hin : back.filter (fun row => key last < key row) = back := by
    rw [List.filter_eq_self]
    intro row hrow
    rw [decide_eq_true_eq]
    exact hback last (List.mem_append_right _ (List.mem_singleton.mpr rfl)) row hrow
  rw [beyond, List.filter_append]
  exact (congrArg₂ (· ++ ·) hout hin).trans (List.nil_append back)

theorem ordered_beyond_last (hkeys : (rows.map key).Nodup) {last : ρ}
    (hlast : ((ordered key (beyond key cursor rows)).take limit).getLast? = some last) :
    ordered key (beyond key (some (key last)) rows) =
      (ordered key (beyond key cursor rows)).drop limit := by
  obtain ⟨front, hfront⟩ := List.getLast?_eq_some_iff.mp hlast
  have hsplit := List.take_append_drop limit (ordered key (beyond key cursor rows))
  rw [hfront] at hsplit
  have hsorted : (ordered key (beyond key cursor rows)).Pairwise fun left right =>
      key left < key right := strict_ordered (beyond_keys hkeys)
  rw [← hsplit] at hsorted
  have hbeyond := beyond_append hsorted
  have hmem : last ∈ beyond key cursor rows := by
    have hshown : last ∈ ordered key (beyond key cursor rows) := by
      rw [← hsplit]
      simp
    exact mem_ordered.mp hshown
  -- behind the last row nothing depends on the cursor before it
  have hcursor : beyond key (some (key last)) rows =
      beyond key (some (key last)) (beyond key cursor rows) := by
    rw [beyond, beyond, beyond, List.filter_filter]
    refine List.filter_congr fun row hrow => ?_
    cases hcursor : cursor with
    | none => simp
    | some position =>
      have hposition := (mem_beyond.mp hmem).2 position hcursor
      by_cases hafter : key last < key row
      · simp [hafter, hposition.trans hafter]
      · simp [hafter]
  rw [hcursor, ordered_beyond (beyond_keys hkeys), ← hsplit, hbeyond]
  conv_rhs => rw [hsplit]

theorem beyond_none : beyond key none rows = rows :=
  List.filter_eq_self.mpr fun _ _ => rfl

theorem follow_eq (hlimit : 0 < limit) (hkeys : (rows.map key).Nodup) {requests : Nat}
    (henough : (beyond key cursor rows).length ≤ requests * limit) :
    follow key limit rows requests cursor = ordered key (beyond key cursor rows) := by
  induction requests generalizing cursor with
  | zero =>
    rw [Nat.zero_mul, Nat.le_zero, List.length_eq_zero_iff] at henough
    rw [henough]
    rfl
  | succ requests ih =>
    have hlength : (ordered key (beyond key cursor rows)).length =
        (beyond key cursor rows).length := perm_ordered.length_eq
    rw [follow, page]
    split_ifs with hmore
    · rw [List.take_take, Nat.min_eq_left (Nat.le_succ limit)]
      rw [List.length_take] at hmore
      cases hlast : ((ordered key (beyond key cursor rows)).take limit).getLast? with
      | none =>
        rw [List.getLast?_eq_none_iff, List.take_eq_nil_iff, ← List.length_eq_zero_iff] at hlast
        omega
      | some last =>
        have hdrop := ordered_beyond_last hkeys hlast
        have hrest : (beyond key (some (key last)) rows).length ≤ requests * limit := by
          have hcount : (ordered key (beyond key (some (key last)) rows)).length =
              (beyond key (some (key last)) rows).length := perm_ordered.length_eq
          rw [hdrop, List.length_drop] at hcount
          rw [Nat.succ_mul] at henough
          omega
        rw [Option.map_some, ih hrest, hdrop, List.take_append_drop]
    · rw [List.length_take] at hmore
      exact List.take_of_length_le (by omega)

end Order

variable {key : ρ → κ} {rows : List ρ} {cursor : Option κ} {limit : Nat} {row : ρ}

theorem page_sublist :
    (page key limit cursor rows).Sublist (ordered key (beyond key cursor rows)) :=
  List.take_sublist _ _

theorem mem_of_mem_page (h : row ∈ page key limit cursor rows) :
    row ∈ rows ∧ ∀ position ∈ cursor, position < key row := by
  have hmem : row ∈ ordered key (beyond key cursor rows) := List.mem_of_mem_take h
  rwa [mem_ordered, mem_beyond] at hmem

theorem full_of_not_mem_page (hkeys : (rows.map key).Nodup) (hrow : row ∈ beyond key cursor rows)
    (hout : row ∉ page key limit cursor rows) :
    (page key limit cursor rows).length = limit ∧
      ∀ other ∈ page key limit cursor rows, key other < key row := by
  have hsorted : (ordered key (beyond key cursor rows)).Pairwise fun left right =>
      key left < key right := strict_ordered (beyond_keys hkeys)
  have hmem : row ∈ ordered key (beyond key cursor rows) := mem_ordered.mpr hrow
  rw [← List.take_append_drop limit (ordered key (beyond key cursor rows))] at hsorted hmem
  have hdrop : row ∈ (ordered key (beyond key cursor rows)).drop limit :=
    (List.mem_append.mp hmem).resolve_left hout
  refine ⟨?_, fun other hother => (List.pairwise_append.mp hsorted).2.2 other hother row hdrop⟩
  have hpos := List.length_pos_of_mem hdrop
  rw [List.length_drop] at hpos
  rw [page, List.length_take]
  omega

theorem strict_page (hkeys : (rows.map key).Nodup) :
    (page key limit cursor rows).Pairwise fun left right => key left < key right :=
  (strict_ordered (beyond_keys hkeys)).sublist page_sublist

theorem page_keys_nodup (hkeys : (rows.map key).Nodup) :
    ((page key limit cursor rows).map key).Nodup := by
  rw [List.Nodup, List.pairwise_map]
  exact (strict_page hkeys).imp ne_of_lt

variable {last : ρ}

theorem le_last_of_mem_page (hkeys : (rows.map key).Nodup)
    (hlast : (page key limit cursor rows).getLast? = some last)
    (hrow : row ∈ page key limit cursor rows) : key row ≤ key last := by
  have hsorted : (page key limit cursor rows).Pairwise fun left right =>
    key left < key right := strict_page hkeys
  obtain ⟨front, hfront⟩ := List.getLast?_eq_some_iff.mp hlast
  rw [hfront] at hsorted hrow
  rcases List.mem_append.mp hrow with hrow | hrow
  · exact le_of_lt ((List.pairwise_append.mp hsorted).2.2 row hrow last
      (List.mem_singleton.mpr rfl))
  · rw [List.mem_singleton.mp hrow]

variable (key limit)

def advance (cursor : Option κ) (rows : List ρ) : Option κ :=
  if (page key limit cursor rows).length = limit then
    (page key limit cursor rows).getLast?.map key
  else none

variable {key limit} {positions : Finset κ} {target : κ}

/-- Whether the scan is past the target, and has to start again before it meets it. -/
def IsPast (target : κ) (cursor : Option κ) : Prop :=
  ∃ position ∈ cursor, target ≤ position

def IsAhead (target : κ) (cursor : Option κ) (position : κ) : Prop :=
  (IsPast target cursor ∧ position < target) ∨
    ((∀ before ∈ cursor, before < position) ∧ (position < target ∨ IsPast target cursor))

open Classical in
/-- What the scan may still spend before it meets the target: the positions ahead, and one page
for the start. -/
noncomputable def cost (limit : Nat) (positions : Finset κ) (target : κ) (cursor : Option κ) :
    Nat :=
  (positions.filter (IsAhead target cursor)).card + if IsPast target cursor then limit else 0

open Classical in
theorem card_ahead_le {next : Option κ}
    (hkept : ∀ position, IsAhead target next position → IsAhead target cursor position)
    (hpage : ∀ other ∈ page key limit cursor rows, key other ∈ positions ∧
      IsAhead target cursor (key other) ∧ ¬ IsAhead target next (key other))
    (hkeys : (rows.map key).Nodup) :
    (positions.filter (IsAhead target next)).card + (page key limit cursor rows).length ≤
      (positions.filter (IsAhead target cursor)).card := by
  let passed : Finset κ := ((page key limit cursor rows).map key).toFinset
  have hcard : passed.card = (page key limit cursor rows).length := by
    rw [List.toFinset_card_of_nodup (page_keys_nodup hkeys), List.length_map]
  have hdisjoint : Disjoint (positions.filter (IsAhead target next)) passed := by
    rw [Finset.disjoint_left]
    intro position hposition hpassed
    obtain ⟨other, hother, rfl⟩ := List.mem_map.mp (List.mem_toFinset.mp hpassed)
    exact (hpage other hother).2.2 (Finset.mem_filter.mp hposition).2
  rw [← hcard, ← Finset.card_union_of_disjoint hdisjoint]
  apply Finset.card_le_card
  intro position hposition
  rcases Finset.mem_union.mp hposition with hposition | hpassed
  · obtain ⟨hmem, hahead⟩ := Finset.mem_filter.mp hposition
    exact Finset.mem_filter.mpr ⟨hmem, hkept position hahead⟩
  · obtain ⟨other, hother, rfl⟩ := List.mem_map.mp (List.mem_toFinset.mp hpassed)
    exact Finset.mem_filter.mpr ⟨(hpage other hother).1, (hpage other hother).2.1⟩

theorem isPast_some {position : κ} : IsPast target (some position) ↔ target ≤ position := by
  simp [IsPast]

theorem advance_full (hfull : (page key limit cursor rows).length = limit)
    (hlast : (page key limit cursor rows).getLast? = some last) :
    advance key limit cursor rows = some (key last) := by
  rw [advance, if_pos hfull, hlast]
  rfl

theorem cost_past (hkeys : (rows.map key).Nodup)
    (hpositions : ∀ other ∈ rows, key other ∈ positions) (hpast : IsPast target cursor)
    (hfull : (page key limit cursor rows).length = limit)
    (hlast : (page key limit cursor rows).getLast? = some last) :
    cost limit positions target (advance key limit cursor rows) + limit ≤
      cost limit positions target cursor := by
  have hfar : IsPast target (some (key last)) := by
    obtain ⟨position, hposition, hle⟩ := hpast
    have hbeyond := (mem_of_mem_page (List.mem_of_getLast? hlast)).2 position hposition
    exact isPast_some.mpr (hle.trans hbeyond.le)
  have hcard := @card_ahead_le _ _ _ key rows cursor limit positions target (some (key last)) ?_ ?_
    hkeys
  · rw [advance_full hfull hlast, cost, cost, if_pos hfar, if_pos hpast]
    rw [hfull] at hcard
    omega
  · rintro position (⟨-, hbefore⟩ | ⟨hbehind, -⟩)
    · exact .inl ⟨hpast, hbefore⟩
    · refine .inr ⟨fun before hbefore => ?_, .inr hpast⟩
      exact ((mem_of_mem_page (List.mem_of_getLast? hlast)).2 before hbefore).trans
        (hbehind _ rfl)
  · intro other hother
    have hbeyond := mem_of_mem_page hother
    refine ⟨hpositions other hbeyond.1, .inr ⟨hbeyond.2, .inr hpast⟩, ?_⟩
    rintro (⟨-, hbefore⟩ | ⟨hbehind, -⟩)
    · obtain ⟨position, hposition, hle⟩ := hpast
      exact absurd (hle.trans_lt (hbeyond.2 position hposition)) hbefore.not_gt
    · exact absurd (hbehind _ rfl) (le_last_of_mem_page hkeys hlast hother).not_gt

open Classical in
theorem cost_wrap (hpast : IsPast target cursor) :
    cost limit positions target none + limit ≤ cost limit positions target cursor := by
  have hnone : ¬ IsPast target none := by
    rintro ⟨_, hposition, -⟩
    cases hposition
  rw [cost, cost, if_neg hnone, if_pos hpast]
  apply Nat.add_le_add_right
  apply Finset.card_le_card
  intro position hposition
  obtain ⟨hmem, hahead⟩ := Finset.mem_filter.mp hposition
  refine Finset.mem_filter.mpr ⟨hmem, .inl ⟨hpast, ?_⟩⟩
  rcases hahead with ⟨hstart, -⟩ | ⟨-, hbefore | hstart⟩
  · exact absurd hstart hnone
  · exact hbefore
  · exact absurd hstart hnone

section

variable (hlimit : 0 < limit) (hkeys : (rows.map key).Nodup)
    (hpositions : ∀ other ∈ rows, key other ∈ positions) (hrow : row ∈ rows)

include hlimit hkeys hpositions hrow

theorem cost_near (hnear : ¬ IsPast (key row) cursor) (hout : row ∉ page key limit cursor rows) :
    cost limit positions (key row) (advance key limit cursor rows) + limit ≤
      cost limit positions (key row) cursor := by
  have hbeyond : row ∈ beyond key cursor rows :=
    mem_beyond.mpr ⟨hrow, fun position hposition =>
      not_le.mp fun hle => hnear ⟨position, hposition, hle⟩⟩
  obtain ⟨hfull, hless⟩ := full_of_not_mem_page hkeys hbeyond hout
  cases hlast : (page key limit cursor rows).getLast? with
  | none =>
    rw [List.getLast?_eq_none_iff, ← List.length_eq_zero_iff] at hlast
    omega
  | some last =>
    have hshown := List.mem_of_getLast? hlast
    have hstill : ¬ IsPast (key row) (some (key last)) := fun hpast =>
      absurd (hless last hshown) (isPast_some.mp hpast).not_gt
    have hcard := @card_ahead_le _ _ _ key rows cursor limit positions (key row)
      (some (key last)) ?_ ?_ hkeys
    · rw [advance_full hfull hlast, cost, cost, if_neg hstill, if_neg hnear]
      rw [hfull] at hcard
      omega
    · rintro position (⟨hpast, -⟩ | ⟨hbehind, hbefore | hpast⟩)
      · exact absurd hpast hstill
      · refine .inr ⟨fun before hmem => ?_, .inl hbefore⟩
        exact ((mem_of_mem_page hshown).2 before hmem).trans (hbehind _ rfl)
      · exact absurd hpast hstill
    · intro other hother
      refine ⟨hpositions other (mem_of_mem_page hother).1,
        .inr ⟨(mem_of_mem_page hother).2, .inl (hless other hother)⟩, ?_⟩
      rintro (⟨hpast, -⟩ | ⟨hbehind, -⟩)
      · exact hstill hpast
      · exact absurd (hbehind _ rfl) (le_last_of_mem_page hkeys hlast hother).not_gt

theorem cost_advance (hout : row ∉ page key limit cursor rows) :
    cost limit positions (key row) (advance key limit cursor rows) + limit ≤
      cost limit positions (key row) cursor := by
  by_cases hpast : IsPast (key row) cursor
  · by_cases hfull : (page key limit cursor rows).length = limit
    · cases hlast : (page key limit cursor rows).getLast? with
      | none =>
        rw [List.getLast?_eq_none_iff, ← List.length_eq_zero_iff] at hlast
        omega
      | some last => exact cost_past hkeys hpositions hpast hfull hlast
    · rw [advance, if_neg hfull]
      exact cost_wrap hpast
  · exact cost_near hlimit hkeys hpositions hrow hpast hout

end

open Classical in
theorem cost_le (positions : Finset κ) (target : κ) (limit : Nat) (cursor : Option κ) :
    cost limit positions target cursor ≤ positions.card + limit := by
  rw [cost]
  have hcard := Finset.card_filter_le positions (IsAhead target cursor)
  split_ifs <;> omega

end Keyset

end Relational
