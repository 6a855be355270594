/-
Relational tables as an embedded SQL engine keeps them: rows under an
increasing integer key, a CHECK constraint on every row, and UNIQUE constraints
between rows.  A table value cannot violate any of them.
-/
import Mathlib.Data.List.MinMax
import Mathlib.Data.Finset.Card
import Mathlib.Tactic.Common

namespace Relational

/-- The primary key, the CHECK constraints and the UNIQUE constraints that a
table declares over its row type.  `Clash a b` says that no table holds both
`a` and `b`. -/
class Record (ρ : Type) where
  key : ρ → Nat
  Check : ρ → Prop
  Clash : ρ → ρ → Prop
  decCheck : DecidablePred Check
  decClash : DecidableRel Clash

export Record (key Check Clash)

attribute [reducible, instance] Record.decCheck Record.decClash

variable {ρ : Type} [Record ρ]

/-- The declared constraints, over the rows and the autoincrement mark. -/
structure Lawful (rows : List ρ) (next : Nat) : Prop where
  ascending : rows.Pairwise fun left right => key left < key right
  fresh : ∀ row ∈ rows, key row < next
  checked : ∀ row ∈ rows, Check row
  unique : rows.Pairwise fun left right => ¬ Clash left right

instance (rows : List ρ) (next : Nat) : Decidable (Lawful rows next) :=
  decidable_of_iff
    ((rows.Pairwise fun left right => key left < key right) ∧
      (∀ row ∈ rows, key row < next) ∧ (∀ row ∈ rows, Check row) ∧
      rows.Pairwise fun left right => ¬ Clash left right)
    ⟨fun h => ⟨h.1, h.2.1, h.2.2.1, h.2.2.2⟩,
      fun h => ⟨h.ascending, h.fresh, h.checked, h.unique⟩⟩

structure Table (ρ : Type) [Record ρ] where
  rows : List ρ
  next : Nat
  lawful : Lawful rows next

namespace Table

@[ext] theorem ext {left right : Table ρ} (hrows : left.rows = right.rows)
    (hnext : left.next = right.next) : left = right := by
  cases left
  cases right
  simp only at hrows hnext
  subst hrows hnext
  rfl

def empty : Table ρ where
  rows := []
  next := 1
  lawful := ⟨by simp, by simp, by simp, by simp⟩

/-- Accept a list of rows when it satisfies every declared constraint. -/
def ofRows? (rows : List ρ) (next : Nat) : Option (Table ρ) :=
  if hlawful : Lawful rows next then some ⟨rows, next, hlawful⟩ else none

theorem ofRows?_eq_some {rows : List ρ} {next : Nat} {t : Table ρ} :
    ofRows? rows next = some t ↔ t.rows = rows ∧ t.next = next := by
  unfold ofRows?
  split
  · rename_i hlawful
    simp only [Option.some.injEq]
    constructor
    · rintro rfl
      exact ⟨rfl, rfl⟩
    · rintro ⟨hrows, hnext⟩
      exact Table.ext hrows.symm hnext.symm
  · rename_i hlawful
    simp only [reduceCtorEq, false_iff, not_and]
    rintro hrows hnext
    exact hlawful (hrows ▸ hnext ▸ t.lawful)

/-- One row of `UPDATE … SET f WHERE p`. -/
def amend (p : ρ → Prop) [DecidablePred p] (f : ρ → ρ) (row : ρ) : ρ :=
  if p row then f row else row

def update? (t : Table ρ) (p : ρ → Prop) [DecidablePred p] (f : ρ → ρ) :
    Option (Table ρ) :=
  ofRows? (t.rows.map (amend p f)) t.next

def insert? (t : Table ρ) (row : Nat → ρ) : Option (Table ρ) :=
  ofRows? (t.rows ++ [row t.next]) (t.next + 1)

def find (t : Table ρ) (id : Nat) : Option ρ :=
  t.rows.find? fun row => key row = id

theorem eq_of_key_eq {t : Table ρ} {left right : ρ} (hleft : left ∈ t.rows)
    (hright : right ∈ t.rows) (hkey : key left = key right) : left = right := by
  obtain ⟨i, hi, rfl⟩ := List.getElem_of_mem hleft
  obtain ⟨j, hj, rfl⟩ := List.getElem_of_mem hright
  have hascending := List.pairwise_iff_getElem.mp t.lawful.ascending
  rcases Nat.lt_trichotomy i j with hij | hij | hij
  · exact absurd hkey (Nat.ne_of_lt (hascending i j hi hj hij))
  · subst hij
    rfl
  · exact absurd hkey.symm (Nat.ne_of_lt (hascending j i hj hi hij))

theorem rows_nodup (t : Table ρ) : t.rows.Nodup := by
  rw [List.nodup_iff_pairwise_ne]
  refine t.lawful.ascending.imp fun hlt heq => ?_
  rw [heq] at hlt
  exact Nat.lt_irrefl _ hlt

theorem not_clash {t : Table ρ} {left right : ρ} (hleft : left ∈ t.rows)
    (hright : right ∈ t.rows) (hlt : key left < key right) :
    ¬ Clash left right := by
  have hboth := t.lawful.ascending.and t.lawful.unique
  obtain ⟨i, hi, rfl⟩ := List.getElem_of_mem hleft
  obtain ⟨j, hj, rfl⟩ := List.getElem_of_mem hright
  rw [List.pairwise_iff_getElem] at hboth
  rcases Nat.lt_trichotomy i j with hij | hij | hij
  · exact (hboth i j hi hj hij).2
  · subst hij
    exact absurd hlt (Nat.lt_irrefl _)
  · exact absurd hlt (Nat.lt_asymm (hboth j i hj hi hij).1)

theorem eq_of_clash {t : Table ρ} {left right : ρ} (hleft : left ∈ t.rows)
    (hright : right ∈ t.rows) (hclash : Clash left right) (hclash' : Clash right left) :
    left = right := by
  rcases Nat.lt_trichotomy (key left) (key right) with hlt | heq | hlt
  · exact absurd hclash (not_clash hleft hright hlt)
  · exact eq_of_key_eq hleft hright heq
  · exact absurd hclash' (not_clash hright hleft hlt)

@[simp] theorem find_eq_some {t : Table ρ} {id : Nat} {row : ρ} :
    t.find id = some row ↔ row ∈ t.rows ∧ key row = id := by
  constructor
  · intro hfind
    have hkey := List.find?_some hfind
    exact ⟨List.mem_of_find?_eq_some hfind, by simpa using hkey⟩
  · rintro ⟨hmem, hkey⟩
    cases hfind : t.find id with
    | none =>
      have hnone := List.find?_eq_none.mp hfind row hmem
      simp [hkey] at hnone
    | some other =>
      have hother := List.find?_some hfind
      have hotherMem := List.mem_of_find?_eq_some hfind
      have hotherKey : key other = id := by simpa using hother
      rw [eq_of_key_eq hotherMem hmem (hotherKey.trans hkey.symm)]

theorem find_eq_none {t : Table ρ} {id : Nat} :
    t.find id = none ↔ ∀ row ∈ t.rows, key row ≠ id := by
  simp [find]

theorem find_key {t : Table ρ} {row : ρ} (hrow : row ∈ t.rows) :
    t.find (key row) = some row :=
  find_eq_some.mpr ⟨hrow, rfl⟩

theorem find_next (t : Table ρ) : t.find t.next = none :=
  find_eq_none.mpr fun row hrow => Nat.ne_of_lt (t.lawful.fresh row hrow)

section Update

variable {p : ρ → Prop} [DecidablePred p] {f : ρ → ρ}

omit [Record ρ] in
theorem amend_of_pos {row : ρ} (hp : p row) : amend p f row = f row :=
  if_pos hp

omit [Record ρ] in
theorem amend_of_neg {row : ρ} (hp : ¬ p row) : amend p f row = row :=
  if_neg hp

omit [Record ρ] in
theorem amend_column {β : Type} {column : ρ → β}
    (hkeep : ∀ row, column (f row) = column row) (row : ρ) :
    column (amend p f row) = column row := by
  unfold amend
  split
  · exact hkeep row
  · rfl

theorem update?_rows {t t' : Table ρ} (h : t.update? p f = some t') :
    t'.rows = t.rows.map (amend p f) ∧ t'.next = t.next :=
  ofRows?_eq_some.mp h

theorem find_update {t t' : Table ρ} (h : t.update? p f = some t')
    (hkey : ∀ row, key (f row) = key row) (id : Nat) :
    t'.find id = (t.find id).map (amend p f) := by
  have hkeyAmend : ∀ row, key (amend p f row) = key row := amend_column hkey
  unfold find
  rw [(update?_rows h).1, List.find?_map]
  congr 2
  funext row
  simp only [Function.comp_apply, hkeyAmend]

theorem find_update_of_pin {t t' : Table ρ} {row : ρ} (h : t.update? p f = some t')
    (hkey : ∀ row : ρ, key (f row) = key row) (hrow : row ∈ t.rows) (hp : p row)
    (hpin : ∀ other, p other → key other = key row) (id : Nat) :
    t'.find id = if id = key row then some (f row) else t.find id := by
  rw [find_update h hkey]
  split
  · rename_i hid
    rw [hid, find_key hrow, Option.map_some, amend_of_pos hp]
  · rename_i hid
    cases hfind : t.find id with
    | none => rfl
    | some other =>
      have hother : ¬ p other := fun hpo =>
        hid ((find_eq_some.mp hfind).2.symm.trans (hpin other hpo))
      rw [Option.map_some, amend_of_neg hother]

theorem update?_isSome {t : Table ρ} {row : ρ}
    (honly : ∀ other ∈ t.rows, p other → other = row)
    (hkey : key (f row) = key row) (hcheck : Check (f row))
    (hclash : ∀ other ∈ t.rows, (Clash other (f row) → Clash other row) ∧
      (Clash (f row) other → Clash row other)) :
    ∃ t', t.update? p f = some t' := by
  have hamendKey : ∀ other ∈ t.rows, key (amend p f other) = key other := by
    intro other hother
    by_cases hp : p other
    · rw [amend_of_pos hp, honly other hother hp, hkey]
    · rw [amend_of_neg hp]
  have hlawful : Lawful (t.rows.map (amend p f)) t.next := by
    refine ⟨?_, ?_, ?_, ?_⟩
    · rw [List.pairwise_map]
      refine t.lawful.ascending.imp_of_mem fun hleft hright hlt => ?_
      rw [hamendKey _ hleft, hamendKey _ hright]
      exact hlt
    · intro changed hchanged
      obtain ⟨other, hother, rfl⟩ := List.mem_map.mp hchanged
      rw [hamendKey other hother]
      exact t.lawful.fresh other hother
    · intro changed hchanged
      obtain ⟨other, hother, rfl⟩ := List.mem_map.mp hchanged
      by_cases hp : p other
      · rw [amend_of_pos hp, honly other hother hp]
        exact hcheck
      · rw [amend_of_neg hp]
        exact t.lawful.checked other hother
    · rw [List.pairwise_map]
      refine (t.lawful.ascending.and t.lawful.unique).imp_of_mem
        fun {left right} hleft hright hboth => ?_
      obtain ⟨hlt, hfree⟩ := hboth
      by_cases hpl : p left
      · by_cases hpr : p right
        · rw [honly left hleft hpl, honly right hright hpr] at hlt
          exact absurd hlt (Nat.lt_irrefl _)
        · rw [amend_of_pos hpl, amend_of_neg hpr]
          rw [honly left hleft hpl] at hfree ⊢
          exact fun h => hfree ((hclash right hright).2 h)
      · by_cases hpr : p right
        · rw [amend_of_neg hpl, amend_of_pos hpr]
          rw [honly right hright hpr] at hfree ⊢
          exact fun h => hfree ((hclash left hleft).1 h)
        · rwa [amend_of_neg hpl, amend_of_neg hpr]
  exact ⟨⟨_, _, hlawful⟩, ofRows?_eq_some.mpr ⟨rfl, rfl⟩⟩

end Update

section Insert

variable {row : Nat → ρ}

theorem insert?_rows {t t' : Table ρ} (h : t.insert? row = some t') :
    t'.rows = t.rows ++ [row t.next] ∧ t'.next = t.next + 1 :=
  ofRows?_eq_some.mp h

theorem insert?_not_clash {t t' : Table ρ} (h : t.insert? row = some t') :
    ∀ old ∈ t.rows, ¬ Clash old (row t.next) := by
  have hunique := t'.lawful.unique
  rw [(insert?_rows h).1, List.pairwise_append] at hunique
  intro old hold
  exact hunique.2.2 old hold _ (List.mem_singleton_self _)

theorem insert?_isSome {t : Table ρ} (hkey : key (row t.next) = t.next)
    (hcheck : Check (row t.next))
    (hclash : ∀ other ∈ t.rows, ¬ Clash other (row t.next)) :
    ∃ t', t.insert? row = some t' := by
  have hlawful : Lawful (t.rows ++ [row t.next]) (t.next + 1) := by
    refine ⟨?_, ?_, ?_, ?_⟩
    · simp only [List.pairwise_append, List.pairwise_singleton,
        List.mem_singleton, true_and]
      refine ⟨t.lawful.ascending, ?_⟩
      rintro old hold new rfl
      rw [hkey]
      exact t.lawful.fresh old hold
    · intro old hold
      rcases List.mem_append.mp hold with hold | hold
      · exact Nat.lt_succ_of_lt (t.lawful.fresh old hold)
      · rw [List.mem_singleton.mp hold, hkey]
        exact Nat.lt_succ_self _
    · intro old hold
      rcases List.mem_append.mp hold with hold | hold
      · exact t.lawful.checked old hold
      · rw [List.mem_singleton.mp hold]
        exact hcheck
    · simp only [List.pairwise_append, List.pairwise_singleton,
        List.mem_singleton, true_and]
      refine ⟨t.lawful.unique, ?_⟩
      rintro old hold new rfl
      exact hclash old hold
  exact ⟨⟨_, _, hlawful⟩, ofRows?_eq_some.mpr ⟨rfl, rfl⟩⟩

theorem find_insert {t t' : Table ρ} (h : t.insert? row = some t')
    (hkey : key (row t.next) = t.next) (id : Nat) :
    t'.find id = if id = t.next then some (row t.next) else t.find id := by
  unfold find
  rw [(insert?_rows h).1, List.find?_append]
  by_cases hid : id = t.next
  · subst hid
    have hnone : t.rows.find? (fun old => key old = t.next) = none := t.find_next
    simp [hnone, hkey]
  · have hne : key (row t.next) ≠ id := by rw [hkey]; exact Ne.symm hid
    simp [hid, hne]

end Insert

section Delete

variable {p : ρ → Prop} [DecidablePred p]

/-- `DELETE … WHERE p`; a deleted key is not assigned again. -/
def delete (t : Table ρ) (p : ρ → Prop) [DecidablePred p] : Table ρ where
  rows := t.rows.filter fun row => ¬ p row
  next := t.next
  lawful :=
    { ascending := t.lawful.ascending.filter _
      fresh := fun row hrow => t.lawful.fresh row (List.mem_filter.mp hrow).1
      checked := fun row hrow => t.lawful.checked row (List.mem_filter.mp hrow).1
      unique := t.lawful.unique.filter _ }

theorem mem_delete {t : Table ρ} {row : ρ} :
    row ∈ (t.delete p).rows ↔ row ∈ t.rows ∧ ¬ p row := by
  rw [delete, List.mem_filter, decide_eq_true_iff]

/-- The key that follows the largest one: what a table without AUTOINCREMENT assigns. -/
def following (rows : List ρ) : Nat :=
  (rows.map key).foldr max 0 + 1

theorem lt_following {rows : List ρ} {row : ρ} (hrow : row ∈ rows) :
    key row < following rows := by
  induction rows with
  | nil => cases hrow
  | cons head rest ih =>
    simp only [following, List.map_cons, List.foldr_cons] at ih ⊢
    rcases List.mem_cons.mp hrow with rfl | hrest
    · omega
    · have hlt := ih hrest
      omega

/-- `DELETE … WHERE p` on a table without AUTOINCREMENT: the key of a deleted last row is
assigned again. -/
def vacate (t : Table ρ) (p : ρ → Prop) [DecidablePred p] : Table ρ where
  rows := (t.delete p).rows
  next := following (t.delete p).rows
  lawful :=
    { ascending := (t.delete p).lawful.ascending
      fresh := fun _ hrow => lt_following hrow
      checked := (t.delete p).lawful.checked
      unique := (t.delete p).lawful.unique }

theorem mem_vacate {t : Table ρ} {row : ρ} :
    row ∈ (t.vacate p).rows ↔ row ∈ t.rows ∧ ¬ p row :=
  mem_delete

end Delete

section Owned

/-- The rows that belong to one row of another table, in the order of their keys. -/
def owned (t : Table ρ) (parent : ρ → Nat) (id : Nat) : List ρ :=
  t.rows.filter fun row => parent row = id

variable {t t' : Table ρ} {parent : ρ → Nat} {id : Nat}

theorem mem_owned {row : ρ} : row ∈ t.owned parent id ↔ row ∈ t.rows ∧ parent row = id := by
  rw [owned, List.mem_filter, decide_eq_true_iff]

variable {p : ρ → Prop} [DecidablePred p] {f : ρ → ρ}

theorem owned_update (h : t.update? p f = some t')
    (hparent : ∀ row, parent (f row) = parent row) :
    t'.owned parent id = (t.owned parent id).map (amend p f) := by
  rw [owned, owned, (update?_rows h).1, List.filter_map]
  congr 2
  funext row
  simp only [Function.comp_apply, amend_column hparent]

theorem owned_update_other (h : t.update? p f = some t')
    (hparent : ∀ row, parent (f row) = parent row)
    (hother : ∀ row ∈ t.rows, p row → parent row ≠ id) :
    t'.owned parent id = t.owned parent id := by
  rw [owned_update h hparent]
  conv_rhs => rw [← List.map_id (t.owned parent id)]
  apply List.map_congr_left
  intro row hrow
  obtain ⟨hmem, howner⟩ := mem_owned.mp hrow
  exact amend_of_neg fun hp => hother row hmem hp howner

theorem owned_insert {row : Nat → ρ} (h : t.insert? row = some t') :
    t'.owned parent id =
      t.owned parent id ++ if parent (row t.next) = id then [row t.next] else [] := by
  rw [owned, owned, (insert?_rows h).1, List.filter_append]
  congr 1
  by_cases hid : parent (row t.next) = id
  · rw [if_pos hid, List.filter_cons_of_pos (by simpa using hid), List.filter_nil]
  · rw [if_neg hid, List.filter_cons_of_neg (by simpa using hid), List.filter_nil]

theorem owned_delete :
    (t.delete p).owned parent id = (t.owned parent id).filter fun row => ¬ p row := by
  rw [owned, owned, delete, List.filter_filter, List.filter_filter]
  apply List.filter_congr
  intro row _
  exact Bool.and_comm _ _

end Owned

theorem exists_unique_of_countP {t : Table ρ} {p : ρ → Prop} [DecidablePred p]
    (hcount : t.rows.countP p = 1) :
    ∃ row ∈ t.rows, p row ∧ ∀ other ∈ t.rows, p other → other = row := by
  rw [List.countP_eq_length_filter, List.length_eq_one_iff] at hcount
  obtain ⟨row, hrow⟩ := hcount
  have hmem : ∀ other, other ∈ t.rows ∧ p other ↔ other = row := by
    intro other
    rw [← List.mem_singleton, ← hrow, List.mem_filter, decide_eq_true_iff]
  obtain ⟨hrowMem, hp⟩ := (hmem row).mpr rfl
  exact ⟨row, hrowMem, hp, fun other hother hpo => (hmem other).mp ⟨hother, hpo⟩⟩

theorem countP_eq_one {t : Table ρ} {p : ρ → Prop} [DecidablePred p] {row : ρ}
    (hrow : row ∈ t.rows) (hp : p row)
    (honly : ∀ other ∈ t.rows, p other → key other = key row) :
    t.rows.countP p = 1 := by
  have hnodup : t.rows.Nodup := t.rows_nodup
  rw [List.countP_eq_length_filter, List.length_eq_one_iff]
  refine ⟨row, ?_⟩
  have hperm : (t.rows.filter p).Perm [row] := by
    rw [List.perm_ext_iff_of_nodup (hnodup.filter _) (List.nodup_singleton row)]
    intro other
    simp only [List.mem_filter, decide_eq_true_eq, List.mem_singleton]
    constructor
    · rintro ⟨hother, hpo⟩
      exact eq_of_key_eq hother hrow (honly other hother hpo)
    · rintro rfl
      exact ⟨hrow, hp⟩
  exact List.perm_singleton.mp hperm

variable {t t' : Table ρ} {p q : ρ → Prop} [DecidablePred p] [DecidablePred q]

def keysWhere (t : Table ρ) (p : ρ → Prop) [DecidablePred p] : Finset Nat :=
  ((t.rows.filter p).map key).toFinset

theorem mem_keysWhere {id : Nat} :
    id ∈ t.keysWhere p ↔ ∃ row, t.find id = some row ∧ p row := by
  simp only [keysWhere, List.mem_toFinset, List.mem_map, List.mem_filter,
    decide_eq_true_eq, find_eq_some]
  constructor
  · rintro ⟨row, ⟨hrow, hp⟩, hkey⟩
    exact ⟨row, ⟨hrow, hkey⟩, hp⟩
  · rintro ⟨row, ⟨hrow, hkey⟩, hp⟩
    exact ⟨row, ⟨hrow, hp⟩, hkey⟩

theorem card_keysWhere : (t.keysWhere p).card = t.rows.countP p := by
  have hnodup : ((t.rows.filter p).map key).Nodup := by
    rw [List.nodup_iff_pairwise_ne, List.pairwise_map]
    exact (t.lawful.ascending.filter _).imp fun hlt => Nat.ne_of_lt hlt
  rw [keysWhere, List.toFinset_card_of_nodup hnodup, List.length_map,
    List.countP_eq_length_filter]

theorem countP_le_of_related {τ : Type} [Record τ] {s : Table τ} {r : τ → Prop}
    [DecidablePred r] {R : ρ → τ → Prop}
    (htotal : ∀ row ∈ t.rows, p row → ∃ other ∈ s.rows, r other ∧ R row other)
    (hunshared : ∀ row ∈ t.rows, ∀ row' ∈ t.rows, ∀ other,
      R row other → R row' other → row = row') :
    t.rows.countP p ≤ s.rows.countP r := by
  have hpartner : ∀ id ∈ t.keysWhere p, ∃ id' ∈ s.keysWhere r,
      ∃ row other, t.find id = some row ∧ s.find id' = some other ∧ R row other := by
    intro id hid
    obtain ⟨row, hrow, hp⟩ := mem_keysWhere.mp hid
    obtain ⟨other, hother, hr, hrelated⟩ := htotal row (find_eq_some.mp hrow).1 hp
    exact ⟨key other, mem_keysWhere.mpr ⟨other, find_key hother, hr⟩, row, other, hrow,
      find_key hother, hrelated⟩
  choose! partner hmem hrelated using hpartner
  rw [← card_keysWhere, ← card_keysWhere]
  apply Finset.card_le_card_of_injOn partner hmem
  intro id hid id' hid' hsame
  obtain ⟨row, other, hrow, hother, hR⟩ := hrelated id hid
  obtain ⟨row', other', hrow', hother', hR'⟩ := hrelated id' hid'
  rw [← hsame, hother] at hother'
  obtain rfl := Option.some.inj hother'
  have heq : row = row' :=
    hunshared row (find_eq_some.mp hrow).1 row' (find_eq_some.mp hrow').1 other hR hR'
  rw [← (find_eq_some.mp hrow).2, heq, (find_eq_some.mp hrow').2]

theorem countP_le_of_find
    (hback : ∀ id row', t'.find id = some row' → q row' →
      ∃ row, t.find id = some row ∧ p row) :
    t'.rows.countP q ≤ t.rows.countP p := by
  rw [← card_keysWhere, ← card_keysWhere]
  apply Finset.card_le_card
  intro id hid
  obtain ⟨row', hfind, hq⟩ := mem_keysWhere.mp hid
  exact mem_keysWhere.mpr (hback id row' hfind hq)

theorem countP_lt_of_find
    (hback : ∀ id row', t'.find id = some row' → q row' →
      ∃ row, t.find id = some row ∧ p row)
    {row : ρ} (hrow : row ∈ t.rows) (hp : p row)
    (hgone : ∀ row', t'.find (key row) = some row' → ¬ q row') :
    t'.rows.countP q < t.rows.countP p := by
  rw [← card_keysWhere, ← card_keysWhere]
  apply Finset.card_lt_card
  rw [Finset.ssubset_iff_of_subset]
  · refine ⟨key row, mem_keysWhere.mpr ⟨row, find_key hrow, hp⟩, ?_⟩
    intro hmem
    obtain ⟨row', hfind, hq⟩ := mem_keysWhere.mp hmem
    exact hgone row' hfind hq
  · intro id hid
    obtain ⟨row', hfind, hq⟩ := mem_keysWhere.mp hid
    exact mem_keysWhere.mpr (hback id row' hfind hq)

theorem countP_le_succ_of_find (id₀ : Nat)
    (hback : ∀ id row', t'.find id = some row' → q row' →
      id = id₀ ∨ ∃ row, t.find id = some row ∧ p row) :
    t'.rows.countP q ≤ t.rows.countP p + 1 := by
  rw [← card_keysWhere, ← card_keysWhere]
  refine Nat.le_trans (Finset.card_le_card (t := insert id₀ (t.keysWhere p)) ?_)
    (Finset.card_insert_le _ _)
  intro id hid
  obtain ⟨row', hfind, hq⟩ := mem_keysWhere.mp hid
  rw [Finset.mem_insert]
  exact (hback id row' hfind hq).imp_right mem_keysWhere.mpr

end Table

end Relational
