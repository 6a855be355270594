/-
Lists of rows before and after a statement: row-by-row relations, selections,
and rows numbered without gaps.
-/
import Mathlib.Data.List.Forall2
import NervOS.Relational.Table

namespace Relational

section Forall₂

open List (Forall₂)

variable {α β : Type} {R : α → β → Prop} {rows : List α} {rows' : List β}

section

variable (h : Forall₂ R rows rows')

include h

theorem exists_before {row' : β} (hrow : row' ∈ rows') :
    ∃ row ∈ rows, R row row' := by
  induction h with
  | nil => cases hrow
  | cons hhead htail ih =>
    rcases List.mem_cons.mp hrow with rfl | hrow
    · exact ⟨_, List.mem_cons_self, hhead⟩
    · obtain ⟨row, hmem, hrel⟩ := ih hrow
      exact ⟨row, List.mem_cons_of_mem _ hmem, hrel⟩

theorem exists_after {row : α} (hrow : row ∈ rows) :
    ∃ row' ∈ rows', R row row' :=
  exists_before h.flip hrow

theorem map_eq_of_forall₂ {γ : Type} {column : α → γ} {column' : β → γ}
    (hkeep : ∀ row row', R row row' → column' row' = column row) :
    rows'.map column' = rows.map column := by
  induction h with
  | nil => rfl
  | cons hhead htail ih => rw [List.map_cons, List.map_cons, ih, hkeep _ _ hhead]

theorem forall₂_imp_of_mem {S : α → β → Prop} (himp : ∀ row ∈ rows, ∀ row', R row row' → S row row')
    : Forall₂ S rows rows' := by
  induction h with
  | nil => exact .nil
  | cons hhead htail ih =>
    refine .cons (himp _ List.mem_cons_self _ hhead) (ih fun row hrow => ?_)
    exact himp row (List.mem_cons_of_mem _ hrow)

end

end Forall₂

section Grown

variable {α : Type} {R : α → α → Prop} {rows rows' rows'' : List α}

/-- Every row is still in its place, moved along `R`, and rows were only added behind
them. -/
inductive Grown (R : α → α → Prop) : List α → List α → Prop
  | nil (added : List α) : Grown R [] added
  | cons {row row' : α} {rows rows' : List α} (hhead : R row row') (htail : Grown R rows rows') :
      Grown R (row :: rows) (row' :: rows')

theorem Grown.append (hrefl : ∀ row, R row row) (rows added : List α) :
    Grown R rows (rows ++ added) := by
  induction rows with
  | nil => exact .nil added
  | cons row rest ih => exact .cons (hrefl row) ih

theorem Grown.refl (hrefl : ∀ row, R row row) (rows : List α) : Grown R rows rows := by
  have happend := Grown.append hrefl rows []
  rwa [List.append_nil] at happend

theorem Grown.of_forall₂ (h : List.Forall₂ R rows rows') : Grown R rows rows' := by
  induction h with
  | nil => exact .nil []
  | cons hhead htail ih => exact .cons hhead ih

theorem Grown.trans (htrans : ∀ a b c, R a b → R b c → R a c) (h : Grown R rows rows')
    (h' : Grown R rows' rows'') : Grown R rows rows'' := by
  induction h generalizing rows'' with
  | nil added => exact .nil rows''
  | cons hhead htail ih =>
    cases h' with
    | cons hhead' htail' => exact .cons (htrans _ _ _ hhead hhead') (ih htail')

theorem Grown.exists_after (h : Grown R rows rows') {row : α} (hrow : row ∈ rows) :
    ∃ row' ∈ rows', R row row' := by
  induction h with
  | nil added => cases hrow
  | cons hhead htail ih =>
    rcases List.mem_cons.mp hrow with rfl | hrow
    · exact ⟨_, List.mem_cons_self, hhead⟩
    · obtain ⟨row', hmem, hrel⟩ := ih hrow
      exact ⟨row', List.mem_cons_of_mem _ hmem, hrel⟩

theorem Grown.forall₂ (h : Grown R rows rows') (hlength : rows'.length = rows.length) :
    List.Forall₂ R rows rows' := by
  induction h with
  | nil added =>
    rw [List.length_eq_zero_iff.mp hlength]
    exact .nil
  | cons hhead htail ih => exact .cons hhead (ih (Nat.succ.inj hlength))

end Grown

section Statements

variable {ρ : Type} {p : ρ → Prop} [DecidablePred p] {f : ρ → ρ} {rows : List ρ}

theorem forall₂_amend {R : ρ → ρ → Prop} (h : ∀ row ∈ rows, R row (Table.amend p f row)) :
    List.Forall₂ R rows (rows.map (Table.amend p f)) := by
  rw [List.forall₂_map_right_iff, List.forall₂_same]
  exact h

theorem mem_map_amend {row' : ρ} :
    row' ∈ rows.map (Table.amend p f) ↔
      (∃ row ∈ rows, p row ∧ f row = row') ∨ row' ∈ rows ∧ ¬ p row' := by
  rw [List.mem_map]
  constructor
  · rintro ⟨row, hrow, rfl⟩
    by_cases hp : p row
    · rw [Table.amend_of_pos hp]
      exact Or.inl ⟨row, hrow, hp, rfl⟩
    · rw [Table.amend_of_neg hp]
      exact Or.inr ⟨hrow, hp⟩
  · rintro (⟨row, hrow, hp, rfl⟩ | ⟨hrow, hp⟩)
    · exact ⟨row, hrow, Table.amend_of_pos hp⟩
    · exact ⟨row', hrow, Table.amend_of_neg hp⟩

theorem forall_mem_map_amend {P : ρ → Prop} (h : ∀ row ∈ rows, P row)
    (hwrite : ∀ row ∈ rows, p row → P (f row)) :
    ∀ row ∈ rows.map (Table.amend p f), P row := by
  intro row hrow
  rcases mem_map_amend.mp hrow with ⟨old, hold, hp, rfl⟩ | ⟨hkept, -⟩
  · exact hwrite old hold hp
  · exact h row hkept

theorem map_amend_congr {q : ρ → Prop} [DecidablePred q] (h : ∀ row ∈ rows, p row ↔ q row) :
    rows.map (Table.amend p f) = rows.map (Table.amend q f) := by
  refine List.map_congr_left fun row hrow => ?_
  unfold Table.amend
  simp only [h row hrow]

theorem map_amend_of_forall_not (h : ∀ row ∈ rows, ¬ p row) :
    rows.map (Table.amend p f) = rows := by
  conv_rhs => rw [← List.map_id rows]
  exact List.map_congr_left fun row hrow => Table.amend_of_neg (h row hrow)

theorem map_column_amend {β : Type} {column : ρ → β}
    (hkeep : ∀ row, column (f row) = column row) (rows : List ρ) :
    (rows.map (Table.amend p f)).map column = rows.map column := by
  rw [List.map_map]
  exact List.map_congr_left fun row _ => Table.amend_column hkeep row

theorem filter_map_amend {column : ρ → Nat} (hkeep : ∀ row, column (f row) = column row)
    (value : Nat) (rows : List ρ) :
    (rows.map (Table.amend p f)).filter (fun row => column row = value) =
      (rows.filter fun row => column row = value).map (Table.amend p f) := by
  rw [List.filter_map]
  congr 2
  funext row
  simp only [Function.comp_apply, Table.amend_column hkeep]

theorem filter_append_singleton (p : ρ → Bool) (rows : List ρ) (row : ρ) :
    (rows ++ [row]).filter p = rows.filter p ++ if p row then [row] else [] := by
  rw [List.filter_append, List.filter_singleton]
  cases p row <;> rfl

end Statements

/-- The numbers are exactly `1, …, n`, in order. -/
def Numbered (numbers : List Nat) (count : Nat) : Prop :=
  numbers = List.range' 1 count

variable {numbers : List Nat} {count : Nat}

theorem Numbered.nil : Numbered [] 0 :=
  rfl

theorem Numbered.length (h : Numbered numbers count) : numbers.length = count := by
  rw [h, List.length_range']

theorem Numbered.append (h : Numbered numbers count) (more : Nat) :
    Numbered (numbers ++ List.range' (count + 1) more) (count + more) := by
  rw [Numbered, h, Nat.add_comm count 1, List.range'_append_1]

theorem Numbered.concat (h : Numbered numbers count) :
    Numbered (numbers ++ [count + 1]) (count + 1) :=
  h.append 1

theorem Numbered.last {number : Nat} (h : Numbered (numbers ++ [number]) count) :
    number = count := by
  have hlength := h.length
  rw [List.length_append, List.length_singleton] at hlength
  rw [Numbered, ← hlength, List.range'_1_concat] at h
  have hlast := List.singleton_inj.mp (List.append_inj' h rfl).2
  omega

theorem Numbered.mem (h : Numbered numbers count) {number : Nat} :
    number ∈ numbers ↔ 1 ≤ number ∧ number ≤ count := by
  rw [h, List.mem_range'_1]
  omega

theorem Numbered.nodup (h : Numbered numbers count) : numbers.Nodup := by
  rw [h]
  exact List.nodup_range'

theorem Numbered.max? (h : Numbered numbers count) : numbers.max?.getD 0 = count := by
  cases count with
  | zero => rw [h]; rfl
  | succ count =>
    have hmax : numbers.max? = some (count + 1) := by
      rw [List.max?_eq_some_iff]
      refine ⟨h.mem.mpr ⟨Nat.succ_pos count, le_rfl⟩, ?_⟩
      intro number hnumber
      exact (h.mem.mp hnumber).2
    rw [hmax, Option.getD_some]

section Newest

variable {ρ : Type} {column : ρ → Nat} {rows : List ρ}

theorem filter_above {start : Nat} (h : rows.map column = List.range' (start + 1) rows.length)
    (bound : Nat) :
    rows.filter (fun row => bound < column row) = rows.drop (bound - start) := by
  induction rows generalizing start with
  | nil => rw [List.filter_nil, List.drop_nil]
  | cons row rest ih =>
    rw [List.map_cons, List.length_cons, List.range'_succ] at h
    obtain ⟨hrow, hrest⟩ := List.cons.inj h
    by_cases hbound : bound < column row
    · rw [List.filter_cons, if_pos (decide_eq_true hbound), ih hrest]
      have hnone : bound - start = 0 := by omega
      have hrestNone : bound - (start + 1) = 0 := by omega
      rw [hnone, hrestNone, List.drop_zero, List.drop_zero]
    · rw [List.filter_cons, if_neg (by rwa [decide_eq_true_eq]), ih hrest]
      have hmore : bound - start = bound - (start + 1) + 1 := by omega
      rw [hmore, List.drop_succ_cons]

theorem Numbered.drop {count : Nat} (h : Numbered (rows.map column) count) (skip : Nat) :
    (rows.drop skip).map column = List.range' (skip + 1) (rows.drop skip).length := by
  have hlength : rows.length = count := by
    rw [← h.length, List.length_map]
  rw [List.map_drop, h, List.length_drop, hlength, List.drop_range', Nat.mul_one,
    Nat.add_comm skip 1]

theorem Numbered.filter_drop {count : Nat} (h : Numbered (rows.map column) count)
    {skip bound : Nat} (hskip : skip ≤ bound) :
    (rows.drop skip).filter (fun row => bound < column row) = rows.drop bound := by
  rw [filter_above (h.drop skip) bound, List.drop_drop, Nat.add_sub_cancel' hskip]

end Newest

end Relational
