/-
Rows under a key of their own: the SELECT, INSERT and UPDATE of one table, as a service sees
them that names its rows by a column.
-/
import Mathlib.Data.List.Nodup

namespace Relational

namespace Keyed

variable {ρ κ : Type} {column : ρ → κ} {key : κ} {rows : List ρ}

theorem eq_of_column {left right : ρ} (h : (rows.map column).Nodup) (hleft : left ∈ rows)
    (hright : right ∈ rows) (hkey : column left = column right) : left = right :=
  List.inj_on_of_nodup_map h hleft hright hkey

variable {row : ρ}

theorem nodup_append (h : (rows.map column).Nodup) (hnew : column row ∉ rows.map column) :
    ((rows ++ [row]).map column).Nodup := by
  rw [List.map_append, List.nodup_append]
  refine ⟨h, by simp, ?_⟩
  rintro taken htaken new hnew' rfl
  rw [List.map_singleton, List.mem_singleton] at hnew'
  exact hnew (hnew' ▸ htaken)

variable [DecidableEq κ]

/-- The row under a key. -/
def row? (column : ρ → κ) (key : κ) (rows : List ρ) : Option ρ :=
  rows.find? fun row => column row = key

/-- A key is inserted once. -/
def insert? (column : ρ → κ) (row : ρ) (rows : List ρ) : Option (List ρ) :=
  if column row ∈ rows.map column then none else some (rows ++ [row])

def update (column : ρ → κ) (key : κ) (f : ρ → ρ) (rows : List ρ) : List ρ :=
  rows.map fun row => if column row = key then f row else row

theorem row?_eq_some (h : row? column key rows = some row) :
    row ∈ rows ∧ column row = key :=
  ⟨List.mem_of_find?_eq_some h, by simpa using List.find?_some h⟩

theorem row?_eq_none (h : row? column key rows = none) : key ∉ rows.map column := by
  intro hkey
  obtain ⟨row, hrow, rfl⟩ := List.mem_map.mp hkey
  simpa using List.find?_eq_none.mp h row hrow

theorem row?_of_mem (h : (rows.map column).Nodup) (hrow : row ∈ rows) :
    row? column (column row) rows = some row := by
  cases hfound : row? column (column row) rows with
  | none => exact absurd (List.mem_map_of_mem hrow) (row?_eq_none hfound)
  | some found =>
    obtain ⟨hmem, hkey⟩ := row?_eq_some hfound
    rw [eq_of_column h hmem hrow hkey]

theorem insert?_eq_some {rows' : List ρ} (h : insert? column row rows = some rows') :
    column row ∉ rows.map column ∧ rows' = rows ++ [row] := by
  unfold insert? at h
  split at h
  case isTrue => cases h
  case isFalse hnew => exact ⟨hnew, (Option.some.inj h).symm⟩

variable {β : Type} {f : ρ → ρ} {view : ρ → β}

theorem map_update (h : ∀ row, view (f row) = view row) :
    (update column key f rows).map view = rows.map view := by
  rw [update, List.map_map]
  apply List.map_congr_left
  intro row _
  by_cases hkey : column row = key
  · simp [hkey, h]
  · simp [hkey]

theorem view_update {history : List β} (h : rows.map view = history)
    (hview : ∀ row, view (f row) = view row) :
    (update column key f rows).map view = history :=
  (map_update hview).trans h

theorem mem_view_update {value : β} (h : value ∈ rows.map view)
    (hview : ∀ row, view (f row) = view row) :
    value ∈ (update column key f rows).map view := by
  rw [map_update hview]
  exact h

theorem nodup_update (h : (rows.map column).Nodup) (hcolumn : ∀ row, column (f row) = column row) :
    ((update column key f rows).map column).Nodup := by
  rw [map_update hcolumn]
  exact h

theorem mem_update (h : row ∈ update column key f rows) :
    ∃ before ∈ rows, row = if column before = key then f before else before := by
  obtain ⟨before, hbefore, rfl⟩ := List.mem_map.mp h
  exact ⟨before, hbefore, rfl⟩

structure Marked (column : ρ → κ) (flag : ρ → Bool) (rows : List ρ) (ledger : List κ) : Prop where
  iff : ∀ row ∈ rows, flag row = true ↔ column row ∈ ledger
  known : ∀ key ∈ ledger, key ∈ rows.map column
  once : ledger.Nodup

omit [DecidableEq κ] in
theorem marked_nil {flag : ρ → Bool} : Marked column flag [] [] :=
  ⟨by simp, by simp, List.nodup_nil⟩

namespace Marked

variable {flag : ρ → Bool} {ledger : List κ} {f : ρ → ρ}

theorem mark (h : Marked column flag rows ledger) {row : ρ} (hrow : row ∈ rows)
    (hflag : flag row = false) (hset : ∀ row, flag (f row) = true)
    (hcolumn : ∀ row, column (f row) = column row) :
    Marked column flag (update column (column row) f rows) (ledger ++ [column row]) where
  iff := by
    intro marked hmarked
    obtain ⟨before, hbefore, rfl⟩ := mem_update hmarked
    by_cases hkey : column before = column row
    · simp [hkey, hset, hcolumn]
    · simp [hkey, h.iff before hbefore]
  known := by
    intro key hkey
    rw [map_update hcolumn]
    rw [List.mem_append, List.mem_singleton] at hkey
    rcases hkey with hkey | rfl
    · exact h.known key hkey
    · exact List.mem_map_of_mem hrow
  once := by
    rw [List.nodup_append]
    refine ⟨h.once, by simp, ?_⟩
    rintro listed hlisted new hnew rfl
    rw [List.mem_singleton] at hnew
    have hmarked := (h.iff row hrow).mpr (hnew ▸ hlisted)
    rw [hflag] at hmarked
    cases hmarked

theorem frame (h : Marked column flag rows ledger) {key : κ}
    (hflag : ∀ row, flag (f row) = flag row) (hcolumn : ∀ row, column (f row) = column row) :
    Marked column flag (update column key f rows) ledger where
  iff := by
    intro row hrow
    obtain ⟨before, hbefore, rfl⟩ := mem_update hrow
    by_cases hkey : column before = key
    · rw [if_pos hkey, hflag, hcolumn]
      exact h.iff before hbefore
    · rw [if_neg hkey]
      exact h.iff before hbefore
  known := by
    rw [map_update hcolumn]
    exact h.known
  once := h.once

omit [DecidableEq κ] in
theorem insert (h : Marked column flag rows ledger) {row : ρ} (hnew : column row ∉ rows.map column)
    (hflag : flag row = false) : Marked column flag (rows ++ [row]) ledger where
  iff := by
    intro other hother
    rw [List.mem_append, List.mem_singleton] at hother
    rcases hother with hother | rfl
    · exact h.iff other hother
    · simp only [hflag, Bool.false_eq_true, false_iff]
      exact fun hlisted => hnew (h.known _ hlisted)
  known := by
    intro key hkey
    rw [List.map_append]
    exact List.mem_append_left _ (h.known key hkey)
  once := h.once

end Marked

end Keyed

end Relational
