/-
How a table evolves: rows keep their keys and move along a preorder, and every
other row descends from a fresh one.
-/
import NervOS.Relational.Transaction

namespace Relational

variable {ρ : Type} [Record ρ]

/-- Every row of `t` survives in `t'`, moved along `R`, and every other row of `t'`
comes from a `Fresh` one. -/
structure Table.Evolves (R : ρ → ρ → Prop) (Fresh : ρ → Prop) (t t' : Table ρ) : Prop where
  kept : ∀ id row, t.find id = some row → ∃ row', t'.find id = some row' ∧ R row row'
  brought : ∀ id row', t'.find id = some row' →
    (∃ row, t.find id = some row ∧ R row row') ∨
      t.find id = none ∧ ∃ row, Fresh row ∧ R row row'

namespace Table.Evolves

variable {R S : ρ → ρ → Prop} {Fresh : ρ → Prop} {t t' t'' : Table ρ}

theorem refl [Std.Refl R] (t : Table ρ) : t.Evolves R Fresh t where
  kept _ row hrow := ⟨row, hrow, Std.Refl.refl row⟩
  brought _ row hrow := Or.inl ⟨row, hrow, Std.Refl.refl row⟩

theorem trans [IsTrans ρ R] (h : t.Evolves R Fresh t') (h' : t'.Evolves R Fresh t'') :
    t.Evolves R Fresh t'' where
  kept id row hrow := by
    obtain ⟨row', hrow', hmoved⟩ := h.kept id row hrow
    obtain ⟨row'', hrow'', hmoved'⟩ := h'.kept id row' hrow'
    exact ⟨row'', hrow'', IsTrans.trans _ _ _ hmoved hmoved'⟩
  brought id row'' hrow'' := by
    rcases h'.brought id row'' hrow'' with ⟨row', hrow', hmoved'⟩ | ⟨hnone, row, hfresh, hmoved⟩
    · refine (h.brought id row' hrow').imp ?_ ?_
      · rintro ⟨row, hrow, hmoved⟩
        exact ⟨row, hrow, IsTrans.trans _ _ _ hmoved hmoved'⟩
      · rintro ⟨hnone, row, hfresh, hmoved⟩
        exact ⟨hnone, row, hfresh, IsTrans.trans _ _ _ hmoved hmoved'⟩
    · refine Or.inr ⟨?_, row, hfresh, hmoved⟩
      cases hfind : t.find id with
      | none => rfl
      | some old =>
        obtain ⟨row', hrow', -⟩ := h.kept id old hfind
        rw [hnone] at hrow'
        cases hrow'

theorem mono (h : t.Evolves R Fresh t') (hmoves : ∀ row row', R row row' → S row row') :
    t.Evolves S Fresh t' where
  kept id row hrow := by
    obtain ⟨row', hrow', hmoved⟩ := h.kept id row hrow
    exact ⟨row', hrow', hmoves _ _ hmoved⟩
  brought id row' hrow' := by
    refine (h.brought id row' hrow').imp ?_ ?_
    · rintro ⟨row, hrow, hmoved⟩
      exact ⟨row, hrow, hmoves _ _ hmoved⟩
    · rintro ⟨hnone, row, hfresh, hmoved⟩
      exact ⟨hnone, row, hfresh, hmoves _ _ hmoved⟩

theorem moved (h : t.Evolves R Fresh t') {id : Nat} {row row' : ρ}
    (hrow : t.find id = some row) (hrow' : t'.find id = some row') : R row row' := by
  obtain ⟨other, hother, hmoved⟩ := h.kept id row hrow
  rw [hrow'] at hother
  rwa [Option.some.inj hother]

theorem of_update [Std.Refl R] {p : ρ → Prop} [DecidablePred p] {f : ρ → ρ}
    (h : t.update? p f = some t') (hkey : ∀ row : ρ, key (f row) = key row)
    (hmoves : ∀ row ∈ t.rows, p row → R row (f row)) : t.Evolves R Fresh t' := by
  have hamend : ∀ row ∈ t.rows, R row (Table.amend p f row) := by
    intro row hrow
    by_cases hp : p row
    · rw [Table.amend_of_pos hp]
      exact hmoves row hrow hp
    · rw [Table.amend_of_neg hp]
      exact Std.Refl.refl row
  constructor
  · intro id row hrow
    refine ⟨Table.amend p f row, ?_, hamend row (Table.find_eq_some.mp hrow).1⟩
    rw [Table.find_update h hkey, hrow]
    rfl
  · intro id row' hrow'
    rw [Table.find_update h hkey, Option.map_eq_some_iff] at hrow'
    obtain ⟨row, hrow, rfl⟩ := hrow'
    exact Or.inl ⟨row, hrow, hamend row (Table.find_eq_some.mp hrow).1⟩

theorem of_insert [Std.Refl R] {row : Nat → ρ} (h : t.insert? row = some t')
    (hkey : ∀ id, key (row id) = id) (hfresh : ∀ id, Fresh (row id)) :
    t.Evolves R Fresh t' := by
  constructor
  · intro id old hold
    refine ⟨old, ?_, Std.Refl.refl old⟩
    rw [Table.find_insert h (hkey _)]
    split
    · rename_i hnext
      rw [hnext, Table.find_next] at hold
      cases hold
    · exact hold
  · intro id row' hrow'
    rw [Table.find_insert h (hkey _)] at hrow'
    split at hrow'
    · rename_i hnext
      obtain rfl := Option.some.inj hrow'
      exact Or.inr ⟨by rw [hnext, Table.find_next], _, hfresh _, Std.Refl.refl _⟩
    · exact Or.inl ⟨row', hrow', Std.Refl.refl row'⟩

end Table.Evolves

end Relational
