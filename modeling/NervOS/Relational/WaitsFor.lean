/-
Who waits for whom over row locks: transactions that keep what they hold, and when their waits
cannot close to a cycle.
-/
import Mathlib.Data.List.Basic
import Mathlib.Data.Prod.Lex
import Mathlib.Logic.Relation

namespace Relational

open Relation

variable {α β : Type} {R : α → α → Prop}

theorem transGen_rising [Preorder β] {φ : α → β}
    (h : ∀ x y, R x y → TransGen R x x → TransGen R y y → φ x < φ y) {x y : α}
    (hto : TransGen R x y) (hback : ReflTransGen R y x) : φ x < φ y := by
  induction hto with
  | single hstep =>
    exact h _ _ hstep (TransGen.head' hstep hback) (TransGen.tail' hback hstep)
  | @tail y z hto hstep ih =>
    have hcycle : ReflTransGen R y x := ReflTransGen.head hstep hback
    have hfrom : TransGen R y y := TransGen.trans_right hcycle hto
    have hnext : TransGen R z z := TransGen.trans_right (hback.trans hto.to_reflTransGen)
      (TransGen.single hstep)
    exact lt_trans (ih hcycle) (h _ _ hstep hfrom hnext)

theorem not_cycle_of_rising [Preorder β] {φ : α → β}
    (h : ∀ x y, R x y → TransGen R x x → TransGen R y y → φ x < φ y) (x : α) :
    ¬ TransGen R x x := by
  intro hcycle
  exact lt_irrefl (φ x) (transGen_rising h hcycle ReflTransGen.refl)

theorem exists_step_of_cycle {x : α} (h : TransGen R x x) :
    ∃ y, R x y ∧ TransGen R y y := by
  obtain ⟨y, hstep, hback⟩ := TransGen.head'_iff.mp h
  exact ⟨y, hstep, TransGen.tail' hback hstep⟩

theorem exists_into_of_cycle {x : α} (h : TransGen R x x) :
    ∃ y, R y x ∧ TransGen R y y := by
  obtain ⟨y, hto, hstep⟩ := TransGen.tail'_iff.mp h
  exact ⟨y, hstep, TransGen.head' hstep hto⟩

end Relational
