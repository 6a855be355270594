/-
Inversion of computations that may fail outside of any transaction, and what settles them.
-/
import Mathlib.Tactic.Common

namespace Relational

variable {ε ε' α β : Type} {outcome : Except ε α} {value : β}

theorem bind_eq_ok {f : α → Except ε β} :
    outcome >>= f = .ok value ↔ ∃ mid, outcome = .ok mid ∧ f mid = .ok value := by
  cases outcome with
  | error error =>
    constructor
    · intro h
      cases h
    · rintro ⟨mid, h, -⟩
      cases h
  | ok mid =>
    constructor
    · intro h
      exact ⟨mid, rfl, h⟩
    · rintro ⟨_, heq, h⟩
      obtain rfl := Except.ok.inj heq
      exact h

theorem pure_eq_ok {value' : β} : (pure value' : Except ε β) = .ok value ↔ value' = value :=
  ⟨Except.ok.inj, congrArg Except.ok⟩

theorem map_eq_ok {f : α → β} :
    outcome.map f = .ok value ↔ ∃ argument, outcome = .ok argument ∧ f argument = value := by
  cases outcome <;> simp [Except.map]

theorem mapError_eq_ok {f : ε → ε'} {result : α} :
    outcome.mapError f = .ok result ↔ outcome = .ok result := by
  cases outcome <;> simp [Except.mapError]

variable {allowed : ε → Prop} {p q : Prop}

end Relational
