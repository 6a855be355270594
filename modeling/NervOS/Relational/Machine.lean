/-
A deterministic machine driven by a list of inputs, its reachable states, and
the induction rules for invariants.  All nondeterminism of a system (who acts
next, on which arguments, at which clock reading) is in the choice of inputs.
-/
import Mathlib.Data.List.Induction
import Mathlib.Tactic.Common

namespace Relational

structure Machine (σ ι : Type) where
  init : σ
  exec : ι → σ → σ

namespace Machine

variable {σ ι : Type} (M : Machine σ ι)

/-- Execute the inputs from left to right. -/
def run : List ι → σ → σ
  | [], state => state
  | input :: rest, state => run rest (M.exec input state)

/-- Every input of the run meets `ok` in the state it is executed in. -/
def Along (ok : σ → ι → Prop) : List ι → σ → Prop
  | [], _ => True
  | input :: rest, state => ok state input ∧ Along ok rest (M.exec input state)

instance (ok : σ → ι → Prop) [∀ state input, Decidable (ok state input)] :
    ∀ inputs state, Decidable (M.Along ok inputs state)
  | [], _ => isTrue trivial
  | input :: rest, state =>
    have := instDecidableAlong ok rest (M.exec input state)
    inferInstanceAs
      (Decidable (ok state input ∧ M.Along ok rest (M.exec input state)))

def Reachable (state : σ) : Prop :=
  ∃ inputs, M.run inputs M.init = state

/-- Reachable by a run whose every input meets `ok`. -/
def ReachableAlong (ok : σ → ι → Prop) (state : σ) : Prop :=
  ∃ inputs, M.Along ok inputs M.init ∧ M.run inputs M.init = state

theorem run_append (first second : List ι) (state : σ) :
    M.run (first ++ second) state = M.run second (M.run first state) := by
  induction first generalizing state with
  | nil => rfl
  | cons input rest ih => exact ih (M.exec input state)

theorem along_append {ok : σ → ι → Prop} (first second : List ι) (state : σ) :
    M.Along ok (first ++ second) state ↔
      M.Along ok first state ∧ M.Along ok second (M.run first state) := by
  induction first generalizing state with
  | nil => simp [Along, run]
  | cons input rest ih => simp [Along, run, ih, and_assoc]

theorem exists_of_not_along {ok : σ → ι → Prop} {inputs : List ι} {state : σ}
    (h : ¬ M.Along ok inputs state) :
    ∃ before input after, inputs = before ++ input :: after ∧
      ¬ ok (M.run before state) input := by
  induction inputs generalizing state with
  | nil => exact absurd trivial h
  | cons input rest ih =>
    by_cases hok : ok state input
    · obtain ⟨before, broken, after, rfl, hbroken⟩ := ih fun hrest => h ⟨hok, hrest⟩
      exact ⟨input :: before, broken, after, rfl, hbroken⟩
    · exact ⟨[], input, rest, rfl, hok⟩

variable {M}

theorem Along.mono {ok ok' : σ → ι → Prop} (himp : ∀ state input, ok state input → ok' state input)
    {inputs : List ι} {state : σ} (h : M.Along ok inputs state) : M.Along ok' inputs state := by
  induction inputs generalizing state with
  | nil => trivial
  | cons input rest ih => exact ⟨himp state input h.1, ih h.2⟩

theorem Reachable.run {state : σ} (h : M.Reachable state) (inputs : List ι) :
    M.Reachable (M.run inputs state) := by
  obtain ⟨before, rfl⟩ := h
  exact ⟨before ++ inputs, M.run_append before inputs M.init⟩

theorem Reachable.exec {state : σ} (h : M.Reachable state) (input : ι) :
    M.Reachable (M.exec input state) :=
  h.run [input]

theorem ReachableAlong.reachable {ok : σ → ι → Prop} {state : σ}
    (h : M.ReachableAlong ok state) : M.Reachable state :=
  h.imp fun _ => And.right

theorem Along.invariant {ok : σ → ι → Prop} {I : σ → Prop}
    (hstep : ∀ state input, I state → ok state input → I (M.exec input state))
    {inputs : List ι} {state : σ} (halong : M.Along ok inputs state)
    (hstate : I state) : I (M.run inputs state) := by
  induction inputs generalizing state with
  | nil => exact hstate
  | cons input rest ih =>
    exact ih halong.2 (hstep state input hstate halong.1)

theorem ReachableAlong.invariant {ok : σ → ι → Prop} {I : σ → Prop}
    (hinit : I M.init)
    (hstep : ∀ state input, I state → ok state input → I (M.exec input state))
    {state : σ} (h : M.ReachableAlong ok state) : I state := by
  obtain ⟨inputs, halong, rfl⟩ := h
  exact halong.invariant hstep hinit

theorem ReachableAlong.exec {ok : σ → ι → Prop} {state : σ} (h : M.ReachableAlong ok state)
    {input : ι} (hok : ok state input) : M.ReachableAlong ok (M.exec input state) := by
  obtain ⟨inputs, halong, rfl⟩ := h
  refine ⟨inputs ++ [input], ?_, M.run_append inputs [input] M.init⟩
  exact (M.along_append inputs [input] M.init).mpr ⟨halong, hok, trivial⟩

theorem ReachableAlong.induction {ok : σ → ι → Prop} {I : σ → Prop} (hinit : I M.init)
    (hstep : ∀ state input, M.ReachableAlong ok state → I state → ok state input →
      I (M.exec input state))
    {state : σ} (h : M.ReachableAlong ok state) : I state := by
  have hboth : M.ReachableAlong ok state ∧ I state := by
    apply h.invariant (I := fun state => M.ReachableAlong ok state ∧ I state)
    · exact ⟨⟨[], trivial, rfl⟩, hinit⟩
    · intro state input hstate hok
      exact ⟨hstate.1.exec hok, hstep state input hstate.1 hstate.2 hok⟩
  exact hboth.2

theorem along_of_forall {ok : σ → ι → Prop} (h : ∀ state input, ok state input)
    (inputs : List ι) (state : σ) : M.Along ok inputs state := by
  induction inputs generalizing state with
  | nil => exact trivial
  | cons input rest ih => exact ⟨h state input, ih (M.exec input state)⟩

theorem Reachable.along {ok : σ → ι → Prop} (hok : ∀ state input, ok state input) {state : σ}
    (h : M.Reachable state) : M.ReachableAlong ok state :=
  h.imp fun inputs hrun => ⟨along_of_forall hok inputs M.init, hrun⟩

theorem Along.progress {ok : σ → ι → Prop} {I Done : σ → Prop} {potential : σ → Nat}
    (hkeep : ∀ state input, I state → ok state input → I (M.exec input state))
    (hstay : ∀ state input, I state → ok state input → Done state → Done (M.exec input state))
    (hfall : ∀ state input, I state → ok state input → ¬ Done state →
      Done (M.exec input state) ∨ potential (M.exec input state) < potential state)
    {inputs : List ι} {state : σ} (halong : M.Along ok inputs state) (hstate : I state)
    (henough : Done state ∨ potential state < inputs.length) : Done (M.run inputs state) := by
  induction inputs generalizing state with
  | nil => exact henough.resolve_right (Nat.not_lt_zero _)
  | cons input rest ih =>
    apply ih halong.2 (hkeep state input hstate halong.1)
    by_cases hdone : Done state
    · exact Or.inl (hstay state input hstate halong.1 hdone)
    · have hlength := henough.resolve_left hdone
      rw [List.length_cons] at hlength
      rcases hfall state input hstate halong.1 hdone with hover | hlower
      · exact Or.inl hover
      · exact Or.inr (by omega)

theorem Along.history {ok : σ → ι → Prop} {I : List ι → σ → Prop} (hinit : I [] M.init)
    (hstep : ∀ inputs input, I inputs (M.run inputs M.init) →
      ok (M.run inputs M.init) input →
      I (inputs ++ [input]) (M.exec input (M.run inputs M.init)))
    {inputs : List ι} (halong : M.Along ok inputs M.init) : I inputs (M.run inputs M.init) := by
  induction inputs using List.reverseRecOn with
  | nil => exact hinit
  | append_singleton before input ih =>
    obtain ⟨hbefore, hinput, -⟩ := (M.along_append before [input] M.init).mp halong
    rw [run_append]
    exact hstep before input (ih hbefore) hinput

theorem Along.isolated {ok : σ → ι → Prop} {R : σ → σ → Prop} {own : ι → Bool}
    (hinit : R M.init M.init)
    (hown : ∀ state alone input, R state alone → ok state input → own input = true →
      R (M.exec input state) (M.exec input alone))
    (hother : ∀ state alone input, R state alone → ok state input → own input = false →
      R (M.exec input state) alone)
    {inputs : List ι} (halong : M.Along ok inputs M.init) :
    R (M.run inputs M.init) (M.run (inputs.filter own) M.init) := by
  refine halong.history (I := fun inputs state => R state (M.run (inputs.filter own) M.init))
    hinit ?_
  intro inputs input hstate hok
  rw [List.filter_append, run_append]
  cases hinput : own input with
  | true =>
    rw [List.filter_cons, hinput]
    exact hown _ _ input hstate hok hinput
  | false =>
    rw [List.filter_cons, hinput]
    exact hother _ _ input hstate hok hinput

theorem run_invariant {I : σ → Prop}
    (hstep : ∀ state input, I state → I (M.exec input state)) {state : σ}
    (hstate : I state) (inputs : List ι) : I (M.run inputs state) := by
  induction inputs generalizing state with
  | nil => exact hstate
  | cons input rest ih => exact ih (hstep state input hstate)

theorem Reachable.invariant {I : σ → Prop} (hinit : I M.init)
    (hstep : ∀ state input, I state → I (M.exec input state))
    {state : σ} (h : M.Reachable state) : I state := by
  obtain ⟨inputs, rfl⟩ := h
  exact run_invariant hstep hinit inputs

theorem run_related {I : σ → Prop} {R : σ → σ → Prop}
    (hrefl : ∀ state, R state state)
    (htrans : ∀ {a b c}, R a b → R b c → R a c)
    (hinv : ∀ state input, I state → I (M.exec input state))
    (hstep : ∀ state input, I state → R state (M.exec input state))
    {state : σ} (hstate : I state) (inputs : List ι) :
    R state (M.run inputs state) := by
  induction inputs generalizing state with
  | nil => exact hrefl state
  | cons input rest ih =>
    exact htrans (hstep state input hstate) (ih (hinv state input hstate))

end Machine

end Relational
