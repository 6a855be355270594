/-
Which exceptions a transaction body raises, statement by statement; a broken constraint
is not one of them.
-/
import NervOS.Relational.Extension

namespace Relational

namespace Tx

variable {σ χ : Type} [Schema σ] {ε ε' α β : Type}

/-- The body raises `error` when it is run on the store. -/
def Raises (x : Tx σ ε α) (store : Consistent σ) (error : ε) : Prop :=
  x store = .error (.raised error)

variable {store : Consistent σ} {error : ε} {x : Tx σ ε α}

theorem Raises.not_commits {value : α} {store' : Consistent σ} (h : x.Raises store error) :
    ¬ x.Commits store value store' := by
  intro hcommits
  rw [Commits, show x store = _ from h] at hcommits
  cases hcommits

variable {error' : ε}

theorem Raises.unique (h : x.Raises store error) (h' : x.Raises store error') : error = error' :=
  Abort.raised.inj (Except.error.inj (h.symm.trans h'))

@[simp] theorem raises_pure {value : α} : (pure value : Tx σ ε α).Raises store error ↔ False :=
  iff_of_false (fun h => nomatch (show Except.ok _ = Except.error _ from h)) id

@[simp] theorem raises_raise :
    (raise error' : Tx σ ε α).Raises store error ↔ error = error' := by
  change Except.error (Abort.raised error') = Except.error (Abort.raised error) ↔ _
  simp only [Except.error.injEq, Abort.raised.injEq, eq_comm]

@[simp] theorem raises_query {f : σ → α} : (query f : Tx σ ε α).Raises store error ↔ False :=
  iff_of_false (fun h => nomatch (show Except.ok _ = Except.error _ from h)) id

variable {f : α → Tx σ ε β}

@[simp] theorem raises_bind :
    (x >>= f).Raises store error ↔
      x.Raises store error ∨
        ∃ mid middle, x.Commits store mid middle ∧ (f mid).Raises middle error := by
  cases hx : x store with
  | ok result =>
    obtain ⟨value, store'⟩ := result
    have hbind : (x >>= f) store = f value store' := by simp only [bind, hx]
    constructor
    · intro h
      exact Or.inr ⟨value, store', hx, hbind.symm.trans h⟩
    · rintro (h | ⟨mid, middle, hcommits, h⟩)
      · exact absurd hx (Raises.not_commits h)
      · obtain ⟨rfl, rfl⟩ := Prod.mk.inj (Except.ok.inj (hx.symm.trans hcommits))
        exact hbind.trans h
  | error abort =>
    have hbind : (x >>= f) store = .error abort := by simp only [bind, hx]
    constructor
    · intro h
      have hraised := Except.error.inj (hbind.symm.trans h)
      exact Or.inl (by rw [Raises, hx, hraised])
    · rintro (h | ⟨mid, middle, hcommits, -⟩)
      · have hraised := Except.error.inj (hx.symm.trans h)
        rw [Raises, hbind, hraised]
      · cases hx.symm.trans hcommits

variable {condition : Prop}

@[simp] theorem raises_ite [Decidable condition] {x y : Tx σ ε α} :
    (if condition then x else y).Raises store error ↔
      (condition ∧ x.Raises store error) ∨ (¬ condition ∧ y.Raises store error) := by
  split <;> simp [*]

@[simp] theorem raises_require [Decidable condition] :
    (require condition error' : Tx σ ε Unit).Raises store error ↔
      ¬ condition ∧ error = error' := by
  simp [require]

@[simp] theorem raises_ofExcept {outcome : Except ε α} :
    (ofExcept outcome : Tx σ ε α).Raises store error ↔ outcome = .error error := by
  cases outcome <;> simp [ofExcept, eq_comm]

theorem elim_eq_error {row : Option α} :
    row.elim (.error error') .ok = (.error error : Except ε α) ↔ row = none ∧ error = error' := by
  cases row <;> simp [eq_comm]

/-! A prefix that only reads, with what follows it. -/

theorem raises_query_bind {g : σ → α} :
    (query g >>= f).Raises store error ↔ (f (g store.1)).Raises store error := by
  simp

theorem raises_require_bind [Decidable condition] {f : Unit → Tx σ ε β} :
    (require condition error' >>= f).Raises store error ↔
      (¬ condition ∧ error = error') ∨ (condition ∧ (f ()).Raises store error) := by
  simp [Unique.exists_iff]

theorem raises_ofExcept_bind {outcome : Except ε α} :
    (ofExcept outcome >>= f).Raises store error ↔
      outcome = .error error ∨ ∃ value, outcome = .ok value ∧ (f value).Raises store error := by
  simp

@[simp] theorem raises_write {statement : σ → Option σ} :
    (write statement : Tx σ ε Unit).Raises store error ↔ False := by
  refine iff_of_false ?_ id
  intro h
  unfold Raises write at h
  split at h
  · cases h
  · split at h
    · cases h
    · cases h

section Statements

variable {ρ : Type} [Record ρ] [HasTable σ ρ] {p : ρ → Prop} [DecidablePred p] {f : ρ → ρ}

@[simp] theorem raises_update : (update p f : Tx σ ε Nat).Raises store error ↔ False := by
  simp [update]

@[simp] theorem raises_updateOne {error' : ε} :
    (updateOne error' p f : Tx σ ε Unit).Raises store error ↔
      (table (ρ := ρ) store.1).rows.countP p ≠ 1 ∧ error = error' ∧
        ∃ store', Updates p f store store' := by
  simp only [updateOne, raises_bind, raises_update, commits_update, raises_require, false_or]
  constructor
  · rintro ⟨_, store', ⟨rfl, hupdates⟩, hcount, rfl⟩
    exact ⟨hcount, rfl, store', hupdates⟩
  · rintro ⟨hcount, rfl, store', hupdates⟩
    exact ⟨_, store', ⟨rfl, hupdates⟩, hcount, rfl⟩

@[simp] theorem raises_insert {row : Nat → ρ} :
    (insert row : Tx σ ε Nat).Raises store error ↔ False := by
  simp [insert]

end Statements

theorem raises_onCore [Extension σ χ] {lift : ε → ε'} {store : Consistent (Extended σ χ)}
    {error' : ε'} :
    (onCore lift x : Tx (Extended σ χ) ε' α).Raises store error' ↔
      ∃ error, x.Raises store.core error ∧ lift error = error' := by
  unfold Raises onCore
  cases hx : x store.core with
  | ok result =>
    simp only [reduceCtorEq, false_and, exists_false, iff_false]
    split
    · exact fun h => nomatch h
    · exact fun h => nomatch h
  | error abort =>
    cases abort with
    | integrity | raised => simp [Abort.map]

@[simp] theorem raises_savepoint :
    (savepoint x).Raises store error ↔ False := by
  refine iff_of_false ?_ id
  intro h
  unfold Raises savepoint at h
  split at h
  · cases h
  · cases h
  · cases h

theorem raises_savepoint_bind {f : Except ε α → Tx σ ε β} :
    (savepoint x >>= f).Raises store error ↔
      (∃ value store', x.Commits store value store' ∧ (f (.ok value)).Raises store' error) ∨
        ∃ inner, x.Raises store inner ∧ (f (.error inner)).Raises store error := by
  simp only [raises_bind, raises_savepoint, false_or, commits_savepoint]
  constructor
  · rintro ⟨_, _, ⟨value, rfl, hcommits⟩ | ⟨inner, rfl, hraised, rfl⟩, h⟩
    · exact Or.inl ⟨value, _, hcommits, h⟩
    · exact Or.inr ⟨inner, hraised, h⟩
  · rintro (⟨value, store', hcommits, h⟩ | ⟨inner, hraised, h⟩)
    · exact ⟨_, store', Or.inl ⟨value, rfl, hcommits⟩, h⟩
    · exact ⟨_, store, Or.inr ⟨inner, rfl, hraised, rfl⟩, h⟩

theorem run_of_raises (h : x.Raises store error) :
    x.run store = (.error (.raised error), store) := by
  simp only [run, show x store = _ from h]

theorem run_eq_raised :
    (x.run store).1 = .error (.raised error) ↔ x.Raises store error := by
  constructor
  · intro h
    unfold Raises
    unfold run at h
    split at h
    · cases h
    · rw [‹x store = _›]
      exact congrArg Except.error (Except.error.inj h)
  · intro h
    rw [run_of_raises h]

theorem run_outcome (x : Tx σ ε α) (store : Consistent σ) :
    (∃ value store', x.Commits store value store' ∧ x.run store = (.ok value, store')) ∨
      (∃ error, x.Raises store error ∧ x.run store = (.error (.raised error), store)) ∨
        (¬ (∃ error, x.Raises store error) ∧ x.run store = (.error .integrity, store)) := by
  cases hx : x store with
  | ok result => exact Or.inl ⟨result.1, result.2, hx, run_of_commits hx⟩
  | error abort =>
    right
    cases abort with
    | raised error => exact Or.inl ⟨error, hx, run_of_raises hx⟩
    | integrity =>
      refine Or.inr ⟨?_, by simp only [run, hx]⟩
      rintro ⟨error, herror⟩
      rw [Raises, hx] at herror
      cases herror

end Tx

end Relational
