/-
A store that extends another one with tables of its own.  A body written for the
core runs on the extended store unchanged, so the extension can neither bypass
the core's statements nor see them differently.
-/
import NervOS.Relational.Transaction

namespace Relational

structure Extended (σ χ : Type) where
  core : σ
  own : χ

/-- The foreign keys of the added tables, among themselves and into the core. -/
class Extension (σ χ : Type) where
  References : σ → χ → Prop
  decReferences : ∀ core own, Decidable (References core own)

attribute [reducible, instance] Extension.decReferences

variable {σ χ : Type} {ε ε' α : Type}

section HasTable

variable {ρ : Type} [Record ρ] [HasTable χ ρ]

instance : HasTable (Extended σ χ) ρ where
  table store := table store.own
  setTable t store := { store with own := setTable t store.own }
  table_setTable t store := table_setTable t store.own

@[simp] theorem table_extended (store : Extended σ χ) :
    table (ρ := ρ) store = table store.own := rfl

@[simp] theorem setTable_extended (t : Table ρ) (store : Extended σ χ) :
    setTable t store = { store with own := setTable t store.own } := rfl

end HasTable

variable [Schema σ] [Extension σ χ]

instance : Schema (Extended σ χ) where
  References store := Schema.References store.core ∧ Extension.References store.core store.own
  decReferences _ := inferInstanceAs (Decidable (_ ∧ _))

def Consistent.core (store : Consistent (Extended σ χ)) : Consistent σ :=
  ⟨store.1.core, store.2.1⟩

def Abort.map (f : ε → ε') : Abort ε → Abort ε'
  | .integrity => .integrity
  | .raised error => .raised (f error)

namespace Tx

def onCore (lift : ε → ε') (x : Tx σ ε α) : Tx (Extended σ χ) ε' α :=
  fun store =>
    match x store.core with
    | .error abort => .error (abort.map lift)
    | .ok (value, core) =>
      if hrefs : Extension.References core.1 store.1.own then
        .ok (value, ⟨⟨core.1, store.1.own⟩, core.2, hrefs⟩)
      else .error .integrity

/-- Run a body behind a savepoint: an exception undoes what it wrote and is handed
to the caller, while a broken constraint still aborts the transaction. -/
def savepoint (x : Tx σ ε α) : Tx σ ε (Except ε α) :=
  fun store =>
    match x store with
    | .ok (value, store') => .ok (.ok value, store')
    | .error (.raised error) => .ok (.error error, store)
    | .error .integrity => .error .integrity

/-- Answer a constraint that the body breaks with an exception of the program. -/
def onIntegrity (error : ε) (x : Tx σ ε α) : Tx σ ε α :=
  fun store =>
    match x store with
    | .error .integrity => .error (.raised error)
    | outcome => outcome

section Inversion

variable {x : Tx σ ε α} {store store' : Consistent σ}

theorem commits_onCore {lift : ε → ε'} {value : α} {store store' : Consistent (Extended σ χ)} :
    (onCore lift x).Commits store value store' ↔
      x.Commits store.core value store'.core ∧ store'.1.own = store.1.own := by
  unfold Commits onCore
  cases hx : x store.core with
  | error abort =>
    simp
  | ok result =>
    simp only [Except.ok.injEq]
    split
    · rename_i hrefs
      constructor
      · intro h
        obtain ⟨rfl, rfl⟩ := Prod.mk.inj (Except.ok.inj h)
        exact ⟨rfl, rfl⟩
      · rintro ⟨rfl, hown⟩
        congr 2
        apply Subtype.ext
        simp only [← hown]
        rfl
    · rename_i hrefs
      simp only [reduceCtorEq, false_iff, not_and]
      rintro rfl hown
      have hreferences := store'.2.2
      rw [hown] at hreferences
      exact hrefs hreferences

theorem commits_savepoint {outcome : Except ε α} :
    (savepoint x).Commits store outcome store' ↔
      (∃ value, outcome = .ok value ∧ x.Commits store value store') ∨
        (∃ error, outcome = .error error ∧ x store = .error (.raised error) ∧
          store' = store) := by
  unfold Commits savepoint
  cases hx : x store with
  | ok result =>
    constructor
    · intro h
      obtain ⟨rfl, rfl⟩ := Prod.mk.inj (Except.ok.inj h)
      exact Or.inl ⟨_, rfl, rfl⟩
    · rintro (⟨value, rfl, h⟩ | ⟨error, -, h, -⟩)
      · obtain rfl := Except.ok.inj h
        rfl
      · cases h
  | error abort =>
    cases abort with
    | integrity => simp
    | raised error =>
      constructor
      · intro h
        obtain ⟨rfl, rfl⟩ := Prod.mk.inj (Except.ok.inj h)
        exact Or.inr ⟨_, rfl, rfl, rfl⟩
      · rintro (⟨value, -, h⟩ | ⟨error', rfl, h, rfl⟩)
        · cases h
        · cases h
          rfl

end Inversion

section Preserves

variable {R : Extended σ χ → Extended σ χ → Prop} {S : σ → σ → Prop}

theorem Preserves.onCore {lift : ε → ε'} {x : Tx σ ε α} (hx : Preserves S x)
    (hstep : ∀ core core' own, S core core' → R ⟨core, own⟩ ⟨core', own⟩) :
    Preserves R (onCore lift x : Tx (Extended σ χ) ε' α) := by
  intro store value store' h
  obtain ⟨hcommits, hown⟩ := commits_onCore.mp h
  have hmoved := hstep _ _ store.1.own (hx _ _ _ hcommits)
  have hstore : store'.1 = ⟨store'.core.1, store.1.own⟩ := by
    rw [← hown]
    rfl
  rw [hstore]
  exact hmoved

variable {T : σ → σ → Prop}

theorem Preserves.savepoint [Std.Refl T] {x : Tx σ ε α} (hx : Preserves T x) :
    Preserves T (savepoint x) := by
  intro store outcome store' h
  rcases commits_savepoint.mp h with ⟨value, -, hcommits⟩ | ⟨error, -, -, rfl⟩
  · exact hx _ _ _ hcommits
  · exact Std.Refl.refl _

end Preserves

variable {S : σ → σ → Prop}

/-- The core moved as `S` allows, whatever became of the added tables. -/
def Beneath (S : σ → σ → Prop) (store store' : Extended σ χ) : Prop :=
  S store.core store'.core

instance [Std.Refl S] : Std.Refl (Beneath S : Extended σ χ → Extended σ χ → Prop) where
  refl store := Std.Refl.refl store.core

instance [IsTrans σ S] : IsTrans (Extended σ χ) (Beneath S) where
  trans a b c h h' := IsTrans.trans (r := S) a.core b.core c.core h h'

theorem beneath_onCore {lift : ε → ε'} {x : Tx σ ε α} (hx : Preserves S x) :
    Preserves (Beneath S) (onCore lift x : Tx (Extended σ χ) ε' α) :=
  hx.onCore fun _ _ _ h => h

variable {ρ : Type} [Record ρ] [HasTable χ ρ] {p : ρ → Prop} [DecidablePred p] {f : ρ → ρ}
  [Std.Refl S]

theorem beneath_update : Preserves (Beneath S) (update p f : Tx (Extended σ χ) ε Nat) :=
  .update fun store _ _ => Std.Refl.refl (r := S) store.core

theorem beneath_updateOne {error : ε} :
    Preserves (Beneath S) (updateOne error p f : Tx (Extended σ χ) ε Unit) :=
  .updateOne fun store _ _ => Std.Refl.refl (r := S) store.core

theorem beneath_insert {row : Nat → ρ} :
    Preserves (Beneath S) (insert row : Tx (Extended σ χ) ε Nat) :=
  .insert fun store _ _ => Std.Refl.refl (r := S) store.core

theorem beneath_delete : Preserves (Beneath S) (delete p : Tx (Extended σ χ) ε Unit) := by
  apply Preserves.write
  intro store store' h
  obtain rfl := Option.some.inj h
  exact Std.Refl.refl (r := S) store.core

end Tx

end Relational
