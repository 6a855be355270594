/-
Transactions over a relational store.  A transaction either commits a value and
a new store or aborts, and an aborted transaction leaves the store it began
with.  Every statement re-establishes the constraints of the table it writes
and the foreign keys of the whole store.
-/
import NervOS.Relational.Table

namespace Relational

/-- The foreign keys that a store declares between its tables. -/
class Schema (σ : Type) where
  References : σ → Prop
  decReferences : DecidablePred References

attribute [reducible, instance] Schema.decReferences

/-- A store in which no foreign key dangles. -/
def Consistent (σ : Type) [Schema σ] : Type :=
  { store : σ // Schema.References store }

/-- The store `σ` has a table of `ρ` rows. -/
class HasTable (σ : Type) (ρ : Type) [Record ρ] where
  table : σ → Table ρ
  setTable : Table ρ → σ → σ
  table_setTable : ∀ t store, table (setTable t store) = t

export HasTable (table setTable table_setTable)

/-- Why a transaction aborted: a constraint of the store, or an exception that
the program raised. -/
inductive Abort (ε : Type) where
  | integrity
  | raised (error : ε)
deriving DecidableEq, Repr

/-- A transaction body: the statements run on the connection's own view of the
store, which becomes durable when the body returns. -/
def Tx (σ : Type) [Schema σ] (ε α : Type) : Type :=
  Consistent σ → Except (Abort ε) (α × Consistent σ)

namespace Tx

variable {σ : Type} [Schema σ] {ε α β : Type}

instance : Monad (Tx σ ε) where
  pure value := fun store => .ok (value, store)
  bind x f := fun store =>
    match x store with
    | .ok (value, store') => f value store'
    | .error abort => .error abort

def raise (error : ε) : Tx σ ε α :=
  fun _ => .error (.raised error)

def query (f : σ → α) : Tx σ ε α :=
  fun store => .ok (f store.1, store)

def require (condition : Prop) [Decidable condition] (error : ε) : Tx σ ε Unit :=
  if condition then pure () else raise error

/-- Go on with the outcome of a computation outside the store. -/
def ofExcept : Except ε α → Tx σ ε α
  | .ok value => pure value
  | .error error => raise error

/-- Run a statement; a statement that would break a constraint aborts. -/
def write (statement : σ → Option σ) : Tx σ ε Unit :=
  fun store =>
    match statement store.1 with
    | none => .error .integrity
    | some store' =>
      if hstore : Schema.References store' then .ok ((), ⟨store', hstore⟩)
      else .error .integrity

section Statements

variable {ρ : Type} [Record ρ] [HasTable σ ρ]

/-- `UPDATE … SET f WHERE p`, returning the number of rows it matched. -/
def update (p : ρ → Prop) [DecidablePred p] (f : ρ → ρ) : Tx σ ε Nat := do
  let count ← query fun store => (table (ρ := ρ) store).rows.countP p
  write fun store => ((table (ρ := ρ) store).update? p f).map (setTable · store)
  pure count

/-- An update that must match exactly one row. -/
def updateOne (error : ε) (p : ρ → Prop) [DecidablePred p] (f : ρ → ρ) :
    Tx σ ε Unit := do
  let count ← update p f
  require (count = 1) error

/-- `INSERT`, returning the new row's key. -/
def insert (row : Nat → ρ) : Tx σ ε Nat := do
  let id ← query fun store => (table (ρ := ρ) store).next
  write fun store => ((table (ρ := ρ) store).insert? row).map (setTable · store)
  pure id

/-- `DELETE … WHERE p`. -/
def delete (p : ρ → Prop) [DecidablePred p] : Tx σ ε Unit :=
  write fun store => some (setTable ((table (ρ := ρ) store).delete p) store)

/-- `DELETE … WHERE p`, returning the number of rows it matched; the key of a deleted last
row is assigned again. -/
def vacate (p : ρ → Prop) [DecidablePred p] : Tx σ ε Nat := do
  let count ← query fun store => (table (ρ := ρ) store).rows.countP p
  write fun store => some (setTable ((table (ρ := ρ) store).vacate p) store)
  pure count

end Statements

/-- Run a body in a transaction of its own: commit, or roll back. -/
def run (x : Tx σ ε α) (store : Consistent σ) : Except (Abort ε) α × Consistent σ :=
  match x store with
  | .ok (value, store') => (.ok value, store')
  | .error abort => (.error abort, store)

/-- The body returns `value` and leaves `store'` to be committed. -/
def Commits (x : Tx σ ε α) (store : Consistent σ) (value : α)
    (store' : Consistent σ) : Prop :=
  x store = .ok (value, store')

theorem run_of_commits {x : Tx σ ε α} {store store' : Consistent σ} {value : α}
    (h : x.Commits store value store') : x.run store = (.ok value, store') := by
  simp only [run, show x store = _ from h]

theorem run_cases (x : Tx σ ε α) (store : Consistent σ) :
    (∃ value store', x.Commits store value store' ∧ x.run store = (.ok value, store')) ∨
      (∃ abort, x.run store = (.error abort, store)) := by
  cases hx : x store with
  | ok result =>
    exact Or.inl ⟨result.1, result.2, hx, run_of_commits hx⟩
  | error abort =>
    exact Or.inr ⟨abort, by simp only [run, hx]⟩

section Inversion

variable {store store' : Consistent σ}

@[simp] theorem commits_pure {value value' : α} :
    (pure value : Tx σ ε α).Commits store value' store' ↔
      value' = value ∧ store' = store := by
  change Except.ok (value, store) = Except.ok (value', store') ↔ _
  simp only [Except.ok.injEq, Prod.mk.injEq, eq_comm]

@[simp] theorem commits_bind {x : Tx σ ε α} {f : α → Tx σ ε β} {value : β} :
    (x >>= f).Commits store value store' ↔
      ∃ mid middle, x.Commits store mid middle ∧ (f mid).Commits middle value store' := by
  change (match x store with
    | .ok (mid, middle) => f mid middle
    | .error abort => .error abort) = Except.ok (value, store') ↔ _
  constructor
  · intro h
    cases hx : x store with
    | ok result =>
      rw [hx] at h
      exact ⟨result.1, result.2, hx, h⟩
    | error abort =>
      rw [hx] at h
      cases h
  · rintro ⟨mid, middle, hx, hf⟩
    rw [show x store = .ok (mid, middle) from hx]
    exact hf

variable {error : ε} {value : α}

@[simp] theorem commits_raise :
    (raise error : Tx σ ε α).Commits store value store' ↔ False :=
  iff_of_false (fun h => nomatch (show Except.error _ = Except.ok _ from h)) id

@[simp] theorem commits_query {f : σ → α} :
    (query f : Tx σ ε α).Commits store value store' ↔
      value = f store.1 ∧ store' = store := by
  change Except.ok (f store.1, store) = Except.ok (value, store') ↔ _
  simp only [Except.ok.injEq, Prod.mk.injEq, eq_comm]

@[simp] theorem commits_ite {condition : Prop} [Decidable condition] {x y : Tx σ ε α} :
    (if condition then x else y).Commits store value store' ↔
      (condition ∧ x.Commits store value store') ∨
        (¬ condition ∧ y.Commits store value store') := by
  split <;> simp [*]

@[simp] theorem commits_require {condition : Prop} [Decidable condition] {value : Unit} :
    (require condition error : Tx σ ε Unit).Commits store value store' ↔
      condition ∧ store' = store := by
  simp [require]

@[simp] theorem commits_ofExcept {outcome : Except ε α} :
    (ofExcept outcome : Tx σ ε α).Commits store value store' ↔
      outcome = .ok value ∧ store' = store := by
  cases outcome <;> simp [ofExcept, eq_comm]

theorem elim_eq_ok {row : Option α} :
    row.elim (.error error) .ok = (.ok value : Except ε α) ↔ row = some value := by
  cases row <;> simp

theorem commits_found {row : Option α} :
    (ofExcept (row.elim (.error error) .ok) : Tx σ ε α).Commits store value store' ↔
      row = some value ∧ store' = store := by
  rw [commits_ofExcept, elim_eq_ok]

@[simp] theorem commits_write {statement : σ → Option σ} {value : Unit} :
    (write statement : Tx σ ε Unit).Commits store value store' ↔
      statement store.1 = some store'.1 := by
  change (match statement store.1 with
    | none => Except.error Abort.integrity
    | some next =>
      if hnext : Schema.References next then Except.ok ((), ⟨next, hnext⟩)
      else Except.error Abort.integrity) = Except.ok (value, store') ↔ _
  cases hstatement : statement store.1 with
  | none => simp
  | some next =>
    simp only [Option.some.injEq]
    split
    · constructor
      · intro h
        cases h
        rfl
      · rintro rfl
        rfl
    · rename_i hnext
      simp only [reduceCtorEq, false_iff]
      rintro rfl
      exact hnext store'.2

section Statements

variable {ρ : Type} [Record ρ] [HasTable σ ρ] {p : ρ → Prop} [DecidablePred p]
  {f : ρ → ρ} {error : ε}

/-- One statement on the `ρ` table took `store` to `store'`. -/
def Updates (p : ρ → Prop) [DecidablePred p] (f : ρ → ρ)
    (store store' : Consistent σ) : Prop :=
  ∃ t', (table (ρ := ρ) store.1).update? p f = some t' ∧
    store'.1 = setTable t' store.1

def Inserts (row : Nat → ρ) (store store' : Consistent σ) : Prop :=
  ∃ t', (table (ρ := ρ) store.1).insert? row = some t' ∧
    store'.1 = setTable t' store.1

theorem Updates.rows (h : Updates p f store store') :
    (table (ρ := ρ) store'.1).rows = (table (ρ := ρ) store.1).rows.map (Table.amend p f) := by
  obtain ⟨t', ht', hstore⟩ := h
  rw [hstore, table_setTable]
  exact (Table.update?_rows ht').1

theorem Updates.find (h : Updates p f store store')
    (hkey : ∀ row : ρ, key (f row) = key row) (id : Nat) :
    (table (ρ := ρ) store'.1).find id =
      ((table (ρ := ρ) store.1).find id).map (Table.amend p f) := by
  obtain ⟨t', ht', hstore⟩ := h
  rw [hstore, table_setTable]
  exact Table.find_update ht' hkey id

variable {row : Nat → ρ}

section

variable (h : Inserts row store store')

include h

theorem Inserts.rows :
    (table (ρ := ρ) store'.1).rows =
      (table (ρ := ρ) store.1).rows ++ [row (table (ρ := ρ) store.1).next] := by
  obtain ⟨t', ht', hstore⟩ := h
  rw [hstore, table_setTable]
  exact (Table.insert?_rows ht').1

theorem Inserts.next :
    (table (ρ := ρ) store'.1).next = (table (ρ := ρ) store.1).next + 1 := by
  obtain ⟨t', ht', hstore⟩ := h
  rw [hstore, table_setTable]
  exact (Table.insert?_rows ht').2

theorem Inserts.find (hkey : ∀ id, key (row id) = id) (id : Nat) :
    (table (ρ := ρ) store'.1).find id =
      if id = (table (ρ := ρ) store.1).next then
        some (row (table (ρ := ρ) store.1).next)
      else (table (ρ := ρ) store.1).find id := by
  obtain ⟨t', ht', hstore⟩ := h
  rw [hstore, table_setTable]
  exact Table.find_insert ht' (hkey _) id

end

theorem commits_update {count : Nat} :
    (update p f : Tx σ ε Nat).Commits store count store' ↔
      count = (table (ρ := ρ) store.1).rows.countP p ∧ Updates p f store store' := by
  simp only [update, commits_bind, commits_query, commits_write, commits_pure,
    Option.map_eq_some_iff, Updates]
  constructor
  · rintro ⟨_, _, ⟨rfl, rfl⟩, _, _, ⟨t', ht', hstore⟩, rfl, rfl⟩
    exact ⟨rfl, t', ht', hstore.symm⟩
  · rintro ⟨rfl, t', ht', hstore⟩
    exact ⟨_, _, ⟨rfl, rfl⟩, (), _, ⟨t', ht', hstore.symm⟩, rfl, rfl⟩

theorem commits_updateOne {value : Unit} :
    (updateOne error p f : Tx σ ε Unit).Commits store value store' ↔
      (table (ρ := ρ) store.1).rows.countP p = 1 ∧ Updates p f store store' := by
  simp only [updateOne, commits_bind, commits_update, commits_require]
  constructor
  · rintro ⟨_, _, ⟨rfl, hupdates⟩, hcount, rfl⟩
    exact ⟨hcount, hupdates⟩
  · rintro ⟨hcount, hupdates⟩
    exact ⟨_, _, ⟨rfl, hupdates⟩, hcount, rfl⟩

theorem commits_insert {id : Nat} :
    (insert row : Tx σ ε Nat).Commits store id store' ↔
      id = (table (ρ := ρ) store.1).next ∧ Inserts row store store' := by
  simp only [insert, commits_bind, commits_query, commits_write, commits_pure,
    Option.map_eq_some_iff, Inserts]
  constructor
  · rintro ⟨_, _, ⟨rfl, rfl⟩, _, _, ⟨t', ht', hstore⟩, rfl, rfl⟩
    exact ⟨rfl, t', ht', hstore.symm⟩
  · rintro ⟨rfl, t', ht', hstore⟩
    exact ⟨_, _, ⟨rfl, rfl⟩, (), _, ⟨t', ht', hstore.symm⟩, rfl, rfl⟩

theorem commits_delete {value : Unit} :
    (delete p : Tx σ ε Unit).Commits store value store' ↔
      store'.1 = setTable ((table (ρ := ρ) store.1).delete p) store.1 := by
  rw [delete, commits_write, Option.some.injEq, eq_comm]

theorem commits_vacate {count : Nat} :
    (vacate p : Tx σ ε Nat).Commits store count store' ↔
      count = (table (ρ := ρ) store.1).rows.countP p ∧
        store'.1 = setTable ((table (ρ := ρ) store.1).vacate p) store.1 := by
  simp only [vacate, commits_bind, commits_query, commits_write, commits_pure,
    Option.some.injEq]
  constructor
  · rintro ⟨_, _, ⟨rfl, rfl⟩, _, _, hstore, rfl, rfl⟩
    exact ⟨rfl, hstore.symm⟩
  · rintro ⟨rfl, hstore⟩
    exact ⟨_, _, ⟨rfl, rfl⟩, (), _, hstore.symm, rfl, rfl⟩

end Statements

end Inversion

/-! ### Progress rules -/

section Progress

variable {ρ : Type} [Record ρ] [HasTable σ ρ] {store : Consistent σ}

theorem exists_updates {p : ρ → Prop} [DecidablePred p] {f : ρ → ρ} {row : ρ}
    (hrow : row ∈ (table (ρ := ρ) store.1).rows) (hp : p row)
    (hpin : ∀ other, p other → key other = key row) (hkey : key (f row) = key row)
    (hcheck : Check (f row))
    (hclash : ∀ other ∈ (table (ρ := ρ) store.1).rows,
      (Clash other (f row) → Clash other row) ∧ (Clash (f row) other → Clash row other))
    (hrefs : ∀ t', (table (ρ := ρ) store.1).update? p f = some t' →
      Schema.References (setTable t' store.1)) :
    ∃ store', (table (ρ := ρ) store.1).rows.countP p = 1 ∧ Updates p f store store' := by
  have honly : ∀ other ∈ (table (ρ := ρ) store.1).rows, p other → other = row :=
    fun other hother hpo => Table.eq_of_key_eq hother hrow (hpin other hpo)
  obtain ⟨t', ht'⟩ := Table.update?_isSome honly hkey hcheck hclash
  have hcount := Table.countP_eq_one hrow hp fun other _ hpo => hpin other hpo
  exact ⟨⟨setTable t' store.1, hrefs t' ht'⟩, hcount, t', ht', rfl⟩

theorem exists_inserts {row : Nat → ρ}
    (hkey : ∀ id, key (row id) = id) (hcheck : ∀ id, Check (row id))
    (hclash : ∀ other ∈ (table (ρ := ρ) store.1).rows, ∀ id, ¬ Clash other (row id))
    (hrefs : ∀ t', (table (ρ := ρ) store.1).insert? row = some t' →
      Schema.References (setTable t' store.1)) :
    ∃ store', Inserts row store store' := by
  obtain ⟨t', ht'⟩ := Table.insert?_isSome (hkey _) (hcheck _)
    fun other hother => hclash other hother _
  exact ⟨⟨setTable t' store.1, hrefs t' ht'⟩, t', ht', rfl⟩

end Progress

/-! ### Frame rules -/

/-- Every commit of the body is an `R` step of the store. -/
def Preserves (R : σ → σ → Prop) (x : Tx σ ε α) : Prop :=
  ∀ store value store', x.Commits store value store' → R store.1 store'.1

variable {R : σ → σ → Prop}

theorem Preserves.pure [Std.Refl R] (value : α) :
    Preserves R (pure value : Tx σ ε α) := by
  intro store value' store' h
  rw [(commits_pure.mp h).2]
  exact Std.Refl.refl _

theorem Preserves.raise (error : ε) : Preserves R (raise error : Tx σ ε α) :=
  fun _ _ _ h => (commits_raise.mp h).elim

variable {condition : Prop}

theorem Preserves.ite [Decidable condition] {x y : Tx σ ε α} (hx : Preserves R x)
    (hy : Preserves R y) :
    Preserves R (if condition then x else y) := by
  split
  · exact hx
  · exact hy

variable {f : α → Tx σ ε β}

theorem Preserves.bind [IsTrans σ R] {x : Tx σ ε α} (hx : Preserves R x)
    (hf : ∀ value, Preserves R (f value)) :
    Preserves R (x >>= f) := by
  intro store value store' h
  obtain ⟨mid, middle, hmid, hrest⟩ := commits_bind.mp h
  exact IsTrans.trans _ _ _ (hx _ _ _ hmid) (hf mid _ _ _ hrest)

theorem Preserves.query_bind {g : σ → α} (hf : ∀ value, Preserves R (f value)) :
    Preserves R (query g >>= f) := by
  intro store value store' h
  simp only [commits_bind, commits_query] at h
  obtain ⟨mid, middle, ⟨-, rfl⟩, hrest⟩ := h
  exact hf mid _ _ _ hrest

variable {error : ε}

theorem Preserves.require_bind [Decidable condition] {f : Unit → Tx σ ε β}
    (hf : condition → Preserves R (f ())) :
    Preserves R (require condition error >>= f) := by
  intro store value store' h
  simp only [commits_bind, commits_require] at h
  obtain ⟨_, middle, ⟨hcondition, rfl⟩, hrest⟩ := h
  exact hf hcondition _ _ _ hrest

theorem Preserves.ofExcept_bind {outcome : Except ε α} (hf : ∀ value, Preserves R (f value)) :
    Preserves R (ofExcept outcome >>= f) := by
  intro store value store' h
  simp only [commits_bind, commits_ofExcept] at h
  obtain ⟨mid, middle, ⟨-, rfl⟩, hrest⟩ := h
  exact hf mid _ _ _ hrest

theorem Preserves.require [Std.Refl R] [Decidable condition] :
    Preserves R (require condition error : Tx σ ε Unit) := by
  intro store value store' h
  rw [(commits_require.mp h).2]
  exact Std.Refl.refl _

theorem Preserves.ofExcept [Std.Refl R] {outcome : Except ε α} :
    Preserves R (ofExcept outcome : Tx σ ε α) := by
  intro store value store' h
  rw [(commits_ofExcept.mp h).2]
  exact Std.Refl.refl _

theorem Preserves.write {statement : σ → Option σ}
    (hstatement : ∀ store store', statement store = some store' → R store store') :
    Preserves R (write statement : Tx σ ε Unit) :=
  fun _ _ _ h => hstatement _ _ (commits_write.mp h)

variable {ρ : Type} [Record ρ] [HasTable σ ρ] {p : ρ → Prop} [DecidablePred p] {f : ρ → ρ}

section

variable
    (hstep : ∀ store t', (table (ρ := ρ) store).update? p f = some t' → R store (setTable t' store))

include hstep

theorem Preserves.update :
    Preserves R (update p f : Tx σ ε Nat) := by
  intro store value store' h
  obtain ⟨-, t', ht', hstore⟩ := commits_update.mp h
  rw [hstore]
  exact hstep _ _ ht'

theorem Preserves.updateOne :
    Preserves R (updateOne error p f : Tx σ ε Unit) := by
  intro store value store' h
  obtain ⟨-, t', ht', hstore⟩ := commits_updateOne.mp h
  rw [hstore]
  exact hstep _ _ ht'

end

theorem Preserves.insert {row : Nat → ρ}
    (hstep : ∀ store t', (table (ρ := ρ) store).insert? row = some t' →
      R store (setTable t' store)) :
    Preserves R (insert row : Tx σ ε Nat) := by
  intro store value store' h
  obtain ⟨-, t', ht', hstore⟩ := commits_insert.mp h
  rw [hstore]
  exact hstep _ _ ht'

end Tx

end Relational
