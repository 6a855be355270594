/-
A pass over a list of items, each in a transaction of its own: the outcomes so far, in
the order of the items, and why the pass ended when it did not reach the last one.
-/
import Mathlib.Data.List.Forall2
import Mathlib.Data.List.Induction

namespace Relational

/-- What became of one item: an outcome, a failure of the store, or an exception. -/
inductive ItemVerdict (ω ε : Type) where
  | settled (outcome : ω)
  | stopped
  | raised (error : ε)

inductive Ending (ε : Type) where
  | running
  | stopped
  | raised (error : ε)
deriving DecidableEq

structure Sweep (κ ω ε : Type) where
  items : List κ
  outcomes : List ω := []
  ending : Ending ε := .running

namespace Sweep

variable {κ ω ε : Type} {sweep : Sweep κ ω ε} {item : κ} {R S : κ → ω → Prop}

def next (sweep : Sweep κ ω ε) : Option κ :=
  match sweep.ending with
  | .running => sweep.items[sweep.outcomes.length]?
  | .stopped | .raised _ => none

def record (verdict : ItemVerdict ω ε) (sweep : Sweep κ ω ε) : Sweep κ ω ε :=
  match verdict with
  | .settled outcome => { sweep with outcomes := sweep.outcomes ++ [outcome] }
  | .stopped => { sweep with ending := .stopped }
  | .raised error => { sweep with ending := .raised error }

/-- The items that the pass has taken up, the one that ended it included. -/
def examined (sweep : Sweep κ ω ε) : Nat :=
  match sweep.ending with
  | .running => sweep.outcomes.length
  | .stopped | .raised _ => sweep.outcomes.length + 1

def takeUp (verdict : κ → ItemVerdict ω ε) (sweep : Sweep κ ω ε) (item : κ) : Sweep κ ω ε :=
  match sweep.ending with
  | .running => sweep.record (verdict item)
  | .stopped | .raised _ => sweep

def through (verdict : κ → ItemVerdict ω ε) (items : List κ) : Sweep κ ω ε :=
  items.foldl (takeUp verdict) ⟨items, [], .running⟩

/-- An exception ended the pass. -/
def Aborted (sweep : Sweep κ ω ε) : Prop :=
  ∃ error, sweep.ending = .raised error

def Answers (R : κ → ω → Prop) (sweep : Sweep κ ω ε) : Prop :=
  List.Forall₂ R (sweep.items.take sweep.outcomes.length) sweep.outcomes

@[simp] theorem items_record (verdict : ItemVerdict ω ε) :
    (sweep.record verdict).items = sweep.items := by
  cases verdict <;> rfl

theorem next_eq_some :
    sweep.next = some item ↔
      sweep.ending = .running ∧ sweep.items[sweep.outcomes.length]? = some item := by
  unfold next
  cases sweep.ending <;> simp

theorem next_mem (h : sweep.next = some item) : item ∈ sweep.items :=
  List.mem_of_getElem? (next_eq_some.mp h).2

variable {verdict : ItemVerdict ω ε}

theorem aborted_record (h : sweep.next = some item) :
    (sweep.record verdict).Aborted ↔ ∃ error, verdict = .raised error := by
  have hrunning := (next_eq_some.mp h).1
  cases verdict with
  | settled outcome => simp [record, Aborted, hrunning]
  | stopped | raised => simp [record, Aborted]

theorem answers_nil (items : List κ) : Answers R (⟨items, [], .running⟩ : Sweep κ ω ε) := by
  simp [Answers]

theorem Answers.imp (himp : ∀ item outcome, R item outcome → S item outcome)
    (h : sweep.Answers R) : sweep.Answers S :=
  List.Forall₂.imp himp h

theorem Answers.record (h : sweep.Answers R) (hnext : sweep.next = some item)
    (hverdict : ∀ outcome, verdict = .settled outcome → R item outcome) :
    (sweep.record verdict).Answers R := by
  cases verdict with
  | stopped | raised => exact h
  | settled outcome =>
    have hitem := (next_eq_some.mp hnext).2
    have htake : sweep.items.take (sweep.outcomes.length + 1) =
        sweep.items.take sweep.outcomes.length ++ [item] := by
      rw [List.take_add_one, hitem]
      rfl
    rw [Answers, Sweep.record, List.length_append, List.length_singleton, htake]
    apply List.rel_append
    · exact h
    · exact List.Forall₂.cons (hverdict outcome rfl) .nil

theorem Answers.complete (h : sweep.Answers R) (hrunning : sweep.ending = .running)
    (hnext : sweep.next = none) : List.Forall₂ R sweep.items sweep.outcomes := by
  have hnone : sweep.items[sweep.outcomes.length]? = none := by
    unfold next at hnext
    rwa [hrunning] at hnext
  have hlength := List.getElem?_eq_none_iff.mp hnone
  rwa [Answers, List.take_of_length_le hlength] at h

theorem foldl_takeUp (verdict : κ → ItemVerdict ω ε) (items front : List κ) :
    (front.foldl (takeUp verdict) ⟨items, [], .running⟩).items = items ∧
      ((front.foldl (takeUp verdict) ⟨items, [], .running⟩).ending = .running →
        (front.foldl (takeUp verdict) ⟨items, [], .running⟩).outcomes.length =
          front.length) := by
  induction front using List.reverseRecOn with
  | nil => exact ⟨rfl, fun _ => rfl⟩
  | append_singleton front item ih =>
    rw [List.foldl_append, List.foldl_cons, List.foldl_nil]
    generalize front.foldl (takeUp verdict) ⟨items, [], .running⟩ = sweep at ih
    obtain ⟨hitems, houtcomes⟩ := ih
    rw [takeUp]
    cases hending : sweep.ending with
    | stopped | raised => exact ⟨hitems, fun hrunning => by simp [hending] at hrunning⟩
    | running =>
      refine ⟨(items_record _).trans hitems, fun hrunning => ?_⟩
      have hbefore := houtcomes hending
      cases hverdict : verdict item with
      | settled outcome => simp [record, hbefore]
      | stopped | raised => simp [record, hverdict] at hrunning

theorem items_through (verdict : κ → ItemVerdict ω ε) (items : List κ) :
    (through verdict items).items = items :=
  (foldl_takeUp verdict items items).1

theorem examined_through {verdict : κ → ItemVerdict ω ε} {items : List κ}
    (hrunning : (through verdict items).ending = .running) :
    (through verdict items).examined = items.length := by
  rw [examined, hrunning]
  exact (foldl_takeUp verdict items items).2 hrunning

end Sweep

end Relational
