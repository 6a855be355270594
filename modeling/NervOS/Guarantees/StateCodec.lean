/-
The codec of workflow states is exact where every key is a string that can be written: a
mapping key of another type is renamed to its text instead of being refused.
-/
import NervOS.Refinement.StateCodec

namespace NervOS

namespace StateCodec

open Python Python.Value

variable {κ : Type} {str? : κ → Option Text} {stack : Nat} {value : Value (Key κ)}

structure Exact (str? : κ → Option Text) (stack : Nat) (value state : Value Text) : Prop where
  immutable : state.OfKind .frozen
  thawed : thawState state = value.ofKind .plain
  depth : value.depth ≤ jsonMaxDepth
  nodes : value.nodes ≤ jsonMaxNodes
  idempotent : freezeState str? stack state.keyed = .ok state
  digest : ∃ json, json? value = some json ∧
    utf8Length (Json.canonicalText json) ≤ checkpointMaxBytes ∧
      stateDigest state = some (.text (Json.canonicalText json))

def FreezesExactly (str? : κ → Option Text) (stack : Nat) (value : Value (Key κ)) : Prop :=
  (∃ message, freezeState str? stack value = .error (.invalidWorkflow message)) ∨
    ∃ state copied, freezeState str? stack value = .ok state ∧ value = copied.keyed ∧
      Exact str? stack copied state

/-- Every key is a string, the stack holds the value, and every integer and string of it can
be written. -/
def Encodable (stack : Nat) (value : Value (Key κ)) : Prop :=
  ∃ copied : Value Text, value = copied.keyed ∧ copied.depth ≤ stack ∧ Writable copied

def Refused (str? : κ → Option Text) (stack : Nat) (value : Value (Key κ)) : Prop :=
  ∃ plain, asPlainJson str? value stack = some plain ∧
    (¬ Bounded plain ∨ ∃ json, json? plain = some json ∧
      checkpointMaxBytes < utf8Length (Json.canonicalText json))

theorem Refused.freezes (h : Refused str? stack value) : FreezesExactly str? stack value := by
  obtain ⟨plain, hplain, hrefused⟩ := h
  apply Or.inl
  by_cases hbounded : Bounded plain
  · obtain ⟨json, hjson, hbytes⟩ := hrefused.resolve_left (not_not.mpr hbounded)
    rw [freezeState_of_bounded hplain hbounded, hjson]
    rw [Option.elim_some, if_pos hbytes]
    exact ⟨_, rfl⟩
  · exact freezeState_of_not_bounded hplain hbounded

theorem exact_of_bounded {copied : Value Text} (hdistinct : copied.Distinct)
    (hstack : copied.depth ≤ stack) (hbounded : Bounded (copied.ofKind .plain))
    {json : Json.Value} (hjson : json? copied = some json)
    (hbytes : utf8Length (Json.canonicalText json) ≤ checkpointMaxBytes) :
    Exact str? stack copied (copied.ofKind .frozen) := by
  have hfrozen : (copied.ofKind .frozen).OfKind .frozen := ofKind_isOfKind _ _
  have hagain : asPlainJson str? (copied.ofKind .frozen).keyed stack =
      some (copied.ofKind .plain) := by
    rw [asPlainJson_keyed (distinct_ofKind.mpr hdistinct), ofKind_ofKind, ofKind, depth_rebuilt,
      if_pos hstack]
  have hthawed : thawState (copied.ofKind .frozen) = copied.ofKind .plain := by
    rw [thawState_eq (distinct_ofKind.mpr hdistinct) hfrozen, ofKind_ofKind]
  refine ⟨hfrozen, hthawed, ?_, ?_, ?_, json, hjson, hbytes, ?_⟩
  · have hdepth := hbounded.depth
    rwa [ofKind, depth_rebuilt] at hdepth
  · have hnodes := hbounded.nodes
    rwa [ofKind, nodes_rebuilt] at hnodes
  · rw [freezeState_of_bounded hagain hbounded, json?_ofKind, hjson]
    rw [Option.elim_some, if_neg (not_lt.mpr hbytes),
      freeze_eq (distinct_ofKind.mpr hdistinct) (ofKind_isOfKind _ _), ofKind_ofKind]
  · rw [stateDigest, hthawed, json?_ofKind, hjson]
    rfl

/-- A mapping with distinct keys is refused or frozen exactly just where it is writable under
string keys, or is refused under the texts of its keys. -/
theorem freeze_state_exact (hdistinct : value.Distinct) :
    FreezesExactly str? stack value ↔ Encodable stack value ∨ Refused str? stack value := by
  constructor
  · rintro (⟨message, hinvalid⟩ | ⟨state, copied, hstate, rfl, hexact⟩)
    · apply Or.inr
      cases hplain : asPlainJson str? value stack with
      | none =>
        simp only [freezeState, requireStateObject, requireStateJson, hplain] at hinvalid
        cases hinvalid
      | some plain =>
        refine ⟨plain, hplain, ?_⟩
        by_cases hbounded : Bounded plain
        · apply Or.inr
          rw [freezeState_of_bounded hplain hbounded] at hinvalid
          cases hjson : json? plain with
          | none =>
            rw [hjson] at hinvalid
            cases hinvalid
          | some json =>
            rw [hjson, Option.elim_some] at hinvalid
            by_cases hbytes : checkpointMaxBytes < utf8Length (Json.canonicalText json)
            · exact ⟨json, rfl, hbytes⟩
            · rw [if_neg hbytes] at hinvalid
              cases hinvalid
        · exact Or.inl hbounded
    · apply Or.inl
      obtain ⟨json, hjson, -⟩ := hexact.digest
      refine ⟨copied, rfl, ?_, json?_isSome.mp (hjson ▸ rfl)⟩
      by_contra hstack
      have hraised : asPlainJson str? copied.keyed stack = none := by
        rw [asPlainJson_keyed (distinct_keyed.mp hdistinct), if_neg hstack]
      simp only [freezeState, requireStateObject, requireStateJson, hraised] at hstate
      cases hstate
  · rintro (⟨copied, rfl, hstack, hwritable⟩ | hrefused)
    · have hcopied := distinct_keyed.mp hdistinct
      have hplain : asPlainJson str? copied.keyed stack = some (copied.ofKind .plain) := by
        rw [asPlainJson_keyed hcopied, if_pos hstack]
      obtain ⟨json, hjson⟩ := Option.isSome_iff_exists.mp (json?_isSome.mpr hwritable)
      have hjsonPlain : json? (copied.ofKind .plain) = some json := by
        rw [json?_ofKind, hjson]
      by_cases hbounded : Bounded (copied.ofKind .plain)
      · by_cases hbytes : checkpointMaxBytes < utf8Length (Json.canonicalText json)
        · exact Refused.freezes ⟨_, hplain, Or.inr ⟨json, hjsonPlain, hbytes⟩⟩
        · apply Or.inr
          refine ⟨copied.ofKind .frozen, copied, ?_, rfl,
            exact_of_bounded hcopied hstack hbounded hjson (not_lt.mp hbytes)⟩
          rw [freezeState_of_bounded hplain hbounded, hjsonPlain]
          rw [Option.elim_some, if_neg hbytes,
            freeze_eq (distinct_ofKind.mpr hcopied) (ofKind_isOfKind _ _), ofKind_ofKind]
      · exact Refused.freezes ⟨_, hplain, Or.inl hbounded⟩
    · exact hrefused.freezes

def tupleState : Value (Key Nat) :=
  .mapping .plain [(.str (text "a"), .sequence .frozen [.scalar (.int 1)])]

theorem freeze_state_exact_tupleState :
    FreezesExactly (fun _ : Nat => none) 1000 tupleState ↔
      Encodable 1000 tupleState ∨ Refused (fun _ : Nat => none) 1000 tupleState :=
  freeze_state_exact (by simp [tupleState, Distinct])

def mergedState : Value (Key Nat) :=
  .mapping .plain [(.other 1, .scalar (.str (text "a"))),
    (.str (text "1"), .scalar (.str (text "b")))]

/-- The two keys become one, and one of their values is lost. -/
theorem freeze_state_merges :
    ¬ ∀ (κ : Type) (str? : κ → Option Text) (stack : Nat) (value : Value (Key κ)),
      value.Distinct → FreezesExactly str? stack value := by
  intro hexact
  have hfrozen : (freezeState (fun n : Nat => some (text (toString n))) 1000
      mergedState).toOption.isSome = true := by
    decide +kernel
  rcases hexact Nat (fun n => some (text (toString n))) 1000 mergedState
    (by simp [mergedState, Distinct]) with ⟨message, hinvalid⟩ | ⟨state, copied, -, hkeyed, -⟩
  · rw [hinvalid] at hfrozen
    cases hfrozen
  · cases copied with
    | scalar | sequence => simp [keyed, mergedState] at hkeyed
    | mapping kind members =>
      rw [keyed, rebuilt_mapping, mergedState, mapping.injEq] at hkeyed
      cases members with
      | nil | cons => simp at hkeyed

end StateCodec

end NervOS
