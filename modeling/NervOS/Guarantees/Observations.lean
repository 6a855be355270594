/-
What a model is shown of a tool result: the result, or as much of it as the Run's byte limit
leaves room for, with a note of what is missing.  A bounded observation keeps its limit,
discloses what it leaves out, and is bounded already.
-/
import NervOS.Domain.StateCodec
import NervOS.Package.Archive
import NervOS.Text.Codes

namespace NervOS

namespace Observations

open Python StateCodec PackageFormat Text

def structuredOmittedNote : String :=
  "\n[NervOS: structured result omitted to fit this run's result limit.]"

def textTruncatedNote : String :=
  "\n[NervOS: tool result truncated to fit this run's result limit.]"

/-- A result payload after applying the Run's byte limit.  A result without structure holds
`None`, as one with a JSON null does. -/
structure Observation where
  text : Python.Text
  structured : Value Python.Text
  isError : Bool
  truncated : Bool

/-- `structured is not None` -/
def isPresent : Value Python.Text → Bool
  | .scalar .none => false
  | .scalar _ | .sequence _ _ | .mapping _ _ => true

/-- `len(value.encode("utf-8"))`, or nothing where the encoding raises. -/
def encodedBytes (value : Python.Text) : Option Nat :=
  (encode? value).map fun source => (utf8 source).length

/-- `_observation_bytes` -/
def observationBytes (text : Python.Text) (structured : Value Python.Text) : Option Nat := do
  let size ← encodedBytes text
  if isPresent structured then
    let json ← json? structured
    some (size + 1 + (utf8 (Json.canonicalText json)).length)
  else some size

/-- `_utf8_head`: the bytes are cut, and what is left of a character is ignored. -/
def utf8Head (source : String) (budget : Nat) : Python.Text :=
  (decodeIgnoring ((utf8 source).take budget)).map Sum.inl

/-- `bounded_observation`, or nothing where a size cannot be measured. -/
def boundedObservation (text : Python.Text) (structured : Value Python.Text) (isError : Bool)
    (maxBytes : Nat) : Option Observation := do
  let size ← observationBytes text structured
  if size ≤ maxBytes then some ⟨text, structured, isError, false⟩
  else
    let source ← encode? text
    let omitted := text ++ Python.text structuredOmittedNote
    let omittedSize ← observationBytes omitted (.scalar .none)
    if isPresent structured ∧ omittedSize ≤ maxBytes then
      some ⟨omitted, .scalar .none, isError, true⟩
    else
      let budget := maxBytes - (utf8 textTruncatedNote).length
      some ⟨utf8Head source budget ++ Python.text textTruncatedNote, .scalar .none, isError, true⟩

section Bytes

variable (source : String)

theorem utf8_eq :
    utf8 source = source.toList.flatMap String.utf8EncodeChar := by
  rw [← utf8_ofList, String.ofList_toList]

theorem utf8_append (left right : String) : utf8 (left ++ right) = utf8 left ++ utf8 right := by
  rw [utf8_eq, utf8_eq, utf8_eq, String.toList_append, List.flatMap_append]

theorem text_append (left right : String) :
    Python.text (left ++ right) = Python.text left ++ Python.text right := by
  rw [Python.text, String.toList_append, List.map_append]
  rfl

theorem encodedBytes_text :
    encodedBytes (Python.text source) = some (utf8 source).length := by
  rw [encodedBytes, encode?_text, Option.map_some]

theorem observationBytes_text :
    observationBytes (Python.text source) (.scalar .none) = some (utf8 source).length := by
  rw [observationBytes, encodedBytes_text]
  rfl

theorem utf8Head_spec (budget : Nat) :
    ∃ kept : String, utf8Head source budget = Python.text kept ∧
      Python.text kept <+: Python.text source ∧ (utf8 kept).length ≤ budget := by
  obtain ⟨kept, hprefix, hdecode, hlength⟩ := decodeIgnoring_take source.toList budget
  refine ⟨String.ofList kept, ?_, ?_, ?_⟩
  · rw [utf8Head, utf8_eq, hdecode, Python.text, String.toList_ofList]
  · rw [Python.text, Python.text, String.toList_ofList]
    exact hprefix.map Sum.inl
  · rw [utf8_ofList]
    exact hlength

end Bytes

variable {text : Python.Text} {structured : Value Python.Text} {isError : Bool} {maxBytes : Nat}
  {observation : Observation}

/-- The smallest limit that a Run can have. -/
def minResultMaxBytes : Nat := 1024

theorem truncatedNote_fits : (utf8 textTruncatedNote).length ≤ minResultMaxBytes := by
  decide +kernel

/-- What an observation owes to the result that it shows. -/
structure Bounds (text : Python.Text) (structured : Value Python.Text) (isError : Bool)
    (maxBytes : Nat) (observation : Observation) : Prop where
  withinLimit : ∃ size, observationBytes observation.text observation.structured = some size ∧
    size ≤ maxBytes
  identical : ∀ size, observationBytes text structured = some size → size ≤ maxBytes →
    observation = ⟨text, structured, isError, false⟩
  disclosed : ∀ size, observationBytes text structured = some size → maxBytes < size →
    observation.truncated = true ∧ observation.structured = .scalar .none ∧
      observation.isError = isError ∧
      ∃ head note, note ∈ [structuredOmittedNote, textTruncatedNote] ∧
        observation.text = head ++ Python.text note ∧ head <+: text

variable {size : Nat}

theorem boundedObservation_of_fits (hsize : observationBytes text structured = some size)
    (hfits : size ≤ maxBytes) :
    boundedObservation text structured isError maxBytes =
      some ⟨text, structured, isError, false⟩ := by
  rw [boundedObservation, hsize, Option.bind_eq_bind, Option.bind_some, if_pos hfits]

theorem exists_source_of_bytes (hsize : observationBytes text structured = some size) :
    ∃ source, text = Python.text source := by
  rw [observationBytes, Option.bind_eq_bind, Option.bind_eq_some_iff] at hsize
  obtain ⟨bytes, hbytes, -⟩ := hsize
  obtain ⟨source, hsource, -⟩ := Option.map_eq_some_iff.mp hbytes
  exact ⟨source, encode?_eq_some.mp hsource⟩

theorem boundedObservation_of_exceeds {source : String}
    (hsize : observationBytes (Python.text source) structured = some size)
    (hexceeds : ¬ size ≤ maxBytes) :
    boundedObservation (Python.text source) structured isError maxBytes =
      if isPresent structured ∧ (utf8 (source ++ structuredOmittedNote)).length ≤ maxBytes then
        some ⟨Python.text (source ++ structuredOmittedNote), .scalar .none, isError, true⟩
      else
        some ⟨utf8Head source (maxBytes - (utf8 textTruncatedNote).length) ++
          Python.text textTruncatedNote, .scalar .none, isError, true⟩ := by
  rw [boundedObservation, hsize, Option.bind_eq_bind, Option.bind_some, if_neg hexceeds,
    encode?_text, Option.bind_eq_bind, Option.bind_some, ← text_append]
  dsimp only
  rw [observationBytes_text, Option.bind_some]

theorem boundedObservation_isSome :
    (boundedObservation text structured isError maxBytes).isSome ↔
      (observationBytes text structured).isSome := by
  cases hsize : observationBytes text structured with
  | none =>
    rw [boundedObservation, hsize]
    rfl
  | some size =>
    obtain ⟨source, rfl⟩ := exists_source_of_bytes hsize
    by_cases hfits : size ≤ maxBytes
    · rw [boundedObservation_of_fits hsize hfits]
      rfl
    · rw [boundedObservation_of_exceeds hsize hfits]
      split_ifs <;> rfl

theorem boundedObservation_bounds (hmax : minResultMaxBytes ≤ maxBytes)
    (h : boundedObservation text structured isError maxBytes = some observation) :
    Bounds text structured isError maxBytes observation := by
  have hsome := boundedObservation_isSome.mp (Option.isSome_iff_exists.mpr ⟨_, h⟩)
  obtain ⟨size, hsize⟩ := Option.isSome_iff_exists.mp hsome
  obtain ⟨source, rfl⟩ := exists_source_of_bytes hsize
  by_cases hfits : size ≤ maxBytes
  · rw [boundedObservation_of_fits hsize hfits] at h
    cases h
    refine ⟨⟨size, hsize, hfits⟩, fun _ _ _ => rfl, ?_⟩
    intro other hother hexceeds
    cases hsize.symm.trans hother
    omega
  · rw [boundedObservation_of_exceeds hsize hfits] at h
    have hidentical : ∀ other, observationBytes (Python.text source) structured = some other →
        other ≤ maxBytes → observation = ⟨Python.text source, structured, isError, false⟩ := by
      intro other hother hother'
      cases hsize.symm.trans hother
      exact absurd hother' hfits
    split_ifs at h with homitted
    · cases h
      refine ⟨⟨_, observationBytes_text _, homitted.2⟩, hidentical, ?_⟩
      intro _ _ _
      refine ⟨rfl, rfl, rfl, Python.text source, structuredOmittedNote, List.mem_cons_self, ?_,
        List.prefix_rfl⟩
      exact text_append source structuredOmittedNote
    · cases h
      obtain ⟨kept, hkept, hprefix, hlength⟩ :=
        utf8Head_spec source (maxBytes - (utf8 textTruncatedNote).length)
      have hnote := truncatedNote_fits
      refine ⟨⟨(utf8 (kept ++ textTruncatedNote)).length, ?_, ?_⟩, hidentical, ?_⟩
      · rw [hkept, ← text_append]
        exact observationBytes_text _
      · rw [utf8_append, List.length_append]
        omega
      · intro _ _ _
        refine ⟨rfl, rfl, rfl, _, textTruncatedNote, by simp, rfl, ?_⟩
        rw [hkept]
        exact hprefix

/-- Within any limit of a Run an observation is bounded, discloses what is missing, and is
its own observation; one comes out whenever the result can be encoded. -/
theorem bounded_observation_contract (hmax : minResultMaxBytes ≤ maxBytes) :
    ((boundedObservation text structured isError maxBytes).isSome ↔
      (encode? text).isSome ∧ (isPresent structured = true → (json? structured).isSome)) ∧
    ∀ observation, boundedObservation text structured isError maxBytes = some observation →
      Bounds text structured isError maxBytes observation ∧
        boundedObservation observation.text observation.structured observation.isError maxBytes =
          some { observation with truncated := false } := by
  constructor
  · rw [boundedObservation_isSome, observationBytes, encodedBytes]
    cases encode? text with
    | none => simp
    | some source =>
      by_cases hpresent : isPresent structured = true
      · cases json? structured <;> simp [hpresent]
      · simp [hpresent]
  · intro observation h
    have hbounds := boundedObservation_bounds hmax h
    obtain ⟨size, hsize, hfits⟩ := hbounds.withinLimit
    exact ⟨hbounds, boundedObservation_of_fits hsize hfits⟩

/-- The smallest limit, and a text that needs all of it. -/
theorem bounded_observation_contract_small :
    ((boundedObservation (Python.text "ok") (.scalar .none) false 1024).isSome ↔
      (encode? (Python.text "ok")).isSome ∧
        (isPresent (.scalar .none) = true → (json? (.scalar .none)).isSome)) ∧
    ∀ observation, boundedObservation (Python.text "ok") (.scalar .none) false 1024 =
        some observation →
      Bounds (Python.text "ok") (.scalar .none) false 1024 observation ∧
        boundedObservation observation.text observation.structured observation.isError 1024 =
          some { observation with truncated := false } :=
  bounded_observation_contract (Nat.le_refl 1024)

end Observations

end NervOS
