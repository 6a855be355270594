/-
The canonical text of a JSON value is its identity: equal texts are equal values, whatever the
order of the object keys, and so are equal digests of inputs, arguments and definitions.
-/
import NervOS.Database.McpConnections
import NervOS.Json.Objects
import NervOS.Refinement.StateCodec

namespace NervOS

namespace CanonicalJson

open Python Python.Value StateCodec

def IsJsonScalar : Scalar → Prop
  | .str value => (encode? value).isSome
  | .none | .bool _ | .int _ | .float _ => True
  | .nonFinite | .foreign => False

def InContract (value : Value Text) : Prop :=
  value.All IsJsonScalar (· = .plain) fun keys =>
    keys.Nodup ∧ ∀ key ∈ keys, (encode? key).isSome

def HasShortIntegers (value : Value Text) : Prop :=
  value.All (fun s => ∀ integer, s = .int integer → integer.natAbs < 10 ^ maxIntDigits)
    (fun _ => True) (fun _ => True)

/-- `canonical_json_text`; nothing where Python raises. -/
def canonicalJsonText (value : Value Text) : Option String :=
  (json? value).map Json.canonicalText

mutual

/-- Equality of JSON values: objects are equal when they have the same keys and every key has
equal values, in whatever order. -/
def Same : Value Text → Value Text → Prop
  | .scalar left, .scalar right => left = right
  | .sequence _ left, .sequence _ right => SameItems left right
  | .mapping _ left, .mapping _ right => left.length = right.length ∧ SameMembers left right
  | _, _ => False

def SameItems : List (Value Text) → List (Value Text) → Prop
  | [], [] => True
  | left :: lefts, right :: rights => Same left right ∧ SameItems lefts rights
  | _, _ => False

def SameMembers : List (Text × Value Text) → List (Text × Value Text) → Prop
  | [], _ => True
  | (key, value) :: rest, members =>
    (∃ other, (key, other) ∈ members ∧ Same value other) ∧ SameMembers rest members

end

section Text

theorem sameItems_iff {left right : List (Value Text)} :
    SameItems left right ↔ List.Forall₂ Same left right := by
  induction left generalizing right with
  | nil => cases right <;> simp [SameItems]
  | cons first rest ih =>
    cases right with
    | nil => simp [SameItems]
    | cons other others => rw [SameItems, ih, List.forall₂_cons]

theorem sameMembers_iff {left right : List (Text × Value Text)} :
    SameMembers left right ↔
      ∀ member ∈ left, ∃ other, (member.1, other) ∈ right ∧ Same member.2 other := by
  induction left with
  | nil => simp [SameMembers]
  | cons member rest ih => rw [SameMembers, ih, List.forall_mem_cons]

variable {value : Value Text}

theorem writable_iff (h : InContract value) :
    Writable value ↔ HasShortIntegers value := by
  induction value with
  | scalar s =>
    rw [InContract, all_scalar] at h
    rw [Writable, HasShortIntegers, all_scalar, all_scalar]
    cases s with
    | int value => simp [scalarJson?]
    | str value =>
      change (encode? value).isSome at h
      simpa [scalarJson?] using h
    | none | bool | float => simp [scalarJson?]
    | nonFinite | foreign => exact h.elim
  | sequence kind items ih =>
    rw [InContract, all_sequence] at h
    rw [Writable, HasShortIntegers, all_sequence, all_sequence]
    exact and_congr_right fun _ => forall₂_congr fun item hitem => ih item hitem (h.2 item hitem)
  | mapping kind members ih =>
    rw [InContract, all_mapping] at h
    rw [Writable, HasShortIntegers, all_mapping, all_mapping]
    refine and_congr_right fun _ => and_congr (iff_of_true h.2.1.2 trivial) ?_
    exact forall₂_congr fun member hmember => ih member hmember (h.2.2 member hmember)

theorem canonicalJsonText_isSome (h : InContract value) :
    (canonicalJsonText value).isSome ↔ HasShortIntegers value := by
  rw [canonicalJsonText, Option.isSome_map, json?_isSome, writable_iff h]

theorem jsonItems?_eq_some {items : List (Value Text)} {read : List Json.Value} :
    jsonItems? items = some read ↔
      List.Forall₂ (fun item json => json? item = some json) items read := by
  induction items generalizing read with
  | nil => cases read <;> simp [jsonItems?]
  | cons item rest ih =>
    rw [jsonItems?]
    cases read with
    | nil => simp [Option.bind_eq_some_iff]
    | cons json others =>
      simp only [Option.bind_eq_bind, Option.bind_eq_some_iff, Option.pure_def,
        Option.some.injEq, List.cons.injEq, List.forall₂_cons, ih]
      constructor
      · rintro ⟨_, hitem, _, hrest, rfl, rfl⟩
        exact ⟨hitem, hrest⟩
      · rintro ⟨hitem, hrest⟩
        exact ⟨json, hitem, others, hrest, rfl, rfl⟩

theorem jsonMembers?_eq_some {members : List (Text × Value Text)}
    {read : List (String × Json.Value)} :
    jsonMembers? members = some read ↔
      List.Forall₂ (fun member json => member.1 = text json.1 ∧ json? member.2 = some json.2)
        members read := by
  induction members generalizing read with
  | nil => cases read <;> simp [jsonMembers?]
  | cons member rest ih =>
    obtain ⟨key, value⟩ := member
    rw [jsonMembers?]
    cases read with
    | nil => simp [Option.bind_eq_some_iff]
    | cons json others =>
      obtain ⟨jsonKey, jsonValue⟩ := json
      simp only [Option.bind_eq_bind, Option.bind_eq_some_iff, Option.pure_def,
        Option.some.injEq, List.cons.injEq, Prod.mk.injEq, List.forall₂_cons, ih,
        encode?_eq_some]
      constructor
      · rintro ⟨_, hkey, _, hvalue, _, hrest, ⟨rfl, rfl⟩, rfl⟩
        exact ⟨⟨hkey, hvalue⟩, hrest⟩
      · rintro ⟨⟨hkey, hvalue⟩, hrest⟩
        exact ⟨jsonKey, hkey, jsonValue, hvalue, others, hrest, ⟨rfl, rfl⟩, rfl⟩

def scalarOf : Json.Value → Scalar
  | .null => .none
  | .bool value => .bool value
  | .int value => .int value
  | .float value => .float value
  | .str value => .str (text value)
  | .arr _ | .obj _ => .foreign

variable {json : Json.Value}

theorem eq_scalarOf {s : Scalar} (h : scalarJson? s = some json) :
    s = scalarOf json := by
  cases s with
  | none | bool | float =>
    cases h
    rfl
  | int value =>
    rw [scalarJson?] at h
    split_ifs at h
    cases h
    rfl
  | str value =>
    obtain ⟨source, hsource, rfl⟩ := Option.map_eq_some_iff.mp h
    rw [encode?_eq_some.mp hsource]
    rfl
  | nonFinite | foreign => cases h

theorem scalarJson?_inj {left right : Scalar} (hleft : scalarJson? left = some json)
    (hright : scalarJson? right = some json) :
    left = right :=
  (eq_scalarOf hleft).trans (eq_scalarOf hright).symm

theorem scalarJson?_leaf {s : Scalar} (h : scalarJson? s = some json) :
    (∀ items, json ≠ .arr items) ∧ ∀ members, json ≠ .obj members := by
  have hscalar := eq_scalarOf h
  constructor
  · rintro items rfl
    rw [hscalar] at h
    cases h
  · rintro members rfl
    rw [hscalar] at h
    cases h

theorem json?_wellFormed (h : json? value = some json) :
    json.WellFormed := by
  induction value generalizing json with
  | scalar s =>
    rw [json?] at h
    obtain ⟨hitems, hmembers⟩ := scalarJson?_leaf h
    cases json with
    | arr items => exact absurd rfl (hitems items)
    | obj members => exact absurd rfl (hmembers members)
    | _ => trivial
  | sequence kind items ih =>
    rw [json?] at h
    obtain ⟨read, hread, rfl⟩ := Option.map_eq_some_iff.mp h
    rw [Json.Value.WellFormed, Json.Value.wellFormedItems_iff]
    intro item hitem
    obtain ⟨index, hindex, rfl⟩ := List.mem_iff_getElem.mp hitem
    have hforall := jsonItems?_eq_some.mp hread
    have hlt : index < items.length := hforall.length_eq ▸ hindex
    exact ih _ (List.getElem_mem hlt) (hforall.get hlt hindex)
  | mapping kind members ih =>
    rw [json?] at h
    obtain ⟨read, hread, rfl⟩ := Option.map_eq_some_iff.mp h
    rw [Json.Value.WellFormed, Json.Value.wellFormedMembers_iff]
    refine ⟨Json.Value.ascending_ofMembers read, ?_⟩
    intro member hmember
    have hforall := jsonMembers?_eq_some.mp hread
    obtain ⟨index, hindex, rfl⟩ :=
      List.mem_iff_getElem.mp (Json.Value.mem_of_mem_ofMembers hmember)
    have hlt : index < members.length := hforall.length_eq ▸ hindex
    exact ih _ (List.getElem_mem hlt) (hforall.get hlt hindex).2

end Text

theorem InContract.distinct {value : Value Text} (h : InContract value) : value.Distinct :=
  all_imp (fun _ _ => trivial) (fun _ _ => trivial) (fun _ hkeys => hkeys.1) value h

theorem nodup_read {members : List (Text × Value Text)} {read : List (String × Json.Value)}
    (hread : jsonMembers? members = some read) (hkeys : (members.map Prod.fst).Nodup) :
    (read.map Prod.fst).Nodup := by
  have hforall := jsonMembers?_eq_some.mp hread
  have htexts : members.map Prod.fst = (read.map Prod.fst).map text := by
    clear hread hkeys
    induction hforall with
    | nil => rfl
    | cons hmember _ ih => rw [List.map_cons, List.map_cons, List.map_cons, hmember.1, ih]
  rw [htexts] at hkeys
  exact List.Nodup.of_map text hkeys

theorem forall₂_of_mem_left {α β : Type} {R : α → β → Prop} {left : List α} {right : List β}
    (h : List.Forall₂ R left right) {first : α} (hmem : first ∈ left) :
    ∃ second ∈ right, R first second := by
  induction h with
  | nil => cases hmem
  | cons hhead _ ih =>
    rcases List.mem_cons.mp hmem with rfl | hmem
    · exact ⟨_, List.mem_cons_self, hhead⟩
    · obtain ⟨second, hsecond, hrel⟩ := ih hmem
      exact ⟨second, List.mem_cons_of_mem _ hsecond, hrel⟩

theorem forall₂_of_mem_right {α β : Type} {R : α → β → Prop} {left : List α} {right : List β}
    (h : List.Forall₂ R left right) {second : β} (hmem : second ∈ right) :
    ∃ first ∈ left, R first second :=
  forall₂_of_mem_left (List.Forall₂.flip h) hmem

theorem items_eq_iff {items others : List (Value Text)} {read otherRead : List Json.Value}
    (ih : ∀ item ∈ items, ∀ (right : Value Text) (json other : Json.Value), right.Distinct →
      json? item = some json → json? right = some other → (json = other ↔ Same item right))
    (hothers : ∀ item ∈ others, item.Distinct)
    (hread : List.Forall₂ (fun item json => json? item = some json) items read)
    (hotherRead : List.Forall₂ (fun item json => json? item = some json) others otherRead) :
    read = otherRead ↔ List.Forall₂ Same items others := by
  induction hread generalizing others otherRead with
  | nil => cases hotherRead <;> simp
  | cons hitem hrest ihrest =>
    cases hotherRead with
    | nil => simp
    | cons hother hotherRest =>
      rw [List.cons.injEq, List.forall₂_cons]
      rw [List.forall_mem_cons] at ih hothers
      exact and_congr (ih.1 _ _ _ hothers.1 hitem hother)
        (ihrest ih.2 hothers.2 hotherRest)

theorem members_perm_iff {members others : List (Text × Value Text)}
    {read otherRead : List (String × Json.Value)}
    (ih : ∀ member ∈ members, ∀ (right : Value Text) (json other : Json.Value), right.Distinct →
      json? member.2 = some json → json? right = some other →
        (json = other ↔ Same member.2 right))
    (hkeys : (members.map Prod.fst).Nodup) (hothers : ∀ member ∈ others, member.2.Distinct)
    (hread : jsonMembers? members = some read) (hotherRead : jsonMembers? others = some otherRead) :
    read.Perm otherRead ↔ members.length = others.length ∧
      ∀ member ∈ members, ∃ other, (member.1, other) ∈ others ∧ Same member.2 other := by
  have hnodup := (nodup_read hread hkeys).of_map Prod.fst
  have hforall := jsonMembers?_eq_some.mp hread
  have hotherForall := jsonMembers?_eq_some.mp hotherRead
  constructor
  · intro hperm
    refine ⟨?_, ?_⟩
    · rw [hforall.length_eq, hotherForall.length_eq, hperm.length_eq]
    · intro member hmember
      obtain ⟨json, hjson, hkey, hvalue⟩ := forall₂_of_mem_left hforall hmember
      obtain ⟨other, hother, hotherKey, hotherValue⟩ :=
        forall₂_of_mem_right hotherForall (hperm.mem_iff.mp hjson)
      refine ⟨other.2, ?_, ?_⟩
      · rw [hkey, ← hotherKey]
        exact hother
      · exact (ih member hmember _ _ _ (hothers other hother) hvalue hotherValue).mp rfl
  · rintro ⟨hlength, hsame⟩
    apply (List.subperm_of_subset hnodup ?_).perm_of_length_le
    · rw [← hforall.length_eq, ← hotherForall.length_eq, hlength]
    · intro json hjson
      obtain ⟨member, hmember, hkey, hvalue⟩ := forall₂_of_mem_right hforall hjson
      obtain ⟨other, hother, hsameValue⟩ := hsame member hmember
      obtain ⟨otherJson, hotherJson, hotherKey, hotherValue⟩ :=
        forall₂_of_mem_left hotherForall hother
      have hvalues := (ih member hmember _ _ _ (hothers _ hother) hvalue hotherValue).mpr hsameValue
      have hjsonKey : json.1 = otherJson.1 := text_injective (hkey.symm.trans hotherKey)
      rwa [Prod.ext hjsonKey hvalues]

theorem json?_eq_iff {left right : Value Text} {json other : Json.Value}
    (hleft : left.Distinct) (hright : right.Distinct) (hjson : json? left = some json)
    (hother : json? right = some other) : json = other ↔ Same left right := by
  induction left generalizing right json other with
  | scalar s =>
    rw [json?] at hjson
    obtain ⟨hitems, hmembers⟩ := scalarJson?_leaf hjson
    cases right with
    | scalar t =>
      rw [json?] at hother
      rw [Same]
      constructor
      · rintro rfl
        exact scalarJson?_inj hjson hother
      · rintro rfl
        exact Option.some.inj (hjson.symm.trans hother)
    | sequence kind items =>
      rw [json?] at hother
      obtain ⟨read, -, rfl⟩ := Option.map_eq_some_iff.mp hother
      simp [Same, hitems]
    | mapping kind members =>
      rw [json?] at hother
      obtain ⟨read, -, rfl⟩ := Option.map_eq_some_iff.mp hother
      simp [Same, hmembers]
  | sequence kind items ih =>
    rw [json?] at hjson
    obtain ⟨read, hread, rfl⟩ := Option.map_eq_some_iff.mp hjson
    cases right with
    | scalar t =>
      rw [json?] at hother
      simp [Same, (scalarJson?_leaf hother).1 read, eq_comm]
    | sequence otherKind others =>
      rw [json?] at hother
      obtain ⟨otherRead, hotherRead, rfl⟩ := Option.map_eq_some_iff.mp hother
      rw [Same, sameItems_iff, Json.Value.arr.injEq]
      rw [Distinct, all_sequence] at hleft hright
      exact items_eq_iff (fun item hitem _ _ _ hdistinct hitemJson hotherJson =>
        ih item hitem (hleft.2 item hitem) hdistinct hitemJson hotherJson) hright.2
        (jsonItems?_eq_some.mp hread) (jsonItems?_eq_some.mp hotherRead)
    | mapping otherKind members =>
      rw [json?] at hother
      obtain ⟨otherRead, -, rfl⟩ := Option.map_eq_some_iff.mp hother
      simp [Same]
  | mapping kind members ih =>
    rw [json?] at hjson
    obtain ⟨read, hread, rfl⟩ := Option.map_eq_some_iff.mp hjson
    cases right with
    | scalar t =>
      rw [json?] at hother
      simp [Same, (scalarJson?_leaf hother).2, eq_comm]
    | sequence otherKind others =>
      rw [json?] at hother
      obtain ⟨otherRead, -, rfl⟩ := Option.map_eq_some_iff.mp hother
      simp [Same]
    | mapping otherKind others =>
      rw [json?] at hother
      obtain ⟨otherRead, hotherRead, rfl⟩ := Option.map_eq_some_iff.mp hother
      rw [Same, sameMembers_iff, Json.Value.obj.injEq]
      rw [Distinct, all_mapping] at hleft hright
      rw [Json.Value.ofMembers_eq_iff (nodup_read hread hleft.2.1)
        (nodup_read hotherRead hright.2.1)]
      exact members_perm_iff (fun member hmember _ _ _ hdistinct hvalueJson hotherJson =>
        ih member hmember (hleft.2.2 member hmember) hdistinct hvalueJson hotherJson)
        hleft.2.1 hright.2.2 hread hotherRead

def Identifies {α β : Type} (identity : α → Option β) (same : α → α → Prop)
    (left right : α) : Prop :=
  (same left right → identity left = identity right) ∧
    ∀ found ∈ identity left, found ∈ identity right → same left right

def canonicalArguments (arguments : List (Text × Value Text)) : Option String :=
  canonicalJsonText (.mapping .plain arguments)

/-- `arguments_digest`, of the validated argument object. -/
def argumentsDigest (sha256Hex : String → String) (arguments : List (Text × Value Text)) :
    Option String :=
  (canonicalArguments arguments).map sha256Hex

/-- `input_digest`, of the exact action input. -/
def inputDigest (sha256Hex : String → String) (arguments : List (Text × Value Text)) :
    Option String :=
  (canonicalJsonText (.mapping .plain arguments)).map sha256Hex

/-- What `definition_fingerprint` is taken of. -/
structure ReviewedDefinition where
  modelName : Text
  upstreamName : Text
  description : Text
  inputSchema : List (Text × Value Text)
  outputSchema : Option (List (Text × Value Text))
  sourceKind : ToolSourceKind
  sourceId : Option Nat
  riskHints : RiskHints

def sourceKindText : ToolSourceKind → Text
  | .builtin => text "builtin"
  | .mcp => text "mcp"

def riskHintsPayload (hints : RiskHints) : Value Text :=
  .mapping .plain
    [(text "destructive", .scalar (.bool hints.destructive)),
      (text "idempotent", .scalar (.bool hints.idempotent)),
      (text "open_world", .scalar (.bool hints.openWorld)),
      (text "read_only", .scalar (.bool hints.readOnly))]

def outputSchemaPayload : Option (List (Text × Value Text)) → Value Text
  | none => .scalar .none
  | some schema => .mapping .plain schema

def sourceIdPayload : Option Nat → Value Text
  | none => .scalar .none
  | some id => .scalar (.int id)

def fingerprintPayload (definition : ReviewedDefinition) : Value Text :=
  .mapping .plain
    [(text "description", .scalar (.str definition.description)),
      (text "input_schema", .mapping .plain definition.inputSchema),
      (text "model_name", .scalar (.str definition.modelName)),
      (text "output_schema", outputSchemaPayload definition.outputSchema),
      (text "risk_hints", riskHintsPayload definition.riskHints),
      (text "source_id", sourceIdPayload definition.sourceId),
      (text "source_kind", .scalar (.str (sourceKindText definition.sourceKind))),
      (text "upstream_name", .scalar (.str definition.upstreamName))]

def definitionFingerprint (sha256Hex : String → String) (definition : ReviewedDefinition) :
    Option String :=
  (canonicalJsonText (fingerprintPayload definition)).map sha256Hex

def SameObject (left right : List (Text × Value Text)) : Prop :=
  Same (.mapping .plain left) (.mapping .plain right)

structure ReviewedDefinition.SameAs (left right : ReviewedDefinition) : Prop where
  modelName : left.modelName = right.modelName
  upstreamName : left.upstreamName = right.upstreamName
  description : left.description = right.description
  inputSchema : SameObject left.inputSchema right.inputSchema
  outputSchema : Same (outputSchemaPayload left.outputSchema)
    (outputSchemaPayload right.outputSchema)
  sourceKind : left.sourceKind = right.sourceKind
  sourceId : left.sourceId = right.sourceId
  riskHints : left.riskHints = right.riskHints

structure ReviewedDefinition.InContract (definition : ReviewedDefinition) : Prop where
  modelName : (encode? definition.modelName).isSome
  upstreamName : (encode? definition.upstreamName).isSome
  description : (encode? definition.description).isSome
  inputSchema : CanonicalJson.InContract (.mapping .plain definition.inputSchema)
  outputSchema : CanonicalJson.InContract (outputSchemaPayload definition.outputSchema)

theorem exists_of_same_members {left right : List (Text × Value Text)}
    (hleft : (left.map Prod.fst).Nodup) (hright : (right.map Prod.fst).Nodup)
    (hlength : left.length = right.length)
    (hsame : ∀ member ∈ left, ∃ other, (member.1, other) ∈ right ∧ Same member.2 other)
    {member : Text × Value Text} (hmember : member ∈ right) :
    ∃ other, (member.1, other) ∈ left ∧ Same other member.2 := by
  have hsubset : left.map Prod.fst ⊆ right.map Prod.fst := by
    intro key hkey
    obtain ⟨first, hfirst, rfl⟩ := List.mem_map.mp hkey
    obtain ⟨other, hother, -⟩ := hsame first hfirst
    exact List.mem_map.mpr ⟨_, hother, rfl⟩
  have hperm : (left.map Prod.fst).Perm (right.map Prod.fst) := by
    apply (List.subperm_of_subset hleft hsubset).perm_of_length_le
    rw [List.length_map, List.length_map, hlength]
  obtain ⟨first, hfirst, hkey⟩ :=
    List.mem_map.mp (hperm.mem_iff.mpr (List.mem_map_of_mem hmember))
  obtain ⟨other, hother, hvalue⟩ := hsame first hfirst
  have heq := eq_of_key hright hother hmember hkey
  refine ⟨first.2, ?_, ?_⟩
  · rw [← hkey]
    exact hfirst
  · rw [← heq]
    exact hvalue

variable {left right : Value Text}

theorem same_symm (hleft : left.Distinct) (hright : right.Distinct) (h : Same left right) :
    Same right left := by
  induction left generalizing right with
  | scalar s =>
    cases right with
    | scalar t =>
      rw [Same] at h ⊢
      exact h.symm
    | sequence | mapping => simp [Same] at h
  | sequence kind items ih =>
    cases right with
    | scalar t => simp [Same] at h
    | sequence otherKind others =>
      rw [Distinct, all_sequence] at hleft hright
      rw [Same, sameItems_iff] at h ⊢
      replace hleft := hleft.2
      replace hright := hright.2
      induction h with
      | nil => exact List.Forall₂.nil
      | cons hhead _ ihrest =>
        rw [List.forall_mem_cons] at ih hleft hright
        exact List.Forall₂.cons (ih.1 hleft.1 hright.1 hhead)
          (ihrest ih.2 hleft.2 hright.2)
    | mapping otherKind members => simp [Same] at h
  | mapping kind members ih =>
    cases right with
    | scalar | sequence => simp [Same] at h
    | mapping otherKind others =>
      rw [Distinct, all_mapping] at hleft hright
      rw [Same, sameMembers_iff] at h ⊢
      refine ⟨h.1.symm, ?_⟩
      intro member hmember
      obtain ⟨other, hother, hvalue⟩ :=
        exists_of_same_members hleft.2.1 hright.2.1 h.1 h.2 hmember
      exact ⟨other, hother, ih _ hother (hleft.2.2 _ hother) (hright.2.2 _ hmember) hvalue⟩

theorem hasShortIntegers_of_same (h : Same left right) (hright : HasShortIntegers right) :
    HasShortIntegers left := by
  induction left generalizing right with
  | scalar s =>
    cases right with
    | scalar t =>
      rw [Same] at h
      rwa [h]
    | sequence | mapping => simp [Same] at h
  | sequence kind items ih =>
    cases right with
    | scalar t => simp [Same] at h
    | sequence otherKind others =>
      rw [HasShortIntegers, all_sequence] at hright ⊢
      rw [Same, sameItems_iff] at h
      refine ⟨trivial, ?_⟩
      intro item hitem
      obtain ⟨other, hother, hsame⟩ := forall₂_of_mem_left h hitem
      exact ih item hitem hsame (hright.2 other hother)
    | mapping otherKind members => simp [Same] at h
  | mapping kind members ih =>
    cases right with
    | scalar | sequence => simp [Same] at h
    | mapping otherKind others =>
      rw [HasShortIntegers, all_mapping] at hright ⊢
      rw [Same, sameMembers_iff] at h
      refine ⟨trivial, trivial, ?_⟩
      intro member hmember
      obtain ⟨other, hother, hsame⟩ := h.2 member hmember
      exact ih member hmember hsame (hright.2.2 _ hother)

theorem canonicalJsonText_identifies (hleft : InContract left) (hright : InContract right) :
    Identifies canonicalJsonText Same left right := by
  constructor
  · intro hsame
    have hshort : HasShortIntegers left ↔ HasShortIntegers right :=
      ⟨hasShortIntegers_of_same (same_symm hleft.distinct hright.distinct hsame),
        hasShortIntegers_of_same hsame⟩
    rw [← canonicalJsonText_isSome hleft, ← canonicalJsonText_isSome hright] at hshort
    rw [canonicalJsonText, canonicalJsonText] at hshort ⊢
    rw [Option.isSome_map, Option.isSome_map] at hshort
    cases hjson : json? left with
    | none =>
      cases hother : json? right with
      | none => rfl
      | some other => simp [hjson, hother] at hshort
    | some json =>
      cases hother : json? right with
      | none => simp [hjson, hother] at hshort
      | some other =>
        rw [(json?_eq_iff hleft.distinct hright.distinct hjson hother).mpr hsame]
  · intro found hfound hother
    obtain ⟨json, hjson, rfl⟩ := Option.map_eq_some_iff.mp hfound
    obtain ⟨other, hotherJson, htext⟩ := Option.map_eq_some_iff.mp hother
    have heq := Json.canonicalText_injective (json?_wellFormed hotherJson)
      (json?_wellFormed hjson) htext
    exact (json?_eq_iff hleft.distinct hright.distinct hjson hotherJson).mp heq.symm

theorem identifies_map {α : Type} {identity : α → Option String} {same : α → α → Prop}
    {left right : α} {sha256Hex : String → String} {hashed : Set String}
    (h : Identifies identity same left right) (hcollision : Set.InjOn sha256Hex hashed)
    (hleft : ∀ found ∈ identity left, found ∈ hashed)
    (hright : ∀ found ∈ identity right, found ∈ hashed) :
    Identifies (fun value => (identity value).map sha256Hex) same left right := by
  constructor
  · intro hsame
    dsimp only
    rw [h.1 hsame]
  · intro found hfound hother
    obtain ⟨source, hsource, rfl⟩ := Option.map_eq_some_iff.mp hfound
    obtain ⟨other, hotherSource, hdigest⟩ := Option.map_eq_some_iff.mp hother
    have heq := hcollision (hright other hotherSource) (hleft source hsource) hdigest
    subst heq
    exact h.2 other hsource hotherSource

theorem same_iff_forall₂ {kind other : Kind} {left right : List (Text × Value Text)}
    (hkeys : left.map Prod.fst = right.map Prod.fst) (hnodup : (left.map Prod.fst).Nodup) :
    Same (.mapping kind left) (.mapping other right) ↔
      List.Forall₂ Same (left.map Prod.snd) (right.map Prod.snd) := by
  have hlength : left.length = right.length := by
    have hlengths := congrArg List.length hkeys
    rwa [List.length_map, List.length_map] at hlengths
  rw [Same, sameMembers_iff, List.forall₂_map_left_iff, List.forall₂_map_right_iff]
  have hright := hkeys ▸ hnodup
  rw [and_iff_right hlength, List.forall₂_iff_get]
  constructor
  · intro hsame
    refine ⟨hlength, ?_⟩
    intro index hindex hotherIndex
    obtain ⟨value, hvalue, hsameValue⟩ := hsame _ (List.get_mem left ⟨index, hindex⟩)
    have hkey : (left.get ⟨index, hindex⟩).1 = (right.get ⟨index, hotherIndex⟩).1 := by
      have hget := congrArg (fun keys => keys[index]?) hkeys
      simpa [hindex, hotherIndex] using hget
    have heq := eq_of_key hright hvalue (List.get_mem right ⟨index, hotherIndex⟩) hkey
    rw [← heq]
    exact hsameValue
  · rintro ⟨-, hsame⟩ member hmember
    obtain ⟨index, rfl⟩ := List.mem_iff_get.mp hmember
    have hotherIndex : index.1 < right.length := hlength ▸ index.2
    have hkey : (left.get index).1 = (right.get ⟨index.1, hotherIndex⟩).1 := by
      have hget := congrArg (fun keys => keys[index.1]?) hkeys
      simpa [index.2, hotherIndex] using hget
    refine ⟨(right.get ⟨index.1, hotherIndex⟩).2, ?_, hsame index.1 index.2 hotherIndex⟩
    rw [hkey]
    exact List.get_mem right ⟨index.1, hotherIndex⟩

theorem same_scalar {left right : Scalar} :
    Same (.scalar left) (.scalar right) ↔ left = right := by
  rw [Same]

theorem same_riskHintsPayload {left right : RiskHints} :
    Same (riskHintsPayload left) (riskHintsPayload right) ↔ left = right := by
  have hkeys : [text "destructive", text "idempotent", text "open_world",
      text "read_only"].Nodup := by decide +kernel
  refine Iff.trans (same_iff_forall₂ ?_ ?_) ?_
  · rfl
  · exact hkeys
  simp only [List.map_cons, List.map_nil, List.forall₂_cons, List.forall₂_nil_left_iff,
    same_scalar, Scalar.bool.injEq, and_true]
  constructor
  · rintro ⟨hdestructive, hidempotent, hopen, hread⟩
    obtain ⟨readOnly, destructive, idempotent, openWorld⟩ := left
    dsimp only at hdestructive hidempotent hopen hread
    rw [hdestructive, hidempotent, hopen, hread]
  · rintro rfl
    exact ⟨rfl, rfl, rfl, rfl⟩

theorem same_sourceIdPayload {left right : Option Nat} :
    Same (sourceIdPayload left) (sourceIdPayload right) ↔ left = right := by
  cases left <;> cases right <;> simp [sourceIdPayload, same_scalar, Int.natCast_inj]

theorem sourceKindText_injective {left right : ToolSourceKind} :
    sourceKindText left = sourceKindText right ↔ left = right := by
  cases left <;> cases right <;> decide +kernel

theorem same_fingerprintPayload {left right : ReviewedDefinition} :
    Same (fingerprintPayload left) (fingerprintPayload right) ↔ left.SameAs right := by
  have hkeys : [text "description", text "input_schema", text "model_name",
      text "output_schema", text "risk_hints", text "source_id", text "source_kind",
      text "upstream_name"].Nodup := by decide +kernel
  refine Iff.trans (same_iff_forall₂ ?_ ?_) ?_
  · rfl
  · exact hkeys
  simp only [List.map_cons, List.map_nil, List.forall₂_cons, List.forall₂_nil_left_iff,
    same_scalar, Scalar.str.injEq, and_true, same_riskHintsPayload, same_sourceIdPayload,
    sourceKindText_injective]
  constructor
  · rintro ⟨hdescription, hinput, hmodel, houtput, hhints, hid, hkind, hupstream⟩
    exact ⟨hmodel, hupstream, hdescription, hinput, houtput, hkind, hid, hhints⟩
  · rintro ⟨hmodel, hupstream, hdescription, hinput, houtput, hkind, hid, hhints⟩
    exact ⟨hdescription, hinput, hmodel, houtput, hhints, hid, hkind, hupstream⟩

theorem inContract_scalar {s : Scalar} : InContract (.scalar s) ↔ IsJsonScalar s := by
  rw [InContract, all_scalar]

theorem ReviewedDefinition.InContract.payload {definition : ReviewedDefinition}
    (h : definition.InContract) : CanonicalJson.InContract (fingerprintPayload definition) := by
  have hkeys : [text "description", text "input_schema", text "model_name",
      text "output_schema", text "risk_hints", text "source_id", text "source_kind",
      text "upstream_name"].Nodup := by decide +kernel
  have hhints : [text "destructive", text "idempotent", text "open_world",
      text "read_only"].Nodup := by decide +kernel
  have hid : CanonicalJson.InContract (sourceIdPayload definition.sourceId) := by
    cases definition.sourceId with
    | none | some => exact inContract_scalar.mpr trivial
  have hkind : (encode? (sourceKindText definition.sourceKind)).isSome := by
    cases definition.sourceKind <;> rfl
  have hrisk : CanonicalJson.InContract (riskHintsPayload definition.riskHints) := by
    refine all_mapping.mpr ⟨rfl, ⟨hhints, ?_⟩, ?_⟩
    · simp
    · simp [IsJsonScalar]
  refine all_mapping.mpr ⟨rfl, ⟨hkeys, ?_⟩, ?_⟩
  · simp
  · simp only [List.forall_mem_cons, all_scalar, List.not_mem_nil, false_implies, implies_true,
      and_true]
    exact ⟨h.description, h.inputSchema, h.modelName, h.outputSchema, hrisk, hid, hkind,
      h.upstreamName⟩

/-- Equal texts are equal values, and equal digests of action inputs, of arguments and of
definitions are equal inputs, as long as the texts that are hashed have different digests. -/
theorem canonical_json_identity (sha256Hex : String → String) (hashed : Set String)
    (hcollision : Set.InjOn sha256Hex hashed) :
    (∀ value, InContract value →
      ((canonicalJsonText value).isSome ↔ HasShortIntegers value)) ∧
    (∀ left right, InContract left → InContract right →
      Identifies canonicalJsonText Same left right) ∧
    (∀ left right, InContract (.mapping .plain left) → InContract (.mapping .plain right) →
      (∀ found ∈ canonicalArguments left, found ∈ hashed) →
      (∀ found ∈ canonicalArguments right, found ∈ hashed) →
      Identifies (inputDigest sha256Hex) SameObject left right ∧
        Identifies (argumentsDigest sha256Hex) SameObject left right) ∧
    (∀ left right : ReviewedDefinition, left.InContract → right.InContract →
      (∀ found ∈ canonicalJsonText (fingerprintPayload left), found ∈ hashed) →
      (∀ found ∈ canonicalJsonText (fingerprintPayload right), found ∈ hashed) →
      Identifies (definitionFingerprint sha256Hex) ReviewedDefinition.SameAs left right) := by
  refine ⟨fun value => canonicalJsonText_isSome, fun left right => canonicalJsonText_identifies,
    ?_, ?_⟩
  · intro left right hleft hright hleftHashed hrightHashed
    have harguments : Identifies canonicalArguments SameObject left right :=
      canonicalJsonText_identifies hleft hright
    have hdigest := identifies_map harguments hcollision hleftHashed hrightHashed
    exact ⟨hdigest, hdigest⟩
  · intro left right hleft hright hleftHashed hrightHashed
    have hpayload := canonicalJsonText_identifies hleft.payload hright.payload
    have hfingerprints : Identifies (fun definition => canonicalJsonText
        (fingerprintPayload definition)) ReviewedDefinition.SameAs left right :=
      ⟨fun hsame => hpayload.1 (same_fingerprintPayload.mpr hsame),
        fun found hfound hother => same_fingerprintPayload.mp (hpayload.2 found hfound hother)⟩
    exact identifies_map hfingerprints hcollision hleftHashed hrightHashed

def sampleArguments : List (Text × Value Text) :=
  [(text "path", .scalar (.str (text "a"))), (text "limit", .scalar (.int 1))]

def sampleArgumentsSha256Hex (_source : String) : String :=
  "5696872e1be24ca8b79648ddb447651e824f280ea077defa5b57f2b678254fb7"

theorem canonicalArguments_sample : canonicalArguments sampleArguments =
    canonicalArguments sampleArguments.reverse ∧
      canonicalArguments sampleArguments = some "\x7b\"limit\":1,\"path\":\"a\"\x7d" := by
  decide +kernel

/-- The sample's arguments in another order have the same digest. -/
theorem canonical_json_identity_sample :
    Identifies (argumentsDigest sampleArgumentsSha256Hex) SameObject sampleArguments
      sampleArguments.reverse := by
  obtain ⟨hsame, htext⟩ := canonicalArguments_sample
  refine ((canonical_json_identity sampleArgumentsSha256Hex
    (Set.singleton "\x7b\"limit\":1,\"path\":\"a\"\x7d") ?_).2.2.1 sampleArguments
    sampleArguments.reverse ?_ ?_ ?_ ?_).2
  · intro source hsource other hother _
    exact hsource.trans hother.symm
  · exact all_mapping.mpr ⟨rfl, by decide +kernel, by simp [sampleArguments, IsJsonScalar]⟩
  · exact all_mapping.mpr ⟨rfl, by decide +kernel, by simp [sampleArguments, IsJsonScalar]⟩
  · intro found hfound
    rw [htext] at hfound
    exact (Option.some.inj hfound).symm
  · intro found hfound
    rw [← hsame, htext] at hfound
    exact (Option.some.inj hfound).symm

end CanonicalJson

end NervOS
