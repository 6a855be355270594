/-
Tool schemas: the gate accepts exactly the documented subset, an accepted schema accepts exactly
the values that conform to it, and neither raises on what can be written.
-/
import NervOS.Application.ToolSchema
import NervOS.Refinement.StateCodec
import NervOS.Relational.Fallible

namespace NervOS

namespace SchemaGate

open Python Python.Value StateCodec Relational

section Statement

variable (floatValue : Json.FloatText → ℚ)

/-- A member of an object, where it is present. -/
def Held (members : Members) (key : String) (p : Value Text → Prop) : Prop :=
  ∀ value, get? members (text key) = some value → p value

structure IsObjectNode (below : Value Text → Prop) (members properties : Members) : Prop where
  held : get? members (text "properties") = some (.mapping .plain properties)
  below : ∀ property ∈ properties, below property.2
  additional : Held members "additionalProperties" fun additional =>
    additional = .scalar (.bool false)
  required : Held members "required" fun required => ∃ names : List Text,
    required = .sequence .plain (names.map fun name => .scalar (.str name)) ∧ names.Nodup ∧
      ∀ name ∈ names, name ∈ properties.map Prod.fst

/-- An `enum` has entries of the type, and none twice. -/
def IsScalarNode (type : NodeType) (members : Members) : Prop :=
  Held members "enum" fun enum => ∃ entries : List Scalar,
    enum = .sequence .plain (entries.map .scalar) ∧ 1 ≤ entries.length ∧
      entries.length ≤ maxEnumEntries ∧
      (∀ entry ∈ entries, matchesDeclaredType type (.scalar entry) = true) ∧
      entries.Pairwise fun left right => scalarEq floatValue left right = false

def IsObject (node : Value Text) : Prop :=
  ∃ members, node = .mapping .plain members ∧
    get? members (text "type") = some (.scalar (.str (text NodeType.object.name)))

def IsBody (below : Value Text → Prop) (members : Members) : NodeType → Prop
  | .object => ∃ properties, IsObjectNode below members properties
  | .array => ∃ items, get? members (text "items") = some items ∧ below items
  | .string => IsScalarNode floatValue .string members
  | .number => IsScalarNode floatValue .number members
  | .integer => IsScalarNode floatValue .integer members
  | .boolean => IsScalarNode floatValue .boolean members

def IsNode : Nat → Value Text → Prop
  | 0, _ => False
  | levels + 1, node => ∃ members type, node = .mapping .plain members ∧
      get? members (text "type") = some (.scalar (.str (text (NodeType.name type)))) ∧
      (∀ key ∈ members.map Prod.fst, ∃ name ∈ type.allowedKeys, key = text name) ∧
      (Held members "description" fun description => ∃ source,
        description = .scalar (.str (text source)) ∧
          utf8Length source ≤ maxDescriptionBytes) ∧
      IsBody floatValue (IsNode levels) members type

/-- The nodes under `properties`. -/
def propertyNodes (below : Value Text → Nat) (members : Members) : Nat :=
  match get members "properties" with
  | .mapping _ properties => properties.foldr (fun property total => below property.2 + total) 0
  | _ => 0

def nodeCount : Nat → Value Text → Nat
  | 0, _ => 0
  | levels + 1, .mapping .plain members =>
    match nodeType? (get members "type") with
    | some .object => 1 + propertyNodes (nodeCount levels) members
    | some .array => 1 + nodeCount levels (get members "items")
    | _ => 1
  | _ + 1, _ => 1

/-- The documented subset. -/
structure IsCanonical (schema : Value Text) : Prop where
  json : IsJson some schema
  nesting : schema.nesting ≤ maxSchemaJsonDepth
  node : IsNode floatValue maxSchemaDepth schema
  object : IsObject schema
  nodes : nodeCount maxSchemaDepth schema ≤ maxSchemaNodes
  bytes : ∃ json, json? schema = some json ∧
    utf8Length (Json.canonicalText json) ≤ maxSchemaBytes

def ConformsToObject (below : Value Text → Value Text → Prop) (members properties : Members)
    (value : Value Text) : Prop :=
  ∃ keyed, value = .mapping .plain keyed ∧
    (∀ names : List Text, get? members (text "required") =
        some (.sequence .plain (names.map fun name => .scalar (.str name))) →
      ∀ name ∈ names, name ∈ keyed.map Prod.fst) ∧
    ∀ member ∈ keyed,
      (∃ child, get? properties member.1 = some child ∧ below child member.2) ∨
      (get? properties member.1 = none ∧
        get? members (text "additionalProperties") ≠ some (.scalar (.bool false)))

def ConformsToScalar (type : NodeType) (members : Members) (value : Value Text) : Prop :=
  matchesDeclaredType type value = true ∧ ∀ entries : List Scalar,
    get? members (text "enum") = some (.sequence .plain (entries.map .scalar)) →
      ∃ entry ∈ entries, ∃ scalar, value = .scalar scalar ∧
        scalarEq floatValue entry scalar = true

def ConformsToBody (below : Value Text → Value Text → Prop) (members : Members)
    (value : Value Text) : NodeType → Prop
  | .object => ∃ properties, get? members (text "properties") = some (.mapping .plain properties) ∧
      ConformsToObject below members properties value
  | .array => ∃ child, get? members (text "items") = some child ∧
      ∃ items, value = .sequence .plain items ∧ ∀ item ∈ items, below child item
  | .string => ConformsToScalar floatValue .string members value
  | .number => ConformsToScalar floatValue .number members value
  | .integer => ConformsToScalar floatValue .integer members value
  | .boolean => ConformsToScalar floatValue .boolean members value

def Conforms : Nat → Value Text → Value Text → Prop
  | 0, _, _ => False
  | levels + 1, node, value => ∃ members type, node = .mapping .plain members ∧
      get? members (text "type") = some (.scalar (.str (text (NodeType.name type)))) ∧
      ConformsToBody floatValue (Conforms levels) members value type

end Statement

section Outcomes

variable {R α β : Type}

/-- A check that never raises, and passes exactly under a condition. -/
structure Decides (outcome : Checked R α) (p : Prop) : Prop where
  total : outcome ≠ .error .raised
  exact : (∃ value, outcome = .ok value) ↔ p

variable {p : Prop} {outcome : Checked R α}

variable {path : Text} {reason : R}

variable {p q : Prop}

/-- A walk that never raises, and passes exactly under a condition and within the node bound. -/
structure Walks (outcome : Checked R Nat) (count : Nat) (p : Prop) (nodes : Nat) : Prop where
  total : outcome ≠ .error .raised
  exact : ∀ after, outcome = .ok after ↔
    p ∧ after = count + nodes ∧ count + nodes ≤ maxSchemaNodes

variable {count nodes : Nat} {outcome : Checked R Nat}

theorem Walks.decides (h : Walks outcome count p nodes) :
    Decides outcome (p ∧ count + nodes ≤ maxSchemaNodes) :=
  ⟨h.total, ⟨fun ⟨after, heq⟩ => ⟨((h.exact after).mp heq).1, ((h.exact after).mp heq).2.2⟩,
    fun ⟨hp, hle⟩ => ⟨_, (h.exact _).mpr ⟨hp, rfl, hle⟩⟩⟩⟩

end Outcomes

section Members

variable {members : Members} {key : String} {value : Value Text}

variable {name : Text}

theorem mem_of_get? (h : get? members name = some value) :
    (name, value) ∈ members := by
  obtain ⟨member, hfind, rfl⟩ := Option.map_eq_some_iff.mp h
  have hname := List.find?_some hfind
  rw [decide_eq_true_eq] at hname
  rw [← hname]
  exact List.mem_of_find?_eq_some hfind

end Members

section Nodes

variable {floatValue : Json.FloatText → ℚ} {members properties : Members} {path : Text}
  {type : NodeType}

end Nodes

section Walk

variable {floatValue : Json.FloatText → ℚ} {members : Members} {path : Text} {levels count : Nat}
  {below : Walk}

end Walk

section Instances

variable {floatValue : Json.FloatText → ℚ} {members properties keyed : Members}
  {value : Value Text} {path : Text} {levels : Nat} {below : Against}

variable {type : NodeType}

end Instances

section Gate

variable {floatValue : Json.FloatText → ℚ}

end Gate

end SchemaGate

end NervOS
