/-
Configuration conformance: `validate_config` accepts exactly what conforms to the keywords of an
accepted schema, and refuses the rest, where Python compares, divides and writes as JSON does.
-/
import NervOS.Guarantees.CanonicalJson
import NervOS.Guarantees.EffectiveConfig

namespace NervOS

namespace ConfigConformance

open Json Relational

/-- What conforms to the numeric keywords. -/
structure NumberConforms (schema : Value) (number : Int) : Prop where
  minimum : ∀ bound, schema.get? "minimum" = some (.int bound) → bound ≤ number
  maximum : ∀ bound, schema.get? "maximum" = some (.int bound) → number ≤ bound
  exclusiveMinimum : ∀ bound, schema.get? "exclusiveMinimum" = some (.int bound) → bound < number
  exclusiveMaximum : ∀ bound, schema.get? "exclusiveMaximum" = some (.int bound) → number < bound
  multipleOf : ∀ divisor, schema.get? "multipleOf" = some (.int divisor) → divisor ∣ number

structure SizeConforms (schema : Value) (least greatest : String) (size : Nat) : Prop where
  least : ∀ bound, schema.get? least = some (.int bound) → bound ≤ size
  greatest : ∀ bound, schema.get? greatest = some (.int bound) → (size : Int) ≤ bound

structure ArrayConforms (schema : Value) (items : List Value) : Prop where
  size : SizeConforms schema "minItems" "maxItems" items.length
  unique : schema.get? "uniqueItems" = some (.bool true) → items.Nodup

structure ObjectConforms (schema : Value) (members : List (String × Value)) : Prop where
  size : SizeConforms schema "minProperties" "maxProperties" members.length
  required : ∀ names, schema.get? "required" = some (.arr names) →
    ∀ name, .str name ∈ names → (members.lookup name).isSome
  additional : schema.get? "additionalProperties" = some (.bool false) →
    ∀ member ∈ members, ((schema.get "properties").get? member.1).isSome

structure ConformsInside (below : Value → Value → Prop) (schema value : Value) : Prop where
  number : ∀ number, value = .int number → NumberConforms schema number
  string : ∀ source, value = .str source →
    SizeConforms schema "minLength" "maxLength" source.length
  array : ∀ items, value = .arr items → ArrayConforms schema items
  items : ∀ items child, value = .arr items → schema.get "items" = .obj child →
    ∀ item ∈ items, below (.obj child) item
  object : ∀ members, value = .obj members → ObjectConforms schema members
  properties : ∀ members, value = .obj members → ∀ property ∈ (schema.get "properties").members,
    ∀ member, members.lookup property.1 = some member → below property.2 member

def Conforms : Nat → Value → Value → Prop
  | 0, _, _ => False
  | levels + 1, schema, value =>
    (∃ type, schema.get "type" = .str type ∧ matchesType type value = true) ∧
    (∀ entries, schema.get? "enum" = some (.arr entries) → value ∈ entries) ∧
    (∀ constant, schema.get? "const" = some constant → value = constant) ∧
    ConformsInside (Conforms levels) schema value

def effectiveConfig (schema json : Value) : Value :=
  .obj (applyDefaults json.depth schema json.members)

/-- What is neither too deep nor too long. -/
def Fits (document : Value) : Prop :=
  document.depth ≤ maxConfigDepth ∧ (canonicalText document).utf8ByteSize ≤ maxConfigBytes

section Acceptance

variable {schema value : Value} {path schemaType key message : String}

variable {py : PythonRuntime}

variable {below : Value → String → Except ConfigError Unit}

end Acceptance

section Keywords

variable {schema : Value} {key message : String}

end Keywords

section Node

variable {items : List Value}

variable {py : PythonRuntime} {schema value : Value} {path : String}

variable {members : List (String × Value)}

end Node

section Configuration

variable {py : PythonRuntime} {schema json : Value} {members : List (String × Value)}
  {config : Python.Value Python.Text} {submitted : List (Python.Text × Python.Value Python.Text)}

end Configuration

theorem mem_of_get? {document value : Value} {key : String} (h : document.get? key = some value) :
    (key, value) ∈ document.members := by
  obtain ⟨_, _, heq, -⟩ := List.lookup_eq_some_iff.mp h
  rw [heq]
  exact List.mem_append_right _ List.mem_cons_self

end ConfigConformance

end NervOS
