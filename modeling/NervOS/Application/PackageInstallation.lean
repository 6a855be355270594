/-
Package configuration schemas: the accepted subset of JSON Schema, the effective configuration
that a schema gives to a submitted one, and the fields that must not change.  The configuration of
one package instance is updated under the schema of its version, or carried to another version and
its schema, each time under an expected revision.
-/
import NervOS.Domain.StateCodec
import NervOS.Json.Access
import NervOS.Relational.Machine

namespace NervOS

open Json

def maxConfigBytes : Nat := 64 * 1024

def maxConfigDepth : Nat := 32

def maxPatternBytes : Nat := 256

def maxStringLength : Nat := 16 * 1024

def maxArrayItems : Nat := 1024

def maxObjectProperties : Nat := 256

def maxEnumEntries : Nat := 128

def jsonTypes : List String :=
  ["array", "boolean", "integer", "null", "number", "object", "string"]

def allowedFormats : List String :=
  ["date-time", "date", "email", "hostname", "ipv4", "ipv6", "uri", "uuid"]

def allowedKeywords : List String :=
  ["$schema", "additionalProperties", "const", "default", "description", "enum",
    "exclusiveMaximum", "exclusiveMinimum", "format", "items", "maximum", "maxItems",
    "maxLength", "maxProperties", "minimum", "minItems", "minLength", "minProperties",
    "multipleOf", "pattern", "properties", "required", "title", "type", "uniqueItems",
    "x-nervos-immutable"]

def maxFloatInteger : Nat := 2 ^ 1024 - 2 ^ 970

/-- Why a schema or a configuration is refused; the exceptions of Python are no refusals of the
module. -/
inductive ConfigError where
  | schema (message : String)
  | configuration (message : String)
  | immutable (message : String)
  | carryForward (message : String)
  | typeError (keyword : String)
  | overflowError
  | valueError
  | recursionError
deriving DecidableEq

inductive SchemaKind where
  | root
  | property
  | items
deriving DecidableEq

/-- What the module takes from Python's floats, `re`, format readers and `deepcopy`; a quotient
that is no float is none. -/
structure PythonRuntime where
  whole : FloatText → Option Int
  less : Value → Value → Bool
  isMultiple : Value → Value → Option Bool
  compiles : String → Bool
  search : String → String → Bool
  fullmatch : String → String → Bool
  reads : String → String → Bool
  copyDepth : Nat

/-- An integer that Python converts to a float; nothing else is converted. -/
def isConvertible : Value → Bool
  | .int value => value.natAbs < maxFloatInteger
  | .null | .bool _ | .float _ | .str _ | .arr _ | .obj _ => true

/-- Whatever a decoded document is, it is not too deep and not too long. -/
def ensureDepthWithinLimit (error : String → ConfigError) (value : Value) :
    Except ConfigError Unit :=
  if maxConfigDepth < value.depth then .error (error "document exceeds maximum depth of 32")
  else pure ()

def ensureEffectiveSize (error : String → ConfigError) (subject : String) (value : Value) :
    Except ConfigError Unit :=
  if maxConfigBytes < (canonicalText value).utf8ByteSize then
    .error (error (subject ++ " exceeds 64KiB effective size limit"))
  else pure ()

/-- Refuse unless the condition holds. -/
def requireSchema (condition : Bool) (message : String) : Except ConfigError Unit :=
  if condition then pure () else .error (.schema message)

/-- A keyword that is absent, null, or as the type of the node demands. -/
def constrained (schema : Value) (key : String) (fits : Value → Bool) : Bool :=
  match schema.get key with
  | .null => true
  | value => fits value

/-- `MAX_PATTERN_BYTES`, the forbidden fragments and the repeated quantifiers. -/
def validateSafePattern (py : PythonRuntime) (path pattern : String) :
    Except ConfigError Unit := do
  requireSchema (pattern.utf8ByteSize ≤ maxPatternBytes) s!"pattern at {path} exceeds limit"
  requireSchema (["(?", "\\1", "\\2", "\\3", "\\4", "\\5", "\\6", "\\7", "\\8", "\\9"].all
    fun fragment => !containsText fragment pattern)
    s!"pattern at {path} uses unsupported regex features"
  requireSchema (!py.search repeatedQuantifier pattern && !py.search quantifiedGroup pattern)
    s!"pattern at {path} uses unsafe repeated quantifiers"
  requireSchema (py.compiles pattern) s!"pattern at {path} is not a valid regex"
where
  repeatedQuantifier : String :=
    "([*+?]|\\\x7b\\d+(?:,\\d*)?\\\x7d)(?:[*+?]|\\\x7b\\d+(?:,\\d*)?\\\x7d)"
  quantifiedGroup : String :=
    "\\([^()]*(?:[*+?]|\\\x7b\\d+(?:,\\d*)?\\\x7d)[^()]*\\)(?:[*+?]|\\\x7b\\d+(?:,\\d*)?\\\x7d)"
  containsText (fragment text : String) : Bool :=
    text.toList.tails.any fun rest => fragment.toList.isPrefixOf rest

def validateMetadata (schema : Value) (path : String) : Except ConfigError Unit :=
  ["title", "description"].forM fun key =>
    requireSchema (constrained schema key Value.isString) s!"{key} at {path} must be a string"

def validateSize (schema : Value) (path schemaType owner : String) (keys : List String) :
    Except ConfigError Unit :=
  keys.forM fun key =>
    requireSchema (constrained schema key fun value =>
      schemaType = owner && Value.isNonNegativeInt value)
      s!"{key} at {path} must be a non-negative integer on {owner}s"

def validateEnum (schema : Value) (path : String) : Except ConfigError Unit :=
  match schema.get "enum" with
  | .null => pure ()
  | .arr entries =>
    requireSchema (entries.length ≤ maxEnumEntries) s!"enum at {path} must be a bounded array"
  | _ => .error (.schema s!"enum at {path} must be a bounded array")

def validateBound (py : PythonRuntime) (schema : Value) (path schemaType key : String) :
    Except ConfigError Unit :=
  if (schemaType = "integer" || schemaType = "number") && !isConvertible (schema.get key) then
    .error .overflowError
  else do
    requireSchema (constrained schema key fun value =>
      (schemaType = "integer" || schemaType = "number") && Value.isNumber value)
      s!"{key} at {path} must be a finite numeric constraint"
    requireSchema (key ≠ "multipleOf" || constrained schema key fun value =>
      py.less (.int 0) value) s!"multipleOf at {path} must be positive"

def validatePattern (py : PythonRuntime) (schema : Value) (path schemaType : String) :
    Except ConfigError Unit :=
  match schema.get "pattern" with
  | .null => pure ()
  | .str pattern => do
    requireSchema (schemaType = "string") s!"pattern at {path} must be a string constraint"
    validateSafePattern py path pattern
  | _ => .error (.schema s!"pattern at {path} must be a string constraint")

def validateCommonConstraints (py : PythonRuntime) (schema : Value) (path schemaType : String) :
    Except ConfigError Unit := do
  validateEnum schema path
  ["minimum", "maximum", "exclusiveMinimum", "exclusiveMaximum", "multipleOf"].forM fun key =>
    validateBound py schema path schemaType key
  validateSize schema path schemaType "string" ["minLength", "maxLength"]
  requireSchema (!Value.intAbove maxStringLength (schema.get "maxLength"))
    s!"maxLength at {path} exceeds limit"
  validatePattern py schema path schemaType
  requireSchema (constrained schema "format" fun value => schemaType = "string" &&
    allowedFormats.any fun format => value.pyEq py.whole (.str format))
    s!"format at {path} is not supported"
  validateSize schema path schemaType "array" ["minItems", "maxItems"]
  requireSchema (!Value.intAbove maxArrayItems (schema.get "maxItems"))
    s!"maxItems at {path} exceeds limit"
  requireSchema (constrained schema "uniqueItems" fun value =>
    schemaType = "array" && Value.isBool value) s!"uniqueItems at {path} must be boolean on arrays"
  validateSize schema path schemaType "object" ["minProperties", "maxProperties"]
  requireSchema (!Value.intAbove maxObjectProperties (schema.get "maxProperties"))
    s!"maxProperties at {path} exceeds limit"

/-- The type of a node, where it is a supported one. -/
def schemaType? (schema : Value) : Option String :=
  match schema.get "type" with
  | .str name => if name ∈ jsonTypes then some name else none
  | _ => none

def validateImmutable (schema : Value) (kind : SchemaKind) : Except ConfigError Unit :=
  match schema.get? "x-nervos-immutable" with
  | none => pure ()
  | some annotation => do
    requireSchema (kind = .property) "x-nervos-immutable is only valid on named properties"
    requireSchema (Value.isBool annotation) "x-nervos-immutable must be boolean"

def validateRequired (schema : Value) (path schemaType : String) : Except ConfigError Unit :=
  match schema.get "required" with
  | .null => pure ()
  | .arr names => do
    requireSchema (schemaType = "object")
      s!"required at {path} must be an array on object schemas"
    requireSchema (names.all Value.isString && (names.filterMap Value.str?).Nodup)
      s!"required at {path} must contain unique property names"
    requireSchema ((names.filterMap Value.str?).all fun name =>
      name ∈ (schema.get "properties").members.map Prod.fst)
      s!"required at {path} may only name declared properties"
  | _ => .error (.schema s!"required at {path} must be an array on object schemas")

def validateDefault (schema : Value) : Except ConfigError Unit :=
  match schema.get? "default" with
  | none => pure ()
  | some value => ensureDepthWithinLimit .schema value

def validateProperties (below : Value → String → Except ConfigError Unit) (schema : Value)
    (path schemaType : String) : Except ConfigError Unit :=
  match schema.get "properties" with
  | .null => pure ()
  | .obj properties => do
    requireSchema (schemaType = "object")
      s!"properties at {path} must belong to an object schema"
    requireSchema (properties.length ≤ maxObjectProperties) s!"properties at {path} exceed limit"
    properties.forM fun property =>
      match property.2 with
      | .obj child => below (.obj child) s!"{path}.properties.{property.1}"
      | _ => .error (.schema s!"property schema at {path}.{property.1} must be an object")
  | _ => .error (.schema s!"properties at {path} must belong to an object schema")

def validateItemsSchema (below : Value → String → Except ConfigError Unit) (schema : Value)
    (path schemaType : String) : Except ConfigError Unit :=
  match schema.get "items" with
  | .null => pure ()
  | .obj items => do
    requireSchema (schemaType = "array") s!"items at {path} must be an object schema on arrays"
    below (.obj items) s!"{path}.items"
  | _ => .error (.schema s!"items at {path} must be an object schema on arrays")

def validateSchemaNode (py : PythonRuntime) :
    Nat → Value → String → SchemaKind → Except ConfigError Unit
  | 0, _, _, _ => .error (.schema "document exceeds maximum depth of 32")
  | fuel + 1, schema, path, kind => do
    schema.members.forM fun member =>
      requireSchema (member.1 ∈ allowedKeywords)
        s!"unsupported JSON Schema keyword at {path}: {member.1}"
    requireSchema (constrained schema "$schema" fun value =>
      value.pyEq py.whole (.str "https://json-schema.org/draft/2020-12/schema"))
      s!"unsupported $schema at {path}"
    match schemaType? schema with
    | none => .error (.schema s!"schema type at {path} must be one supported JSON type")
    | some schemaType => do
      requireSchema (kind ≠ .root || schemaType = "object")
        "schema root type must be object"
      validateImmutable schema kind
      validateMetadata schema path
      validateCommonConstraints py schema path schemaType
      validateDefault schema
      validateProperties (fun child path => validateSchemaNode py fuel child path .property)
        schema path schemaType
      validateRequired schema path schemaType
      requireSchema (constrained schema "additionalProperties" Value.isBool)
        "additionalProperties must be boolean"
      validateItemsSchema (fun child path => validateSchemaNode py fuel child path .items)
        schema path schemaType

/-- `validate_config_schema`. -/
def validateConfigSchema (py : PythonRuntime) (schema : Value) : Except ConfigError Unit := do
  match schema with
  | .obj _ => pure ()
  | _ => .error (.schema "schema root must be a JSON object")
  ensureDepthWithinLimit .schema schema
  ensureEffectiveSize .schema "schema" schema
  validateSchemaNode py schema.depth schema "$" .root

/-- Refuse unless the condition holds. -/
def requireConfig (condition : Bool) (message : String) : Except ConfigError Unit :=
  if condition then pure () else .error (.configuration message)

/-- Refuse unless a keyword is absent or lets the value pass; Python cannot compare with a null. -/
def requireBound (schema : Value) (key : String) (passes : Value → Bool) (message : String) :
    Except ConfigError Unit :=
  match schema.get? key with
  | none => pure ()
  | some .null => .error (.typeError key)
  | some bound => requireConfig (passes bound) message

def requireSize (schema : Value) (key : String) (passes : Int → Bool) (message : String) :
    Except ConfigError Unit :=
  requireBound schema key (fun bound =>
    match bound with
    | .int bound => passes bound
    | .null | .bool _ | .float _ | .str _ | .arr _ | .obj _ => false) message

def applyDefaults : Nat → Value → List (String × Value) → List (String × Value)
  | 0, _, config => config
  | fuel + 1, schema, config =>
    (schema.get "properties").members.foldl (fun effective property =>
      match effective.lookup property.1, property.2.get? "default" with
      | none, some value => Value.assign property.1 value effective
      | some (.obj nested), _ =>
        if (property.2.get "type").pyEq (fun _ => none) (.str "object") then
          Value.assign property.1 (.obj (applyDefaults fuel property.2 nested)) effective
        else effective
      | _, _ => effective) config

def matchesType (schemaType : String) (value : Value) : Bool :=
  match schemaType, value with
  | "null", .null | "boolean", .bool _ | "integer", .int _ | "number", .int _
  | "number", .float _ | "string", .str _ | "array", .arr _ | "object", .obj _ => true
  | _, _ => false

/-- `_matches_type`; it converts a value that may be a number. -/
def requireType (schemaType : String) (value : Value) (path : String) :
    Except ConfigError Unit :=
  if schemaType = "number" && !isConvertible value then .error .overflowError
  else requireConfig (matchesType schemaType value) s!"{path} must be {schemaType}"

/-- Whether a keyword is absent or lets the value pass. -/
def admits (schema : Value) (key : String) (passes : Value → Bool) : Bool :=
  match schema.get? key with
  | none => true
  | some bound => passes bound

def requireMultiple (py : PythonRuntime) (schema value : Value) (path : String) :
    Except ConfigError Unit :=
  match schema.get? "multipleOf" with
  | none => pure ()
  | some .null => .error (.typeError "multipleOf")
  | some divisor =>
    match py.isMultiple value divisor with
    | none => .error .overflowError
    | some passes => requireConfig passes s!"{path} is not a multipleOf value"

def validateNumericConstraints (py : PythonRuntime) (schema value : Value) (path : String) :
    Except ConfigError Unit := do
  requireBound schema "minimum" (fun bound => !py.less value bound)
    s!"{path} is below minimum"
  requireBound schema "maximum" (fun bound => !py.less bound value)
    s!"{path} is above maximum"
  requireBound schema "exclusiveMinimum" (fun bound => py.less bound value)
    s!"{path} is not above exclusiveMinimum"
  requireBound schema "exclusiveMaximum" (fun bound => py.less value bound)
    s!"{path} is not below exclusiveMaximum"
  requireMultiple py schema value path

def isLabel (py : PythonRuntime) (label : String) : Bool :=
  0 < label.length && label.length ≤ 63 &&
    py.fullmatch "[A-Za-z0-9](?:[A-Za-z0-9-]*[A-Za-z0-9])?" label

def matchesFormat (py : PythonRuntime) (format value : String) : Bool :=
  match format with
  | "email" => py.fullmatch "[^@\\s]+@[^@\\s]+\\.[^@\\s]+" value
  | "hostname" => !value.isEmpty && value.length ≤ 253 &&
      ((value.dropEndWhile '.').toString.splitOn ".").all (isLabel py)
  | "date" => py.reads "date-time" (value ++ "T00:00:00") &&
      py.fullmatch "\\d\x7b4\x7d-\\d\x7b2\x7d-\\d\x7b2\x7d" value
  | "date-time" => py.reads "date-time" (value.replace "Z" "+00:00")
  | "uuid" | "ipv4" | "ipv6" | "uri" => py.reads format value
  | _ => false

def validateStringConstraints (py : PythonRuntime) (schema : Value) (value path : String) :
    Except ConfigError Unit := do
  requireSize schema "minLength" (· ≤ value.length)
    s!"{path} is shorter than minLength"
  requireSize schema "maxLength" ((value.length : Int) ≤ ·)
    s!"{path} is longer than maxLength"
  requireBound schema "pattern" (fun pattern =>
    pattern.str?.any fun pattern => py.search pattern value) s!"{path} does not match pattern"
  requireConfig (admits schema "format" fun format =>
    format.str?.any fun format => matchesFormat py format value) s!"{path} does not match format"

def validateArraySizes (schema : Value) (items : List Value) (path : String) :
    Except ConfigError Unit := do
  requireSize schema "minItems" (· ≤ items.length) s!"{path} has too few items"
  requireSize schema "maxItems" ((items.length : Int) ≤ ·)
    s!"{path} has too many items"
  requireConfig (!(schema.get "uniqueItems").isTrue || (items.map canonicalText).Nodup)
    s!"{path} contains duplicate items"

/-- The names of `required`; Python cannot go through a null. -/
def requireNames (schema : Value) (members : List (String × Value)) (path : String) :
    Except ConfigError Unit :=
  match schema.get? "required" with
  | none => pure ()
  | some (.arr names) =>
    (names.filterMap Value.str?).forM fun name =>
      requireConfig (members.lookup name).isSome s!"{path}.{name} is required"
  | some _ => .error (.typeError "required")

/-- No property but the declared ones, where `additionalProperties` is false. -/
def requireKnown (schema : Value) (members : List (String × Value)) (path : String) :
    Except ConfigError Unit :=
  match schema.get? "additionalProperties" with
  | some (.bool false) =>
    match members.find? fun member =>
        ((schema.get "properties").get? member.1).isNone with
    | some member => .error (.configuration
        s!"{path}.{member.1} is not an allowed property")
    | none => pure ()
  | _ => pure ()

def validateObjectMembers (schema : Value) (members : List (String × Value)) (path : String) :
    Except ConfigError Unit := do
  requireSize schema "minProperties" (· ≤ members.length)
    s!"{path} has too few properties"
  requireSize schema "maxProperties" ((members.length : Int) ≤ ·)
    s!"{path} has too many properties"
  requireNames schema members path
  requireKnown schema members path

def validateInstance (py : PythonRuntime) :
    Nat → Value → Value → String → Except ConfigError Unit
  | 0, _, _, _ => .error (.configuration "document exceeds maximum depth of 32")
  | fuel + 1, schema, value, path => do
    match schemaType? schema with
    | none => .error (.configuration s!"{path} has no type")
    | some schemaType => do
      requireType schemaType value path
      requireBound schema "enum" (fun entries =>
        match entries with
        | .arr entries => entries.any fun entry => value.pyEq py.whole entry
        | _ => false) s!"{path} must match one enum value"
      requireConfig (admits schema "const" fun constant => value.pyEq py.whole constant)
        s!"{path} must match const value"
      match value with
      | .int _ | .float _ => validateNumericConstraints py schema value path
      | .str text => validateStringConstraints py schema text path
      | .arr items => do
        validateArraySizes schema items path
        match schema.get "items" with
        | .obj itemSchema =>
          items.zipIdx.forM fun item =>
            validateInstance py fuel (.obj itemSchema) item.1 s!"{path}[{item.2}]"
        | _ => pure ()
      | .obj members => do
        validateObjectMembers schema members path
        (schema.get "properties").members.forM fun property =>
          match members.lookup property.1 with
          | none => pure ()
          | some member =>
            validateInstance py fuel property.2 member s!"{path}.{property.1}"
      | .null | .bool _ => pure ()

/-- `validate_config` of a document that can be written: the effective configuration of an
accepted schema. -/
def validateConfig (py : PythonRuntime) (schema config : Value) : Except ConfigError Value := do
  match config with
  | .obj members => do
    ensureDepthWithinLimit .configuration config
    ensureEffectiveSize .configuration "configuration" config
    let effective := Value.obj (applyDefaults config.depth schema members)
    ensureDepthWithinLimit .configuration effective
    ensureEffectiveSize .configuration "configuration" effective
    validateInstance py (effective.depth + 1) schema effective "$"
    pure effective
  | _ => .error (.configuration "configuration root must be a JSON object")

mutual

/-- `_ensure_json_value`, whose stack takes the last part first. -/
def ensureJsonValue : Python.Value Python.Text → Except ConfigError Unit
  | .scalar .nonFinite => .error (.configuration "numbers must be finite JSON values")
  | .scalar .foreign | .sequence .frozen _ | .mapping .frozen _ =>
    .error (.configuration "document contains a non-JSON value")
  | .scalar .none | .scalar (.bool _) | .scalar (.int _) | .scalar (.float _)
  | .scalar (.str _) => pure ()
  | .sequence .plain items => ensureJsonItems items
  | .mapping .plain members => ensureJsonMembers members

def ensureJsonItems : List (Python.Value Python.Text) → Except ConfigError Unit
  | [] => pure ()
  | item :: rest => do
    ensureJsonItems rest
    ensureJsonValue item

def ensureJsonMembers : List (Python.Text × Python.Value Python.Text) → Except ConfigError Unit
  | [] => pure ()
  | (_, item) :: rest => do
    ensureJsonMembers rest
    ensureJsonValue item

end

/-- `extract_immutable_property_names`: the annotated properties of the root. -/
def extractImmutablePropertyNames (schema : Value) : List String :=
  ((schema.get "properties").members.filter fun property =>
    (property.2.get "x-nervos-immutable").isTrue).map Prod.fst

/-- `check_immutable_fields`. -/
def checkImmutableFields (py : PythonRuntime) (currentConfig newConfig : Value)
    (immutableFields : List String) : Except ConfigError Unit :=
  immutableFields.forM fun field =>
    if ((currentConfig.get? field).isSome || (newConfig.get? field).isSome) &&
        !(currentConfig.get field).pyEq py.whole (newConfig.get field) then
      .error (.immutable s!"Immutable configuration field '{field}' cannot be modified.")
    else pure ()

open Json Relational

structure PackageVersion where
  packageVersion : String
  active : Bool
  installable : Bool
  configSchema : Value

/-- The instance and its binding; the stored text of a configuration reads back as it was. -/
structure PackageInstance where
  ownerUserId : Nat
  packageVersion : String
  effectiveConfig : Value
  configRevision : Nat

inductive PackageError where
  | config (error : ConfigError)
  | instanceNotFound
  | versionNotFound
  | revoked
  | notActive
  | staleRevision
deriving DecidableEq

/-- One successful call: the schema in force, and the effective configuration around it. -/
structure ConfigChange where
  schema : Value
  before : Value
  after : Value
deriving DecidableEq

/-- The registry, the instance, and the calls that succeeded so far, the last one first. -/
structure PackageSystem where
  versions : List PackageVersion
  binding : PackageInstance
  changes : List ConfigChange := []

inductive PackageOp where
  | updateConfig (ownerUserId : Nat) (config : Value) (expectedConfigRevision : Nat)
  | rebind (ownerUserId : Nat) (targetPackageVersion : String) (config : Option Value)
      (expectedConfigRevision : Nat)
  | registry (versions : List PackageVersion)

def liftConfig {α : Type} (outcome : Except ConfigError α) : Except PackageError α :=
  outcome.mapError .config

def carryForward (target : String) : Except ConfigError Value → Except ConfigError Value
  | .error (.configuration message) => .error (.carryForward
      s!"Current configuration is incompatible with {target}: {message}")
  | outcome => outcome

namespace PackageSystem

variable (py : PythonRuntime) (system : PackageSystem)

def version? (packageVersion : String) : Option PackageVersion :=
  system.versions.find? (·.packageVersion = packageVersion)

def owned (ownerUserId : Nat) : Except PackageError PackageVersion :=
  if ownerUserId = system.binding.ownerUserId then
    (system.version? system.binding.packageVersion).elim (.error .versionNotFound) .ok
  else .error .instanceNotFound

def rebindTarget (targetPackageVersion : String) : Except PackageError PackageVersion :=
  match system.version? targetPackageVersion with
  | none => .error .versionNotFound
  | some target =>
    if target.installable = false then .error .revoked
    else if target.active = false then .error .notActive
    else .ok target

def bindConfig (packageVersion : String) (effective : Value) (expectedConfigRevision : Nat) :
    Except PackageError PackageInstance :=
  if system.binding.configRevision = expectedConfigRevision then
    .ok { system.binding with
      packageVersion
      effectiveConfig := effective
      configRevision := expectedConfigRevision + 1 }
  else .error .staleRevision

/-- `update_instance_config`, with the schema that was in force. -/
def updateInstanceConfig (ownerUserId : Nat) (config : Value) (expectedConfigRevision : Nat) :
    Except PackageError (Value × PackageInstance) := do
  let detail ← system.owned ownerUserId
  liftConfig (validateConfigSchema py detail.configSchema)
  let effective ← liftConfig (validateConfig py detail.configSchema config)
  liftConfig (checkImmutableFields py system.binding.effectiveConfig effective
    (extractImmutablePropertyNames detail.configSchema))
  let binding ← system.bindConfig system.binding.packageVersion effective
    expectedConfigRevision
  pure (detail.configSchema, binding)

/-- What a rebind makes effective: the submitted configuration, or the current one. -/
def rebindConfig (target : PackageVersion) : Option Value → Except ConfigError Value
  | some config => validateConfig py target.configSchema config
  | none => carryForward target.packageVersion
      (validateConfig py target.configSchema system.binding.effectiveConfig)

/-- `rebind_instance`, with the schema that is then in force. -/
def rebindInstance (ownerUserId : Nat) (targetPackageVersion : String) (config : Option Value)
    (expectedConfigRevision : Nat) : Except PackageError (Value × PackageInstance) := do
  let _ ← system.owned ownerUserId
  let target ← system.rebindTarget targetPackageVersion
  liftConfig (validateConfigSchema py target.configSchema)
  let effective ← liftConfig (system.rebindConfig py target config)
  liftConfig (checkImmutableFields py system.binding.effectiveConfig effective
    (extractImmutablePropertyNames target.configSchema))
  let binding ← system.bindConfig targetPackageVersion effective expectedConfigRevision
  pure (target.configSchema, binding)

/-- A call that succeeded is noted; one that failed changes nothing. -/
def succeed : Except PackageError (Value × PackageInstance) → PackageSystem
  | .error _ => system
  | .ok (schema, binding) =>
    { system with
      binding
      changes := ⟨schema, system.binding.effectiveConfig, binding.effectiveConfig⟩ ::
        system.changes }

def exec : PackageOp → PackageSystem
  | .updateConfig ownerUserId config expectedConfigRevision =>
    system.succeed (system.updateInstanceConfig py ownerUserId config expectedConfigRevision)
  | .rebind ownerUserId targetPackageVersion config expectedConfigRevision =>
    system.succeed (system.rebindInstance py ownerUserId targetPackageVersion config
      expectedConfigRevision)
  | .registry versions => { system with versions }

end PackageSystem

/-- Every sequence of calls about one instance. -/
def packageInstances (py : PythonRuntime) (versions : List PackageVersion)
    (binding : PackageInstance) : Machine PackageSystem PackageOp where
  init := { versions := versions, binding := binding }
  exec op system := system.exec py op

end NervOS
