/-
The canonical subset of tool schemas: which documents are in it, and which values conform to an
accepted one.  A refusal is a verdict; what a builtin raises on the way is `raised`.
-/
import Mathlib.Data.Rat.Defs
import NervOS.Domain.StateCodec

namespace NervOS

namespace SchemaGate

open Python StateCodec

def maxSchemaDepth : Nat := 8
def maxSchemaNodes : Nat := 128
def maxSchemaBytes : Nat := 65536
def maxEnumEntries : Nat := 32
def maxDescriptionBytes : Nat := 65536
def maxSchemaJsonDepth : Nat := 2 * maxSchemaDepth + 4

inductive NodeType where
  | object
  | array
  | string
  | number
  | integer
  | boolean
deriving DecidableEq

def NodeType.name : NodeType → String
  | .object => "object"
  | .array => "array"
  | .string => "string"
  | .number => "number"
  | .integer => "integer"
  | .boolean => "boolean"

def nodeTypes : List NodeType := [.object, .array, .string, .number, .integer, .boolean]

def objectKeys : List String :=
  ["type", "properties", "required", "additionalProperties", "description"]

def scalarKeys : List String := ["type", "enum", "description"]

def arrayKeys : List String := ["type", "items", "description"]

def NodeType.allowedKeys : NodeType → List String
  | .object => objectKeys
  | .array => arrayKeys
  | .string | .number | .integer | .boolean => scalarKeys

def anyNodeKeys : List String := objectKeys ++ scalarKeys ++ arrayKeys

inductive SchemaRejectionReason where
  | notAnObject
  | unsupportedKeyword
  | rootNotObject
  | propertiesMissing
  | propertiesNotObject
  | requiredNotList
  | requiredInconsistent
  | additionalPropertiesNotFalse
  | itemsMissing
  | malformedType
  | malformedEnum
  | malformedDescription
  | depthExceeded
  | nodeLimitExceeded
  | bytesExceeded

inductive InstanceRejectionReason where
  | notJson
  | typeMismatch
  | unknownProperty
  | missingRequired
  | enumMismatch
  | depthExceeded
  | bytesExceeded

/-- What a verdict adds: a text, or the `repr` of a value. -/
inductive Detail where
  | text (source : Text)
  | repr (value : Value Text)

/-- One typed reason, with its location and what it adds. -/
structure Rejection (R : Type) where
  reason : R
  path : Text
  detail : Option Detail

/-- Why a check does not pass: its verdict, or an exception of a builtin. -/
inductive Stop (R : Type) where
  | raised
  | rejected (rejection : Rejection R)

/-- A check of one of the two validators. -/
abbrev Checked (R : Type) : Type → Type := Except (Stop R)

structure CanonicalSchema where
  root : Value Text
  nodeCount : Nat

/-- The depth that is always applied, and the bytes that a caller may ask for. -/
structure InstanceLimits where
  maxDepth : Nat
  maxBytes : Option Nat

section Reading

abbrev Members : Type := List (Text × Value Text)

def get? (members : Members) (key : Text) : Option (Value Text) :=
  (members.find? fun member => decide (member.1 = key)).map Prod.snd

/-- `mapping.get(key)` -/
def get (members : Members) (key : String) : Value Text :=
  (get? members (text key)).getD (.scalar .none)

mutual

/-- `repr` writes the value; it raises on an integer with too many digits. -/
def hasRepr : Value Text → Bool
  | .scalar (.int value) => decide (value.natAbs < 10 ^ maxIntDigits)
  | .scalar .none | .scalar (.bool _) | .scalar (.float _) | .scalar .nonFinite
  | .scalar (.str _) | .scalar .foreign => true
  | .sequence _ items => hasReprItems items
  | .mapping _ members => hasReprMembers members

def hasReprItems : List (Value Text) → Bool
  | [] => true
  | item :: rest => hasRepr item && hasReprItems rest

def hasReprMembers : List (Text × Value Text) → Bool
  | [] => true
  | (_, value) :: rest => hasRepr value && hasReprMembers rest

end

variable {R α : Type}

def reject (reason : R) (path : Text) (detail : Option Detail) : Checked R α :=
  .error (.rejected ⟨reason, path, detail⟩)

/-- A verdict whose detail is the `repr` of a value. -/
def rejectRepr (reason : R) (path : Text) (value : Value Text) : Checked R α :=
  if hasRepr value = true then reject reason path (some (.repr value)) else .error .raised

/-- Strict, coercion-free type membership. -/
def matchesDeclaredType : NodeType → Value Text → Bool
  | .boolean, .scalar (.bool _) => true
  | .string, .scalar (.str _) => true
  | .integer, .scalar (.int _) => true
  | .number, .scalar (.int _) | .number, .scalar (.float _) | .number, .scalar .nonFinite => true
  | _, _ => false

end Reading

/-- `node_type in _ALLOWED_KEYS` -/
def nodeType? : Value Text → Option NodeType
  | .scalar (.str source) => nodeTypes.find? fun type => decide (text type.name = source)
  | _ => none

/-- The first key outside of a set. -/
def unsupportedKey? (allowed : List String) (members : Members) : Option Text :=
  (members.map Prod.fst).find? fun key => ! allowed.any fun name => decide (text name = key)

def checkKeywords (members : Members) (path : Text) (isRoot : Bool) :
    Checked SchemaRejectionReason NodeType :=
  match nodeType? (get members "type") with
  | none =>
    match unsupportedKey? anyNodeKeys members with
    | some keyword => reject .unsupportedKeyword path (some (.text keyword))
    | none => rejectRepr .malformedType path (get members "type")
  | some type =>
    if isRoot = true ∧ type ≠ .object then
      reject .rootNotObject path (some (.text (text type.name)))
    else
      match unsupportedKey? type.allowedKeys members with
      | some keyword => reject .unsupportedKeyword path (some (.text keyword))
      | none => .ok type

/-- `_is_bounded_text`; nothing where encoding the text raises. -/
def isBoundedText (maxBytes : Nat) : Value Text → Option Bool
  | .scalar (.str source) =>
    (encode? source).map fun encoded => decide (utf8Length encoded ≤ maxBytes)
  | _ => some false

def checkDescription (members : Members) (path : Text) : Checked SchemaRejectionReason Unit :=
  match get members "description" with
  | .scalar .none => .ok ()
  | description =>
    match isBoundedText maxDescriptionBytes description with
    | none => .error .raised
    | some true => .ok ()
    | some false => reject .malformedDescription path none

def checkAdditional (members : Members) (path : Text) : Checked SchemaRejectionReason Unit :=
  match get members "additionalProperties" with
  | .scalar .none | .scalar (.bool false) => .ok ()
  | _ => reject .additionalPropertiesNotFalse (path ++ text ".additionalProperties") none

/-- The entries of `required`, after the seen ones. -/
def checkRequired (properties : Members) (path : Text) :
    List Text → List (Value Text) → Checked SchemaRejectionReason Unit
  | _, [] => .ok ()
  | seen, .scalar (.str name) :: rest =>
    if (get? properties name).isNone = true ∨ seen.any (fun other => decide (other = name)) = true
    then rejectRepr .requiredInconsistent path (.scalar (.str name))
    else checkRequired properties path (name :: seen) rest
  | _, entry :: _ => rejectRepr .requiredInconsistent path entry

def checkRequiredOf (members properties : Members) (path : Text) :
    Checked SchemaRejectionReason Unit :=
  match get members "required" with
  | .scalar .none => .ok ()
  | .sequence .plain entries => checkRequired properties (path ++ text ".required") [] entries
  | _ => reject .requiredNotList (path ++ text ".required") none

/-- The entries of an `enum`, after the seen ones; one that was seen has its type and `repr`. -/
def checkEntries (type : NodeType) (path : Text) :
    List Scalar → List (Value Text) → Checked SchemaRejectionReason Unit
  | _, [] => .ok ()
  | seen, .scalar entry :: rest =>
    if matchesDeclaredType type (.scalar entry) = false then
      rejectRepr .malformedEnum path (.scalar entry)
    else if hasRepr (.scalar entry) = false then .error .raised
    else if seen.any (fun other => decide (other = entry)) = true then
      reject .malformedEnum path (some (.repr (.scalar entry)))
    else checkEntries type path (entry :: seen) rest
  | _, entry :: _ => rejectRepr .malformedEnum path entry

def validateScalarNode (type : NodeType) (members : Members) (path : Text) :
    Checked SchemaRejectionReason Unit :=
  match get members "enum" with
  | .scalar .none => .ok ()
  | .sequence .plain entries =>
    if 1 ≤ entries.length ∧ entries.length ≤ maxEnumEntries then
      checkEntries type (path ++ text ".enum") [] entries
    else reject .malformedEnum (path ++ text ".enum") none
  | _ => reject .malformedEnum (path ++ text ".enum") none

/-- One node, over the walk of the nodes below it; both count the nodes on top of a count. -/
abbrev Walk : Type := Text → Value Text → Nat → Checked SchemaRejectionReason Nat

def validateObjectNode (below : Walk) (members : Members) (path : Text) (count : Nat) :
    Checked SchemaRejectionReason Nat :=
  match get members "properties" with
  | .scalar .none => reject .propertiesMissing path none
  | .mapping .plain properties => do
    let count ← properties.foldlM (fun count property =>
      below (path ++ text ".properties." ++ property.1) property.2 count) count
    checkAdditional members path
    checkRequiredOf members properties path
    pure count
  | _ => reject .propertiesNotObject (path ++ text ".properties") none

def validateArrayNode (below : Walk) (members : Members) (path : Text) (count : Nat) :
    Checked SchemaRejectionReason Nat :=
  match get members "items" with
  | .scalar .none => reject .itemsMissing path none
  | items => below (path ++ text ".items") items count

def validateNode : Nat → Bool → Walk
  | 0, _, path, _, _ =>
    reject .depthExceeded path (some (.text (text (toString (maxSchemaDepth + 1)))))
  | levels + 1, isRoot, path, .mapping .plain members, count =>
    if maxSchemaNodes < count + 1 then
      reject .nodeLimitExceeded path (some (.text (text (toString (count + 1)))))
    else do
      let type ← checkKeywords members path isRoot
      checkDescription members path
      match type with
      | .object => validateObjectNode (validateNode levels false) members path (count + 1)
      | .array => validateArrayNode (validateNode levels false) members path (count + 1)
      | .string | .number | .integer | .boolean => do
        validateScalarNode type members path
        pure (count + 1)
  | _ + 1, _, path, _, _ => reject .notAnObject path none

def validateCanonicalSchema (schema : Value Text) : Checked SchemaRejectionReason CanonicalSchema :=
  match validateJsonValue some maxSchemaJsonDepth schema (text "$") 0 with
  | some rejection =>
    if rejection.reason = .depthExceeded then reject .depthExceeded rejection.path none
    else reject .notAnObject rejection.path (some (.text (text rejection.reason.text)))
  | none =>
    match schema with
    | .mapping .plain members => do
      let count ← validateNode maxSchemaDepth true (text "$") (.mapping .plain members) 0
      match json? schema with
      | none => .error .raised
      | some json =>
        if maxSchemaBytes < utf8Length (Json.canonicalText json) then
          reject .bytesExceeded (text "$")
            (some (.text (text (toString (utf8Length (Json.canonicalText json))))))
        else .ok ⟨schema, count⟩
    | _ => reject .notAnObject (text "$") none

variable (floatValue : Json.FloatText → ℚ)

/-- Python's `==` between two values of one JSON type. -/
def scalarEq : Scalar → Scalar → Bool
  | .int left, .int right => decide (left = right)
  | .int left, .float right => decide ((left : ℚ) = floatValue right)
  | .float left, .int right => decide (floatValue left = (right : ℚ))
  | .float left, .float right => decide (floatValue left = floatValue right)
  | .bool left, .bool right => decide (left = right)
  | .str left, .str right => decide (left = right)
  | _, _ => false

/-- `_enum_matches` between two values of the declared type. -/
def enumMatches : Value Text → Value Text → Bool
  | .scalar entry, .scalar value => scalarEq floatValue entry value
  | _, _ => false

/-- A value against the `enum` of its node, if there is one. -/
def checkEnum (members : Members) (value : Value Text) (path : Text) :
    Checked InstanceRejectionReason Unit :=
  match get members "enum" with
  | .sequence .plain entries =>
    if entries.any (fun entry => enumMatches floatValue entry value) = true then .ok ()
    else rejectRepr .enumMismatch path value
  | _ => .ok ()

def validateScalarInstance (members : Members) (type : NodeType) (value : Value Text)
    (path : Text) : Checked InstanceRejectionReason Unit :=
  if matchesDeclaredType type value = false then
    reject .typeMismatch path (some (.text (text type.name)))
  else
    match value with
    | .scalar .nonFinite => reject .typeMismatch path (some (.text (text type.name)))
    | _ => checkEnum floatValue members value path

/-- The names of `required` that are strings. -/
def requiredNames (members : Members) : List Text :=
  match get members "required" with
  | .sequence .plain entries => entries.filterMap fun entry => match entry with
      | .scalar (.str name) => some name
      | _ => none
  | _ => []

def isClosed (members : Members) : Bool :=
  match get members "additionalProperties" with
  | .scalar (.bool false) => true
  | _ => false

abbrev Against : Type := Value Text → Value Text → Text → Checked InstanceRejectionReason Unit

def validateObjectInstance (below : Against) (members : Members) (value : Value Text)
    (path : Text) : Checked InstanceRejectionReason Unit :=
  match value with
  | .mapping .plain keyed =>
    match (requiredNames members).find? fun name => (get? keyed name).isNone with
    | some name => reject .missingRequired path (some (.text name))
    | none =>
      match get members "properties" with
      | .mapping .plain properties =>
        keyed.foldlM (fun _ member =>
          match get? properties member.1 with
          | none | some (.scalar .none) =>
            if isClosed members = true then
              reject .unknownProperty path (some (.text member.1))
            else .ok ()
          | some (.mapping .plain node) =>
            below (.mapping .plain node) member.2 (path ++ text "." ++ member.1)
          | some _ => reject .notJson (path ++ text "." ++ member.1) none) ()
      | _ => .error .raised
  | _ => reject .typeMismatch path (some (.text (text NodeType.object.name)))

def validateArrayInstance (below : Against) (members : Members) (value : Value Text)
    (path : Text) : Checked InstanceRejectionReason Unit :=
  match value with
  | .sequence .plain items =>
    items.zipIdx.foldlM (fun _ item =>
      below (get members "items") item.1
        (path ++ text "[" ++ text (toString item.2) ++ text "]")) ()
  | _ => reject .typeMismatch path (some (.text (text NodeType.array.name)))

def validateAgainst : Nat → Against
  | levels + 1, .mapping .plain members, value, path =>
    match nodeType? (get members "type") with
    | none => .error .raised
    | some .object => validateObjectInstance (validateAgainst levels) members value path
    | some .array => validateArrayInstance (validateAgainst levels) members value path
    | some type => validateScalarInstance floatValue members type value path
  | _, _, _, _ => .error .raised

def validateInstance (schema : CanonicalSchema) (value : Value Text) (limits : InstanceLimits) :
    Checked InstanceRejectionReason Unit :=
  match validateJsonValue some limits.maxDepth value (text "$") 0 with
  | some rejection =>
    if rejection.reason = .depthExceeded then reject .depthExceeded rejection.path none
    else reject .notJson rejection.path (some (.text (text rejection.reason.text)))
  | none => do
    validateAgainst floatValue maxSchemaDepth schema.root value (text "$")
    match limits.maxBytes with
    | none => .ok ()
    | some maxBytes =>
      match json? value with
      | none => .error .raised
      | some json =>
        if maxBytes < utf8Length (Json.canonicalText json) then
          reject .bytesExceeded (text "$")
            (some (.text (text (toString (utf8Length (Json.canonicalText json))))))
        else .ok ()

end SchemaGate

end NervOS
