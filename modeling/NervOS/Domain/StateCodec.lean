/-
The codec of workflow states, over Python values: the normalisation, the JSON contract, the
measure, the canonical text, the frozen copy and its thawing.  A refusal is an
`InvalidWorkflow`; whatever else a builtin raises is `raised`.
-/
import NervOS.Domain.Workflows
import NervOS.Python.Value

namespace NervOS

namespace StateCodec

open Python

section Contract

inductive JsonValueReason where
  | notAJsonType
  | nonFiniteNumber
  | nonStringKey
  | depthExceeded
deriving DecidableEq

def JsonValueReason.text : JsonValueReason → String
  | .notAJsonType => "not_a_json_type"
  | .nonFiniteNumber => "non_finite_number"
  | .nonStringKey => "non_string_key"
  | .depthExceeded => "depth_exceeded"

structure JsonRejection where
  reason : JsonValueReason
  path : Text
deriving DecidableEq

def jsonValueMaxDepth : Nat := 16

variable {K : Type} (string? : K → Option Text) (maxDepth : Nat)

mutual

/-- The reason a value is outside the JSON contract; `string?` tells which keys are strings. -/
def validateJsonValue : Value K → Text → Nat → Option JsonRejection
  | .scalar .nonFinite, path, _ => some ⟨.nonFiniteNumber, path⟩
  | .scalar .foreign, path, _ => some ⟨.notAJsonType, path⟩
  | .scalar .none, _, _ | .scalar (.bool _), _, _ | .scalar (.int _), _, _
  | .scalar (.float _), _, _ | .scalar (.str _), _, _ => none
  | .sequence .frozen _, path, _ | .mapping .frozen _, path, _ => some ⟨.notAJsonType, path⟩
  | .sequence .plain items, path, depth =>
    if maxDepth ≤ depth then some ⟨.depthExceeded, path⟩
    else validateItems items path 0 (depth + 1)
  | .mapping .plain members, path, depth =>
    if maxDepth ≤ depth then some ⟨.depthExceeded, path⟩
    else validateMembers members path (depth + 1)

def validateItems : List (Value K) → Text → Nat → Nat → Option JsonRejection
  | [], _, _, _ => none
  | item :: rest, path, index, depth =>
    match validateJsonValue item (path ++ text "[" ++ text (toString index) ++ text "]")
      depth with
    | some rejection => some rejection
    | none => validateItems rest path (index + 1) depth

def validateMembers : List (K × Value K) → Text → Nat → Option JsonRejection
  | [], _, _ => none
  | (key, item) :: rest, path, depth =>
    match string? key with
    | none => some ⟨.nonStringKey, path⟩
    | some key =>
      match validateJsonValue item (path ++ text "." ++ key) depth with
      | some rejection => some rejection
      | none => validateMembers rest path depth

end

mutual

/-- The count of the nodes, on top of the count so far, or the text of the refusal. -/
def measure : Value K → Nat → Nat → Except String Nat
  | value, depth, counter =>
    if jsonMaxDepth < depth then .error "workflow state exceeds the depth bound"
    else if jsonMaxNodes < counter + 1 then .error "workflow state exceeds the node bound"
    else
      match value with
      | .scalar s =>
        if s = .nonFinite then .error "workflow state must contain finite numbers only"
        else .ok (counter + 1)
      | .sequence _ items => measureItems items (depth + 1) (counter + 1)
      | .mapping _ members => measureMembers members (depth + 1) (counter + 1)

def measureItems : List (Value K) → Nat → Nat → Except String Nat
  | [], _, counter => .ok counter
  | item :: rest, depth, counter => do
    let counter ← measure item depth counter
    measureItems rest depth counter

def measureMembers : List (K × Value K) → Nat → Nat → Except String Nat
  | [], _, counter => .ok counter
  | (key, item) :: rest, depth, counter =>
    if (string? key).isNone then .error "workflow state keys must be strings"
    else do
      let counter ← measure item depth counter
      measureMembers rest depth counter

end

end Contract

section Conversions

variable {κ : Type} (str? : κ → Option Text)

/-- `str(k)`, or nothing where it raises. -/
def keyText : Key κ → Option Text
  | .str text => some text
  | .other object => str? object

mutual

/-- Any accepted shape as plain lists and dicts.  The recursion goes as deep as the value;
`none` when it meets the end of the stack, or a key without a text. -/
def asPlainJson : Value (Key κ) → Nat → Option (Value Text)
  | _, 0 => none
  | .scalar s, _ + 1 => some (.scalar s)
  | .sequence _ items, stack + 1 => (asPlainItems items stack).map (.sequence .plain)
  | .mapping _ members, stack + 1 =>
    (asPlainMembers members stack).map fun members => .mapping .plain (dict members)

def asPlainItems : List (Value (Key κ)) → Nat → Option (List (Value Text))
  | [], _ => some []
  | item :: rest, stack => do
    let item ← asPlainJson item stack
    let rest ← asPlainItems rest stack
    pure (item :: rest)

def asPlainMembers : List (Key κ × Value (Key κ)) → Nat → Option (List (Text × Value Text))
  | [], _ => some []
  | (key, item) :: rest, stack => do
    let key ← keyText str? key
    let item ← asPlainJson item stack
    let rest ← asPlainMembers rest stack
    pure ((key, item) :: rest)

end

mutual

def freeze : Value Text → Value Text
  | .scalar s => .scalar s
  | .sequence .plain items => .sequence .frozen (freezeItems items)
  | .mapping .plain members => .mapping .frozen (dict (freezeMembers members))
  | .sequence .frozen items => .sequence .frozen items
  | .mapping .frozen members => .mapping .frozen members

def freezeItems : List (Value Text) → List (Value Text)
  | [] => []
  | item :: rest => freeze item :: freezeItems rest

def freezeMembers : List (Text × Value Text) → List (Text × Value Text)
  | [] => []
  | (key, item) :: rest => (key, freeze item) :: freezeMembers rest

end

mutual

def thawState : Value Text → Value Text
  | .scalar s => .scalar s
  | .sequence .frozen items => .sequence .plain (thawItems items)
  | .sequence .plain items => .sequence .plain items
  | .mapping _ members => .mapping .plain (dict (thawMembers members))

def thawItems : List (Value Text) → List (Value Text)
  | [] => []
  | item :: rest => thawState item :: thawItems rest

def thawMembers : List (Text × Value Text) → List (Text × Value Text)
  | [] => []
  | (key, item) :: rest => (key, thawState item) :: thawMembers rest

end

end Conversions

def scalarJson? : Scalar → Option Json.Value
  | .none => some .null
  | .bool value => some (.bool value)
  | .int value => if value.natAbs < 10 ^ maxIntDigits then some (.int value) else none
  | .float value => some (.float value)
  | .str text => (encode? text).map .str
  | .nonFinite | .foreign => none

mutual

/-- What `canonical_json_text` and its encoding write: nothing where an integer has too many
digits, a string a lone surrogate, or a scalar is none of JSON. -/
def json? : Value Text → Option Json.Value
  | .scalar s => scalarJson? s
  | .sequence _ items => (jsonItems? items).map .arr
  | .mapping _ members =>
    (jsonMembers? members).map fun members => .obj (Json.Value.ofMembers members)

def jsonItems? : List (Value Text) → Option (List Json.Value)
  | [] => some []
  | item :: rest => do
    let item ← json? item
    let rest ← jsonItems? rest
    pure (item :: rest)

def jsonMembers? : List (Text × Value Text) → Option (List (String × Json.Value))
  | [] => some []
  | (key, item) :: rest => do
    let key ← encode? key
    let item ← json? item
    let rest ← jsonMembers? rest
    pure ((key, item) :: rest)

end

inductive Failure where
  | invalidWorkflow (message : Text)
  | raised
deriving DecidableEq

def requireStateJson {κ : Type} (str? : κ → Option Text) (stack : Nat)
    (value : Value (Key κ)) : Except Failure (Value Text) :=
  match asPlainJson str? value stack with
  | none => .error .raised
  | some plain =>
    match validateJsonValue some jsonValueMaxDepth plain (text "$") 0 with
    | some rejection => .error (.invalidWorkflow (text "workflow state is not valid JSON: " ++
        text rejection.reason.text ++ text " at " ++ rejection.path))
    | none => .ok plain

def requireStateObject {κ : Type} (str? : κ → Option Text) (stack : Nat)
    (value : Value (Key κ)) : Except Failure (Value Text) := do
  match ← requireStateJson str? stack value with
  | .mapping .plain members => .ok (.mapping .plain members)
  | .mapping .frozen _ | .sequence _ _ | .scalar _ =>
    .error (.invalidWorkflow (text "workflow state must be a JSON object"))

/-- Validate one application state object and return an immutable deep copy. -/
def freezeState {κ : Type} (str? : κ → Option Text) (stack : Nat) (value : Value (Key κ)) :
    Except Failure (Value Text) := do
  let state ← requireStateObject str? stack value
  match measure some state 1 0 with
  | .error message => .error (.invalidWorkflow (text message))
  | .ok _ =>
    match json? state with
    | none => .error .raised
    | some json =>
      if checkpointMaxBytes < utf8Length (Json.canonicalText json) then
        .error (.invalidWorkflow (text "workflow state exceeds the byte bound"))
      else .ok (freeze state)

def stateDigest (state : Value Text) : Option Digest :=
  (json? (thawState state)).map fun json => .text (Json.canonicalText json)

attribute [simp] validateJsonValue validateItems validateMembers measure measureItems
  measureMembers asPlainJson asPlainItems asPlainMembers freeze freezeItems freezeMembers
  thawState thawItems thawMembers json? jsonItems? jsonMembers?

end StateCodec

end NervOS
