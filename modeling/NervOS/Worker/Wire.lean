/-
The frames between the Worker and the package host: a length in decimal, a newline, and a message
in canonical JSON.  The host and the Worker write them with one function and read them with two.
-/
import NervOS.Package.Archive
import NervOS.Python.Decoder
import NervOS.Worker.PackageSession

namespace NervOS

namespace HostWire

open PackageFormat (Bytes utf8 decodeUtf8?)
open Python StateCodec

def maxHeaderBytes : Nat := 8

/-- What may stand as a key of a `dict` besides a string. -/
inductive KeyObject where
  | none
  | bool (value : Bool)
  | int (value : Int)
  | float (value : Json.FloatText)
  | nonFinite
  | foreign
deriving DecidableEq

/-- A message that is handed to `write_frame`. -/
abbrev Message : Type := Value (Key KeyObject)

section Dumps

/-- The text of a key, if `json.dumps` writes one. -/
def keyText : Key KeyObject → Option String
  | .str source => encode? source
  | .other .none => some "null"
  | .other (.bool true) => some "true"
  | .other (.bool false) => some "false"
  | .other (.int value) =>
    if value.natAbs < 10 ^ maxIntDigits then some (String.ofList (Json.intText value)) else none
  | .other (.float value) => some (String.ofList value.text)
  | .other .nonFinite | .other .foreign => none

def Key.isString : Key KeyObject → Bool
  | .str _ => true
  | .other _ => false

/-- Numbers are compared with each other; a truth value is one. -/
def Key.isNumber : Key KeyObject → Bool
  | .other (.bool _) | .other (.int _) | .other (.float _) => true
  | _ => false

-- compares two numbers
variable (less : Key KeyObject → Key KeyObject → Bool)

/-- The members in the order of `sort_keys`: strings are sorted, and so are numbers, but other
keys are not compared. -/
def sortKeys (keys : List (Key KeyObject)) (members : List (String × Json.Value)) :
    Option (List (String × Json.Value)) :=
  if keys.all Key.isString then some (Json.Value.ofMembers members)
  else if keys.length ≤ 1 ∨ keys.all Key.isNumber then
    some (((keys.zip members).mergeSort fun left right => !less right.1 left.1).map Prod.snd)
  else none

mutual

/-- What `json.dumps` writes; nothing where it raises a `TypeError` or a `ValueError`. -/
def dumps : Message → Option Json.Value
  | .scalar s => scalarJson? s
  | .sequence _ items => (dumpsItems items).map .arr
  | .mapping _ members =>
    (dumpsMembers members).bind fun written =>
      (sortKeys less (members.map Prod.fst) written).map .obj

def dumpsItems : List Message → Option (List Json.Value)
  | [] => some []
  | item :: rest => do
    let item ← dumps item
    let rest ← dumpsItems rest
    pure (item :: rest)

def dumpsMembers : List (Key KeyObject × Message) → Option (List (String × Json.Value))
  | [] => some []
  | (key, item) :: rest => do
    let key ← keyText key
    let item ← dumps item
    let rest ← dumpsMembers rest
    pure ((key, item) :: rest)

end

end Dumps

section Validation

variable {K : Type} (string? : K → Option Text)

def requiredFields : List String :=
  ["protocol_version", "type", "request_id", "payload"]

/-- `message.get(name)` -/
def get? (members : List (K × Value K)) (name : String) : Option (Value K) :=
  (members.find? fun member => string? member.1 = some (Python.text name)).map Prod.snd

def string (field : Option (Value K)) : Option Text :=
  match field with
  | some (.scalar (.str value)) => some value
  | _ => none

def isDict (field : Option (Value K)) : Bool :=
  match field with
  | some (.mapping .plain _) => true
  | _ => false

/-- `validate_message` -/
def validateMessage (members : List (K × Value K)) : Bool :=
  (members.all fun member => requiredFields.any fun name =>
      decide (string? member.1 = some (Python.text name))) &&
    (requiredFields.all fun name => members.any fun member =>
      decide (string? member.1 = some (Python.text name))) &&
    ((string (get? string? members "protocol_version")).any fun version =>
      decide (version = Python.text hostProtocolVersion)) &&
    ((string (get? string? members "type")).any fun type =>
      messageTypes.any fun name => decide (type = Python.text name)) &&
    ((string (get? string? members "request_id")).any fun requestId =>
      decide (requestId ≠ [] ∧ requestId.length ≤ 128)) &&
    isDict (get? string? members "payload")

def isMessage : Value K → Bool
  | .mapping _ members => validateMessage string? members
  | _ => false

end Validation

section Writing

variable (py : Interpreter) (less : Key KeyObject → Key KeyObject → Bool)

/-- `canonical_payload`; nothing where it raises, be it for the message or for its nesting. -/
def canonicalPayload (message : Message) : Option Bytes :=
  if isMessage Key.string? message then
    ((dumps less message).filter fun json => Python.nesting json ≤ py.stack).map fun json =>
      utf8 (Json.canonicalText json)
  else none

def newline : UInt8 := 10

/-- `str(value).encode("ascii")` -/
def decimalBytes (value : Nat) : Bytes :=
  (Nat.toDigits 10 value).map fun digit => UInt8.ofNat digit.toNat

/-- The bytes that `write_frame` writes; nothing where it refuses the message. -/
def writeFrame (message : Message) : Option Bytes :=
  match canonicalPayload py less message with
  | none => none
  | some payload =>
    if payload = [] ∨ maxFrameBytes < payload.length then none
    else if maxHeaderBytes < (decimalBytes payload.length ++ [newline]).length then none
    else some (decimalBytes payload.length ++ [newline] ++ payload)

end Writing

/-- A `HostProtocolError`, an `IncompleteReadError`, or another exception. -/
inductive ReadFailure where
  | hostProtocolError
  | endOfInput
  | other
deriving DecidableEq

/-- What is read up to a newline, of so many bytes at most, and what is left. -/
def readline : Nat → Bytes → Bytes × Bytes
  | 0, stream => ([], stream)
  | _ + 1, [] => ([], [])
  | limit + 1, byte :: rest =>
    if byte = newline then ([byte], rest)
    else (byte :: (readline limit rest).1, (readline limit rest).2)

def isDigitByte (byte : UInt8) : Bool :=
  48 ≤ byte.toNat && byte.toNat ≤ 57

/-- `int(digits)` -/
def decimalValue (digits : Bytes) : Nat :=
  Nat.ofDigitChars 10 (digits.map fun byte => Char.ofNat byte.toNat) 0

variable (py : Interpreter)

def readPayload (payload : Bytes) : Except ReadFailure (Value Text) :=
  match decodeUtf8? payload with
  | none => .error .hostProtocolError
  | some source =>
    match loads py source with
    | .error .malformed | .error .duplicateKey => .error .hostProtocolError
    | .error .longInteger | .error .recursion => .error .other
    | .ok document =>
      if isMessage some document then .ok document else .error .hostProtocolError

/-- `read_frame`: the message, and what is left of the stream. -/
def readFrame (stream : Bytes) : Except ReadFailure (Value Text × Bytes) :=
  let header := (readline (maxHeaderBytes + 1) stream).1
  let rest := (readline (maxHeaderBytes + 1) stream).2
  let digits := header.dropLast
  if header = [] ∨ header.getLast? ≠ some newline ∨ maxHeaderBytes < header.length then
    .error .hostProtocolError
  else if digits = [] ∨ digits.all isDigitByte = false ∨
      (1 < digits.length ∧ digits.head? = some 48) ∨ digits = [48] then
    .error .hostProtocolError
  else if maxFrameBytes < decimalValue digits then .error .hostProtocolError
  else if (rest.take (decimalValue digits)).length ≠ decimalValue digits then
    .error .hostProtocolError
  else (readPayload py (rest.take (decimalValue digits))).map fun message =>
    (message, rest.drop (decimalValue digits))

/-- How long a line a stream of the Worker buffers. -/
def lineLimit : Nat := 2 ^ 16

/-- The Worker's `_read_frame` with the bytes that its budget has left, if it has one.  The frame
is read again as the host reads it. -/
def workerReadFrame (budget : Option Nat) (stream : Bytes) :
    Except ReadFailure (Value Text × Bytes) :=
  let header := (readline (stream.length + 1) stream).1
  let rest := (readline (stream.length + 1) stream).2
  let digits := header.dropLast
  if lineLimit < header.length then .error .other
  else if header.getLast? ≠ some newline ∨ maxHeaderBytes + 1 < header.length ∨ digits = [] ∨
      digits.all isDigitByte = false ∨ digits.head? = some 48 then
    .error .hostProtocolError
  else if budget.any (· < header.length + decimalValue digits) then .error .hostProtocolError
  else if decimalValue digits = 0 ∨ maxFrameBytes < decimalValue digits then
    .error .hostProtocolError
  else if rest.length < decimalValue digits then .error .endOfInput
  else (readFrame py (header ++ rest.take (decimalValue digits))).map fun result =>
    (result.1, rest.drop (decimalValue digits))

def readFrames (read : Bytes → Except ReadFailure (Value Text × Bytes)) :
    Nat → Bytes → List (Value Text) × Except ReadFailure Bytes
  | 0, stream => ([], .ok stream)
  | count + 1, stream =>
    match read stream with
    | .error failure => ([], .error failure)
    | .ok (message, rest) =>
      (message :: (readFrames read count rest).1, (readFrames read count rest).2)

end HostWire

end NervOS
