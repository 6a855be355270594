/-
What an owner is shown of a Gmail message: the headers, and the text of the first plain part of
its MIME tree.  The walk of the tree against the parts in the order of the tree, and the lenient
reading of their data against the strict one.
-/
import Mathlib
import NervOS.Application.ToolSchema
import NervOS.Relational.Fallible

namespace NervOS

namespace GmailMessages

open Python SchemaGate

def isUrlSafe : Char ⊕ Fin 2048 → Bool
  | .inl character =>
    ('A' ≤ character && character ≤ 'Z') || ('a' ≤ character && character ≤ 'z') ||
      ('0' ≤ character && character ≤ '9') || character == '-' || character == '_'
  | .inr _ => false

/-- `"=" * (-len(data) % 4)` -/
def padding (data : Text) : Text :=
  List.replicate ((4 - data.length % 4) % 4) (.inl '=')

/-- The strict spellings: the alphabet alone, then the whole padding or none. -/
def IsBase64Url (data : Text) : Prop :=
  ∃ digits, digits.all isUrlSafe = true ∧ digits.length % 4 ≠ 1 ∧
    (data = digits ∨ data = digits ++ padding digits)

structure StandardLibrary where
  /-- `base64.urlsafe_b64decode`, which drops what is not of its alphabet. -/
  urlsafeB64decode : Text → Option (List UInt8)
  /-- `bytes.decode("utf-8")` -/
  decode : List UInt8 → Option Text
  /-- `bytes.decode("utf-8", errors="replace")` -/
  decodeReplace : List UInt8 → Text
  lower : Text → Text
  strip : Text → Text
  /-- `str(value or other)` of what is neither a string nor null. -/
  strOr : Value Text → Text → Text
  /-- `_encoded_estimate` -/
  encodedEstimate : Value Text → Nat
  decodes_nil : urlsafeB64decode [] = some [] ∧ decodeReplace [] = []
  decodes_strict : ∀ data, IsBase64Url data → data ≠ [] →
    urlsafeB64decode (data ++ padding data) ≠ some []
  replace_of_decode : ∀ raw text, decode raw = some text → decodeReplace raw = text
  replace_ne_nil : ∀ raw, raw ≠ [] → decodeReplace raw ≠ []
  lower_not_upper : ∀ value, ∀ character ∈ lower value,
    ∀ letter, character = .inl letter → letter.isUpper = false

section Projection

def maxSubjectChars : Nat := 512

def maxBodyChars : Nat := 16 * 1024

variable (py : StandardLibrary)

/-- `_mapping`; an error is a `GmailTransportError` and its message. -/
def mapping (value : Value Text) (field : String) : Except String Members :=
  match value with
  | .mapping .plain members => .ok members
  | _ => .error (field ++ " is not an object")

def isIdCharacter : Char ⊕ Fin 2048 → Bool :=
  isUrlSafe

/-- `_response_identifier` -/
def responseIdentifier (value : Value Text) (field : String) : Except String Text :=
  match value with
  | .scalar (.str id) =>
    if 1 ≤ id.length ∧ id.length ≤ 128 ∧ id.all isIdCharacter = true then .ok id
    else .error (field ++ " is unusable")
  | _ => .error (field ++ " is unusable")

def label : Value Text → Except String Text
  | .scalar (.str label) =>
    if label.length ≤ 64 then .ok label else .error "Gmail label is unusable"
  | _ => .error "Gmail label is unusable"

/-- `_labels` -/
def labels : Value Text → Except String (List Text)
  | .scalar .none => .ok []
  | .sequence .plain items =>
    if 64 < items.length then .error "Gmail labels are unusable" else items.mapM label
  | _ => .error "Gmail labels are unusable"

def canonicalHeader (canonical : Text) : Text :=
  if canonical = text "subject" then text "Subject"
  else if canonical = text "from" then text "From"
  else if canonical = text "to" then text "To"
  else if canonical = text "date" then text "Date"
  else canonical

/-- `_header` -/
def header (name : Text) : Text :=
  canonicalHeader (py.lower (py.strip name))

def headerItem (item : Value Text) : Except String (Text × Text) := do
  let entry ← mapping item "header"
  match get entry "name", get entry "value" with
  | .scalar (.str name), .scalar (.str value) => .ok (name, value)
  | _, _ => .error "Gmail header is unusable"

/-- `setdefault` on every header in turn. -/
def collectHeaders : List (Text × Text) → List (Text × Text) → List (Text × Text)
  | [], result => result
  | (name, value) :: rest, result =>
    collectHeaders rest
      (if (result.any fun entry => decide (entry.1 = header py name)) = true then result
      else result ++ [(header py name, value)])

def headerItems (payload : Value Text) : Except String (List (Text × Text)) :=
  match payload with
  | .scalar .none => .ok []
  | _ => do
    let members ← mapping payload "Gmail payload"
    match get members "headers" with
    | .scalar .none => .ok []
    | .sequence .plain items =>
      if 200 < items.length then .error "Gmail headers are unusable" else items.mapM headerItem
    | _ => .error "Gmail headers are unusable"

/-- `headers.get(name)` -/
def headerValue (headers : List (Text × Text)) (name : String) : Option Text :=
  (headers.find? fun entry => decide (entry.1 = text name)).map Prod.snd

/-- `_decode` of the data of a body; what is not a string is like an empty one. -/
def decodeData (data : Text) : Text :=
  if 4 * maxBodyChars < data.length then []
  else
    match py.urlsafeB64decode (data ++ padding data) with
    | none => []
    | some raw => py.decodeReplace raw

def dataOf (body : Members) : Text :=
  match get body "data" with
  | .scalar (.str data) => data
  | _ => []

def isPlainText (node : Members) : Bool :=
  match get node "mimeType" with
  | .scalar (.str mimeType) => decide (mimeType = text "text/plain")
  | _ => false

/-- The first text that is not empty, of the children that are objects. -/
def firstText (read : Members → Except String Text) : List (Value Text) → Except String Text
  | [] => .ok []
  | .mapping .plain child :: rest => do
    let shown ← read child
    if shown ≠ [] then .ok shown else firstText read rest
  | _ :: rest => firstText read rest

/-- `_body_text`, for so many levels more. -/
def bodyText : Nat → Members → Except String Text
  | 0, _ => .ok []
  | levels + 1, node =>
    if isPlainText node = true then do
      let body ← mapping (get node "body") "Gmail body"
      .ok (decodeData py (dataOf body))
    else
      match get node "parts" with
      | .scalar .none => .ok []
      | .sequence .plain parts =>
        if 64 < parts.length then .error "Gmail message parts are unusable"
        else firstText (bodyText levels) parts
      | _ => .error "Gmail message parts are unusable"

/-- The depths from 0 to 8. -/
def maxLevels : Nat := 9

def payloadText (payload : Value Text) : Except String Text :=
  match payload with
  | .scalar .none => .ok []
  | _ => do
    let node ← mapping payload "Gmail payload part"
    bodyText py maxLevels node

structure MessageProjection where
  text : Text
  id : Text
  threadId : Text
  labelIds : List Text
  subject : Text
  sender : Text
  recipient : Text
  date : Text
  snippet : Text
  bodyText : Text
  providerBytes : Nat

def bounded (headers : List (Text × Text)) (name : String) : Text :=
  ((headerValue headers name).getD []).take maxSubjectChars

/-- `str(payload.get("snippet") or headers.get("Subject", "(no subject)"))` -/
def title (snippet : Value Text) (headers : List (Text × Text)) : Text :=
  let subject := (headerValue headers "Subject").getD (text "(no subject)")
  match snippet with
  | .scalar .none => subject
  | .scalar (.str snippet) => if snippet = [] then subject else snippet
  | other => py.strOr other subject

def snippetText : Value Text → Text
  | .scalar (.str snippet) => snippet.take maxBodyChars
  | _ => []

/-- The result of a message whose parts were all usable. -/
def projected (body : Value Text) (payload : Members) (headers : List (Text × Text))
    (id threadId : Text) (labelIds : List Text) (shown : Text) : MessageProjection where
  text := (title py (get payload "snippet") headers).take maxSubjectChars
  id := id
  threadId := threadId
  labelIds := labelIds
  subject := bounded headers "Subject"
  sender := bounded headers "From"
  recipient := bounded headers "To"
  date := bounded headers "Date"
  snippet := snippetText (get payload "snippet")
  bodyText := shown.take maxBodyChars
  providerBytes := py.encodedEstimate body

/-- `GmailReadConnector._message` -/
def message (body : Value Text) : Except String MessageProjection := do
  let payload ← mapping body "Gmail message"
  let items ← headerItems (get payload "payload")
  let id ← responseIdentifier (get payload "id") "message id"
  let threadId ← responseIdentifier (get payload "threadId") "thread id"
  let labelIds ← labels (get payload "labelIds")
  let shown ← payloadText py (get payload "payload")
  .ok (projected py body payload (collectHeaders py items []) id threadId labelIds shown)

end Projection

section Visits

/-- What the walk of a MIME tree comes upon: a plain part, or something that it refuses. -/
inductive Visit where
  | part (data : Text)
  | refused (message : String)

def childVisits (visits : Members → List Visit) : List (Value Text) → List Visit
  | [] => []
  | .mapping .plain child :: rest => visits child ++ childVisits visits rest
  | _ :: rest => childVisits visits rest

def visits : Nat → Members → List Visit
  | 0, _ => []
  | levels + 1, node =>
    if isPlainText node = true then
      match mapping (get node "body") "Gmail body" with
      | .ok body => [.part (dataOf body)]
      | .error message => [.refused message]
    else
      match get node "parts" with
      | .scalar .none => []
      | .sequence .plain parts =>
        if 64 < parts.length then [.refused "Gmail message parts are unusable"]
        else childVisits (visits levels) parts
      | _ => [.refused "Gmail message parts are unusable"]

variable (py : StandardLibrary)

/-- The first text that the lenient reading finds. -/
def scan : List Visit → Except String Text
  | [] => .ok []
  | .refused message :: _ => .error message
  | .part data :: rest => if decodeData py data ≠ [] then .ok (decodeData py data) else scan rest

variable {py : StandardLibrary}

end Visits

section Headers

variable (py : StandardLibrary)

end Headers

section Readings

variable (py : StandardLibrary)

def StrictText (data text : Text) : Prop :=
  IsBase64Url data ∧ ∃ raw, py.urlsafeB64decode (data ++ padding data) = some raw ∧
    py.decode raw = some text

def Shows : List Visit → Text → Prop
  | [], shown => shown = []
  | .refused _ :: _, _ => False
  | .part data :: rest, shown =>
    if data = [] then Shows rest shown
    else ∃ text, StrictText py data text ∧ shown = text.take maxBodyChars

/-- The first part with data is read as it is: short enough and encoded strictly, or passed over
without harm, when the message is refused behind it or goes on with the same text. -/
def Readable : List Visit → Prop
  | [] | .refused _ :: _ => True
  | .part data :: rest =>
    if data = [] then Readable rest
    else
      (data.length ≤ 4 * maxBodyChars ∧ ∃ text, StrictText py data text) ∨
        decodeData py data = [] ∧
          ∀ shown, scan py rest = .ok shown →
            ∃ text, StrictText py data text ∧ shown.take maxBodyChars = text.take maxBodyChars

variable {py : StandardLibrary} {data shown : Text}

end Readings

end GmailMessages

end NervOS
