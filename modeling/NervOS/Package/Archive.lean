/-
The members of a package archive: the path authority, the integrity manifest over the payload,
and the checks that the builder and the verifier share.
-/
import Mathlib.Data.List.Sort
import NervOS.Json.Access
import NervOS.Python.Value
import NervOS.Relational.Fallible

namespace NervOS

namespace PackageFormat

open Relational (bind_eq_ok)

inductive Exception where
  | unsafePackagePath
  | duplicatePackageEntry
  | packageSizeLimitExceeded
  | packageArchiveError
  | invalidPackageLayout
  | packageBuildError
  | malformedIntegrityManifest
  | packageIntegrityMismatch
  | foreign
deriving DecidableEq, Repr

structure Failure where
  exception : Exception
  message : String
deriving DecidableEq, Repr

abbrev Checked (α : Type) : Type := Except Failure α

def require (condition : Prop) [Decidable condition] (exception : Exception)
    (message : String) : Checked Unit :=
  if condition then .ok () else .error ⟨exception, message⟩

theorem require_eq_ok {condition : Prop} [Decidable condition] {exception : Exception}
    {message : String} {value : Unit} :
    require condition exception message = .ok value ↔ condition := by
  unfold require
  split_ifs with h
  · exact iff_of_true rfl h
  · exact iff_of_false (fun heq => by cases heq) h

theorem exists_of_isOk {α : Type} {x : Checked α} (hx : x.isOk = true) :
    ∃ value, x = .ok value := by
  cases x with
  | error failure => cases hx
  | ok value => exact ⟨value, rfl⟩

/-- Check every element in turn. -/
def forEach {α : Type} (check : α → Checked Unit) : List α → Checked Unit
  | [] => .ok ()
  | item :: rest => do
    check item
    forEach check rest

theorem forEach_eq_ok {α : Type} {check : α → Checked Unit} {items : List α} :
    forEach check items = .ok () ↔ ∀ item ∈ items, check item = .ok () := by
  induction items with
  | nil => simp [forEach]
  | cons item rest ih =>
    rw [forEach, bind_eq_ok, List.forall_mem_cons, ← ih]
    constructor
    · rintro ⟨_, hitem, hrest⟩
      exact ⟨hitem, hrest⟩
    · rintro ⟨hitem, hrest⟩
      exact ⟨(), hitem, hrest⟩

section Paths

/-- What the Unicode tables of the runtime say. -/
structure Unicode where
  nfc : String → String
  casefold : String → String
  isAlpha : Char → Bool

def maxPathComponentBytes : Nat := 255
def maxPathBytes : Nat := 1024

def reservedDeviceNames : List String :=
  ["con", "prn", "aux", "nul",
    "com1", "com2", "com3", "com4", "com5", "com6", "com7", "com8", "com9",
    "lpt1", "lpt2", "lpt3", "lpt4", "lpt5", "lpt6", "lpt7", "lpt8", "lpt9"]

def isControl (character : Char) : Bool :=
  character.toNat < 32 || character.toNat == 127

variable (unicode : Unicode)

def validateComponent (component : List Char) : Checked Unit := do
  require (component ≠ []) .unsafePackagePath "path components must not be empty"
  require (component ≠ ['.'] ∧ component ≠ ['.', '.']) .unsafePackagePath
    "path components must not be '.' or '..'"
  require (component.any isControl = false) .unsafePackagePath
    s!"{component.length}-character component contains a control character"
  require ((String.ofList component).utf8ByteSize ≤ maxPathComponentBytes)
    .packageSizeLimitExceeded s!"path component exceeds {maxPathComponentBytes} bytes"
  require (component.getLast? ≠ some '.' ∧ component.getLast? ≠ some ' ') .unsafePackagePath
    "path components must not end with a space or a period"
  require (unicode.casefold (String.ofList (component.takeWhile (· ≠ '.'))) ∉
    reservedDeviceNames) .unsafePackagePath "path component is a reserved device name"

def canonicalPackagePath (path : String) : Checked Unit := do
  require (path ≠ "") .unsafePackagePath "path must be non-empty text"
  require ('\\' ∉ path.toList) .unsafePackagePath
    "path must use '/' separators, not backslashes"
  require (path.toList.head? ≠ some '/') .unsafePackagePath "path must be relative"
  require (¬ (path.toList.drop 1).head? = some ':' ∨
    (path.toList.head?.map unicode.isAlpha) ≠ some true) .unsafePackagePath
    "path must not be a drive path"
  require (path.toList.any isControl = false) .unsafePackagePath
    "path contains a control character"
  require (path.utf8ByteSize ≤ maxPathBytes) .packageSizeLimitExceeded
    s!"path exceeds {maxPathBytes} bytes"
  forEach (validateComponent unicode) (path.toList.splitOn '/')

/-- NFC composition, then case folding of each component. -/
def collisionKey (path : String) : String :=
  "/".intercalate (((unicode.nfc path).toList.splitOn '/').map fun component =>
    unicode.casefold (String.ofList component))

def claimPaths (message : String → String → String) :
    List String → List (String × String) → Checked Unit
  | [], _ => .ok ()
  | path :: rest, claimed => do
    canonicalPackagePath unicode path
    match claimed.lookup (collisionKey unicode path) with
    | some existing => .error ⟨.duplicatePackageEntry, message existing path⟩
    | none => claimPaths message rest ((collisionKey unicode path, path) :: claimed)

def validateUniquePackagePaths (paths : List String) : Checked Unit :=
  claimPaths unicode (fun existing path =>
    s!"archive members collide under cross-platform comparison ({existing} and {path})") paths []

end Paths

abbrev Bytes : Type := List UInt8

/-- Archive paths with the bytes under them. -/
abbrev Members : Type := List (String × Bytes)

/-- Bytewise on the UTF-8 encoding, which is the order of the code points. -/
def canonicalOrder (members : Members) : Members :=
  members.insertionSort fun left right => left.1 ≤ right.1

theorem mem_canonicalOrder {members : Members} {member : String × Bytes} :
    member ∈ canonicalOrder members ↔ member ∈ members :=
  List.mem_insertionSort _

def manifestPath : String := "manifest.yaml"
def agentWheelPath : String := "agent.whl"
def configSchemaPath : String := "config.schema.json"
def readmePath : String := "README.md"
def lockPath : String := "dependencies/lock.json"
def wheelsPrefix : String := "dependencies/wheels/"
def integrityFilesPath : String := "integrity/files.json"
def integritySignaturePath : String := "integrity/signature.json"

def allowedTopLevel : List String :=
  ["manifest.yaml", "agent.whl", "config.schema.json", "README.md", "assets", "dependencies",
    "integrity"]

def nonPayloadPaths : List String := [integrityFilesPath, integritySignaturePath]

def extractedMaxBytes : Nat := 1024 * 1024 * 1024
def maxEntries : Nat := 20000
def singleFileMaxBytes : Nat := 256 * 1024 * 1024

/-- The part of a path before its first separator. -/
def topLevel (path : String) : String :=
  String.ofList (path.toList.takeWhile (· ≠ '/'))

/-- A ZIP by its magic, or a TAR by its marker. -/
def IsNestedArchive (payload : Bytes) : Prop :=
  payload.take 4 ∈ [[0x50, 0x4b, 0x03, 0x04], [0x50, 0x4b, 0x05, 0x06],
    ([0x50, 0x4b, 0x07, 0x08] : Bytes)] ∨
    (payload.drop 257).take 5 = [0x75, 0x73, 0x74, 0x61, 0x72]

instance : DecidablePred IsNestedArchive := fun _ => inferInstanceAs (Decidable (_ ∨ _))

def rejectNestedArchives (members : Members) : Checked Unit :=
  forEach (fun member =>
    require (member.1 = agentWheelPath ∨ member.1.startsWith wheelsPrefix ∨
      ¬ IsNestedArchive member.2) .invalidPackageLayout
      s!"undeclared nested archive at {member.1}") members

def requireAssetsMatchDeclaration (declared : List String) (paths : List String) :
    Checked Unit := do
  let present := paths.filter fun path => path.startsWith "assets/"
  require ((∀ path ∈ declared, path ∈ present) ∧ ∀ path ∈ present, path ∈ declared)
    .invalidPackageLayout "assets must match the manifest declaration"
  require (∀ path ∈ declared, path.startsWith "assets/") .invalidPackageLayout
    "declared assets must live under assets/"

/-- One payload member's frozen identity. -/
structure PayloadEntry where
  path : String
  sha256 : String
  size : Nat
deriving DecidableEq, Repr

def PayloadEntry.asJson (entry : PayloadEntry) : Json.Value :=
  .obj [("path", .str entry.path), ("sha256", .str entry.sha256), ("size", .int entry.size)]

/-- The payload manifest, `integrity/files.json`. -/
structure ContentManifest where
  entries : List PayloadEntry
deriving DecidableEq, Repr

def filesFormatVersion : String := "1"

def ContentManifest.asJson (manifest : ContentManifest) : Json.Value :=
  .obj [("files", .arr (manifest.entries.map PayloadEntry.asJson)),
    ("files_format_version", .str filesFormatVersion)]

def utf8 (source : String) : Bytes :=
  source.toByteArray.data.toList

theorem utf8_injective {left right : String} (h : utf8 left = utf8 right) : left = right := by
  apply String.toByteArray_inj.mp
  exact ByteArray.ext (Array.toList_inj.mp h)

theorem utf8_ofList (characters : List Char) :
    utf8 (String.ofList characters) = characters.flatMap String.utf8EncodeChar := by
  simp [utf8, List.utf8Encode]

def decodeUtf8? (raw : Bytes) : Option String :=
  String.fromUTF8? ⟨raw.toArray⟩

theorem decodeUtf8?_utf8 (source : String) : decodeUtf8? (utf8 source) = some source := by
  have hvalid : (⟨(utf8 source).toArray⟩ : ByteArray).IsValidUTF8 := source.isValidUTF8
  rw [decodeUtf8?, String.fromUTF8?, dif_pos hvalid]
  rfl

def ContentManifest.canonicalBytes (manifest : ContentManifest) : Bytes :=
  utf8 (Json.canonicalText manifest.asJson)

def isHexDigit (character : Char) : Bool :=
  character.isDigit || ('a' ≤ character && character ≤ 'f')

def IsSha256Hex (digest : String) : Prop :=
  digest.toList.length = 64 ∧ digest.toList.all isHexDigit = true

instance : DecidablePred IsSha256Hex := fun _ => inferInstanceAs (Decidable (_ ∧ _))

def parseEntry (entry : Json.Value) : Checked PayloadEntry :=
  match entry with
  | .obj members =>
    match members.lookup "path", members.lookup "sha256", members.lookup "size" with
    | some (.str path), some (.str digest), some (.int size) => do
      require (0 ≤ size) .malformedIntegrityManifest
        "integrity entry sizes must be non-negative integers"
      require (path ∉ nonPayloadPaths) .malformedIntegrityManifest
        "integrity files must not be listed in their own payload manifest"
      require (IsSha256Hex digest) .malformedIntegrityManifest
        "integrity entry digests must be lowercase SHA-256 hex"
      .ok ⟨path, digest, size.toNat⟩
    | some (.str _), some (.str _), some (.bool _) =>
      .error ⟨.malformedIntegrityManifest,
        "integrity entry sizes must be non-negative integers"⟩
    | _, _, _ => .error ⟨.malformedIntegrityManifest,
        "integrity entries must carry path, sha256, and size"⟩
  | .null | .bool _ | .int _ | .float _ | .str _ | .arr _ =>
    .error ⟨.malformedIntegrityManifest, "integrity entries must be objects"⟩

def parseEntries : List Json.Value → Checked (List PayloadEntry)
  | [] => .ok []
  | entry :: rest => do
    let entry ← parseEntry entry
    let rest ← parseEntries rest
    .ok (entry :: rest)

def parseDocument (raw : Bytes) : Json.Value → Checked ContentManifest
  | .obj document => do
    require ((document.lookup "files_format_version").bind Json.Value.str? =
      some filesFormatVersion) .malformedIntegrityManifest "unsupported files_format_version"
    match document.lookup "files" with
    | some (.arr files) => do
      let entries ← parseEntries files
      require (ContentManifest.canonicalBytes ⟨entries⟩ = raw) .malformedIntegrityManifest
        "integrity/files.json is not canonical"
      .ok ⟨entries⟩
    | _ => .error ⟨.malformedIntegrityManifest, "integrity/files.json must list files"⟩
  | .null | .bool _ | .int _ | .float _ | .str _ | .arr _ =>
    .error ⟨.malformedIntegrityManifest, "integrity/files.json root must be an object"⟩

/-- Parse and validate `integrity/files.json`, rejecting anything non-canonical. -/
def parseContentManifest (raw : Bytes) : Checked ContentManifest :=
  match (decodeUtf8? raw).bind Json.loads with
  | none => .error ⟨.malformedIntegrityManifest,
      "integrity/files.json must be valid UTF-8 JSON"⟩
  | some document => parseDocument raw document

variable (sha256 : Bytes → String)

def contentDigest (manifest : ContentManifest) : String :=
  sha256 manifest.canonicalBytes

def verifyEntry (declared : List (String × PayloadEntry)) (member : String × Bytes) :
    Checked Unit :=
  match declared.lookup member.1 with
  | none => .error ⟨.foreign, "KeyError"⟩
  | some entry => do
    require (member.2.length = entry.size) .packageIntegrityMismatch
      s!"payload {member.1} length does not match the manifest"
    require (sha256 member.2 = entry.sha256) .packageIntegrityMismatch
      s!"payload {member.1} digest does not match the manifest"

/-- Recompute every payload hash and require an exact, complete match. -/
def verifyPayloadAgainstManifest (manifest : ContentManifest) (payloads : Members) :
    Checked Unit := do
  let declared := Python.dict (manifest.entries.map fun entry => (entry.path, entry))
  require ((∀ path ∈ declared.map Prod.fst, path ∈ payloads.map Prod.fst) ∧
    ∀ path ∈ payloads.map Prod.fst, path ∈ declared.map Prod.fst) .packageIntegrityMismatch
    "payload manifest does not describe the archive"
  forEach (verifyEntry sha256 declared) payloads

end PackageFormat

end NervOS
