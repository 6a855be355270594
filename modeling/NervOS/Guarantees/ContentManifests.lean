/-
The content manifest as it is read from any bytes, and when its reader is exact: it accepts the
canonical manifests, as they are written, and refuses the rest as malformed.
-/
import NervOS.Python.Decoder
import NervOS.Refinement.PackageArchive

namespace NervOS

namespace PackageFormat

open Python (Interpreter)
open Relational (bind_eq_ok)

/-- What `json.loads` gives back. -/
abbrev Document : Type := Python.Value Python.Text

def malformed (message : String) : Failure :=
  ⟨.malformedIntegrityManifest, message⟩

/-- A failure of the decoder that is no `JSONDecodeError` is not caught. -/
def decodeFailure : Python.DecodeFailure → Failure
  -- without a hook no key is refused
  | .malformed | .duplicateKey => malformed "integrity/files.json must be valid UTF-8 JSON"
  | .longInteger => ⟨.foreign, "ValueError"⟩
  | .recursion => ⟨.foreign, "RecursionError"⟩

def loadDocument (py : Interpreter) (raw : Bytes) : Checked Document :=
  match decodeUtf8? raw with
  | none => .error (malformed "integrity/files.json must be valid UTF-8 JSON")
  | some source => (Python.loadsWith py Python.lastMembers source).mapError decodeFailure

/-- `document.get(key)` -/
def member? (members : List (Python.Text × Document)) (key : String) : Option Document :=
  (members.find? fun member => decide (member.1 = Python.text key)).map Prod.snd

def string? : Document → Option Python.Text
  | .scalar (.str text) => some text
  | .scalar _ | .sequence _ _ | .mapping _ _ => none

structure ListedEntry where
  path : Python.Text
  sha256 : String
  size : Nat

def listEntry : Document → Checked ListedEntry
  | .mapping _ members =>
    match member? members "path", member? members "sha256", member? members "size" with
    | some (.scalar (.str path)), some (.scalar (.str digest)), some (.scalar (.int size)) => do
      require (0 ≤ size) .malformedIntegrityManifest
        "integrity entry sizes must be non-negative integers"
      require (∀ excluded ∈ nonPayloadPaths, path ≠ Python.text excluded)
        .malformedIntegrityManifest
        "integrity files must not be listed in their own payload manifest"
      require ((Python.encode? digest).any fun digest => decide (IsSha256Hex digest))
        .malformedIntegrityManifest "integrity entry digests must be lowercase SHA-256 hex"
      .ok ⟨path, (Python.encode? digest).getD "", size.toNat⟩
    | some (.scalar (.str _)), some (.scalar (.str _)), some (.scalar (.bool _)) =>
      .error (malformed "integrity entry sizes must be non-negative integers")
    | _, _, _ => .error (malformed "integrity entries must carry path, sha256, and size")
  | .scalar _ | .sequence _ _ => .error (malformed "integrity entries must be objects")

def listEntries : List Document → Checked (List ListedEntry)
  | [] => .ok []
  | entry :: rest => do
    let entry ← listEntry entry
    let rest ← listEntries rest
    .ok (entry :: rest)

def listDocument : Document → Checked (List ListedEntry)
  | .mapping _ members => do
    require ((member? members "files_format_version").bind string? =
      some (Python.text filesFormatVersion)) .malformedIntegrityManifest
      "unsupported files_format_version"
    match member? members "files" with
    | some (.sequence _ files) => listEntries files
    | _ => .error (malformed "integrity/files.json must list files")
  | .scalar _ | .sequence _ _ => .error (malformed "integrity/files.json root must be an object")

def ListedEntry.written? (py : Interpreter) (entry : ListedEntry) : Option PayloadEntry :=
  if entry.size < 10 ^ py.maxDigits then
    (Python.encode? entry.path).map fun path => ⟨path, entry.sha256, entry.size⟩
  else none

structure ContentManifest.Checks (py : Interpreter) (manifest : ContentManifest) : Prop where
  payload : ∀ entry ∈ manifest.entries, entry.path ∉ nonPayloadPaths
  digests : ∀ entry ∈ manifest.entries, IsSha256Hex entry.sha256
  sizes : ∀ entry ∈ manifest.entries, entry.size < 10 ^ py.maxDigits

/-- The paths are distinct and in canonical order. -/
def ContentManifest.Ordered (manifest : ContentManifest) : Prop :=
  manifest.entries.Pairwise fun left right => left.path < right.path

/-- A manifest as it is built: it lists a payload, in order. -/
structure ContentManifest.Canonical (py : Interpreter) (manifest : ContentManifest) : Prop
    extends manifest.Checks py where
  ordered : manifest.Ordered

structure Regular (py : Interpreter) (raw : Bytes) : Prop where
  ordered : ∀ manifest : ContentManifest, manifest.Checks py → manifest.canonicalBytes = raw →
    manifest.Ordered
  readable : ∀ source, decodeUtf8? raw = some source →
    Python.loadsWith py Python.lastMembers source ≠ .error .longInteger ∧
      Python.loadsWith py Python.lastMembers source ≠ .error .recursion
  writable : ∀ document listed, loadDocument py raw = .ok document →
    listDocument document = .ok listed → ∀ entry ∈ listed, (entry.written? py).isSome = true

section Reading

variable {py : Interpreter} {raw : Bytes}

variable {entries : List ListedEntry}

variable {listed : List ListedEntry}

end Reading

section Writing

variable {py : Interpreter}

def PayloadEntry.listed (entry : PayloadEntry) : ListedEntry :=
  ⟨Python.text entry.path, entry.sha256, entry.size⟩

variable {entries : List PayloadEntry}

variable {manifest : ContentManifest}

end Writing

variable {py : Interpreter} {raw : Bytes}

end PackageFormat

end NervOS
