/-
The verifier and the builder of packages: what an accepted archive says about its payload, and
what a build puts into one.  The archive container, the wheels, the manifest parser and the
signature are other modules' work: what they answer is a parameter.
-/
import NervOS.Package.Archive

namespace NervOS

namespace PackageFormat

open Relational (bind_eq_ok)

structure PackageManifest where
  packageId : String
  packageVersion : String
  manifestVersion : String
  configurationSchema : String
  assets : List String

structure PackageTools where
  unicode : Unicode
  container : Members → Bytes
  sha256 : Bytes → String
  parseManifest : Bytes → Checked PackageManifest
  parseConfigSchema : Bytes → Checked Unit
  buildLock : Bytes → Members → Checked Bytes
  verifyLock : Bytes → Bytes → Members → Checked Unit
  sign : Bytes → Bytes
  verifySignature : Bytes → Bytes → Checked String

/-- The signed envelope, rebuilt from verified state. -/
def envelope (manifest : PackageManifest) (digest : String) : Bytes :=
  utf8 (Json.canonicalText (.obj [("content_digest", .str digest),
    ("manifest_version", .str manifest.manifestVersion),
    ("package_id", .str manifest.packageId),
    ("package_version", .str manifest.packageVersion),
    ("signature_format_version", .str "1")]))

def readMember (members : Members) (path : String) : Checked Bytes :=
  match members.lookup path with
  | some payload => .ok payload
  | none => .error ⟨.packageArchiveError, s!"archive member {path} does not exist"⟩

/-- The dependency wheels by their bare filenames. -/
def wheelsOf (members : Members) : Members :=
  (members.filter fun member => member.1.startsWith wheelsPrefix).map fun member =>
    (String.ofList (member.1.toList.drop wheelsPrefix.length), member.2)

def totalSize (members : Members) : Nat :=
  members.foldl (fun total member => total + member.2.length) 0

structure VerifiedPackage where
  manifest : PackageManifest
  contentDigest : String
  archiveDigest : String
  signerFingerprint : String
  dependencyLock : Bytes
  entries : List PayloadEntry

/-- What `BoundedArchiveReader` asks of the members of an outer archive. -/
def scanArchive (unicode : Unicode) (archive : Members) : Checked Unit := do
  require (archive.length ≤ maxEntries) .packageSizeLimitExceeded
    s!"archive exceeds {maxEntries} entry limit"
  claimPaths unicode (fun existing path =>
    s!"archive contains colliding entries ({existing} and {path})") (archive.map Prod.fst) []
  forEach (fun member => require (member.2.length ≤ singleFileMaxBytes)
    .packageSizeLimitExceeded s!"archive member exceeds {singleFileMaxBytes} byte limit") archive
  require (totalSize archive ≤ extractedMaxBytes) .packageSizeLimitExceeded
    s!"declared archive contents exceed {extractedMaxBytes} byte limit"

def requireLayout (unicode : Unicode) (paths : List String) : Checked Unit := do
  forEach (fun path => do
    canonicalPackagePath unicode path
    require (topLevel path ∈ allowedTopLevel) .invalidPackageLayout
      s!"archive member {path} is outside the V1 layout") paths
  forEach (fun required => require (required ∈ paths) .invalidPackageLayout
    s!"archive is missing required member {required}")
    ([manifestPath, agentWheelPath, configSchemaPath, lockPath] ++ nonPayloadPaths)
  forEach (fun path => do
    require (path.startsWith "dependencies/" → path = lockPath ∨ path.startsWith wheelsPrefix)
      .invalidPackageLayout s!"unexpected member under dependencies/: {path}"
    require (path.startsWith wheelsPrefix → path.endsWith ".whl") .invalidPackageLayout
      "dependencies/wheels/ may contain only wheel files"
    require (path.startsWith "integrity/" → path ∈ nonPayloadPaths) .invalidPackageLayout
      s!"unexpected member under integrity/: {path}") paths

def payload (archive : Members) : Members :=
  (canonicalOrder archive).filter fun member => member.1 ∉ nonPayloadPaths

def verifyPackage (tools : PackageTools) (archive : Members) : Checked VerifiedPackage := do
  scanArchive tools.unicode archive
  requireLayout tools.unicode ((canonicalOrder archive).map Prod.fst)
  let manifestBytes ← readMember archive manifestPath
  let configBytes ← readMember archive configSchemaPath
  let agentWheel ← readMember archive agentWheelPath
  let lockBytes ← readMember archive lockPath
  let filesBytes ← readMember archive integrityFilesPath
  let signatureBytes ← readMember archive integritySignaturePath
  rejectNestedArchives (payload archive)
  let manifest ← tools.parseManifest manifestBytes
  tools.parseConfigSchema configBytes
  tools.verifyLock lockBytes agentWheel (wheelsOf (payload archive))
  requireAssetsMatchDeclaration manifest.assets ((payload archive).map Prod.fst)
  let document ← parseContentManifest filesBytes
  verifyPayloadAgainstManifest tools.sha256 document (payload archive)
  let digest := contentDigest tools.sha256 document
  let fingerprint ← tools.verifySignature signatureBytes (envelope manifest digest)
  .ok
    { manifest := manifest
      contentDigest := digest
      archiveDigest := tools.sha256 (tools.container archive)
      signerFingerprint := fingerprint
      dependencyLock := lockBytes
      entries := document.entries }

/-- The files of a build, with the bytes that each holds when it is opened. -/
structure PackageBuildSource where
  manifest : Bytes
  configSchema : Bytes
  agentWheel : Bytes
  readme : Option Bytes
  assets : Members
  dependencyWheels : Members
  assetsDistinct : (assets.map Prod.fst).Nodup
  wheelsDistinct : (dependencyWheels.map Prod.fst).Nodup

def PackageBuildSource.paths (source : PackageBuildSource) : Members :=
  let fixed : Members := [(manifestPath, source.manifest), (agentWheelPath, source.agentWheel),
    (configSchemaPath, source.configSchema)]
  let fixed := match source.readme with
    | none => fixed
    | some readme => Python.assign readmePath readme fixed
  let assigned := source.assets.foldl
    (fun paths asset => Python.assign asset.1 asset.2 paths) fixed
  source.dependencyWheels.foldl
    (fun paths wheel => Python.assign (wheelsPrefix ++ wheel.1) wheel.2 paths) assigned

def requireAllowedPaths (unicode : Unicode) (paths : List String) : Checked Unit :=
  forEach (fun path => do
    match canonicalPackagePath unicode path with
    | .ok _ => .ok ()
    | .error ⟨.unsafePackagePath, message⟩ =>
      .error ⟨.invalidPackageLayout, s!"unsafe archive path: {message}"⟩
    | .error failure => .error failure
    require (topLevel path ∈ allowedTopLevel) .invalidPackageLayout
      s!"archive member {path} is outside the V1 layout") paths

def snapshotSources (unicode : Unicode) (source : PackageBuildSource) : Checked Members := do
  forEach (fun wheel => do
    canonicalPackagePath unicode wheel.1
    require ('/' ∉ wheel.1.toList) .invalidPackageLayout
      "dependency wheel names must be bare filenames") source.dependencyWheels
  requireAllowedPaths unicode (source.paths.map Prod.fst)
  validateUniquePackagePaths unicode (source.paths.map Prod.fst)
  require (source.paths.length ≤ maxEntries) .packageBuildError
    s!"package exceeds {maxEntries} entry limit"
  forEach (fun member => require (member.2.length ≤ singleFileMaxBytes) .packageBuildError
    s!"source for {member.1} exceeds {singleFileMaxBytes} byte limit")
    (canonicalOrder source.paths)
  require (totalSize source.paths ≤ extractedMaxBytes) .packageBuildError
    s!"package snapshots exceed {extractedMaxBytes} byte extracted limit"
  .ok (canonicalOrder source.paths)

def contentManifest (sha256 : Bytes → String) (members : Members) : ContentManifest :=
  ⟨(canonicalOrder members).map fun member =>
    ⟨member.1, sha256 member.2, member.2.length⟩⟩

structure PreparedArchive where
  members : Members
  lock : Bytes

def prepareArchive (tools : PackageTools) (members : Members) : Checked PreparedArchive := do
  let manifestBytes ← readMember members manifestPath
  let manifest ← tools.parseManifest manifestBytes
  let configBytes ← readMember members configSchemaPath
  tools.parseConfigSchema configBytes
  require (manifest.configurationSchema = configSchemaPath) .invalidPackageLayout
    s!"manifest must reference {configSchemaPath}"
  let agentWheel ← readMember members agentWheelPath
  let lock ← tools.buildLock agentWheel (wheelsOf members)
  requireAssetsMatchDeclaration manifest.assets (members.map Prod.fst)
  rejectNestedArchives members
  let locked := Python.assign lockPath lock members
  let files := contentManifest tools.sha256 locked
  let document := tools.sign (envelope manifest (contentDigest tools.sha256 files))
  .ok
    { members := Python.assign integritySignaturePath document
        (Python.assign integrityFilesPath files.canonicalBytes locked)
      lock := lock }

structure BuiltPackage where
  archive : Members
  lock : Bytes
  verified : VerifiedPackage

def BuiltPackage.bytes (tools : PackageTools) (built : BuiltPackage) : Bytes :=
  tools.container built.archive

def packageBuild (tools : PackageTools) (source : PackageBuildSource) :
    Checked BuiltPackage := do
  let members ← snapshotSources tools.unicode source
  let prepared ← prepareArchive tools members
  let verified ← verifyPackage tools (canonicalOrder prepared.members)
  .ok ⟨canonicalOrder prepared.members, prepared.lock, verified⟩

theorem mem_of_readMember {members : Members} {path : String} {raw : Bytes}
    (hread : readMember members path = .ok raw) : (path, raw) ∈ members := by
  unfold readMember at hread
  cases hlookup : members.lookup path with
  | none =>
    rw [hlookup] at hread
    cases hread
  | some held =>
    rw [hlookup] at hread
    cases hread
    obtain ⟨front, back, heq, -⟩ := List.lookup_eq_some_iff.mp hlookup
    rw [heq]
    exact List.mem_append_right front List.mem_cons_self

theorem canonicalOrder_congr {first second : Members} (hfirst : (first.map Prod.fst).Nodup)
    (hsecond : (second.map Prod.fst).Nodup) (hmem : ∀ member, member ∈ first ↔ member ∈ second) :
    canonicalOrder first = canonicalOrder second := by
  have htotal : Std.Total fun left right : String × Bytes => left.1 ≤ right.1 :=
    ⟨fun left right => le_total left.1 right.1⟩
  have htrans : IsTrans (String × Bytes) fun left right => left.1 ≤ right.1 :=
    ⟨fun _ _ _ => le_trans⟩
  have hperm : (canonicalOrder first).Perm (canonicalOrder second) := by
    apply (List.perm_insertionSort _ first).trans
    apply List.Perm.trans _ (List.perm_insertionSort _ second).symm
    exact (List.perm_ext_iff_of_nodup (List.Nodup.of_map _ hfirst)
      (List.Nodup.of_map _ hsecond)).mpr hmem
  refine List.Perm.eq_of_pairwise ?_ (List.pairwise_insertionSort _ first)
    (List.pairwise_insertionSort _ second) hperm
  intro left right hleft hright hle hge
  have hright := (hmem right).mpr (mem_canonicalOrder.mp hright)
  exact Python.eq_of_key hfirst (mem_canonicalOrder.mp hleft) hright (le_antisymm hle hge)

theorem nodup_keys_canonicalOrder {members : Members} :
    ((canonicalOrder members).map Prod.fst).Nodup ↔ (members.map Prod.fst).Nodup :=
  ((List.perm_insertionSort _ members).map Prod.fst).nodup_iff

theorem mem_payload {archive : Members} {member : String × Bytes} :
    member ∈ payload archive ↔ member ∈ archive ∧ member.1 ∉ nonPayloadPaths := by
  rw [payload, List.mem_filter, mem_canonicalOrder, decide_eq_true_iff]

theorem nodup_of_claimPaths {unicode : Unicode} {message : String → String → String}
    {paths : List String} {claimed : List (String × String)}
    (hclaim : claimPaths unicode message paths claimed = .ok ()) :
    paths.Nodup ∧ ∀ path ∈ paths, claimed.lookup (collisionKey unicode path) = none := by
  induction paths generalizing claimed with
  | nil => simp
  | cons path rest ih =>
    rw [claimPaths, bind_eq_ok] at hclaim
    obtain ⟨_, -, hclaim⟩ := hclaim
    cases hlookup : claimed.lookup (collisionKey unicode path) with
    | some existing =>
      rw [hlookup] at hclaim
      cases hclaim
    | none =>
      rw [hlookup] at hclaim
      obtain ⟨hnodup, hnone⟩ := ih hclaim
      have hapart : ∀ other ∈ rest, collisionKey unicode other ≠ collisionKey unicode path ∧
          claimed.lookup (collisionKey unicode other) = none := by
        intro other hother
        have hfree := hnone other hother
        rw [List.lookup_cons] at hfree
        by_cases heq : collisionKey unicode other = collisionKey unicode path
        · simp [heq] at hfree
        · simp only [beq_eq_false_iff_ne.mpr heq] at hfree
          exact ⟨heq, hfree⟩
      refine ⟨List.nodup_cons.mpr ⟨fun hmem => (hapart path hmem).1 rfl, hnodup⟩, ?_⟩
      intro other hother
      rcases List.mem_cons.mp hother with rfl | hrest
      · exact hlookup
      · exact (hapart other hrest).2

section Manifest

theorem asJson_injective : Function.Injective ContentManifest.asJson := by
  rintro ⟨first⟩ ⟨second⟩ heq
  have hfiles : first.map PayloadEntry.asJson = second.map PayloadEntry.asJson := by
    simpa [ContentManifest.asJson] using heq
  have hentry : Function.Injective PayloadEntry.asJson := by
    rintro ⟨path, digest, size⟩ ⟨path', digest', size'⟩ h
    have hfields : path = path' ∧ digest = digest' ∧ (size : Int) = size' := by
      simpa [PayloadEntry.asJson] using h
    rw [hfields.1, hfields.2.1, Int.ofNat_inj.mp hfields.2.2]
  rw [hentry.list_map hfiles]

theorem wellFormed_asJson (manifest : ContentManifest) : manifest.asJson.WellFormed := by
  have hentries : ∀ entries : List PayloadEntry,
      Json.Value.WellFormedItems (entries.map PayloadEntry.asJson) := by
    intro entries
    induction entries with
    | nil => trivial
    | cons entry rest ih =>
      refine ⟨⟨?_, trivial, trivial, trivial, trivial⟩, ih⟩
      change ["path", "sha256", "size"].Pairwise (· < ·)
      decide +kernel
  refine ⟨?_, hentries manifest.entries, trivial, trivial⟩
  change ["files", "files_format_version"].Pairwise (· < ·)
  decide +kernel

theorem canonicalBytes_injective : Function.Injective ContentManifest.canonicalBytes := by
  intro first second hbytes
  apply asJson_injective
  exact Json.canonicalText_injective (wellFormed_asJson first) (wellFormed_asJson second)
    (utf8_injective hbytes)

theorem parseEntry_path {entry : Json.Value} {parsed : PayloadEntry}
    (hparse : parseEntry entry = .ok parsed) : parsed.path ∉ nonPayloadPaths := by
  unfold parseEntry at hparse
  split at hparse
  · split at hparse
    · rw [bind_eq_ok] at hparse
      obtain ⟨_, -, hparse⟩ := hparse
      rw [bind_eq_ok] at hparse
      obtain ⟨_, hpath, hparse⟩ := hparse
      rw [bind_eq_ok] at hparse
      obtain ⟨_, -, hparse⟩ := hparse
      cases hparse
      exact require_eq_ok.mp hpath
    · cases hparse
    · cases hparse
  all_goals cases hparse

theorem parseEntries_paths {entries : List Json.Value} {parsed : List PayloadEntry}
    (hparse : parseEntries entries = .ok parsed) :
    ∀ entry ∈ parsed, entry.path ∉ nonPayloadPaths := by
  induction entries generalizing parsed with
  | nil =>
    cases hparse
    simp
  | cons entry rest ih =>
    rw [parseEntries, bind_eq_ok] at hparse
    obtain ⟨first, hfirst, hparse⟩ := hparse
    rw [bind_eq_ok] at hparse
    obtain ⟨others, hothers, hparse⟩ := hparse
    cases hparse
    exact List.forall_mem_cons.mpr ⟨parseEntry_path hfirst, ih hothers⟩

variable {manifest : ContentManifest}

theorem parseContentManifest_ok {raw : Bytes} (hparse : parseContentManifest raw = .ok manifest) :
    manifest.canonicalBytes = raw ∧ ∀ entry ∈ manifest.entries, entry.path ∉ nonPayloadPaths := by
  unfold parseContentManifest at hparse
  cases hdocument : (decodeUtf8? raw).bind Json.loads with
  | none =>
    rw [hdocument] at hparse
    cases hparse
  | some document =>
    rw [hdocument] at hparse
    dsimp only at hparse
    unfold parseDocument at hparse
    split at hparse
    · rw [bind_eq_ok] at hparse
      obtain ⟨_, -, hparse⟩ := hparse
      split at hparse
      · rw [bind_eq_ok] at hparse
        obtain ⟨entries, hentries, hparse⟩ := hparse
        rw [bind_eq_ok] at hparse
        obtain ⟨_, hcanonical, hparse⟩ := hparse
        cases hparse
        exact ⟨require_eq_ok.mp hcanonical, parseEntries_paths hentries⟩
      · cases hparse
    all_goals cases hparse

theorem parseEntries_asJson {entries : List PayloadEntry}
    (hentries : ∀ entry ∈ entries, entry.path ∉ nonPayloadPaths ∧ IsSha256Hex entry.sha256) :
    parseEntries (entries.map PayloadEntry.asJson) = .ok entries := by
  induction entries with
  | nil => rfl
  | cons entry rest ih =>
    obtain ⟨⟨hpath, hdigest⟩, hrest⟩ := List.forall_mem_cons.mp hentries
    have hparse : parseEntry entry.asJson = .ok entry := by
      have hsize : (0 : Int) ≤ entry.size := Int.natCast_nonneg entry.size
      unfold parseEntry PayloadEntry.asJson
      have hdigestKey : ("sha256" == "path") = false := by decide +kernel
      have hsizePath : ("size" == "path") = false := by decide +kernel
      have hsizeDigest : ("size" == "sha256") = false := by decide +kernel
      dsimp only
      rw [List.lookup_cons_self, List.lookup_cons, hdigestKey, List.lookup_cons_self,
        List.lookup_cons, hsizePath, List.lookup_cons, hsizeDigest, List.lookup_cons_self]
      dsimp only
      rw [bind_eq_ok]
      refine ⟨(), require_eq_ok.mpr hsize, ?_⟩
      rw [bind_eq_ok]
      refine ⟨(), require_eq_ok.mpr hpath, ?_⟩
      rw [bind_eq_ok]
      exact ⟨(), require_eq_ok.mpr hdigest, rfl⟩
    rw [List.map_cons, parseEntries, bind_eq_ok]
    refine ⟨entry, hparse, ?_⟩
    rw [bind_eq_ok]
    exact ⟨rest, ih hrest, rfl⟩

theorem parseContentManifest_canonicalBytes
    (hentries : ∀ entry ∈ manifest.entries, entry.path ∉ nonPayloadPaths ∧ IsSha256Hex entry.sha256)
    :
    parseContentManifest manifest.canonicalBytes = .ok manifest := by
  have hread : (decodeUtf8? manifest.canonicalBytes).bind Json.loads = some manifest.asJson := by
    rw [ContentManifest.canonicalBytes, decodeUtf8?_utf8, Option.bind_some,
      Json.loads_canonicalText (wellFormed_asJson manifest)]
  rw [parseContentManifest, hread]
  dsimp only
  rw [ContentManifest.asJson, parseDocument, bind_eq_ok]
  refine ⟨(), require_eq_ok.mpr ?_, ?_⟩
  · have hapart : ("files_format_version" == "files") = false := by decide +kernel
    rw [List.lookup_cons, hapart, List.lookup_cons_self]
    rfl
  · rw [List.lookup_cons_self]
    dsimp only
    rw [bind_eq_ok]
    refine ⟨manifest.entries, parseEntries_asJson hentries, ?_⟩
    rw [bind_eq_ok]
    exact ⟨(), require_eq_ok.mpr rfl, rfl⟩

end Manifest

variable {sha256 : Bytes → String}

theorem verifyEntry_ok {declared : List (String × PayloadEntry)} {member : String × Bytes}
    (hverify : verifyEntry sha256 declared member = .ok ()) :
    ∃ entry, declared.lookup member.1 = some entry ∧ sha256 member.2 = entry.sha256 := by
  unfold verifyEntry at hverify
  cases hlookup : declared.lookup member.1 with
  | none =>
    rw [hlookup] at hverify
    cases hverify
  | some entry =>
    rw [hlookup] at hverify
    dsimp only at hverify
    rw [bind_eq_ok] at hverify
    obtain ⟨_, -, hdigest⟩ := hverify
    exact ⟨entry, rfl, require_eq_ok.mp hdigest⟩

theorem subset_of_verifyPayload {manifest : ContentManifest} {first second : Members}
    (hfirst : verifyPayloadAgainstManifest sha256 manifest first = .ok ())
    (hsecond : verifyPayloadAgainstManifest sha256 manifest second = .ok ())
    (hcollide : ∀ left ∈ first, ∀ right ∈ second, sha256 left.2 = sha256 right.2 →
      left.2 = right.2) : first ⊆ second := by
  unfold verifyPayloadAgainstManifest at hfirst hsecond
  dsimp only at hfirst hsecond
  rw [bind_eq_ok] at hfirst hsecond
  obtain ⟨_, hkeys, hfirst⟩ := hfirst
  obtain ⟨_, hkeys', hsecond⟩ := hsecond
  intro member hmem
  have hheld := (require_eq_ok.mp hkeys').1 member.1
    ((require_eq_ok.mp hkeys).2 member.1 (List.mem_map_of_mem hmem))
  obtain ⟨held, hheld, hpath⟩ := List.mem_map.mp hheld
  obtain ⟨entry, hlookup, hdigest⟩ := verifyEntry_ok (forEach_eq_ok.mp hfirst member hmem)
  obtain ⟨entry', hlookup', hdigest'⟩ := verifyEntry_ok (forEach_eq_ok.mp hsecond held hheld)
  rw [hpath, hlookup] at hlookup'
  cases hlookup'
  have hbytes := hcollide member hmem held hheld (hdigest.trans hdigest'.symm)
  rwa [Prod.ext hpath.symm hbytes]

structure Accepted (tools : PackageTools) (archive : Members) (verified : VerifiedPackage)
    (document : ContentManifest) : Prop where
  nodup : (archive.map Prod.fst).Nodup
  files : (integrityFilesPath, document.canonicalBytes) ∈ archive
  apart : ∀ entry ∈ document.entries, entry.path ∉ nonPayloadPaths
  payload : verifyPayloadAgainstManifest tools.sha256 document (payload archive) = .ok ()
  digest : verified.contentDigest = contentDigest tools.sha256 document

theorem verifyPackage_ok {tools : PackageTools} {archive : Members} {verified : VerifiedPackage}
    (hverify : verifyPackage tools archive = .ok verified) :
    ∃ document, Accepted tools archive verified document := by
  simp only [verifyPackage, bind_eq_ok] at hverify
  obtain ⟨_, hscan, _, -, _, -, _, -, _, -, _, -, filesBytes, hfiles, _, -, _, -, _, -, _, -, _, -,
    _, -, document, hparse, _, hpayload, _, -, hverified⟩ := hverify
  cases hverified
  obtain ⟨hbytes, hapart⟩ := parseContentManifest_ok hparse
  simp only [scanArchive, bind_eq_ok] at hscan
  obtain ⟨_, -, _, hclaim, -⟩ := hscan
  exact ⟨document,
    { nodup := (nodup_of_claimPaths hclaim).1
      files := hbytes ▸ mem_of_readMember hfiles
      apart := hapart
      payload := hpayload
      digest := rfl }⟩

end PackageFormat

end NervOS
