/-
A built package against its inputs: the payload is what was supplied when no two of the
supplied files, and none of them and the generated lock, meet at one archive path.
-/
import NervOS.Refinement.PackageArchive

namespace NervOS

namespace PackageFormat

open Relational (bind_eq_ok)

def PackageBuildSource.supplied (source : PackageBuildSource) : Members :=
  [(manifestPath, source.manifest), (agentWheelPath, source.agentWheel),
    (configSchemaPath, source.configSchema)] ++
    source.readme.toList.map (fun readme => (readmePath, readme)) ++ source.assets ++
    source.dependencyWheels.map fun wheel => (wheelsPrefix ++ wheel.1, wheel.2)

theorem paths_eq_dict (source : PackageBuildSource) :
    source.paths = Python.dict source.supplied := by
  have hwheels : ∀ (wheels paths : Members),
      wheels.foldl (fun paths wheel => Python.assign (wheelsPrefix ++ wheel.1) wheel.2 paths)
        paths =
      (wheels.map fun wheel => (wheelsPrefix ++ wheel.1, wheel.2)).foldl
        (fun object member => Python.assign member.1 member.2 object) paths := by
    intro wheels paths
    rw [List.foldl_map]
  have hfixed : [(manifestPath, source.manifest), (agentWheelPath, source.agentWheel),
      (configSchemaPath, source.configSchema)] = Python.dict [(manifestPath, source.manifest),
        (agentWheelPath, source.agentWheel), (configSchemaPath, source.configSchema)] := by
    apply (Python.dict_of_nodup _).symm
    change [manifestPath, agentWheelPath, configSchemaPath].Nodup
    decide +kernel
  unfold PackageBuildSource.paths PackageBuildSource.supplied
  dsimp only
  rw [hwheels]
  unfold Python.dict at hfixed ⊢
  rw [List.foldl_append, List.foldl_append, List.foldl_append, ← hfixed]
  cases source.readme with
  | none | some => rfl

theorem nodup_paths (source : PackageBuildSource) : (source.paths.map Prod.fst).Nodup := by
  rw [paths_eq_dict]
  exact Python.nodup_dict source.supplied

def PackageBuildSource.intended (source : PackageBuildSource) (lock : Bytes) : Members :=
  source.supplied ++ [(lockPath, lock)]

def ExactPayload (source : PackageBuildSource) (built : BuiltPackage) : Prop :=
  ∀ member, member ∈ payload built.archive ↔ member ∈ source.intended built.lock

def PackageBuildSource.lockFor (tools : PackageTools) (source : PackageBuildSource) :
    Checked Bytes :=
  tools.buildLock source.agentWheel (wheelsOf (canonicalOrder source.paths))

structure ConflictFree (tools : PackageTools) (source : PackageBuildSource) : Prop where
  files : ∀ first ∈ source.supplied, ∀ second ∈ source.supplied, first.1 = second.1 →
    first.2 = second.2
  lock : ∀ member ∈ source.supplied, member.1 = lockPath →
    source.lockFor tools = .ok member.2

/-- The same files, whatever order the two mappings list them in. -/
structure Reordered (first second : PackageBuildSource) : Prop where
  manifest : first.manifest = second.manifest
  configSchema : first.configSchema = second.configSchema
  agentWheel : first.agentWheel = second.agentWheel
  readme : first.readme = second.readme
  assets : ∀ asset, asset ∈ first.assets ↔ asset ∈ second.assets
  wheels : ∀ wheel, wheel ∈ first.dependencyWheels ↔ wheel ∈ second.dependencyWheels

/-- The hash tells apart the contents of these members. -/
def CollisionFree (sha256 : Bytes → String) (members : Members) : Prop :=
  ∀ first ∈ members, ∀ second ∈ members, sha256 first.2 = sha256 second.2 →
    first.2 = second.2

section Built

variable {tools : PackageTools} {source : PackageBuildSource} {built : BuiltPackage}

theorem snapshotSources_ok {members : Members}
    (hsnapshot : snapshotSources tools.unicode source = .ok members) :
    members = canonicalOrder source.paths := by
  simp only [snapshotSources, bind_eq_ok] at hsnapshot
  obtain ⟨_, -, _, -, _, -, _, -, _, -, _, -, hmembers⟩ := hsnapshot
  cases hmembers
  rfl

theorem prepareArchive_ok {members : Members} {prepared : PreparedArchive}
    (hprepare : prepareArchive tools members = .ok prepared) :
    (∃ agentWheel, readMember members agentWheelPath = .ok agentWheel ∧
      tools.buildLock agentWheel (wheelsOf members) = .ok prepared.lock) ∧
    ∃ manifestBytes manifest, readMember members manifestPath = .ok manifestBytes ∧
      tools.parseManifest manifestBytes = .ok manifest ∧
      prepared.members = Python.assign integritySignaturePath
        (tools.sign (envelope manifest (contentDigest tools.sha256
          (contentManifest tools.sha256 (Python.assign lockPath prepared.lock members)))))
        (Python.assign integrityFilesPath
          (contentManifest tools.sha256
            (Python.assign lockPath prepared.lock members)).canonicalBytes
          (Python.assign lockPath prepared.lock members)) := by
  simp only [prepareArchive, bind_eq_ok] at hprepare
  obtain ⟨manifestBytes, hmanifestBytes, manifest, hmanifest, _, -, _, -, _, -, agentWheel, hagent,
    lock, hlock, _, -, _, -, hprepared⟩ := hprepare
  cases hprepared
  exact ⟨⟨agentWheel, hagent, hlock⟩, manifestBytes, manifest, hmanifestBytes, hmanifest, rfl⟩

theorem packageBuild_ok (hbuild : packageBuild tools source = .ok built) :
    ∃ prepared, prepareArchive tools (canonicalOrder source.paths) = .ok prepared ∧
      verifyPackage tools (canonicalOrder prepared.members) = .ok built.verified ∧
      built.archive = canonicalOrder prepared.members ∧ built.lock = prepared.lock := by
  simp only [packageBuild, bind_eq_ok] at hbuild
  obtain ⟨members, hsnapshot, prepared, hprepare, verified, hverify, hbuilt⟩ := hbuild
  cases hbuilt
  rw [snapshotSources_ok hsnapshot] at hprepare
  exact ⟨prepared, hprepare, hverify, rfl, rfl⟩

def locked (source : PackageBuildSource) (lock : Bytes) : Members :=
  Python.assign lockPath lock (canonicalOrder source.paths)

theorem nodup_locked (source : PackageBuildSource) (lock : Bytes) :
    ((locked source lock).map Prod.fst).Nodup :=
  Python.nodup_assign (nodup_keys_canonicalOrder.mpr (nodup_paths source))

theorem mem_locked {source : PackageBuildSource} {lock : Bytes} {member : String × Bytes} :
    member ∈ locked source lock ↔ member ∈ Python.dict (source.intended lock) := by
  rw [locked, Python.mem_assign_iff (nodup_keys_canonicalOrder.mpr (nodup_paths source)),
    mem_canonicalOrder, PackageBuildSource.intended, Python.dict_concat,
    Python.mem_assign_iff (Python.nodup_dict _), paths_eq_dict]

section

variable (hbuild : packageBuild tools source = .ok built)

include hbuild

theorem mem_archive :
    ∃ document, ∀ member, member ∈ built.archive ↔
      member = (integritySignaturePath, document) ∨
      ((member = (integrityFilesPath,
          (contentManifest tools.sha256 (locked source built.lock)).canonicalBytes) ∨
        (member ∈ locked source built.lock ∧ member.1 ≠ integrityFilesPath)) ∧
        member.1 ≠ integritySignaturePath) := by
  obtain ⟨prepared, hprepare, -, harchive, hlock⟩ := packageBuild_ok hbuild
  obtain ⟨-, _, manifest, -, -, hmembers⟩ := prepareArchive_ok hprepare
  rw [← hlock] at hmembers
  have hnodup := nodup_locked source built.lock
  refine ⟨tools.sign (envelope manifest (contentDigest tools.sha256
    (contentManifest tools.sha256 (locked source built.lock)))), fun member => ?_⟩
  unfold locked at hnodup ⊢
  rw [harchive, mem_canonicalOrder, hmembers,
    Python.mem_assign_iff (Python.nodup_assign hnodup), Python.mem_assign_iff hnodup]

theorem locked_apart :
    ∀ member ∈ locked source built.lock, member.1 ∉ nonPayloadPaths := by
  obtain ⟨prepared, -, hverify, harchive, -⟩ := packageBuild_ok hbuild
  obtain ⟨files, haccepted⟩ := verifyPackage_ok hverify
  rw [← harchive] at haccepted
  obtain ⟨document, hmem⟩ := mem_archive hbuild
  have hne : integrityFilesPath ≠ integritySignaturePath := by decide +kernel
  have hbytes := Python.eq_of_key haccepted.nodup haccepted.files
    ((hmem _).mpr (Or.inr ⟨Or.inl rfl, hne⟩)) rfl
  have hfiles := canonicalBytes_injective (Prod.ext_iff.mp hbytes).2
  intro member hlocked
  have hentry : (⟨member.1, tools.sha256 member.2, member.2.length⟩ : PayloadEntry) ∈
      files.entries := by
    rw [hfiles]
    exact List.mem_map.mpr ⟨member, mem_canonicalOrder.mpr hlocked, rfl⟩
  exact haccepted.apart _ hentry

theorem mem_payload_built (member : String × Bytes) :
    member ∈ payload built.archive ↔ member ∈ Python.dict (source.intended built.lock) := by
  obtain ⟨document, hmem⟩ := mem_archive hbuild
  rw [mem_payload, hmem, ← mem_locked]
  constructor
  · rintro ⟨rfl | ⟨rfl | hlocked, -⟩, hapart⟩
    · exact absurd (by simp [nonPayloadPaths]) hapart
    · exact absurd (by simp [nonPayloadPaths]) hapart
    · exact hlocked.1
  · intro hlocked
    have hapart := locked_apart hbuild member hlocked
    have hpaths : member.1 ≠ integrityFilesPath ∧ member.1 ≠ integritySignaturePath := by
      simpa [nonPayloadPaths] using hapart
    exact ⟨Or.inr ⟨Or.inr ⟨hlocked, hpaths.1⟩, hpaths.2⟩, hapart⟩

theorem exactPayload_iff :
    ExactPayload source built ↔ ConflictFree tools source := by
  have hdict : ExactPayload source built ↔ ∀ first ∈ source.intended built.lock,
      ∀ second ∈ source.intended built.lock, first.1 = second.1 → first.2 = second.2 := by
    rw [← Python.mem_dict_iff_all]
    simp only [ExactPayload, mem_payload_built hbuild]
  have hlock : (∀ first ∈ source.supplied, ∀ second ∈ source.supplied, first.1 = second.1 →
      first.2 = second.2) → source.lockFor tools = .ok built.lock := by
    intro hfiles
    obtain ⟨prepared, hprepare, -, -, hlock⟩ := packageBuild_ok hbuild
    obtain ⟨⟨agentWheel, hagent, hbuilt⟩, -⟩ := prepareArchive_ok hprepare
    have hmem := mem_canonicalOrder.mp (mem_of_readMember hagent)
    rw [paths_eq_dict] at hmem
    have heq : agentWheel = source.agentWheel :=
      hfiles _ (Python.mem_of_mem_dict hmem) (agentWheelPath, source.agentWheel)
        (by simp [PackageBuildSource.supplied]) rfl
    rw [PackageBuildSource.lockFor, hlock, ← hbuilt, heq]
  rw [hdict]
  constructor
  · intro hvalues
    have hfiles : ∀ first ∈ source.supplied, ∀ second ∈ source.supplied,
        first.1 = second.1 → first.2 = second.2 := fun first hfirst second hsecond =>
      hvalues first (List.mem_append_left _ hfirst) second (List.mem_append_left _ hsecond)
    refine ⟨hfiles, ?_⟩
    intro member hmem hpath
    have heq := hvalues member (List.mem_append_left _ hmem) (lockPath, built.lock)
      (List.mem_append_right _ List.mem_cons_self) hpath
    rw [hlock hfiles, heq]
  · intro hfree first hfirst second hsecond hpath
    have hheld : ∀ member ∈ source.supplied, member.1 = lockPath → member.2 = built.lock := by
      intro member hmem hmember
      have heq := hfree.lock member hmem hmember
      rw [hlock hfree.files] at heq
      exact (Except.ok.inj heq).symm
    rw [PackageBuildSource.intended, List.mem_append, List.mem_singleton] at hfirst hsecond
    rcases hfirst with hfirst | rfl
    · rcases hsecond with hsecond | rfl
      · exact hfree.files first hfirst second hsecond hpath
      · exact hheld first hfirst hpath
    · rcases hsecond with hsecond | rfl
      · exact (hheld second hsecond hpath.symm).symm
      · rfl

end

end Built

section Order

variable {first second : PackageBuildSource}

theorem built_eq_of_snapshot {tools : PackageTools} {built rebuilt : BuiltPackage}
    (hpaths : canonicalOrder first.paths = canonicalOrder second.paths)
    (hfirst : packageBuild tools first = .ok built)
    (hsecond : packageBuild tools second = .ok rebuilt) : built.archive = rebuilt.archive := by
  obtain ⟨prepared, hprepare, -, harchive, -⟩ := packageBuild_ok hfirst
  obtain ⟨prepared', hprepare', -, harchive', -⟩ := packageBuild_ok hsecond
  rw [hpaths, hprepare'] at hprepare
  cases hprepare
  rw [harchive, harchive']

theorem mem_paths (source : PackageBuildSource) (member : String × Bytes) :
    member ∈ source.paths ↔
      (∃ wheel ∈ source.dependencyWheels, (wheelsPrefix ++ wheel.1, wheel.2) = member) ∨
      ((member ∈ source.assets ∨
        (member ∈ Python.dict ([(manifestPath, source.manifest),
            (agentWheelPath, source.agentWheel), (configSchemaPath, source.configSchema)] ++
            source.readme.toList.map fun readme => (readmePath, readme)) ∧
          ¬ ∃ asset ∈ source.assets, asset.1 = member.1)) ∧
        ¬ ∃ wheel ∈ source.dependencyWheels, wheelsPrefix ++ wheel.1 = member.1) := by
  have hprefixed : ((source.dependencyWheels.map fun wheel =>
      (wheelsPrefix ++ wheel.1, wheel.2)).map Prod.fst).Nodup := by
    rw [List.map_map]
    have hmap := source.wheelsDistinct.map (f := fun name => wheelsPrefix ++ name)
      fun left right heq => (String.append_right_inj wheelsPrefix).mp heq
    rwa [List.map_map] at hmap
  rw [paths_eq_dict, PackageBuildSource.supplied, Python.mem_dict_append,
    Python.mem_dict_append, Python.dict_of_nodup hprefixed,
    Python.dict_of_nodup source.assetsDistinct]
  simp only [List.mem_map, List.map_map, Function.comp_apply]

theorem paths_of_reordered (h : Reordered first second) (member : String × Bytes) :
    member ∈ first.paths ↔ member ∈ second.paths := by
  rw [mem_paths, mem_paths, h.manifest, h.configSchema, h.agentWheel, h.readme]
  simp only [h.assets, h.wheels]

theorem paths_of_supplied {tools : PackageTools} (hfree : ConflictFree tools first)
    (hsame : ∀ member, member ∈ first.supplied ↔ member ∈ second.supplied) (member : String × Bytes)
    : member ∈ first.paths ↔ member ∈ second.paths := by
  have hsecond : ∀ left ∈ second.supplied, ∀ right ∈ second.supplied, left.1 = right.1 →
      left.2 = right.2 := fun left hleft right hright =>
    hfree.files left ((hsame left).mpr hleft) right ((hsame right).mpr hright)
  rw [paths_eq_dict, paths_eq_dict, Python.mem_dict_iff_all.mpr hfree.files,
    Python.mem_dict_iff_all.mpr hsecond, hsame]

end Order

theorem payload_eq_of_digest {tools : PackageTools} {first second : Members}
    {verified reverified : VerifiedPackage}
    (hfirst : verifyPackage tools first = .ok verified)
    (hsecond : verifyPackage tools second = .ok reverified)
    (hfree : CollisionFree tools.sha256 (first ++ second))
    (hdigest : verified.contentDigest = reverified.contentDigest) (member : String × Bytes) :
    member ∈ payload first ↔ member ∈ payload second := by
  obtain ⟨document, haccepted⟩ := verifyPackage_ok hfirst
  obtain ⟨document', haccepted'⟩ := verifyPackage_ok hsecond
  rw [haccepted.digest, haccepted'.digest] at hdigest
  have hbytes := hfree _ (List.mem_append_left _ haccepted.files) _
    (List.mem_append_right _ haccepted'.files) hdigest
  have hdocument := canonicalBytes_injective hbytes
  subst hdocument
  constructor
  · apply subset_of_verifyPayload haccepted.payload haccepted'.payload
    intro left hleft right hright
    exact hfree left (List.mem_append_left _ (mem_payload.mp hleft).1) right
      (List.mem_append_right _ (mem_payload.mp hright).1)
  · apply subset_of_verifyPayload haccepted'.payload haccepted.payload
    intro left hleft right hright
    exact hfree left (List.mem_append_right _ (mem_payload.mp hleft).1) right
      (List.mem_append_left _ (mem_payload.mp hright).1)

/-- A published archive holds exactly its inputs when they are free of conflicts, and only then;
its bytes follow from the files; and a content digest fixes the payload. -/
theorem package_contents (tools : PackageTools) :
    (∀ source built, packageBuild tools source = .ok built →
      (ExactPayload source built ↔ ConflictFree tools source)) ∧
    (∀ first second built rebuilt, packageBuild tools first = .ok built →
      packageBuild tools second = .ok rebuilt →
      (Reordered first second ∨ (ConflictFree tools first ∧
        ∀ member, member ∈ first.supplied ↔ member ∈ second.supplied)) →
      built.bytes tools = rebuilt.bytes tools) ∧
    ∀ first second verified reverified, verifyPackage tools first = .ok verified →
      verifyPackage tools second = .ok reverified →
      CollisionFree tools.sha256 (first ++ second) →
      verified.contentDigest = reverified.contentDigest →
      ∀ member, member ∈ payload first ↔ member ∈ payload second := by
  refine ⟨fun source built hbuild => exactPayload_iff hbuild, ?_, ?_⟩
  · intro first second built rebuilt hfirst hsecond hsame
    have hpaths : ∀ member, member ∈ first.paths ↔ member ∈ second.paths := by
      rcases hsame with hreordered | ⟨hfree, hsupplied⟩
      · exact paths_of_reordered hreordered
      · exact paths_of_supplied hfree hsupplied
    have horder := canonicalOrder_congr (nodup_paths first) (nodup_paths second) hpaths
    rw [BuiltPackage.bytes, BuiltPackage.bytes, built_eq_of_snapshot horder hfirst hsecond]
  · intro first second verified reverified hfirst hsecond hfree hdigest
    exact payload_eq_of_digest hfirst hsecond hfree hdigest

def sampleHash (raw : Bytes) : String :=
  let first := (raw.head?.map UInt8.toNat).getD 0
  String.ofList
    (Nat.digitChar (first / 16) :: Nat.digitChar (first % 16) :: List.replicate 62 '0')

def sampleManifest : PackageManifest :=
  ⟨"acme.agent", "1.0.0", "1", configSchemaPath, []⟩

def sampleTools : PackageTools where
  unicode :=
    { nfc := id
      casefold := fun component => component.map Char.toLower
      isAlpha := Char.isAlpha }
  container := fun members => members.flatMap fun member => utf8 member.1 ++ member.2
  sha256 := sampleHash
  parseManifest := fun _ => .ok sampleManifest
  parseConfigSchema := fun _ => .ok ()
  buildLock := fun _ _ => .ok [6]
  verifyLock := fun _ _ _ => .ok ()
  sign := fun message => message.take 1
  verifySignature := fun signature message =>
    if signature = message.take 1 then .ok "acme" else .error ⟨.foreign, "signature"⟩

/-- A readme is supplied, and an asset under its archive path as well. -/
def readmeSource : PackageBuildSource where
  manifest := [1]
  configSchema := [2]
  agentWheel := [3]
  readme := some [4]
  assets := [("README.md", [5])]
  dependencyWheels := []
  assetsDistinct := by simp
  wheelsDistinct := by simp

def readmeArchive (files document : Bytes) : Members :=
  [("README.md", [5]), ("agent.whl", [3]), ("config.schema.json", [2]),
    ("dependencies/lock.json", [6]), ("integrity/files.json", files),
    ("integrity/signature.json", document), ("manifest.yaml", [1])]

variable (files document : Bytes)

theorem readmeArchive_eq :
    canonicalOrder (Python.assign integritySignaturePath document
      (Python.assign integrityFilesPath files
        (Python.assign lockPath [6] (canonicalOrder readmeSource.paths)))) =
      readmeArchive files document := by
  simp [canonicalOrder, Python.assign, PackageBuildSource.paths, readmeSource, readmeArchive,
    integritySignaturePath, integrityFilesPath, lockPath, manifestPath, agentWheelPath,
    configSchemaPath, readmePath, List.insertionSort, List.orderedInsert]

/-- The payload manifest of that build. -/
def readmeFiles : ContentManifest :=
  contentManifest sampleHash (Python.assign lockPath [6] (canonicalOrder readmeSource.paths))

theorem length_readmeFiles : readmeFiles.canonicalBytes.length ≤ 4096 := by
  rw [ContentManifest.canonicalBytes, Json.canonicalText, utf8_ofList]
  decide +kernel

theorem canonicalOrder_readmeArchive :
    canonicalOrder (readmeArchive files document) = readmeArchive files document := by
  simp [canonicalOrder, readmeArchive, List.insertionSort]

theorem payload_readmeArchive :
    payload (readmeArchive files document) =
      [("README.md", [5]), ("agent.whl", [3]), ("config.schema.json", [2]),
        ("dependencies/lock.json", [6]), ("manifest.yaml", [1])] := by
  rw [payload, canonicalOrder_readmeArchive]
  simp [readmeArchive, nonPayloadPaths, integrityFilesPath, integritySignaturePath]

theorem scan_readmeArchive {files document : Bytes} (hfiles : files.length ≤ 4096)
    (hdocument : document.length ≤ 4096) :
    scanArchive sampleTools.unicode (readmeArchive files document) = .ok () := by
  have hclaim : claimPaths sampleTools.unicode (fun existing path =>
      s!"archive contains colliding entries ({existing} and {path})")
      ["README.md", "agent.whl", "config.schema.json", "dependencies/lock.json",
        "integrity/files.json", "integrity/signature.json", "manifest.yaml"] [] = .ok () := by
    decide +kernel
  simp only [scanArchive, bind_eq_ok, require_eq_ok]
  refine ⟨(), by simp [readmeArchive, maxEntries], (), hclaim, (), forEach_eq_ok.mpr ?_, ?_⟩
  · intro member hmem
    have hlength : member.2.length ≤ 4096 := by
      simp only [readmeArchive, List.mem_cons, List.not_mem_nil, or_false] at hmem
      rcases hmem with rfl | rfl | rfl | rfl | rfl | rfl | rfl
      all_goals simp [hfiles, hdocument]
    exact require_eq_ok.mpr (hlength.trans (by decide))
  · simp only [totalSize, readmeArchive, extractedMaxBytes, List.foldl_cons, List.foldl_nil,
      List.length_cons, List.length_nil]
    omega

theorem readmeArchive_accepted : ∃ verified, verifyPackage sampleTools
    (readmeArchive readmeFiles.canonicalBytes (sampleTools.sign
      (envelope sampleManifest (contentDigest sampleTools.sha256 readmeFiles)))) =
      .ok verified := by
  have hlayout : requireLayout sampleTools.unicode
      ["README.md", "agent.whl", "config.schema.json", "dependencies/lock.json",
        "integrity/files.json", "integrity/signature.json", "manifest.yaml"] = .ok () := by
    decide +kernel
  have hentries : ∀ entry ∈ readmeFiles.entries,
      entry.path ∉ nonPayloadPaths ∧ IsSha256Hex entry.sha256 := by
    decide +kernel
  have hshort : ∀ message : Bytes, (sampleTools.sign message).length ≤ 4096 := fun message =>
    (List.length_take_le 1 message).trans (by decide)
  have hread : ∀ files document,
      readMember (readmeArchive files document) manifestPath = .ok [1] ∧
      readMember (readmeArchive files document) configSchemaPath = .ok [2] ∧
      readMember (readmeArchive files document) agentWheelPath = .ok [3] ∧
      readMember (readmeArchive files document) lockPath = .ok [6] ∧
      readMember (readmeArchive files document) integrityFilesPath = .ok files ∧
      readMember (readmeArchive files document) integritySignaturePath = .ok document := by
    intro files document
    exact ⟨rfl, rfl, rfl, rfl, rfl, rfl⟩
  have hsigned : ∀ message : Bytes,
      sampleTools.verifySignature (sampleTools.sign message) message = .ok "acme" :=
    fun message => if_pos rfl
  have hpayload : verifyPayloadAgainstManifest sampleHash readmeFiles
      [("README.md", [5]), ("agent.whl", [3]), ("config.schema.json", [2]),
        ("dependencies/lock.json", [6]), ("manifest.yaml", [1])] = .ok () := by
    decide +kernel
  simp only [verifyPackage, bind_eq_ok, canonicalOrder_readmeArchive, payload_readmeArchive]
  obtain ⟨hmanifest, hconfig, hagent, hlock, hfiles, hsignature⟩ := hread
    readmeFiles.canonicalBytes
    (sampleTools.sign (envelope sampleManifest (contentDigest sampleTools.sha256 readmeFiles)))
  exact ⟨_, (), scan_readmeArchive length_readmeFiles (hshort _), (), hlayout, _, hmanifest, _,
    hconfig, _, hagent, _, hlock, _, hfiles, _, hsignature, (), by decide +kernel,
    sampleManifest, rfl, (), rfl, (), rfl, (), by decide +kernel, readmeFiles,
    parseContentManifest_canonicalBytes hentries, (), hpayload, "acme", hsigned _, rfl⟩

/-- The readme of the package is the asset's text. -/
theorem readme_replaced : ∃ built, packageBuild sampleTools readmeSource = .ok built ∧
    ¬ ExactPayload readmeSource built := by
  have hsnapshot : (snapshotSources sampleTools.unicode readmeSource).isOk = true := by
    decide +kernel
  obtain ⟨members, hsnapshot⟩ := exists_of_isOk hsnapshot
  have hmembers := snapshotSources_ok hsnapshot
  subst hmembers
  have hprepare : (prepareArchive sampleTools (canonicalOrder readmeSource.paths)).isOk = true := by
    decide +kernel
  obtain ⟨prepared, hprepare⟩ := exists_of_isOk hprepare
  obtain ⟨⟨_, -, hlock⟩, _, manifest, -, hmanifest, hprepared⟩ := prepareArchive_ok hprepare
  cases hmanifest
  have hgenerated : prepared.lock = [6] := (Except.ok.inj hlock).symm
  rw [hgenerated] at hprepared
  have hfiles : contentManifest sampleTools.sha256 (Python.assign lockPath [6]
      (canonicalOrder readmeSource.paths)) = readmeFiles := rfl
  rw [hfiles] at hprepared
  obtain ⟨verified, hverify⟩ := readmeArchive_accepted
  have harchive := readmeArchive_eq readmeFiles.canonicalBytes
    (sampleTools.sign (envelope sampleManifest (contentDigest sampleTools.sha256 readmeFiles)))
  rw [← hprepared] at harchive
  have hverify : verifyPackage sampleTools (canonicalOrder prepared.members) = .ok verified := by
    rw [harchive]
    exact hverify
  have hbuild : packageBuild sampleTools readmeSource =
      .ok ⟨canonicalOrder prepared.members, prepared.lock, verified⟩ := by
    simp only [packageBuild, bind_eq_ok]
    exact ⟨_, hsnapshot, prepared, hprepare, verified, hverify, rfl⟩
  refine ⟨_, hbuild, ?_⟩
  intro hexact
  have hfree := (exactPayload_iff hbuild).mp hexact
  have hreadme : ("README.md", [4]) ∈ readmeSource.supplied := by
    simp [PackageBuildSource.supplied, readmeSource, readmePath]
  have hasset : ("README.md", [5]) ∈ readmeSource.supplied := by
    simp [PackageBuildSource.supplied, readmeSource]
  have hsame := hfree.files ("README.md", [4]) hreadme ("README.md", [5]) hasset rfl
  simp at hsame

end PackageFormat

end NervOS
