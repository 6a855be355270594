/-
When the install tickets of the marketplace install what they name, keep their files and never
jam.
-/
import NervOS.Refinement.InstallRecovery

namespace NervOS

structure InstallDesk.Sound (ports : InstallPorts) (desk : InstallDesk) : Prop where
  active : ∀ row ∈ desk.requests, row.state = .installed → ∃ package ∈ desk.packages,
    row.terms.Installed package ∧ package.status = .active
  once : (desk.handed.map (·.row.id)).Nodup
  observed : ∀ handing ∈ desk.handed, (∃ row ∈ desk.requests, row.id = handing.row.id ∧
      row.terms = handing.row.terms) ∧
    handing.row.terms.Unchanged handing.current ∧
    ∀ body ∈ handing.archive, ports.inspects handing.row.terms body = true
  spared : ∀ op, desk.Permits op → ∀ row ∈ desk.requests, desk.InProgress row.id →
    ∀ path ∈ row.artifactPath, desk.HasFile path → (desk.exec ports op).HasFile path
  terminal : ∀ op, desk.Permits op →
    InstallDesk.KeepsTerminal desk.requests (desk.exec ports op).requests
  recoverable : ∀ row ∈ desk.requests, desk.Recoverable ports row.id

/-- Whatever is begun, cancelled or crashes: where each step is permitted, the tickets are
sound. -/
theorem install_tickets_sound {ports : InstallPorts} {desk : InstallDesk}
    (h : (installService ports).ReachableAlong (fun desk op => desk.Permits op) desk) :
    desk.Sound ports := by
  have hkept := InstallDesk.kept_of_permitted h
  constructor
  case active => exact hkept.installed
  case once => exact hkept.handedIds
  case observed =>
    intro handing hhanding
    obtain ⟨⟨row, hrow, hid, hterms, -⟩, hrest⟩ := hkept.handed handing hhanding
    exact ⟨⟨row, hrow, hid, hterms⟩, hrest⟩
  case spared =>
    intro op hpermits row hrow hprogress path hpath hfile
    exact hkept.hasFile_exec hpermits hrow hpath hprogress hfile
  case terminal =>
    intro op hpermits
    exact hkept.keepsTerminal_exec hpermits
  case recoverable =>
    intro row hrow
    exact hkept.recoverable hrow

def sampleHex : String := "6e340b9cffb37a989ca544e6bb780a2c78901d3fb33738768511a30617afa01d"

def sampleArtifact : VerifiedArtifact := ⟨"acme.tool", "1.0.0", sampleHex, sampleHex, sampleHex⟩

/-- An archive of one byte, with its digest. -/
def samplePorts : InstallPorts where
  origin := "https://market.example"
  sha256Hex _ := sampleHex
  snapshotAndVerify _ := some sampleArtifact
  isCompatible _ := some true
  isPackageId _ := true
  isPackageVersion _ := true

def sampleRelease : HostedRelease where
  packageId := some "acme.tool"
  exactVersion := some "1.0.0"
  distributionState := some "available"
  archiveSha256 := some sampleHex
  contentDigest := some sampleHex
  signerFingerprint := some sampleHex
  statusRevision := some 1
  sizeBytes := some 1

def sampleCreate : CreateRequest :=
  ⟨1, "https://market.example", "acme.tool", "1.0.0", none⟩

def deskRun (ops : List InstallOp) : InstallDesk :=
  (installService samplePorts).run ops (installService samplePorts).init

def downloadRun (operation request : Nat) : List InstallOp :=
  [.create sampleCreate, .step operation (.release sampleRelease), .prepare 1 request,
    .step (operation + 1) .proceeds, .step (operation + 1) (.body [0]),
    .step (operation + 1) .proceeds, .step (operation + 1) .proceeds]

/-- Handed to the package service. -/
def handingRun (operation request : Nat) : List InstallOp :=
  [.install 1 request, .step operation .proceeds, .step operation (.release sampleRelease),
    .step operation .proceeds, .step operation .proceeds]

def packageRun (request : Nat) : List InstallOp :=
  [.package request .proceeds, .package request .proceeds, .package request .proceeds]

def installRun : List InstallOp :=
  downloadRun 0 0 ++ handingRun 2 0 ++ packageRun 0 ++
    [.package 0 .proceeds, .step 2 .proceeds, .step 2 .proceeds, .step 2 .proceeds]

def requestStates (desk : InstallDesk) : List RequestState :=
  desk.requests.map InstallRequest.state

theorem installRun_permitted : (installService samplePorts).ReachableAlong
    (fun desk op => desk.Permits op) (deskRun installRun) := by
  refine ⟨installRun, ⟨trivial, ?_, trivial, ?_, ?_, ?_, ?_, trivial, ?_, ?_, ?_, ?_, ?_, ?_, ?_,
    ?_, ?_, ?_, ?_, trivial⟩, rfl⟩
  · rintro operation ⟨⟩
    trivial
  · rintro operation ⟨⟩ hexpired
    exact absurd hexpired (by decide)
  · rintro operation ⟨⟩
    trivial
  · rintro operation ⟨⟩
    trivial
  · rintro operation ⟨⟩
    trivial
  · rintro operation ⟨⟩ - - hexpired
    exact absurd hexpired (by decide)
  · rintro operation ⟨⟩ current ⟨⟩ hchanged
    exact absurd (by decide) hchanged
  · rintro operation ⟨⟩
    trivial
  · rintro operation ⟨⟩
    trivial
  · rintro thread ⟨⟩ verified ⟨⟩
  · rintro thread ⟨⟩ verified ⟨⟩ package ⟨⟩
  · rintro thread ⟨⟩ verified ⟨⟩
  · rintro thread ⟨⟩ verified ⟨⟩
  · rintro operation ⟨⟩
    trivial
  · rintro operation ⟨⟩
    trivial
  · rintro operation ⟨⟩
    trivial

theorem install_tickets_sound_run : requestStates (deskRun installRun) = [.installed] ∧
    (deskRun installRun).handed.length = 1 ∧ (deskRun installRun).Sound samplePorts :=
  ⟨by decide +kernel, by decide +kernel, install_tickets_sound installRun_permitted⟩

/-- An installed ticket is prepared once more, an hour later. -/
def lateRun : List InstallOp :=
  installRun ++ [.tick 3600000001, .prepare 1 0]

/-- A ticket is prepared an hour later, while it is installed. -/
def overtakenRun : List InstallOp :=
  downloadRun 0 0 ++ handingRun 2 0 ++ packageRun 0 ++
    [.tick 3600000001, .prepare 1 0, .step 3 .proceeds]

def changedRun : List InstallOp :=
  downloadRun 0 0 ++ [.install 1 0, .install 1 0, .step 2 .proceeds, .step 3 .proceeds,
    .step 2 (.release sampleRelease), .step 2 .proceeds,
    .step 3 (.release { sampleRelease with statusRevision := some 2 })]

/-- A version is installed under one ticket, and not active yet, when another installs it. -/
def sharedRun : List InstallOp :=
  downloadRun 0 0 ++ handingRun 2 0 ++ packageRun 0 ++ downloadRun 3 1 ++ handingRun 5 1 ++
    [.package 1 .proceeds, .package 1 .proceeds, .step 5 .proceeds, .step 5 .proceeds]

def presentFiles (desk : InstallDesk) : List Bool :=
  desk.files.map ArtifactFile.isPresent

/-- What was installed fails, what has failed becomes installed, the file of an approved ticket
goes while it is installed, and a ticket is installed whose version is not active. -/
theorem install_tickets_unsound :
    (requestStates (deskRun lateRun) = [.installed] ∧
      requestStates (deskRun (lateRun ++ [.step 3 .proceeds])) = [.failed]) ∧
    (requestStates (deskRun overtakenRun) = [.failed] ∧
      requestStates (deskRun (overtakenRun ++ [.package 0 .proceeds, .step 2 .proceeds,
        .step 2 .proceeds])) = [.installed]) ∧
    (requestStates (deskRun changedRun) = [.approved] ∧ (deskRun changedRun).Live 0 ∧
      presentFiles (deskRun changedRun) = [true] ∧
      presentFiles (deskRun (changedRun ++ [.step 3 .proceeds])) = [false]) ∧
    (requestStates (deskRun sharedRun) = [.approved, .installed] ∧
      (deskRun sharedRun).packages.map InstalledPackage.status = [.installed]) := by
  refine ⟨⟨?_, ?_⟩, ⟨?_, ?_⟩, ⟨?_, ?_, ?_, ?_⟩, ?_, ?_⟩
  case _ => decide +kernel
  case _ => decide +kernel
  case _ => decide +kernel
  case _ => decide +kernel
  case _ => decide +kernel
  case _ =>
    have hhanding : ∃ operation ∈ (deskRun changedRun).running,
        operation.stage.installs? = some 0 := by decide +kernel
    exact .inl hhanding
  case _ => decide +kernel
  case _ => decide +kernel
  case _ => decide +kernel
  case _ => decide +kernel

end NervOS
