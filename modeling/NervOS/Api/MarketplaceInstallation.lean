/-
Install tickets of the marketplace: a release is pinned, downloaded, verified, approved and handed
to the package service.  Each step is one transaction, one change of a file or one answer from
outside, and anything may come between two of them.
-/
import NervOS.Domain.Jobs
import NervOS.Relational.Keyed
import NervOS.Relational.Machine

namespace NervOS

open Relational

inductive RequestState where
  | created
  | downloaded
  | approved
  | installed
  | failed
deriving DecidableEq

/-- The columns of a ticket that no statement changes. -/
structure InstallTerms where
  ownerUserId : Nat
  marketplaceOrigin : String
  packageId : String
  packageVersion : String
  expectedArchiveSha256 : String
  expectedContentDigest : String
  expectedSignerFingerprint : String
  observedStatusRevision : Int
  observedDistributionState : String
  expectedSizeBytes : Int
  createdAt : Instant
deriving DecidableEq

structure InstallRequest where
  id : Nat
  terms : InstallTerms
  state : RequestState := .created
  artifactPath : Option Nat := none
  errorCode : Option String := none
deriving DecidableEq

namespace InstallRequest

def fail (code : String) (row : InstallRequest) : InstallRequest :=
  { row with
    state := .failed
    errorCode := some code }

/-- It fails, and its file is not referred to any more. -/
def withdraw (code : String) (row : InstallRequest) : InstallRequest :=
  { row with
    state := .failed
    errorCode := some code
    artifactPath := none }

def download (path : Nat) (row : InstallRequest) : InstallRequest :=
  { row with
    state := .downloaded
    artifactPath := some path }

def approve (row : InstallRequest) : InstallRequest :=
  { row with state := .approved }

def settle (row : InstallRequest) : InstallRequest :=
  { row with
    state := .installed
    artifactPath := none }

variable {row : InstallRequest} {code : String} {path : Nat}

@[simp] theorem fail_state : (row.fail code).state = .failed := rfl

@[simp] theorem withdraw_state : (row.withdraw code).state = .failed := rfl

@[simp] theorem download_state : (row.download path).state = .downloaded := rfl

@[simp] theorem approve_state : row.approve.state = .approved := rfl

@[simp] theorem settle_state : row.settle.state = .installed := rfl

end InstallRequest

/-- The document of a release; a field that is missing or of another type is absent. -/
structure HostedRelease where
  packageId : Option String
  exactVersion : Option String
  distributionState : Option String
  archiveSha256 : Option String
  contentDigest : Option String
  signerFingerprint : Option String
  statusRevision : Option Int
  sizeBytes : Option Int
deriving DecidableEq

structure VerifiedArtifact where
  packageId : String
  packageVersion : String
  contentDigest : String
  archiveDigest : String
  signerFingerprint : String
deriving DecidableEq

/-- The configured origin, and the verification of archives and of identifiers. -/
structure InstallPorts where
  origin : String
  sha256Hex : List UInt8 → String
  snapshotAndVerify : List UInt8 → Option VerifiedArtifact
  isCompatible : List UInt8 → Option Bool
  isPackageId : String → Bool
  isPackageVersion : String → Bool

/-- A temporary file, the ticket that it was written for and the operation that wrote it.  Its
name is never given again. -/
structure ArtifactFile where
  path : Nat
  body : List UInt8
  modified : Instant
  isPresent : Bool := true
  request : Nat
  writer : Nat
deriving DecidableEq

structure InstalledPackage where
  packageId : String
  packageVersion : String
  status : PackageInstallStatus
  contentDigest : String
  archiveDigest : String
  signerFingerprint : String
deriving DecidableEq

structure CreateRequest where
  owner : Nat
  origin : String
  packageId : String
  version : String
  acknowledgement : Option String
deriving DecidableEq

/-- Where an operation stands; `unlinking` may go on to mark the ticket. -/
inductive InstallStage where
  | referencing (creating : Option CreateRequest)
  | sweeping (referenced remaining : List Nat) (creating : Option CreateRequest)
  | awaitingRelease (request : CreateRequest)
  | cancelling (row : InstallRequest)
  | preparing (row : InstallRequest)
  | downloading (row : InstallRequest)
  | verifying (row : InstallRequest) (path : Nat)
  | recording (row : InstallRequest) (path : Nat)
  | starting (row : InstallRequest)
  | reconciling (row : InstallRequest)
  | observing (row : InstallRequest) (path : Nat)
  | approving (row : InstallRequest) (path : Nat) (current : HostedRelease)
  | handing (row : InstallRequest) (path : Nat) (current : HostedRelease)
  | installing (row : InstallRequest) (path : Nat)
  | finishing (row : InstallRequest) (path : Nat)
  | unlinking (request path : Nat) (expected : Option RequestState)
  | marking (request : Nat) (code : String) (expected : RequestState)
deriving DecidableEq

structure InstallOperation where
  id : Nat
  stage : InstallStage
deriving DecidableEq

/-- `PackageApplicationService.install`, in a thread of its own. -/
inductive ThreadStage where
  | snapshotting
  | beginning (verified : VerifiedArtifact)
  | materializing (verified : VerifiedArtifact)
  | activating (verified : VerifiedArtifact)
  | ended (succeeded : Bool)
deriving DecidableEq

structure InstallThread where
  request : Nat
  path : Nat
  terms : InstallTerms
  stage : ThreadStage
deriving DecidableEq

/-- What was handed to the package service: the ticket, the release as it was observed, and the
archive if it was there. -/
structure Handing where
  row : InstallRequest
  current : HostedRelease
  archive : Option (List UInt8)
deriving DecidableEq

/-- The service with its tables and files; `handed` lists what was handed over. -/
structure InstallDesk where
  now : Instant := 0
  requests : List InstallRequest := []
  files : List ArtifactFile := []
  packages : List InstalledPackage := []
  running : List InstallOperation := []
  threads : List InstallThread := []
  begun : Nat := 0
  handed : List Handing := []

/-- What an operation awaits from outside, and which files it finds. -/
inductive InstallAnswer where
  | proceeds
  | listing (paths : List Nat)
  | release (current : HostedRelease)
  | body (bytes : List UInt8)
  | unavailable
  | raised
deriving DecidableEq

inductive PackageAnswer where
  | proceeds
  | raised (marked : Bool)
deriving DecidableEq

/-- Operations begin, go on or are cancelled; the process may restart anywhere. -/
inductive InstallOp where
  | create (request : CreateRequest)
  | cleanupExpired
  | cancel (owner request : Nat)
  | prepare (owner request : Nat)
  | install (owner request : Nat)
  | step (id : Nat) (answer : InstallAnswer)
  | stop (id : Nat)
  | package (request : Nat) (answer : PackageAnswer)
  | restart
  | tick (elapsed : Nat)

def oneHour : Duration := 3600 * 1000000

def isHexDigit (ch : Char) : Bool :=
  ch.isDigit || ('a' ≤ ch && ch ≤ 'f')

/-- `validate_sha256` -/
def isSha256 (value : String) : Bool :=
  value.length = 64 && value.toList.all isHexDigit

/-- The terms that `create` accepts of a release. -/
def CreateRequest.terms? (ports : InstallPorts) (request : CreateRequest)
    (release : HostedRelease) (now : Instant) : Option InstallTerms := do
  let archive ← release.archiveSha256
  let content ← release.contentDigest
  let signer ← release.signerFingerprint
  let revision ← release.statusRevision
  let distribution ← release.distributionState
  let size ← release.sizeBytes
  if ports.isPackageId request.packageId = true ∧ ports.isPackageVersion request.version = true ∧
      isSha256 archive = true ∧ isSha256 content = true ∧ isSha256 signer = true ∧ 0 < revision ∧
      release.packageId = some request.packageId ∧ release.exactVersion = some request.version ∧
      (distribution = "available" ∨
        distribution = "yanked" ∧ request.acknowledgement = some archive) ∧
      0 < size ∧ size ≤ 256 * 1024 * 1024 then
    some ⟨request.owner, request.origin, request.packageId, request.version, archive, content,
      signer, revision, distribution, size, now⟩
  else none

namespace InstallTerms

def Unchanged (terms : InstallTerms) (current : HostedRelease) : Prop :=
  current.distributionState = some terms.observedDistributionState ∧
    current.statusRevision = some terms.observedStatusRevision ∧
    current.archiveSha256 = some terms.expectedArchiveSha256 ∧
    current.contentDigest = some terms.expectedContentDigest ∧
    current.signerFingerprint = some terms.expectedSignerFingerprint

instance (terms : InstallTerms) (current : HostedRelease) : Decidable (terms.Unchanged current) :=
  inferInstanceAs (Decidable (_ ∧ _))

def Names (terms : InstallTerms) (verified : VerifiedArtifact) : Prop :=
  verified.packageId = terms.packageId ∧ verified.packageVersion = terms.packageVersion ∧
    verified.signerFingerprint = terms.expectedSignerFingerprint ∧
    verified.contentDigest = terms.expectedContentDigest ∧
    verified.archiveDigest = terms.expectedArchiveSha256

instance (terms : InstallTerms) (verified : VerifiedArtifact) : Decidable (terms.Names verified) :=
  inferInstanceAs (Decidable (_ ∧ _))

/-- The version is installed from the bytes that the ticket names. -/
def Installed (terms : InstallTerms) (package : InstalledPackage) : Prop :=
  package.packageId = terms.packageId ∧ package.packageVersion = terms.packageVersion ∧
    package.archiveDigest = terms.expectedArchiveSha256 ∧
    package.contentDigest = terms.expectedContentDigest ∧
    package.signerFingerprint = terms.expectedSignerFingerprint

instance (terms : InstallTerms) (package : InstalledPackage) :
    Decidable (terms.Installed package) :=
  inferInstanceAs (Decidable (_ ∧ _))

end InstallTerms

/-- `inspect_artifact` and the checks of `prepare`. -/
def InstallPorts.inspects (ports : InstallPorts) (terms : InstallTerms) (body : List UInt8) :
    Bool :=
  match ports.snapshotAndVerify body with
  | some verified => decide (terms.Names verified) && ports.isCompatible body == some true
  | none => false

namespace InstallDesk

variable (ports : InstallPorts) (desk : InstallDesk)

def request? (id : Nat) : Option InstallRequest :=
  Keyed.row? InstallRequest.id id desk.requests

/-- `_row` -/
def row? (owner id : Nat) : Option InstallRequest :=
  (desk.request? id).filter fun row => row.terms.ownerUserId = owner

def file? (path : Nat) : Option ArtifactFile :=
  (Keyed.row? ArtifactFile.path path desk.files).filter ArtifactFile.isPresent

def package? (packageId packageVersion : String) : Option InstalledPackage :=
  Keyed.row? (fun package => (package.packageId, package.packageVersion))
    (packageId, packageVersion) desk.packages

def operation? (id : Nat) : Option InstallOperation :=
  Keyed.row? InstallOperation.id id desk.running

def thread? (request : Nat) : Option InstallThread :=
  Keyed.row? InstallThread.request request desk.threads

def updateRequest (id : Nat) (states : List RequestState) (f : InstallRequest → InstallRequest) :
    InstallDesk :=
  { desk with
    requests := Keyed.update InstallRequest.id id
      (fun row => if row.state ∈ states then f row else row) desk.requests }

/-- Its row count. -/
def updates (id : Nat) (states : List RequestState) : Bool :=
  (desk.request? id).any fun row => row.state ∈ states

/-- `_mark_failed` -/
def markFailed (id : Nat) (code : String) (expected : RequestState) : InstallDesk :=
  desk.updateRequest id [expected] (.fail code)

def unlink (path : Nat) : InstallDesk :=
  { desk with files :=
    Keyed.update ArtifactFile.path path ({ · with isPresent := false }) desk.files }

def setStage (id : Nat) (stage : InstallStage) : InstallDesk :=
  { desk with running :=
    Keyed.update InstallOperation.id id ({ · with stage := stage }) desk.running }

/-- The operation has returned or raised. -/
def finish (id : Nat) : InstallDesk :=
  { desk with running := desk.running.filter (·.id ≠ id) }

def begin (stage : InstallStage) : InstallDesk :=
  { desk with
    running := desk.running ++ [⟨desk.begun, stage⟩]
    begun := desk.begun + 1 }

/-- The UPDATE of `cleanup_expired`. -/
def expireIdle : InstallDesk :=
  { desk with
    requests := desk.requests.map fun row =>
      if row.state ∈ [.created, .downloaded] ∧ row.terms.createdAt < desk.now - oneHour then
        row.withdraw "request_expired"
      else row }

def expiresIdle : Bool :=
  desk.requests.any fun row =>
    row.state ∈ [RequestState.created, .downloaded] ∧ row.terms.createdAt < desk.now - oneHour

/-- `cleanup_expired`, and what follows it in `create`. -/
def cleanup (creating : Option CreateRequest) : InstallDesk :=
  if desk.expiresIdle = true then desk.expireIdle.begin (.referencing creating)
  else
    match creating with
    | some request => desk.begin (.awaitingRelease request)
    | none => desk

/-- The files are swept, and `create` goes on. -/
def swept (id : Nat) : Option CreateRequest → InstallDesk
  | some request => desk.setStage id (.awaitingRelease request)
  | none => desk.finish id

def sweep (id : Nat) (referenced remaining : List Nat) (creating : Option CreateRequest) :
    InstallDesk :=
  match remaining with
  | [] => desk.swept id creating
  | path :: rest =>
    if path ∈ referenced then desk.setStage id (.sweeping referenced rest creating)
    else
      match desk.file? path with
      | none => desk.finish id
      | some file =>
        if file.modified < desk.now - oneHour then
          (desk.unlink path).setStage id (.sweeping referenced rest creating)
        else desk.setStage id (.sweeping referenced rest creating)

/-- The tickets that count against the capacity. -/
def openRequests : List InstallRequest :=
  desk.requests.filter fun row => row.state ∈ [RequestState.created, .downloaded, .approved]

/-- The INSERT of `create`, where there is room. -/
def insertRequest (terms : InstallTerms) : InstallDesk :=
  if desk.openRequests.length < 16 ∧
      desk.openRequests.foldl (fun total request => total + request.terms.expectedSizeBytes) 0 +
          terms.expectedSizeBytes ≤
        536870912 then
    { desk with
      requests := desk.requests ++ [{ id := desk.requests.length, terms := terms }] }
  else desk

def create (id : Nat) (request : CreateRequest) : InstallAnswer → InstallDesk
  | .release current =>
    match request.terms? ports current desk.now with
    | some terms => (desk.insertRequest terms).finish id
    | none => desk.finish id
  | .raised => desk.finish id
  | _ => desk

/-- A file that the ticket referred to goes, and then the ticket may be marked. -/
def unlinkRow (id : Nat) (row : InstallRequest) : InstallDesk :=
  match row.artifactPath with
  | some path => desk.setStage id (.unlinking row.id path none)
  | none => desk.finish id

def cancel (id : Nat) (row : InstallRequest) : InstallDesk :=
  if desk.updates row.id [.created, .downloaded, .failed] = true then
    (desk.updateRequest row.id [.created, .downloaded, .failed]
      (.withdraw "request_cancelled")).unlinkRow id row
  else desk.finish id

def isExpired (row : InstallRequest) : Bool :=
  row.terms.createdAt + oneHour < desk.now

/-- The end of `_require_unexpired` where the ticket has expired. -/
def expire (id : Nat) (row : InstallRequest) : InstallDesk :=
  (desk.markFailed row.id "request_expired" row.state).unlinkRow id row

def prepare (id : Nat) (row : InstallRequest) : InstallDesk :=
  if desk.isExpired row = true then desk.expire id row
  else if row.state = .created ∧ row.terms.marketplaceOrigin = ports.origin then
    desk.setStage id (.downloading row)
  else desk.finish id

def receive (id : Nat) (row : InstallRequest) (bytes : List UInt8) : InstallDesk :=
  if (bytes.length : Int) ≠ row.terms.expectedSizeBytes then
    (desk.markFailed row.id "archive_size_mismatch" .created).finish id
  else if ports.sha256Hex bytes ≠ row.terms.expectedArchiveSha256 then
    (desk.markFailed row.id "archive_digest_mismatch" .created).finish id
  else
    let written : InstallDesk :=
      { desk with
        files := desk.files ++ [{
          path := desk.files.length
          body := bytes
          modified := desk.now
          request := row.id
          writer := id }] }
    written.setStage id (.verifying row desk.files.length)

def download (id : Nat) (row : InstallRequest) : InstallAnswer → InstallDesk
  | .body bytes => desk.receive ports id row bytes
  | .unavailable => (desk.markFailed row.id "download_unavailable" .created).finish id
  | .raised => desk.finish id
  | _ => desk

def verify (id : Nat) (row : InstallRequest) (path : Nat) (answer : InstallAnswer) : InstallDesk :=
  if answer ≠ .raised ∧ (desk.file? path).any (ports.inspects row.terms ·.body) = true then
    desk.setStage id (.recording row path)
  else
    (desk.unlink path).setStage id (.marking row.id "local_verification_failed" .created)

def record (id : Nat) (row : InstallRequest) (path : Nat) : InstallDesk :=
  if desk.updates row.id [.created] = true then
    (desk.updateRequest row.id [.created] (.download path)).finish id
  else (desk.unlink path).finish id

/-- The version is active from the bytes that the ticket names. -/
def isActive (terms : InstallTerms) : Bool :=
  (desk.package? terms.packageId terms.packageVersion).any fun package =>
    package.status = .active ∧ terms.Installed package

def start (id : Nat) (row : InstallRequest) : InstallDesk :=
  match row.state with
  | .installed => desk.finish id
  | .approved =>
    if desk.isActive row.terms = true then desk.setStage id (.reconciling row)
    else desk.finish id
  | state =>
    if desk.isExpired row = true then desk.expire id row
    else
      match row.artifactPath with
      | some path =>
        if state = .downloaded ∧ row.terms.marketplaceOrigin = ports.origin then
          desk.setStage id (.observing row path)
        else desk.finish id
      | none => desk.finish id

/-- The ticket becomes installed, in the states of the WHERE clause. -/
def settle (row : InstallRequest) (states : List RequestState) : InstallDesk :=
  desk.updateRequest row.id states .settle

def observe (id : Nat) (row : InstallRequest) (path : Nat) : InstallAnswer → InstallDesk
  | .release current =>
    if row.terms.Unchanged current then desk.setStage id (.approving row path current)
    else
      (desk.markFailed row.id "release_status_changed" .downloaded).setStage id
        (.unlinking row.id path none)
  | .raised => desk.finish id
  | _ => desk

def approve (id : Nat) (row : InstallRequest) (path : Nat) (current : HostedRelease) :
    InstallDesk :=
  if desk.updates row.id [.downloaded] = true then
    (desk.updateRequest row.id [.downloaded] .approve).setStage id (.handing row path current)
  else desk.finish id

/-- The package service gets the archive, under the terms of the ticket. -/
def handOver (id : Nat) (row : InstallRequest) (path : Nat) (current : HostedRelease) :
    InstallDesk :=
  let handed : InstallDesk :=
    { desk with
      threads := desk.threads ++ [⟨row.id, path, row.terms, .snapshotting⟩]
      handed := desk.handed ++ [⟨row, current, (desk.file? path).map ArtifactFile.body⟩] }
  handed.setStage id (.installing row path)

def awaitInstall (id : Nat) (row : InstallRequest) (path : Nat) : InstallDesk :=
  match (desk.thread? row.id).map InstallThread.stage with
  | some (.ended true) => desk.setStage id (.finishing row path)
  | some (.ended false) => desk.setStage id (.unlinking row.id path (some .approved))
  | _ => desk

def advance (operation : InstallOperation) (answer : InstallAnswer) : InstallDesk :=
  match operation.stage with
  | .referencing creating =>
    match answer with
    | .listing paths =>
      desk.setStage operation.id
        (.sweeping (desk.requests.filterMap InstallRequest.artifactPath) paths creating)
    | _ => desk
  | .sweeping referenced remaining creating =>
    desk.sweep operation.id referenced remaining creating
  | .awaitingRelease request => desk.create ports operation.id request answer
  | .cancelling row => desk.cancel operation.id row
  | .preparing row => desk.prepare ports operation.id row
  | .downloading row => desk.download ports operation.id row answer
  | .verifying row path => desk.verify ports operation.id row path answer
  | .recording row path => desk.record operation.id row path
  | .starting row => desk.start ports operation.id row
  | .reconciling row => (desk.settle row [.approved]).unlinkRow operation.id row
  | .observing row path => desk.observe operation.id row path answer
  | .approving row path current => desk.approve operation.id row path current
  | .handing row path current => desk.handOver operation.id row path current
  | .installing row path => desk.awaitInstall operation.id row path
  | .finishing row path =>
    (desk.settle row [.created, .downloaded, .approved, .installed, .failed]).setStage
      operation.id (.unlinking row.id path none)
  | .unlinking request path expected =>
    match expected with
    | some state =>
      (desk.unlink path).setStage operation.id
        (.marking request "local_verification_failed" state)
    | none => (desk.unlink path).finish operation.id
  | .marking request code expected => (desk.markFailed request code expected).finish operation.id

def setStatus (verified : VerifiedArtifact) (status : PackageInstallStatus) : InstallDesk :=
  { desk with
    packages := Keyed.update (fun package => (package.packageId, package.packageVersion))
      (verified.packageId, verified.packageVersion) ({ · with status := status }) desk.packages }

def statusOf (verified : VerifiedArtifact) : Option PackageInstallStatus :=
  (desk.package? verified.packageId verified.packageVersion).map InstalledPackage.status

/-- `mark_failed` of the registry. -/
def failPackage (verified : VerifiedArtifact) : InstallDesk :=
  if desk.statusOf verified = some .installing ∨ desk.statusOf verified = some .installed then
    desk.setStatus verified .failed
  else desk

def setThread (request : Nat) (stage : ThreadStage) : InstallDesk :=
  { desk with
    threads :=
      Keyed.update InstallThread.request request ({ · with stage := stage }) desk.threads }

/-- `begin_install` -/
def beginInstall (request : Nat) (verified : VerifiedArtifact) : InstallDesk :=
  match desk.package? verified.packageId verified.packageVersion with
  | none =>
    let inserted : InstallDesk :=
      { desk with
        packages := desk.packages ++ [⟨verified.packageId, verified.packageVersion, .installing,
          verified.contentDigest, verified.archiveDigest, verified.signerFingerprint⟩] }
    inserted.setThread request (.materializing verified)
  | some existing =>
    if existing.contentDigest ≠ verified.contentDigest ∨
        existing.signerFingerprint ≠ verified.signerFingerprint ∨
        existing.archiveDigest ≠ verified.archiveDigest then
      desk.setThread request (.ended false)
    else
      match existing.status with
      | .installed | .active => desk.setThread request (.ended true)
      | .failed => (desk.setStatus verified .installing).setThread request (.materializing verified)
      | _ => desk.setThread request (.ended false)

def raisePackage (request : Nat) (verified : VerifiedArtifact) (marked : Bool) : InstallDesk :=
  (if marked then desk.failPackage verified else desk).setThread request (.ended false)

def advancePackage (thread : InstallThread) (answer : PackageAnswer) : InstallDesk :=
  match thread.stage, answer with
  | .snapshotting, .proceeds =>
    match (desk.file? thread.path).bind (ports.snapshotAndVerify ·.body) with
    | some verified =>
      if thread.terms.Names verified then desk.setThread thread.request (.beginning verified)
      else desk.setThread thread.request (.ended false)
    | none => desk.setThread thread.request (.ended false)
  | .snapshotting, .raised _ | .beginning _, .raised _ =>
    desk.setThread thread.request (.ended false)
  | .beginning verified, .proceeds => desk.beginInstall thread.request verified
  | .materializing verified, .proceeds =>
    if desk.statusOf verified = some .installing then
      (desk.setStatus verified .installed).setThread thread.request (.activating verified)
    else desk.raisePackage thread.request verified true
  | .activating verified, .proceeds =>
    if desk.statusOf verified = some .installed then
      (desk.setStatus verified .active).setThread thread.request (.ended true)
    else desk.raisePackage thread.request verified true
  | .materializing verified, .raised marked | .activating verified, .raised marked =>
    desk.raisePackage thread.request verified marked
  | .ended _, _ => desk

def beginWith (owner id : Nat) (stage : InstallRequest → InstallStage) : InstallDesk :=
  match desk.row? owner id with
  | some row => desk.begin (stage row)
  | none => desk

def exec : InstallOp → InstallDesk
  | .create request => desk.cleanup (some request)
  | .cleanupExpired => desk.cleanup none
  | .cancel owner id => desk.beginWith owner id .cancelling
  | .prepare owner id => desk.beginWith owner id .preparing
  | .install owner id => desk.beginWith owner id .starting
  | .step id answer =>
    match desk.operation? id with
    | some operation => desk.advance ports operation answer
    | none => desk
  | .stop id => desk.finish id
  | .package request answer =>
    match desk.thread? request with
    | some thread => desk.advancePackage ports thread answer
    | none => desk
  | .restart => { desk with running := [], threads := [] }
  | .tick elapsed => { desk with now := desk.now + (elapsed : Int) }

end InstallDesk

/-- Every interleaving of the operations, their threads and crashes. -/
def installService (ports : InstallPorts) : Machine InstallDesk InstallOp where
  init := {}
  exec op desk := desk.exec ports op

end NervOS
