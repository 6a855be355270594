/-
The catalog of published releases: the key that projects the precedence of a version to bytes,
the pages of a package's versions, and the latest stable version.
-/
import NervOS.Domain.PackageVersions
import NervOS.Marketplace.Authentication
import NervOS.Relational.Keyset
import NervOS.Text.Codes

/-- Bytes in the order in which a database compares them. -/
instance linearOrderUInt8 : LinearOrder UInt8 where
  le_refl := UInt8.le_refl
  le_trans _ _ _ := UInt8.le_trans
  le_antisymm _ _ := UInt8.le_antisymm
  le_total := UInt8.le_total
  lt_iff_le_not_ge left right := by
    rw [UInt8.lt_iff_toNat_lt, UInt8.le_iff_toNat_le, UInt8.le_iff_toNat_le]
    omega
  toDecidableLE := inferInstance
  toDecidableEq := inferInstance
  toDecidableLT := inferInstance

namespace NervOS

namespace Packages

open Relational Semver

def ascii (letter : Char) : UInt8 :=
  UInt8.ofNat letter.toNat

/-- `str(n).zfill(64).encode("ascii")` -/
def numberKey (number : Nat) : List UInt8 :=
  (Text.zfill 64 (Nat.toDigits 10 number)).map ascii

def identifierKey (part : List Char) : List UInt8 :=
  (if isNumeric part then 1 :: numberKey (int part) else 2 :: part.map ascii) ++ [0]

/-- `precedence_key` -/
def precedenceKey (version : PackageVersion) : List UInt8 :=
  numberKey version.major ++ numberKey version.minor ++ numberKey version.patch ++
    if version.prerelease.isEmpty then [1] else 0 :: version.prerelease.flatMap identifierKey

inductive PublicationState where
  | ready
  | published
deriving DecidableEq, Repr

inductive DistributionState where
  | available
  | yanked
  | revoked
deriving DecidableEq, Repr

/-- A row of `package_releases`, joined with the package id of its project; what publication
projects from the version is written once. -/
structure PackageRelease where
  packageId : String
  exactVersion : PackageVersion
  semverKey : List UInt8
  isPrerelease : Bool
  publicationState : PublicationState
  distributionState : DistributionState
  statusRevision : Nat
  publishedAt : Option Instant
  keyed : semverKey = precedenceKey exactVersion
  flagged : isPrerelease = ! exactVersion.prerelease.isEmpty

/-- The bytes of the exact text, as the collation of its column compares them. -/
def PackageVersion.bytes (version : PackageVersion) : List UInt8 :=
  version.value.flatMap String.utf8EncodeChar

/-- `ORDER BY semver_key DESC, exact_version COLLATE "C" ASC` -/
def PackageRelease.position (release : PackageRelease) : (List UInt8)ᵒᵈ ×ₗ List UInt8 :=
  toLex (OrderDual.toDual release.semverKey, release.exactVersion.bytes)

/-- `semver_key < :key OR (semver_key = :key AND exact_version > :version)` is to stand behind this
position. -/
def cursorPosition (after : PackageVersion) : (List UInt8)ᵒᵈ ×ₗ List UInt8 :=
  toLex (OrderDual.toDual (precedenceKey after), after.bytes)

structure Catalog where
  releases : List PackageRelease
  unique : (releases.map fun release => (release.packageId, release.exactVersion.value)).Nodup

structure VersionFilter where
  includeUnavailable : Bool
  includePrerelease : Bool

namespace Catalog

variable (catalog : Catalog) (packageId : String) (filter : VersionFilter)

def Matches (release : PackageRelease) : Prop :=
  release.packageId = packageId ∧ release.publicationState = .published ∧
    (filter.includeUnavailable = true ∨ release.distributionState = .available) ∧
      (filter.includePrerelease = true ∨ release.isPrerelease = false)

instance : DecidablePred (Matches packageId filter) := fun _ =>
  inferInstanceAs (Decidable (_ ∧ _ ∧ _ ∧ _))

def matching : List PackageRelease :=
  catalog.releases.filter fun release => Matches packageId filter release

/-- `versions`: a package without a published release is not found. -/
def versions (limit : Nat) (after : Option PackageVersion) :
    Except MarketplaceError (List PackageRelease) :=
  if ∃ release ∈ catalog.releases, release.packageId = packageId ∧
      release.publicationState = .published then
    .ok (Keyset.page PackageRelease.position limit (after.map cursorPosition)
      (catalog.matching packageId filter))
  else .error rowNotFound

/-- Follow the cursors: each request asks for one row more than a page, and the cursor of the next
page is the last row of this one. -/
def followVersions (limit : Nat) :
    Nat → Option PackageVersion → Except MarketplaceError (List PackageRelease)
  | 0, _ => .ok []
  | requests + 1, after => do
    let rows ← catalog.versions packageId filter (limit + 1) after
    if limit < rows.length then
      let rest ← followVersions limit requests ((rows.take limit).getLast?.map (·.exactVersion))
      pure (rows.take limit ++ rest)
    else pure rows

def IsStable (release : PackageRelease) : Prop :=
  release.distributionState = .available ∧ release.isPrerelease = false

instance : DecidablePred IsStable := fun _ => inferInstanceAs (Decidable (_ ∧ _))

/-- `LATEST` -/
def latestStable : Option PackageVersion :=
  ((Keyset.ordered PackageRelease.position (catalog.releases.filter fun release =>
      release.packageId = packageId ∧ release.publicationState = .published ∧
        IsStable release)).head?).map (·.exactVersion)

end Catalog

end Packages

end NervOS
