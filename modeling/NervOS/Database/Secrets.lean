/-
The encrypted secret store.  Secret values and the authenticated encryption that seals them,
taken as ideal; the rows of secrets and of the key versions that sealed them; sealing, replacing,
revoking and deleting secrets, and the maintenance of the key versions.
-/
import NervOS.Relational.Transaction
import NervOS.Database.Models

namespace Cryptography

/-- An ideal cipher.  `K`, `N`, `A`, `P` and `C` are its keys, nonces, associated data,
plaintexts and ciphertexts. -/
structure Aead (K N A P C : Type) where
  encrypt : K → N → P → A → C
  decrypt : K → N → C → A → Option P
  decrypt_encrypt : ∀ {key key' nonce nonce' aad aad' plaintext plaintext'},
    decrypt key' nonce' (encrypt key nonce plaintext aad) aad' = some plaintext' ↔
      key' = key ∧ nonce' = nonce ∧ aad' = aad ∧ plaintext' = plaintext

namespace Aead

variable {K N A P C : Type} (cipher : Aead K N A P C)

theorem opens (key : K) (nonce : N) (plaintext : P) (aad : A) :
    cipher.decrypt key nonce (cipher.encrypt key nonce plaintext aad) aad = some plaintext :=
  cipher.decrypt_encrypt.mpr ⟨rfl, rfl, rfl, rfl⟩

def tuples [DecidableEq K] [DecidableEq N] [DecidableEq A] : Aead K N A P (K × N × P × A) where
  encrypt key nonce plaintext aad := (key, nonce, plaintext, aad)
  decrypt key nonce ciphertext aad :=
    if key = ciphertext.1 ∧ nonce = ciphertext.2.1 ∧ aad = ciphertext.2.2.2 then
      some ciphertext.2.2.1
    else none
  decrypt_encrypt := by
    intro key key' nonce nonce' aad aad' plaintext plaintext'
    simp only [Option.ite_none_right_eq_some, Option.some.injEq]
    constructor
    · rintro ⟨⟨hkey, hnonce, haad⟩, hplaintext⟩
      exact ⟨hkey, hnonce, haad, hplaintext.symm⟩
    · rintro ⟨hkey, hnonce, haad, hplaintext⟩
      exact ⟨⟨hkey, hnonce, haad⟩, hplaintext.symm⟩

end Aead

end Cryptography

namespace NervOS

open Cryptography

inductive SecretStatus where
  | active
  | disabled
  | revoked
deriving DecidableEq, Repr

def maxSecretNameLength : Nat := 128

def maxSecretValueBytes : Nat := 8192

/-- Exactly 32 bytes of key material. -/
abbrev MasterKey := BitVec 256

/-- Twelve random bytes. -/
abbrev Nonce := BitVec 96

/-- The row identity that the additional authenticated data spells out. -/
structure SecretAad where
  secretId : Nat
  keyVersion : Nat
  nonce : Nonce
deriving DecidableEq, Repr

/-- AES-GCM over the UTF-8 bytes of a text. -/
abbrev SecretCipher (γ : Type) := Aead MasterKey Nonce SecretAad String γ

structure SecretMetadata where
  id : Nat
  ownerUserId : Nat
  name : String
  providerHint : Option String
  status : SecretStatus
  keyVersion : Nat
  rotationCount : Nat
  createdAt : Instant
  updatedAt : Instant
deriving DecidableEq

structure SecretKeyVersion where
  keyVersion : Nat
  active : Bool
  createdAt : Instant
deriving DecidableEq

/-- The exceptions of a secret or account operation. -/
inductive SecretError where
  | invalidSecret (message : String)
  | secretNotFound
  | secretReferenced (message : Option String)
  | secretStoreUnavailable (message : String)
  | connectionNotFound
  | invalidConnection (message : String)
  | connectionUnavailable
deriving DecidableEq, Repr

def validateSecretName (name : String) : Except SecretError String :=
  if name.length = 0 ∨ maxSecretNameLength < name.length then
    .error (.invalidSecret "secret name length is invalid")
  else if name.toList.any fun ch => ch.toNat < 32 ∨ ch.toNat = 127 then
    .error (.invalidSecret "secret name contains control characters")
  else .ok name

theorem validateSecretName_eq_ok {name accepted : String}
    (h : validateSecretName name = .ok accepted) : accepted = name := by
  unfold validateSecretName at h
  split at h
  · cases h
  · split at h
    · cases h
    · exact (Except.ok.inj h).symm

/-- The key version that a process is configured with, at least one. -/
structure MasterKeyResolver where
  keyVersion : Nat
  positive : 1 ≤ keyVersion

-- the key files as the operator provisioned them
variable (keyFiles : Nat → Option MasterKey)

def loadKey (version : Nat) : Except SecretError MasterKey :=
  (keyFiles version).elim
    (.error (.secretStoreUnavailable "the secret key file is missing or unreadable")) .ok

def MasterKeyResolver.resolve (resolver : MasterKeyResolver) :
    Except SecretError (Nat × MasterKey) :=
  (loadKey keyFiles resolver.keyVersion).map fun masterKey => (resolver.keyVersion, masterKey)

def resolveVersion (version : Nat) : Except SecretError MasterKey :=
  if version < 1 then .error (.secretStoreUnavailable "the secret key version is invalid")
  else loadKey keyFiles version

theorem resolve_eq_ok {resolver : MasterKeyResolver} {version : Nat} {masterKey : MasterKey} :
    resolver.resolve keyFiles = .ok (version, masterKey) ↔
      version = resolver.keyVersion ∧ keyFiles resolver.keyVersion = some masterKey := by
  unfold MasterKeyResolver.resolve loadKey
  cases keyFiles resolver.keyVersion with
  | none => simp [Except.map]
  | some found => simp [Except.map, eq_comm]

theorem resolveVersion_eq_ok {version : Nat} {masterKey : MasterKey} :
    resolveVersion keyFiles version = .ok masterKey ↔
      1 ≤ version ∧ keyFiles version = some masterKey := by
  unfold resolveVersion loadKey
  by_cases hversion : version < 1
  · have hlow : ¬ 1 ≤ version := Nat.not_le.mpr hversion
    simp [hversion, hlow]
  · simp only [hversion, if_false]
    cases keyFiles version with
    | none => simp
    | some found => simp; omega

end NervOS

namespace NervOS

open Relational

/-- What a ciphertext column holds.  The placeholder is the NUL byte that stands there until
the row's id is known. -/
inductive Ciphertext (γ : Type) where
  | destroyed
  | placeholder
  | sealed (ciphertext : γ)

/-- `length(CAST(ciphertext AS BLOB)) = 0`. -/
def Ciphertext.IsEmpty {γ : Type} : Ciphertext γ → Prop
  | .destroyed => True
  | .placeholder | .sealed _ => False

instance {γ : Type} : DecidablePred (Ciphertext.IsEmpty (γ := γ))
  | .destroyed => isTrue trivial
  | .placeholder | .sealed _ => isFalse id

section Rows

variable {γ : Type}

structure SecretRecord (γ : Type) where
  id : Nat
  ownerUserId : Nat
  name : String
  providerHint : Option String
  status : SecretStatus
  keyVersion : Nat
  nonce : Option Nonce
  ciphertext : Ciphertext γ
  rotationCount : Nat
  createdAt : Instant
  updatedAt : Instant

structure SecretRecord.Check (secret : SecretRecord γ) : Prop where
  nameBound : LengthBetween 1 128 secret.name
  keyVersionPositive : 1 ≤ secret.keyVersion
  revocationDestroysValue : secret.status = .revoked ↔ secret.ciphertext.IsEmpty

instance SecretRecord.decidableCheck (secret : SecretRecord γ) : Decidable secret.Check :=
  decidable_of_iff (LengthBetween 1 128 secret.name ∧ 1 ≤ secret.keyVersion ∧
      (secret.status = .revoked ↔ secret.ciphertext.IsEmpty))
    ⟨fun h => ⟨h.1, h.2.1, h.2.2⟩, fun h => ⟨h.1, h.2, h.3⟩⟩

def SecretRecord.Clash (left right : SecretRecord γ) : Prop :=
  left.ownerUserId = right.ownerUserId ∧ left.name = right.name

instance (left right : SecretRecord γ) : Decidable (left.Clash right) :=
  inferInstanceAs (Decidable (_ ∧ _))

instance : Record (SecretRecord γ) where
  key := SecretRecord.id
  Check := SecretRecord.Check
  Clash := SecretRecord.Clash
  decCheck _ := inferInstance
  decClash _ _ := inferInstance

def SecretRecord.metadata (secret : SecretRecord γ) : SecretMetadata where
  id := secret.id
  ownerUserId := secret.ownerUserId
  name := secret.name
  providerHint := secret.providerHint
  status := secret.status
  keyVersion := secret.keyVersion
  rotationCount := secret.rotationCount
  createdAt := secret.createdAt
  updatedAt := secret.updatedAt

/-- A key version; `id` is its place in the table, the version is the primary key. -/
structure SecretKeyVersionRecord where
  id : Nat
  keyVersion : Nat
  active : Bool
  createdAt : Instant
deriving DecidableEq

instance : Record SecretKeyVersionRecord where
  key := SecretKeyVersionRecord.id
  Check _ := True
  Clash left right := left.keyVersion = right.keyVersion
  decCheck _ := inferInstance
  decClash _ _ := inferInstance

def SecretKeyVersionRecord.metadata (version : SecretKeyVersionRecord) : SecretKeyVersion where
  keyVersion := version.keyVersion
  active := version.active
  createdAt := version.createdAt

inductive AccountState where
  | connected
  | needsRefresh
  | disconnected
  | revoked
deriving DecidableEq, Repr

inductive RevocationOutcome where
  | pending
  | succeeded
  | failed
  | notSupported
deriving DecidableEq, Repr

structure AccountConnectionRecord where
  id : Nat
  ownerUserId : Nat
  provider : String
  displayName : String
  secretId : Nat
  state : AccountState
  scopesJson : List String
  expiresAt : Option Instant
  refreshFailedAt : Option Instant
  refreshRevision : Nat
  refreshStartedAt : Option Instant
  revocationOutcome : Option RevocationOutcome
  createdAt : Instant
  updatedAt : Instant
deriving DecidableEq

/-- The characters that `json.dumps` writes for one character of a string. -/
def jsonCharacterLength (ch : Char) : Nat :=
  if ch = '"' ∨ ch = '\\' then 2
  else if 32 ≤ ch.toNat ∧ ch.toNat < 127 then 1
  else if ch.toNat < 65536 then 6
  else 12

/-- `len(canonical_scopes_json(scopes))`: the brackets, the quotes and the commas. -/
def scopesJsonLength (scopes : List String) : Nat :=
  (scopes.map fun scope => (scope.toList.map jsonCharacterLength).sum + 3).sum +
    if scopes.isEmpty then 2 else 1

structure AccountConnectionRecord.Check (connection : AccountConnectionRecord) : Prop where
  providerBound : LengthBetween 1 64 connection.provider
  scopesBound : scopesJsonLength connection.scopesJson ≤ 4096
  displayNameBound : LengthBetween 1 128 connection.displayName

instance AccountConnectionRecord.decidableCheck (connection : AccountConnectionRecord) :
    Decidable connection.Check :=
  decidable_of_iff (LengthBetween 1 64 connection.provider ∧
      scopesJsonLength connection.scopesJson ≤ 4096 ∧
      LengthBetween 1 128 connection.displayName)
    ⟨fun h => ⟨h.1, h.2.1, h.2.2⟩, fun h => ⟨h.1, h.2, h.3⟩⟩

instance : Record AccountConnectionRecord where
  key := AccountConnectionRecord.id
  Check := AccountConnectionRecord.Check
  Clash _ _ := False
  decCheck _ := inferInstance
  decClash _ _ := inferInstance

end Rows

variable {γ : Type}

structure SecretTables (γ : Type) where
  secrets : Table (SecretRecord γ) := .empty
  keyVersions : Table SecretKeyVersionRecord := .empty
  accountConnections : Table AccountConnectionRecord := .empty

def SecretTables.References (db : SecretTables γ) : Prop :=
  ∀ connection ∈ db.accountConnections.rows, (db.secrets.find connection.secretId).isSome

instance : Schema (SecretTables γ) where
  References := SecretTables.References
  decReferences db := inferInstanceAs (Decidable (∀ connection ∈ db.accountConnections.rows, _))

instance : HasTable (SecretTables γ) (SecretRecord γ) where
  table := SecretTables.secrets
  setTable t db := { db with secrets := t }
  table_setTable _ _ := rfl

instance : HasTable (SecretTables γ) SecretKeyVersionRecord where
  table := SecretTables.keyVersions
  setTable t db := { db with keyVersions := t }
  table_setTable _ _ := rfl

instance : HasTable (SecretTables γ) AccountConnectionRecord where
  table := SecretTables.accountConnections
  setTable t db := { db with accountConnections := t }
  table_setTable _ _ := rfl

variable (db : SecretTables γ)

@[simp] theorem table_secret : table db = db.secrets := rfl

abbrev SecretDatabase (γ : Type) := Consistent (SecretTables γ)

theorem SecretTables.references_empty : ({} : SecretTables γ).References := by
  intro connection hconnection
  cases hconnection

def SecretDatabase.empty : SecretDatabase γ :=
  ⟨{}, SecretTables.references_empty⟩

abbrev SecretConnection (γ : Type) := Tx (SecretTables γ) SecretError

end NervOS

namespace NervOS

open Relational

variable {γ : Type} (cipher : SecretCipher γ)

/-- Open a row's value; a row without a nonce or a ciphertext authenticates under no key. -/
def SecretRecord.decrypt (masterKey : MasterKey) (secret : SecretRecord γ) : Option String :=
  match secret.nonce, secret.ciphertext with
  | some nonce, .sealed ciphertext =>
    cipher.decrypt masterKey nonce ciphertext ⟨secret.id, secret.keyVersion, nonce⟩
  | _, _ => none

def SecretRecord.reseal (secret : SecretRecord γ) (keyVersion : Nat) (masterKey : MasterKey)
    (nonce : Nonce) (plaintext : String) : SecretRecord γ :=
  { secret with
    keyVersion := keyVersion
    nonce := some nonce
    ciphertext := .sealed (cipher.encrypt masterKey nonce plaintext
      ⟨secret.id, keyVersion, nonce⟩) }

def ValueLength (plaintext : String) : Prop :=
  1 ≤ plaintext.utf8ByteSize ∧ plaintext.utf8ByteSize ≤ maxSecretValueBytes

instance (plaintext : String) : Decidable (ValueLength plaintext) :=
  inferInstanceAs (Decidable (_ ∧ _))

def SecretTables.ownedSecret (db : SecretTables γ) (ownerUserId secretId : Nat) :
    Option (SecretRecord γ) :=
  (db.secrets.find secretId).filter fun secret => secret.ownerUserId = ownerUserId

def SecretTables.Referenced (db : SecretTables γ) (secretId : Nat) : Prop :=
  ∃ connection ∈ db.accountConnections.rows, connection.secretId = secretId

instance (db : SecretTables γ) (secretId : Nat) : Decidable (db.Referenced secretId) :=
  inferInstanceAs (Decidable (∃ connection ∈ db.accountConnections.rows, _))

/-- The row that a `select … one()` reads back after a write. -/
def readSecret (secretId : Nat) : SecretConnection γ (SecretRecord γ) := do
  let row ← Tx.query fun db => db.secrets.find secretId
  Tx.ofExcept (row.elim (.error .secretNotFound) .ok)

/-! ### Writes -/

/-- The row of a new secret, before its value is sealed. -/
def newSecret (ownerUserId : Nat) (name : String) (providerHint : Option String)
    (keyVersion : Nat) (now : Instant) (id : Nat) : SecretRecord γ where
  id := id
  ownerUserId := ownerUserId
  name := name
  providerHint := providerHint
  status := .active
  keyVersion := keyVersion
  nonce := none
  ciphertext := .placeholder
  rotationCount := 0
  createdAt := now
  updatedAt := now

def createSecret (ownerUserId : Nat) (name plaintext : String) (providerHint : Option String)
    (keyVersion : Nat) (masterKey : MasterKey) (nonce : Nonce) (now : Instant) :
    SecretConnection γ SecretMetadata := do
  Tx.require (ValueLength plaintext) (.invalidSecret "secret value length is invalid")
  -- the additional data binds the row's id, so the row exists before its ciphertext
  let secretId ← Tx.insert (newSecret (γ := γ) ownerUserId name providerHint keyVersion now)
  let _ ← Tx.update (fun secret : SecretRecord γ => secret.id = secretId) fun secret =>
    secret.reseal cipher keyVersion masterKey nonce plaintext
  let secret ← readSecret secretId
  pure secret.metadata

def replaceSecret (ownerUserId secretId : Nat) (plaintext : String) (keyVersion : Nat)
    (masterKey : MasterKey) (nonce : Nonce) (now : Instant) :
    SecretConnection γ SecretMetadata := do
  Tx.require (ValueLength plaintext) (.invalidSecret "secret value length is invalid")
  let found ← Tx.query fun db =>
    (db.ownedSecret ownerUserId secretId).filter fun secret => secret.status ≠ .revoked
  let row ← Tx.ofExcept (found.elim (.error .secretNotFound) .ok)
  let _ ← Tx.update (fun secret : SecretRecord γ => secret.id = secretId) fun secret =>
    { secret.reseal cipher keyVersion masterKey nonce plaintext with
      rotationCount := row.rotationCount + 1
      updatedAt := now }
  let refreshed ← readSecret secretId
  pure refreshed.metadata

/-- The columns that a change of status writes; revocation destroys the value. -/
def SecretRecord.withStatus (secret : SecretRecord γ) (status : SecretStatus) (now : Instant) :
    SecretRecord γ :=
  if status = .revoked then
    { secret with status := status, updatedAt := now, nonce := none, ciphertext := .destroyed }
  else { secret with status := status, updatedAt := now }

def setSecretStatus (ownerUserId secretId : Nat) (status : SecretStatus) (now : Instant) :
    SecretConnection γ SecretMetadata := do
  let found ← Tx.query fun db => db.ownedSecret ownerUserId secretId
  let row ← Tx.ofExcept (found.elim (.error .secretNotFound) .ok)
  Tx.require (¬ (row.status = .revoked ∧ status ≠ .revoked))
    (.invalidSecret "revocation is terminal")
  let referenced ← Tx.query fun db => decide (db.Referenced secretId)
  Tx.require (¬ (referenced = true ∧ status ≠ .active)) (.secretReferenced none)
  let _ ← Tx.update (fun secret : SecretRecord γ => secret.id = secretId) fun secret =>
    secret.withStatus status now
  let refreshed ← readSecret secretId
  pure refreshed.metadata

def deleteSecret (ownerUserId secretId : Nat) : SecretConnection γ Unit := do
  let referenced ← Tx.query fun db => decide (db.Referenced secretId)
  Tx.require (referenced = false) (.secretReferenced none)
  let count ← Tx.vacate fun secret : SecretRecord γ =>
    secret.id = secretId ∧ secret.ownerUserId = ownerUserId
  Tx.require (count ≠ 0) .secretNotFound

/-! ### Reads -/

def getSecret (db : SecretDatabase γ) (ownerUserId secretId : Nat) :
    Except SecretError SecretMetadata :=
  (db.1.ownedSecret ownerUserId secretId).elim (.error .secretNotFound)
    fun secret => .ok secret.metadata

def decryptActiveValue (db : SecretDatabase γ) (ownerUserId secretId : Nat)
    (resolveKey : Nat → Except SecretError MasterKey) : Except SecretError String :=
  match (db.1.ownedSecret ownerUserId secretId).filter fun secret => secret.status = .active with
  | none => .error .secretNotFound
  | some secret =>
    if secret.ciphertext.IsEmpty then .error .secretNotFound
    else
      match resolveKey secret.keyVersion with
      | .error _ =>
        .error (.secretStoreUnavailable "the stored secret could not be authenticated")
      | .ok masterKey =>
        (secret.decrypt cipher masterKey).elim
          (.error (.secretStoreUnavailable "the stored secret could not be authenticated")) .ok

/-! ### Key versions -/

def markKeyVersion (keyVersion : Nat) (now : Instant) : SecretConnection γ Unit := do
  let existing ← Tx.query fun db => decide (∃ version ∈ db.keyVersions.rows,
    version.keyVersion = keyVersion)
  if existing = true then
    let _ ← Tx.update (fun version : SecretKeyVersionRecord => version.keyVersion = keyVersion)
      fun version => { version with active := true }
  else
    let _ ← Tx.insert fun id => ({
      id := id
      keyVersion := keyVersion
      active := true
      createdAt := now } : SecretKeyVersionRecord)

def activateKeyVersion (keyVersion : Nat) (now : Instant) :
    SecretConnection γ SecretKeyVersion := do
  let _ ← Tx.update (fun _ : SecretKeyVersionRecord => True) fun version =>
    { version with active := false }
  markKeyVersion keyVersion now
  let row ← Tx.query fun db => db.keyVersions.rows.find? fun version =>
    version.keyVersion = keyVersion
  let version ← Tx.ofExcept (row.elim (.error .secretNotFound) .ok)
  pure version.metadata

/-- A value that another key version sealed, and that was not revoked. -/
def SecretRecord.Stale (keyVersion : Nat) (secret : SecretRecord γ) : Prop :=
  secret.keyVersion ≠ keyVersion ∧ secret.status ≠ .revoked

instance (keyVersion : Nat) : DecidablePred (SecretRecord.Stale (γ := γ) keyVersion) :=
  fun _ => inferInstanceAs (Decidable (_ ∧ _))

/-- Open a value under the version that sealed it. -/
def SecretRecord.authenticate (resolveKey : Nat → Except SecretError MasterKey)
    (secret : SecretRecord γ) : Except SecretError String :=
  match resolveKey secret.keyVersion with
  | .error _ => .error (.secretStoreUnavailable "maintenance could not authenticate a secret")
  | .ok oldKey =>
    (secret.decrypt cipher oldKey).elim
      (.error (.secretStoreUnavailable "maintenance could not authenticate a secret")) .ok

/-- The row that a turn of the maintenance loop leaves. -/
def SecretRecord.reencrypted (row : SecretRecord γ) (keyVersion : Nat) (masterKey : MasterKey)
    (nonces : Nat → Nonce) (now : Instant) (plaintext : String) : SecretRecord γ :=
  { row.reseal cipher keyVersion masterKey (nonces row.id) plaintext with
    rotationCount := row.rotationCount + 1
    updatedAt := now }

/-- One turn of the maintenance loop. -/
def reencryptSecret (keyVersion : Nat) (masterKey : MasterKey)
    (resolveKey : Nat → Except SecretError MasterKey) (nonces : Nat → Nonce) (now : Instant)
    (row : SecretRecord γ) : SecretConnection γ Unit := do
  let plaintext ← Tx.ofExcept (row.authenticate cipher resolveKey)
  let _ ← Tx.update (fun secret : SecretRecord γ => secret.id = row.id) fun secret =>
    { secret.reencrypted cipher keyVersion masterKey nonces now plaintext with
      rotationCount := row.rotationCount + 1 }

def reencryptSecrets (keyVersion : Nat) (masterKey : MasterKey)
    (resolveKey : Nat → Except SecretError MasterKey) (nonces : Nat → Nonce) (now : Instant) :
    List (SecretRecord γ) → SecretConnection γ Unit
  | [] => pure ()
  | row :: rest => do
    reencryptSecret cipher keyVersion masterKey resolveKey nonces now row
    reencryptSecrets keyVersion masterKey resolveKey nonces now rest

def SecretTables.batch (db : SecretTables γ) (keyVersion limit : Nat) : List (SecretRecord γ) :=
  (db.secrets.rows.filter fun secret => secret.Stale keyVersion).take limit

def reencryptBatch (keyVersion : Nat) (masterKey : MasterKey)
    (resolveKey : Nat → Except SecretError MasterKey) (limit : Nat) (nonces : Nat → Nonce)
    (now : Instant) : SecretConnection γ Nat := do
  let rows ← Tx.query fun db => db.batch keyVersion limit
  reencryptSecrets cipher keyVersion masterKey resolveKey nonces now rows
  pure rows.length

def retireKeyVersion (keyVersion : Nat) : SecretConnection γ Unit := do
  let referenced ← Tx.query fun db => decide (∃ secret ∈ db.secrets.rows,
    secret.keyVersion = keyVersion ∧ secret.status ≠ .revoked)
  let active ← Tx.query fun db => decide (∃ version ∈ db.keyVersions.rows,
    version.keyVersion = keyVersion ∧ version.active = true)
  Tx.require (referenced = false ∧ active = false)
    (.secretReferenced (some "the key version remains active or referenced"))
  Tx.delete fun version : SecretKeyVersionRecord => version.keyVersion = keyVersion

end NervOS
