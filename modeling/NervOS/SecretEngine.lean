/-
The lifecycle of account connections, and any number of processes over one secret store: the
Secret Manager of each, with owner-scoped lifecycle operations and the operator's key
maintenance.  Each step is one operation of one process with the key version it is configured
with; what callers gave, retired and revoked so far is kept beside the store.
-/
import NervOS.Database.Secrets
import NervOS.Relational.Machine

namespace NervOS

open Relational

variable {γ : Type}

/-- `timedelta(seconds=20)`. -/
def refreshWindow : Duration := 20 * 1000000

def maxScopes : Nat := 32

def maxScopeLength : Nat := 128

def ValidScope (scope : String) : Prop :=
  1 ≤ scope.length ∧ scope.length ≤ maxScopeLength ∧
    ∀ ch ∈ scope.toList, 33 ≤ ch.toNat ∧ ch.toNat ≠ 127

instance : DecidablePred ValidScope := fun scope =>
  decidable_of_iff
    (1 ≤ scope.length ∧ scope.length ≤ maxScopeLength ∧
      (scope.toList.all fun ch => 33 ≤ ch.toNat ∧ ch.toNat ≠ 127) = true)
    (by simp only [ValidScope, List.all_eq_true, decide_eq_true_eq])

def validateScopes (scopes : List String) : Except SecretError (List String) :=
  if scopes.length = 0 ∨ maxScopes < scopes.length then
    .error (.invalidConnection "connection requires between one and thirty-two scopes")
  else if ∀ scope ∈ scopes, ValidScope scope then .ok scopes
  else .error (.invalidConnection "connection scope is invalid")

def SecretTables.ownedConnection (db : SecretTables γ) (ownerUserId connectionId : Nat) :
    Option AccountConnectionRecord :=
  (db.accountConnections.find connectionId).filter fun connection =>
    connection.ownerUserId = ownerUserId

/-- `_view`: a connection is read with its scopes validated. -/
def AccountConnectionRecord.view (connection : AccountConnectionRecord) :
    Except SecretError AccountConnectionRecord :=
  (validateScopes connection.scopesJson).map fun _ => connection

def getConnection (db : SecretDatabase γ) (ownerUserId connectionId : Nat) :
    Except SecretError AccountConnectionRecord :=
  (db.1.ownedConnection ownerUserId connectionId).elim (.error .connectionNotFound)
    AccountConnectionRecord.view

/-- `_owned`. -/
def readOwned (ownerUserId connectionId : Nat) : SecretConnection γ AccountConnectionRecord := do
  let row ← Tx.query fun db => db.ownedConnection ownerUserId connectionId
  Tx.ofExcept (row.elim (.error .connectionNotFound) .ok)

def readOwnedView (ownerUserId connectionId : Nat) :
    SecretConnection γ AccountConnectionRecord := do
  let row ← readOwned ownerUserId connectionId
  Tx.ofExcept row.view

/-- Some live connection already carries the credential. -/
def SecretTables.Carried (db : SecretTables γ) (secretId : Nat) : Prop :=
  ∃ connection ∈ db.accountConnections.rows, connection.secretId = secretId ∧
    (connection.state = .connected ∨ connection.state = .needsRefresh)

instance (db : SecretTables γ) (secretId : Nat) : Decidable (db.Carried secretId) :=
  inferInstanceAs (Decidable (∃ connection ∈ db.accountConnections.rows, _))

def SecretTables.activeSecret (db : SecretTables γ) (ownerUserId secretId : Nat) :
    Option (SecretRecord γ) :=
  (db.ownedSecret ownerUserId secretId).filter fun secret => secret.status = .active

def createConnection (ownerUserId : Nat) (provider displayName : String) (secretId : Nat)
    (scopes : List String) (expiresAt : Option Instant) (now : Instant) :
    SecretConnection γ AccountConnectionRecord := do
  let usable ← Tx.query fun db => (db.activeSecret ownerUserId secretId).isSome
  Tx.require (usable = true) .secretNotFound
  let carried ← Tx.query fun db => decide (db.Carried secretId)
  Tx.require (carried = false)
    (.invalidConnection "an active credential already has an account connection")
  let connectionId ← Tx.insert fun id => ({
    id := id
    ownerUserId := ownerUserId
    provider := provider
    displayName := displayName
    secretId := secretId
    state := .connected
    scopesJson := scopes
    expiresAt := expiresAt
    refreshFailedAt := none
    refreshRevision := 0
    refreshStartedAt := none
    revocationOutcome := none
    createdAt := now
    updatedAt := now } : AccountConnectionRecord)
  readOwnedView ownerUserId connectionId

def setState (ownerUserId connectionId : Nat) (state : AccountState) (now : Instant) :
    SecretConnection γ AccountConnectionRecord := do
  let _ ← readOwned ownerUserId connectionId
  let _ ← Tx.update (fun connection : AccountConnectionRecord => connection.id = connectionId)
    fun connection => { connection with
      state := state
      updatedAt := now
      refreshRevision := connection.refreshRevision + 1
      refreshStartedAt := none }
  readOwnedView ownerUserId connectionId

def setExpiry (ownerUserId connectionId : Nat) (expiresAt : Option Instant) (now : Instant) :
    SecretConnection γ AccountConnectionRecord := do
  let _ ← readOwned ownerUserId connectionId
  let _ ← Tx.update (fun connection : AccountConnectionRecord => connection.id = connectionId)
    fun connection => { connection with expiresAt := expiresAt, updatedAt := now }
  readOwnedView ownerUserId connectionId

def AccountConnectionRecord.Expired (connection : AccountConnectionRecord) (now : Instant) :
    Prop :=
  connection.state = .connected ∧ ∃ expiry ∈ connection.expiresAt, expiry ≤ now

instance (connection : AccountConnectionRecord) (now : Instant) :
    Decidable (connection.Expired now) :=
  inferInstanceAs (Decidable (_ ∧ ∃ expiry ∈ connection.expiresAt, _))

def claimRefresh (ownerUserId connectionId : Nat) (now : Instant) :
    SecretConnection γ (Option AccountConnectionRecord) := do
  let row ← readOwned ownerUserId connectionId
  if row.Expired now then
    let _ ← Tx.update (fun connection : AccountConnectionRecord => connection.id = connectionId)
      fun connection => { connection with
        state := .needsRefresh
        refreshStartedAt := some now
        refreshRevision := row.refreshRevision + 1
        updatedAt := now }
    let claimed ← readOwnedView ownerUserId connectionId
    pure (some claimed)
  else pure none

/-- The refresh that was claimed as `revision` is the current one and its window is open. -/
def AccountConnectionRecord.Refreshing (connection : AccountConnectionRecord) (revision : Nat)
    (now : Instant) : Prop :=
  connection.state = .needsRefresh ∧ connection.refreshRevision = revision ∧
    ∃ started ∈ connection.refreshStartedAt, now < started + refreshWindow

instance (connection : AccountConnectionRecord) (revision : Nat) (now : Instant) :
    Decidable (connection.Refreshing revision now) :=
  inferInstanceAs (Decidable (_ ∧ _ ∧ ∃ started ∈ connection.refreshStartedAt, _))

def SecretTables.Exchangeable (db : SecretTables γ) (ownerUserId : Nat)
    (oldSecretId oldSecretRotation secretId : Nat) : Prop :=
  (∃ old ∈ db.activeSecret ownerUserId oldSecretId, old.rotationCount = oldSecretRotation) ∧
    (db.activeSecret ownerUserId secretId).isSome = true

instance (db : SecretTables γ) (ownerUserId oldSecretId oldSecretRotation secretId : Nat) :
    Decidable (db.Exchangeable ownerUserId oldSecretId oldSecretRotation secretId) :=
  inferInstanceAs (Decidable ((∃ old ∈ db.activeSecret ownerUserId oldSecretId, _) ∧ _))

def finishRefresh (ownerUserId connectionId revision secretId oldSecretRotation : Nat)
    (expiresAt : Option Instant) (scopes : List String) (now : Instant) :
    SecretConnection γ Bool := do
  let row ← readOwned ownerUserId connectionId
  let exchangeable ← Tx.query fun db =>
    decide (db.Exchangeable ownerUserId row.secretId oldSecretRotation secretId)
  if row.Refreshing revision now ∧ exchangeable = true then
    let _ ← Tx.update (fun connection : AccountConnectionRecord => connection.id = connectionId)
      fun connection => { connection with
        secretId := secretId
        state := .connected
        expiresAt := expiresAt
        scopesJson := scopes
        refreshStartedAt := none
        refreshFailedAt := none
        updatedAt := now }
    pure true
  else pure false

def failRefresh (ownerUserId connectionId revision : Nat) (now : Instant) :
    SecretConnection γ Unit := do
  let _ ← Tx.update (fun connection : AccountConnectionRecord => connection.id = connectionId ∧
      connection.ownerUserId = ownerUserId ∧ connection.state = .needsRefresh ∧
      connection.refreshRevision = revision)
    fun connection => { connection with
      refreshStartedAt := none
      refreshFailedAt := some now
      updatedAt := now }

def recordRevocation (ownerUserId connectionId : Nat) (outcome : RevocationOutcome)
    (now : Instant) : SecretConnection γ Unit := do
  let _ ← readOwned ownerUserId connectionId
  let _ ← Tx.update (fun connection : AccountConnectionRecord => connection.id = connectionId ∧
      connection.state = .disconnected)
    fun connection => { connection with revocationOutcome := some outcome, updatedAt := now }

end NervOS

namespace NervOS

open Relational

variable {γ : Type} (cipher : SecretCipher γ) (keyFiles : Nat → Option MasterKey)

namespace SecretManager

variable (resolver : MasterKeyResolver)

def create (ownerUserId : Nat) (name value : String) (providerHint : Option String)
    (nonce : Nonce) (now : Instant) : SecretConnection γ SecretMetadata := do
  let name ← Tx.ofExcept (validateSecretName name)
  let resolved ← Tx.ofExcept (resolver.resolve keyFiles)
  createSecret cipher ownerUserId name value providerHint resolved.1 resolved.2 nonce now

def replace (ownerUserId secretId : Nat) (value : String) (nonce : Nonce) (now : Instant) :
    SecretConnection γ SecretMetadata := do
  let resolved ← Tx.ofExcept (resolver.resolve keyFiles)
  replaceSecret cipher ownerUserId secretId value resolved.1 resolved.2 nonce now

def rotateActiveKey (now : Instant) : SecretConnection γ SecretKeyVersion := do
  let resolved ← Tx.ofExcept (resolver.resolve keyFiles)
  activateKeyVersion resolved.1 now

def reencryptBatch (limit : Nat) (nonces : Nat → Nonce) (now : Instant) :
    SecretConnection γ Nat := do
  Tx.require (1 ≤ limit ∧ limit ≤ 1000)
    (.invalidSecret "maintenance batch size is invalid")
  let resolved ← Tx.ofExcept (resolver.resolve keyFiles)
  NervOS.reencryptBatch cipher resolved.1 resolved.2 (resolveVersion keyFiles) limit nonces now

def retireKeyVersion (version : Nat) : SecretConnection γ Unit := do
  let resolved ← Tx.ofExcept (resolver.resolve keyFiles)
  Tx.require (version ≠ resolved.1)
    (.secretReferenced (some "the configured active key cannot be retired"))
  NervOS.retireKeyVersion version

end SecretManager

/-- `SecretResolver.resolve_active_value`: the only way from a reference back to a value. -/
def resolveActiveValue (db : SecretDatabase γ) (ownerUserId secretId : Nat) :
    Except SecretError String :=
  decryptActiveValue cipher db ownerUserId secretId (resolveVersion keyFiles)

end NervOS

namespace NervOS

open Relational

inductive AccountOp where
  | create (ownerUserId : Nat) (provider displayName : String) (secretId : Nat)
      (scopes : List String) (expiresAt : Option Instant) (now : Instant)
  | setState (ownerUserId connectionId : Nat) (state : AccountState) (now : Instant)
  | setExpiry (ownerUserId connectionId : Nat) (expiresAt : Option Instant) (now : Instant)
  | claimRefresh (ownerUserId connectionId : Nat) (now : Instant)
  | finishRefresh (ownerUserId connectionId revision secretId oldSecretRotation : Nat)
      (expiresAt : Option Instant) (scopes : List String) (now : Instant)
  | failRefresh (ownerUserId connectionId revision : Nat) (now : Instant)
  | recordRevocation (ownerUserId connectionId : Nat) (outcome : RevocationOutcome)
      (now : Instant)

inductive SecretOp where
  | create (resolver : MasterKeyResolver) (ownerUserId : Nat) (name value : String)
      (providerHint : Option String) (nonce : Nonce) (now : Instant)
  | replace (resolver : MasterKeyResolver) (ownerUserId secretId : Nat) (value : String)
      (nonce : Nonce) (now : Instant)
  | setStatus (ownerUserId secretId : Nat) (status : SecretStatus) (now : Instant)
  | delete (ownerUserId secretId : Nat)
  | rotateActiveKey (resolver : MasterKeyResolver) (now : Instant)
  | reencryptBatch (resolver : MasterKeyResolver) (limit : Nat) (nonces : Nat → Nonce)
      (now : Instant)
  | retireKeyVersion (resolver : MasterKeyResolver) (version : Nat)
  | account (op : AccountOp)

/-- What the operations that returned were given. -/
structure SecretHistory where
  given : Nat → Option String := fun _ => none
  retired : List Nat := []
  revoked : List Nat := []

namespace SecretHistory

/-- A value was given to `create` or `replace` for a row. -/
def give (history : SecretHistory) (secretId : Nat) (value : String) : SecretHistory :=
  { history with given := Function.update history.given secretId (some value) }

def activate (history : SecretHistory) (keyVersion : Nat) : SecretHistory :=
  { history with retired := history.retired.filter (· ≠ keyVersion) }

def retire (history : SecretHistory) (keyVersion : Nat) : SecretHistory :=
  { history with retired := keyVersion :: history.retired }

def setStatus (history : SecretHistory) (secretId : Nat) (status : SecretStatus) :
    SecretHistory :=
  if status = .revoked then { history with revoked := secretId :: history.revoked } else history

def delete (history : SecretHistory) (secretId : Nat) : SecretHistory :=
  { history with revoked := history.revoked.filter (· ≠ secretId) }

end SecretHistory

structure SecretSystem (γ : Type) where
  db : SecretDatabase γ
  history : SecretHistory

namespace SecretSystem

variable {γ : Type}

def init : SecretSystem γ where
  db := .empty
  history := {}

/-- Run one transaction; a transaction that returned is recorded. -/
def commit {α : Type} (system : SecretSystem γ) (x : SecretConnection γ α)
    (record : α → SecretHistory → SecretHistory) : SecretSystem γ :=
  match x.run system.db with
  | (.ok value, db) => ⟨db, record value system.history⟩
  | (.error _, db) => ⟨db, system.history⟩

theorem commit_cases {α : Type} (system : SecretSystem γ) (x : SecretConnection γ α)
    (record : α → SecretHistory → SecretHistory) :
    (∃ value db', x.Commits system.db value db' ∧
      system.commit x record = ⟨db', record value system.history⟩) ∨
      system.commit x record = system := by
  rcases Tx.run_cases x system.db with ⟨value, db', hcommits, hrun⟩ | ⟨abort, hrun⟩
  · refine Or.inl ⟨value, db', hcommits, ?_⟩
    unfold commit
    rw [hrun]
  · refine Or.inr ?_
    unfold commit
    rw [hrun]

theorem commit_invariant {α : Type} {system : SecretSystem γ} {x : SecretConnection γ α}
    {record : α → SecretHistory → SecretHistory} {I : SecretSystem γ → Prop} (h : I system)
    (hcommit : ∀ value db', x.Commits system.db value db' →
      I ⟨db', record value system.history⟩) : I (system.commit x record) := by
  rcases system.commit_cases x record with ⟨value, db', hcommits, hstep⟩ | hstep
  · rw [hstep]
    exact hcommit value db' hcommits
  · rw [hstep]
    exact h

/-- An account operation leaves the history alone. -/
def stepAccount (op : AccountOp) (system : SecretSystem γ) : SecretSystem γ :=
  match op with
  | .create ownerUserId provider displayName secretId scopes expiresAt now =>
    system.commit (createConnection ownerUserId provider displayName secretId scopes expiresAt
      now) fun _ => id
  | .setState ownerUserId connectionId state now =>
    system.commit (setState ownerUserId connectionId state now) fun _ => id
  | .setExpiry ownerUserId connectionId expiresAt now =>
    system.commit (setExpiry ownerUserId connectionId expiresAt now) fun _ => id
  | .claimRefresh ownerUserId connectionId now =>
    system.commit (claimRefresh ownerUserId connectionId now) fun _ => id
  | .finishRefresh ownerUserId connectionId revision secretId oldSecretRotation expiresAt scopes
      now =>
      system.commit (finishRefresh ownerUserId connectionId revision secretId oldSecretRotation
        expiresAt scopes now) fun _ => id
  | .failRefresh ownerUserId connectionId revision now =>
    system.commit (failRefresh ownerUserId connectionId revision now) fun _ => id
  | .recordRevocation ownerUserId connectionId outcome now =>
    system.commit (recordRevocation ownerUserId connectionId outcome now) fun _ => id

variable (cipher : SecretCipher γ) (keyFiles : Nat → Option MasterKey)

def step (op : SecretOp) (system : SecretSystem γ) : SecretSystem γ :=
  match op with
  | .create resolver ownerUserId name value providerHint nonce now =>
    system.commit (SecretManager.create cipher keyFiles resolver ownerUserId name value
      providerHint nonce now) fun secret history => history.give secret.id value
  | .replace resolver ownerUserId secretId value nonce now =>
    system.commit (SecretManager.replace cipher keyFiles resolver ownerUserId secretId value
      nonce now) fun _ history => history.give secretId value
  | .setStatus ownerUserId secretId status now =>
    system.commit (setSecretStatus ownerUserId secretId status now)
      fun _ history => history.setStatus secretId status
  | .delete ownerUserId secretId =>
    system.commit (deleteSecret ownerUserId secretId)
      fun _ history => history.delete secretId
  | .rotateActiveKey resolver now =>
    system.commit (SecretManager.rotateActiveKey keyFiles resolver now)
      fun version history => history.activate version.keyVersion
  | .reencryptBatch resolver limit nonces now =>
    system.commit (SecretManager.reencryptBatch cipher keyFiles resolver limit nonces now)
      fun _ history => history
  | .retireKeyVersion resolver version =>
    system.commit (SecretManager.retireKeyVersion keyFiles resolver version)
      fun _ history => history.retire version
  | .account op => stepAccount op system

end SecretSystem

/-- The secret store under every process that shares it. -/
def secretEngine {γ : Type} (cipher : SecretCipher γ) (keyFiles : Nat → Option MasterKey) :
    Machine (SecretSystem γ) SecretOp where
  init := .init
  exec := SecretSystem.step cipher keyFiles

end NervOS
