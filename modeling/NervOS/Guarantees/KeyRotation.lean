/-
Secrets across key rotation: what was given stays readable, what was revoked stays
destroyed, maintenance drains every other version, and a retired version seals nothing as
long as no process that is still configured with it writes.
-/
import NervOS.Refinement.SecretEngine

namespace NervOS

open Relational Cryptography

variable {γ : Type} {cipher : SecretCipher γ} {keyFiles : Nat → Option MasterKey}
  {system : SecretSystem γ}

def SecretOp.Careful (keyFiles : Nat → Option MasterKey) (system : SecretSystem γ)
    (op : SecretOp) : Prop :=
  ∀ resolver ∈ op.sealer, op.Seals system.db.1 → (keyFiles resolver.keyVersion).isSome = true →
    resolver.keyVersion ∉ system.history.retired

theorem retired_step (op : SecretOp) {version : Nat}
    (hretired : version ∈ (system.step cipher keyFiles op).history.retired) :
    version ∈ system.history.retired ∨
      (∀ secret ∈ system.db.1.secrets.rows, secret.status ≠ .revoked →
        secret.keyVersion ≠ version) ∧ op.sealer = none := by
  revert hretired
  have hcommit : ∀ {α : Type} (x : SecretConnection γ α) record,
      (∀ value db', x.Commits system.db value db' →
        version ∈ (record value system.history).retired →
        version ∈ system.history.retired ∨
          (∀ secret ∈ system.db.1.secrets.rows, secret.status ≠ .revoked →
            secret.keyVersion ≠ version) ∧ op.sealer = none) →
      version ∈ (system.commit x record).history.retired →
      version ∈ system.history.retired ∨
        (∀ secret ∈ system.db.1.secrets.rows, secret.status ≠ .revoked →
          secret.keyVersion ≠ version) ∧ op.sealer = none :=
    fun x record hx => SecretSystem.commit_invariant (I := fun after : SecretSystem γ =>
      version ∈ after.history.retired → _) Or.inl hx
  cases op with
  | create | replace =>
    rw [SecretSystem.step]
    exact hcommit _ _ fun _ _ _ => Or.inl
  | setStatus ownerUserId secretId status now =>
    rw [SecretSystem.step]
    refine hcommit _ _ fun _ _ _ hretired => Or.inl ?_
    unfold SecretHistory.setStatus at hretired
    split at hretired <;> exact hretired
  | delete =>
    rw [SecretSystem.step]
    exact hcommit _ _ fun _ _ _ => Or.inl
  | rotateActiveKey =>
    rw [SecretSystem.step]
    exact hcommit _ _ fun _ _ _ hretired => Or.inl (List.mem_filter.mp hretired).1
  | reencryptBatch =>
    rw [SecretSystem.step]
    exact hcommit _ _ fun _ _ _ => Or.inl
  | retireKeyVersion resolver retiring =>
    rw [SecretSystem.step]
    refine hcommit _ _ fun _ _ hcommits hretired => ?_
    rcases List.mem_cons.mp hretired with rfl | hbefore
    · exact Or.inr ⟨(commits_retireKeyVersion hcommits).1, rfl⟩
    · exact Or.inl hbefore
  | account op =>
    rw [SecretSystem.step, (stepAccount_sameSecrets op system).2]
    exact Or.inl

theorem Unretired.step {op : SecretOp} (h : Unretired system)
    (hcareful : op.Careful keyFiles system) : Unretired (system.step cipher keyFiles op) := by
  intro id secret' hfind hstatus hretired
  rcases SecretSystem.step_written op hfind hstatus with
    ⟨resolver, hsealer, hseals, hfile, hversion⟩ | ⟨secret, hstood, hunrevoked, hversion⟩
  · rcases retired_step op hretired with hbefore | ⟨-, hnone⟩
    · exact hcareful resolver hsealer hseals hfile (hversion ▸ hbefore)
    · rw [hnone] at hsealer
      cases hsealer
  · rcases retired_step op hretired with hbefore | ⟨hfree, -⟩
    · exact h id secret hstood hunrevoked (hversion ▸ hbefore)
    · exact hfree secret (Table.find_eq_some.mp hstood).1 hunrevoked hversion.symm

theorem unretired_of_reachableAlong
    (h : (secretEngine cipher keyFiles).ReachableAlong (SecretOp.Careful keyFiles) system) :
    Unretired system := by
  refine h.invariant ?_ fun _ op hunretired hcareful => hunretired.step hcareful
  intro id secret hfind
  cases hfind

section Draining

/-- The secrets that another version than `keyVersion` still seals. -/
def SecretTables.staleCount (db : SecretTables γ) (keyVersion : Nat) : Nat :=
  db.secrets.rows.countP fun secret => secret.Stale keyVersion

/-- The operation writes under `keyVersion` if it writes under any version. -/
def SecretOp.UsesOnly (keyVersion : Nat) (op : SecretOp) : Prop :=
  ∀ resolver ∈ op.sealer, resolver.keyVersion = keyVersion

/-- A maintenance step within the bounds of a batch. -/
def SecretOp.IsBatch : SecretOp → Bool
  | .reencryptBatch _ limit _ _ => decide (1 ≤ limit ∧ limit ≤ 1000)
  | .create .. | .replace .. | .setStatus .. | .delete .. | .rotateActiveKey ..
  | .retireKeyVersion .. | .account _ => false

variable {keyVersion : Nat} {op : SecretOp}

theorem stale_step (huses : op.UsesOnly keyVersion) (id : Nat) (secret' : SecretRecord γ)
    (hfind : (system.step cipher keyFiles op).db.1.secrets.find id = some secret')
    (hstale : secret'.Stale keyVersion) :
    ∃ secret, system.db.1.secrets.find id = some secret ∧ secret.Stale keyVersion := by
  rcases SecretSystem.step_written op hfind hstale.2 with
    ⟨resolver, hsealer, -, -, hversion⟩ | ⟨secret, hstood, hunrevoked, hversion⟩
  · exact absurd (hversion.trans (huses resolver hsealer)) hstale.1
  · exact ⟨secret, hstood, hversion ▸ hstale.1, hunrevoked⟩

theorem staleCount_step_le (huses : op.UsesOnly keyVersion) :
    (system.step cipher keyFiles op).db.1.staleCount keyVersion ≤
      system.db.1.staleCount keyVersion :=
  Table.countP_le_of_find (stale_step huses)

theorem reencryptBatch_succeeds {resolver : MasterKeyResolver} {limit : Nat}
    (h : SecretsKept cipher keyFiles system)
    (hfile : (keyFiles resolver.keyVersion).isSome = true) (hlimit : 1 ≤ limit ∧ limit ≤ 1000)
    (nonces : Nat → Nonce) (now : Instant) :
    ∃ db', (SecretManager.reencryptBatch cipher keyFiles resolver limit nonces now).Commits
      system.db (system.db.1.batch resolver.keyVersion limit).length db' := by
  obtain ⟨masterKey, hkey⟩ := Option.isSome_iff_exists.mp hfile
  have hopen : ∀ row ∈ system.db.1.batch resolver.keyVersion limit, row.status ≠ .revoked ∧
      ∃ plaintext, row.authenticate cipher (resolveVersion keyFiles) = .ok plaintext := by
    intro row hrow
    obtain ⟨hfind, -, hstatus⟩ := mem_batch hrow
    obtain ⟨value, oldKey, -, hold, hvalue⟩ := h.opens row.id row hfind hstatus
    have hchecked : row.Check :=
      system.db.1.secrets.lawful.checked row (Table.find_eq_some.mp hfind).1
    refine ⟨hstatus, value, authenticate_eq_ok.mpr ⟨oldKey, ?_, hvalue⟩⟩
    exact (resolveVersion_eq_ok keyFiles).mpr ⟨hchecked.keyVersionPositive, hold⟩
  obtain ⟨db', hloop⟩ : ∃ db', (reencryptSecrets cipher resolver.keyVersion masterKey
      (resolveVersion keyFiles) nonces now
      (system.db.1.batch resolver.keyVersion limit)).Commits system.db () db' :=
    reencryptSecrets_succeeds resolver.positive (fun row hrow => (mem_batch hrow).1)
      batch_distinct hopen
  refine ⟨db', commits_managerReencrypt.mpr ⟨hlimit, masterKey, hkey, ?_⟩⟩
  simp only [reencryptBatch, Tx.commits_bind, Tx.commits_query, Tx.commits_pure]
  exact ⟨_, system.db, ⟨rfl, rfl⟩, (), db', hloop, rfl, rfl⟩

theorem batch_length (db : SecretTables γ) (keyVersion limit : Nat) :
    (db.batch keyVersion limit).length = min limit (db.staleCount keyVersion) := by
  rw [SecretTables.batch, List.length_take, SecretTables.staleCount,
    List.countP_eq_length_filter]

theorem staleCount_batch_lt (h : SecretsKept cipher keyFiles system)
    (hfile : (keyFiles keyVersion).isSome = true) (huses : op.UsesOnly keyVersion)
    (hbatch : op.IsBatch = true) (hstale : 0 < system.db.1.staleCount keyVersion) :
    (system.step cipher keyFiles op).db.1.staleCount keyVersion <
      system.db.1.staleCount keyVersion := by
  cases op with
  | reencryptBatch resolver limit nonces now =>
    have hversion : resolver.keyVersion = keyVersion := huses resolver rfl
    have hlimit : 1 ≤ limit ∧ limit ≤ 1000 := of_decide_eq_true hbatch
    obtain ⟨db', hcommits⟩ :=
      reencryptBatch_succeeds h (hversion ▸ hfile) hlimit nonces now
    have hlength : 0 < (system.db.1.batch resolver.keyVersion limit).length := by
      rw [batch_length, hversion]
      omega
    obtain ⟨row, hrow⟩ := List.exists_mem_of_length_pos hlength
    obtain ⟨hfind, hrowStale⟩ := mem_batch hrow
    obtain ⟨-, masterKey, -, hcommitted⟩ := commits_managerReencrypt.mp hcommits
    obtain ⟨-, hdone, -, -⟩ := commits_reencryptBatch hcommitted
    obtain ⟨plaintext, -, -, -, hafter⟩ := hdone row hrow
    refine Table.countP_lt_of_find (stale_step huses) (Table.find_eq_some.mp hfind).1
      (hversion ▸ hrowStale) ?_
    intro row' hfind' hstale'
    rw [SecretSystem.step, SecretSystem.commit, Tx.run_of_commits hcommits] at hfind'
    have hsame : row' = _ := Option.some.inj (hfind'.symm.trans hafter)
    exact hstale'.1 (by rw [hsame]; exact hversion)
  | create | replace | setStatus | delete | rotateActiveKey | retireKeyVersion | account =>
    cases hbatch

theorem staleCount_run_le (hfile : (keyFiles keyVersion).isSome = true) {ops : List SecretOp}
    (huses : ∀ op ∈ ops, op.UsesOnly keyVersion) (h : SecretsKept cipher keyFiles system) :
    ((secretEngine cipher keyFiles).run ops system).db.1.staleCount keyVersion ≤
      system.db.1.staleCount keyVersion - ops.countP SecretOp.IsBatch := by
  induction ops generalizing system with
  | nil => exact Nat.le_refl _
  | cons op rest ih =>
    have hhead : op.UsesOnly keyVersion := huses op List.mem_cons_self
    have hrest := ih (fun other hother => huses other (List.mem_cons_of_mem _ hother)) (h.step op)
    have hle : (system.step cipher keyFiles op).db.1.staleCount keyVersion ≤
        system.db.1.staleCount keyVersion := staleCount_step_le hhead
    simp only [Machine.run, List.countP_cons]
    by_cases hbatch : op.IsBatch = true
    · rw [if_pos hbatch]
      by_cases hstale : 0 < system.db.1.staleCount keyVersion
      · have hlt := staleCount_batch_lt h hfile hhead hbatch hstale
        exact hrest.trans (by omega)
      · exact hrest.trans (by omega)
    · rw [if_neg hbatch]
      exact hrest.trans (by omega)

end Draining

structure SurvivesRotation (cipher : SecretCipher γ) (keyFiles : Nat → Option MasterKey)
    (system : SecretSystem γ) : Prop where
  /-- Every active or disabled secret opens to the value last given for it, and an active one
  is resolved to that value. -/
  readable : ∀ secret ∈ system.db.1.secrets.rows, secret.status ≠ .revoked →
    OpensTo cipher keyFiles system.history.given secret ∧
      (secret.status = .active →
        (resolveActiveValue cipher keyFiles system.db secret.ownerUserId secret.id).toOption =
          system.history.given secret.id)
  /-- No active or disabled secret is sealed under a retired version. -/
  unretired : ∀ secret ∈ system.db.1.secrets.rows, secret.status ≠ .revoked →
    secret.keyVersion ∉ system.history.retired
  /-- A secret that was revoked, and not deleted since, is still revoked and yields nothing. -/
  destroyed : ∀ id ∈ system.history.revoked, ∃ secret,
    system.db.1.secrets.find id = some secret ∧ secret.status = .revoked ∧
      (∀ masterKey, secret.decrypt cipher masterKey = none) ∧
      ∀ ownerUserId,
        resolveActiveValue cipher keyFiles system.db ownerUserId id = .error .secretNotFound
  /-- When all processes use one version, as many batches as there are other secrets drain
  them, whatever else happens in between, and then a batch returns zero. -/
  drained : ∀ resolver : MasterKeyResolver, (keyFiles resolver.keyVersion).isSome = true →
    ∀ ops : List SecretOp, (∀ op ∈ ops, op.UsesOnly resolver.keyVersion) →
      system.db.1.staleCount resolver.keyVersion ≤ ops.countP SecretOp.IsBatch →
      (∀ secret ∈ ((secretEngine cipher keyFiles).run ops system).db.1.secrets.rows,
        secret.status ≠ .revoked → secret.keyVersion = resolver.keyVersion) ∧
      ∀ limit nonces now, 1 ≤ limit ∧ limit ≤ 1000 →
        ((SecretManager.reencryptBatch cipher keyFiles resolver limit nonces now).run
          ((secretEngine cipher keyFiles).run ops system).db).1 = .ok 0
  /-- A batch that returns zero found no other version. -/
  exhausted : ∀ (resolver : MasterKeyResolver) limit nonces now,
    ((SecretManager.reencryptBatch cipher keyFiles resolver limit nonces now).run
      system.db).1 = .ok 0 →
    ∀ secret ∈ system.db.1.secrets.rows, secret.status ≠ .revoked →
      secret.keyVersion = resolver.keyVersion

section Survival

variable {secret : SecretRecord γ}

theorem resolveActiveValue_of_opens (hmem : secret ∈ system.db.1.secrets.rows)
    (hactive : secret.status = .active)
    (hopens : OpensTo cipher keyFiles system.history.given secret) :
    (resolveActiveValue cipher keyFiles system.db secret.ownerUserId secret.id).toOption =
      system.history.given secret.id := by
  obtain ⟨value, masterKey, hvalue, hfile, hdecrypt⟩ := hopens
  have hchecked : secret.Check := system.db.1.secrets.lawful.checked secret hmem
  have howned : (system.db.1.ownedSecret secret.ownerUserId secret.id).filter
      (fun secret => secret.status = .active) = some secret := by
    rw [Option.filter_eq_some_iff]
    exact ⟨ownedSecret_eq_some.mpr ⟨Table.find_key hmem, rfl⟩, decide_eq_true hactive⟩
  have hempty : ¬ secret.ciphertext.IsEmpty := by
    rw [← hchecked.revocationDestroysValue, hactive]
    simp
  have hresolve : resolveVersion keyFiles secret.keyVersion = .ok masterKey :=
    (resolveVersion_eq_ok keyFiles).mpr ⟨hchecked.keyVersionPositive, hfile⟩
  simp only [resolveActiveValue, decryptActiveValue, howned, hresolve]
  rw [if_neg hempty, hdecrypt, hvalue]
  rfl

theorem resolveActiveValue_of_revoked {id : Nat} (hfind : system.db.1.secrets.find id = some secret)
    (hrevoked : secret.status = .revoked) (ownerUserId : Nat) :
    resolveActiveValue cipher keyFiles system.db ownerUserId id = .error .secretNotFound := by
  have hnone : (system.db.1.ownedSecret ownerUserId id).filter
      (fun secret => secret.status = .active) = none := by
    rw [Option.filter_eq_none_iff]
    intro other hother
    rw [(Option.some.inj (hfind.symm.trans (ownedSecret_eq_some.mp hother).1)).symm, hrevoked]
    simp
  simp only [resolveActiveValue, decryptActiveValue, hnone]

theorem not_stale_of_staleCount {keyVersion : Nat} (h : system.db.1.staleCount keyVersion = 0)
    (hmem : secret ∈ system.db.1.secrets.rows) (hstatus : secret.status ≠ .revoked) :
    secret.keyVersion = keyVersion := by
  by_contra hversion
  have hnone := List.countP_eq_zero.mp h secret hmem
  exact hnone (decide_eq_true ⟨hversion, hstatus⟩)

variable {resolver : MasterKeyResolver}

theorem reencryptBatch_drained {limit : Nat} (h : SecretsKept cipher keyFiles system)
    (hfile : (keyFiles resolver.keyVersion).isSome = true) (hlimit : 1 ≤ limit ∧ limit ≤ 1000)
    (hdrained : system.db.1.staleCount resolver.keyVersion = 0) (nonces : Nat → Nonce)
    (now : Instant) :
    ((SecretManager.reencryptBatch cipher keyFiles resolver limit nonces now).run
      system.db).1 = .ok 0 := by
  obtain ⟨db', hcommits⟩ := reencryptBatch_succeeds h hfile hlimit nonces now
  rw [Tx.run_of_commits hcommits, batch_length, hdrained, Nat.min_zero]

theorem staleCount_of_zero {limit : Nat} {nonces : Nat → Nonce} {now : Instant}
    (h : ((SecretManager.reencryptBatch cipher keyFiles resolver limit nonces now).run
      system.db).1 = .ok 0) : system.db.1.staleCount resolver.keyVersion = 0 := by
  rcases Tx.run_cases (SecretManager.reencryptBatch cipher keyFiles resolver limit nonces now)
    system.db with ⟨count, db', hcommits, hrun⟩ | ⟨abort, hrun⟩
  · rw [hrun] at h
    obtain rfl := Except.ok.inj h
    obtain ⟨hlimit, masterKey, -, hbatch⟩ := commits_managerReencrypt.mp hcommits
    have hlength := (commits_reencryptBatch hbatch).1
    rw [batch_length] at hlength
    omega
  · rw [hrun] at h
    cases h

/-- While no process writes under a retired version, secrets survive the rotation of keys. -/
theorem secrets_survive_rotation
    (h : (secretEngine cipher keyFiles).ReachableAlong (SecretOp.Careful keyFiles) system) :
    SurvivesRotation cipher keyFiles system := by
  have hkept := secretsKept_of_reachable h.reachable
  constructor
  · intro secret hmem hstatus
    have hopens := hkept.opens secret.id secret (Table.find_key hmem) hstatus
    exact ⟨hopens, fun hactive => resolveActiveValue_of_opens hmem hactive hopens⟩
  · intro secret hmem hstatus
    exact unretired_of_reachableAlong h secret.id secret (Table.find_key hmem) hstatus
  · intro id hid
    obtain ⟨secret, hfind, hrevoked⟩ := hkept.revoked id hid
    have hchecked : secret.Check :=
      system.db.1.secrets.lawful.checked secret (Table.find_eq_some.mp hfind).1
    exact ⟨secret, hfind, hrevoked,
      decrypt_of_isEmpty (hchecked.revocationDestroysValue.mp hrevoked),
      resolveActiveValue_of_revoked hfind hrevoked⟩
  · intro resolver hfile ops huses hmany
    have hrun : SecretsKept cipher keyFiles ((secretEngine cipher keyFiles).run ops system) :=
      secretsKept_of_reachable (h.reachable.run ops)
    have hdrained : ((secretEngine cipher keyFiles).run ops system).db.1.staleCount
        resolver.keyVersion = 0 := by
      have hle := staleCount_run_le hfile huses hkept
      omega
    exact ⟨fun secret => not_stale_of_staleCount hdrained, fun limit nonces now hlimit =>
      reencryptBatch_drained hrun hfile hlimit hdrained nonces now⟩
  · intro resolver limit nonces now hzero secret
    exact not_stale_of_staleCount (staleCount_of_zero hzero)

end Survival

def sampleKeyFiles (version : Nat) : Option MasterKey :=
  if version = 1 ∨ version = 2 then some (BitVec.ofNat 256 version) else none

abbrev sampleCipher : SecretCipher (MasterKey × Nonce × String × SecretAad) :=
  Aead.tuples

def oldResolver : MasterKeyResolver := ⟨1, Nat.le_refl 1⟩

def newResolver : MasterKeyResolver := ⟨2, Nat.le_succ 1⟩

/-- Seal under the old version, activate the new one, seal again, retire the old one. -/
def sampleRotation : List SecretOp :=
  [.create oldResolver 1 "token" "hunter2" none 7 0,
    .rotateActiveKey newResolver 1,
    .reencryptBatch newResolver 100 (fun _ => 8) 2,
    .retireKeyVersion newResolver 1,
    .replace newResolver 1 1 "hunter3" 9 3]

/-- The old version is retired and a process that is still configured with it writes. -/
def staleWriter : List SecretOp :=
  [.rotateActiveKey newResolver 0,
    .retireKeyVersion newResolver 1,
    .create oldResolver 1 "token" "hunter2" none 7 1]

instance (db : SecretTables γ) (op : SecretOp) : Decidable (op.Seals db) := by
  cases op <;> unfold SecretOp.Seals <;> infer_instance

instance (system : SecretSystem γ) (op : SecretOp) :
    Decidable (op.Careful keyFiles system) :=
  inferInstanceAs (Decidable (∀ resolver ∈ op.sealer, _ → _ → _))

abbrev sampleSecrets : Machine (SecretSystem (MasterKey × Nonce × String × SecretAad)) SecretOp :=
  secretEngine sampleCipher sampleKeyFiles

set_option maxRecDepth 100000 in
/-- A whole rotation goes through, and the value that was given last is read back. -/
theorem sampleRotation_survives :
    sampleSecrets.Along (SecretOp.Careful sampleKeyFiles) sampleRotation sampleSecrets.init ∧
      (sampleSecrets.run sampleRotation sampleSecrets.init).history.retired = [1] ∧
      SurvivesRotation sampleCipher sampleKeyFiles
        (sampleSecrets.run sampleRotation sampleSecrets.init) := by
  have hcareful : sampleSecrets.Along (SecretOp.Careful sampleKeyFiles) sampleRotation
      sampleSecrets.init := by
    decide +kernel
  exact ⟨hcareful, by decide +kernel, secrets_survive_rotation ⟨sampleRotation, hcareful, rfl⟩⟩

set_option maxRecDepth 100000 in
/-- A process that was not yet reconfigured seals a new secret under the retired version. -/
theorem staleWriter_unretires :
    ¬ ∀ system, sampleSecrets.Reachable system →
      SurvivesRotation sampleCipher sampleKeyFiles system := by
  intro hall
  have hsurvives := hall _ ⟨staleWriter, rfl⟩
  have hsealed : ∃ secret ∈ (sampleSecrets.run staleWriter
      sampleSecrets.init).db.1.secrets.rows, secret.status ≠ .revoked ∧
        secret.keyVersion ∈ (sampleSecrets.run staleWriter
          sampleSecrets.init).history.retired := by
    decide +kernel
  obtain ⟨secret, hmem, hstatus, hretired⟩ := hsealed
  exact hsurvives.unretired secret hmem hstatus hretired

end NervOS
