/-
Invariants of the secret store under every process: a value that was given and not revoked
opens to itself, and a version that was retired seals nothing as long as no process writes
under it.
-/
import NervOS.Refinement.Secrets

namespace NervOS

open Relational

variable {γ : Type} {cipher : SecretCipher γ} {keyFiles : Nat → Option MasterKey}
  {system : SecretSystem γ} {db' : SecretDatabase γ} {history' : SecretHistory}

def OpensTo (cipher : SecretCipher γ) (keyFiles : Nat → Option MasterKey)
    (given : Nat → Option String) (secret : SecretRecord γ) : Prop :=
  ∃ value masterKey, given secret.id = some value ∧
    keyFiles secret.keyVersion = some masterKey ∧
    secret.decrypt cipher masterKey = some value

structure SecretsKept (cipher : SecretCipher γ) (keyFiles : Nat → Option MasterKey)
    (system : SecretSystem γ) : Prop where
  opens : ∀ id secret, system.db.1.secrets.find id = some secret → secret.status ≠ .revoked →
    OpensTo cipher keyFiles system.history.given secret
  revoked : ∀ id ∈ system.history.revoked, ∃ secret,
    system.db.1.secrets.find id = some secret ∧ secret.status = .revoked

def Unretired (system : SecretSystem γ) : Prop :=
  ∀ id secret, system.db.1.secrets.find id = some secret → secret.status ≠ .revoked →
    secret.keyVersion ∉ system.history.retired

section Steps

variable {db : SecretDatabase γ} {secret : SecretRecord γ}

theorem find_id {id : Nat} (h : db.1.secrets.find id = some secret) : secret.id = id :=
  (Table.find_eq_some.mp h).2

variable {masterKey : MasterKey} {nonce : Nonce} {value : String} {given : Nat → Option String}

theorem opensTo_give {keyVersion : Nat} {secretId : Nat} (hid : secret.id = secretId)
    (hfile : keyFiles keyVersion = some masterKey) :
    OpensTo cipher keyFiles (Function.update given secretId (some value))
      (secret.reseal cipher keyVersion masterKey nonce value) := by
  refine ⟨value, masterKey, ?_, hfile, decrypt_reseal secret keyVersion masterKey nonce value⟩
  rw [show (secret.reseal cipher keyVersion masterKey nonce value).id = secretId from hid,
    Function.update_self]

theorem OpensTo.give_other {secretId : Nat} (h : OpensTo cipher keyFiles given secret)
    (hid : secret.id ≠ secretId) :
    OpensTo cipher keyFiles (Function.update given secretId (some value)) secret := by
  obtain ⟨old, masterKey, hgiven, hrest⟩ := h
  exact ⟨old, masterKey, by rwa [Function.update_of_ne hid], hrest⟩

theorem SecretsKept.of_sameSecrets (h : SecretsKept cipher keyFiles system)
    (hsecrets : db'.1.secrets = system.db.1.secrets)
    (hgiven : history'.given = system.history.given)
    (hrevoked : history'.revoked = system.history.revoked) :
    SecretsKept cipher keyFiles ⟨db', history'⟩ := by
  constructor
  · intro id secret hfind hstatus
    simp only [hsecrets, hgiven] at hfind ⊢
    exact h.opens id secret hfind hstatus
  · intro id hid
    simp only [hsecrets, hrevoked] at hid ⊢
    exact h.revoked id hid

theorem SecretsKept.give {secretId keyVersion : Nat} {row secret' : SecretRecord γ}
    (h : SecretsKept cipher keyFiles system) (hfile : keyFiles keyVersion = some masterKey)
    (hunrevoked : secretId ∉ system.history.revoked) (hrow : row.id = secretId)
    (hfind : ∀ id, db'.1.secrets.find id =
      if id = secretId then some secret' else system.db.1.secrets.find id)
    (hopens : ∀ given, OpensTo cipher keyFiles given
      (row.reseal cipher keyVersion masterKey nonce value) →
      OpensTo cipher keyFiles given secret') :
    SecretsKept cipher keyFiles ⟨db', system.history.give secretId value⟩ := by
  constructor
  · intro id secret hsecret hstatus
    rw [hfind id] at hsecret
    by_cases hid : id = secretId
    · rw [if_pos hid] at hsecret
      obtain rfl := Option.some.inj hsecret
      exact hopens _ (opensTo_give hrow hfile)
    · rw [if_neg hid] at hsecret
      have hother : secret.id ≠ secretId := by rwa [find_id hsecret]
      exact (h.opens id secret hsecret hstatus).give_other hother
  · intro id hid
    have hne : id ≠ secretId := by
      rintro rfl
      exact hunrevoked hid
    rw [hfind id, if_neg hne]
    exact h.revoked id hid

variable {resolver : MasterKeyResolver} {now : Instant} {secret : SecretMetadata}

theorem SecretsKept.create {ownerUserId : Nat} {name value : String} {providerHint : Option String}
    (h : SecretsKept cipher keyFiles system)
    (hcommits : (SecretManager.create cipher keyFiles resolver ownerUserId name value
      providerHint nonce now).Commits system.db secret db') :
    SecretsKept cipher keyFiles ⟨db', system.history.give secret.id value⟩ := by
  simp only [SecretManager.create, Tx.commits_bind, Tx.commits_ofExcept] at hcommits
  obtain ⟨_, _, ⟨-, rfl⟩, resolved, _, ⟨hresolved, rfl⟩, hcreate⟩ := hcommits
  obtain ⟨-, hid, -, hfind, -⟩ := commits_createSecret hcreate
  obtain ⟨hversion, hfile⟩ := (resolve_eq_ok keyFiles).mp hresolved
  rw [hid]
  refine h.give (hversion ▸ hfile) ?_ rfl hfind fun _ hopens => hopens
  intro hrevoked
  obtain ⟨row, hrow, -⟩ := h.revoked _ hrevoked
  rw [Table.find_next] at hrow
  cases hrow

variable {ownerUserId secretId : Nat}

section

variable (h : SecretsKept cipher keyFiles system)

include h

theorem SecretsKept.replace
    (hcommits : (SecretManager.replace cipher keyFiles resolver ownerUserId secretId value nonce
      now).Commits system.db secret db') :
    SecretsKept cipher keyFiles ⟨db', system.history.give secretId value⟩ := by
  obtain ⟨resolved, _, hresolved, hreplace⟩ := Tx.commits_bind.mp hcommits
  obtain ⟨hresolve, rfl⟩ := Tx.commits_ofExcept.mp hresolved
  obtain ⟨hversion, hfile⟩ := (resolve_eq_ok keyFiles).mp hresolve
  obtain ⟨row, howned, hstatus, -, hfind, -⟩ := commits_replaceSecret hreplace
  have hrow := (ownedSecret_eq_some.mp howned).1
  refine h.give (hversion ▸ hfile) ?_ (find_id hrow) hfind fun _ hopens => hopens
  intro hrevoked
  obtain ⟨other, hother, hgone⟩ := h.revoked _ hrevoked
  rw [hrow] at hother
  exact hstatus (Option.some.inj hother ▸ hgone)

theorem SecretsKept.setStatus {status : SecretStatus}
    (hcommits : (setSecretStatus ownerUserId secretId status now).Commits system.db secret db') :
    SecretsKept cipher keyFiles ⟨db', system.history.setStatus secretId status⟩ := by
  obtain ⟨row, howned, hterminal, -, hfind, -⟩ := commits_setSecretStatus hcommits
  have hrow := (ownedSecret_eq_some.mp howned).1
  have hgiven : (system.history.setStatus secretId status).given = system.history.given := by
    unfold SecretHistory.setStatus
    split <;> rfl
  have hstatusAfter : (row.withStatus status now).status = status := by
    unfold SecretRecord.withStatus
    split <;> rfl
  constructor
  · intro id other hother hstatus
    simp only [hgiven]
    rw [hfind id] at hother
    by_cases hid : id = secretId
    · rw [if_pos hid] at hother
      obtain rfl := Option.some.inj hother
      rw [hstatusAfter] at hstatus
      have hbefore : row.status ≠ .revoked := fun hgone => hstatus (hterminal hgone)
      obtain ⟨value, masterKey, hvalue, hfile, hopens⟩ := h.opens _ row hrow hbefore
      refine ⟨value, masterKey, ?_, ?_, (decrypt_withStatus hstatus masterKey).trans hopens⟩
      · rwa [SecretRecord.withStatus, if_neg hstatus]
      · rwa [SecretRecord.withStatus, if_neg hstatus]
    · rw [if_neg hid] at hother
      exact h.opens id other hother hstatus
  · intro id hrevoked
    rw [hfind id]
    by_cases hid : id = secretId
    · rw [if_pos hid]
      refine ⟨_, rfl, ?_⟩
      rw [hstatusAfter]
      by_contra hstatus
      rw [SecretHistory.setStatus, if_neg hstatus, hid] at hrevoked
      obtain ⟨old, hold, hgone⟩ := h.revoked _ hrevoked
      rw [hrow] at hold
      exact hstatus (hterminal (Option.some.inj hold ▸ hgone))
    · rw [if_neg hid]
      apply h.revoked
      unfold SecretHistory.setStatus at hrevoked
      split at hrevoked
      · exact (List.mem_cons.mp hrevoked).resolve_left hid
      · exact hrevoked

theorem SecretsKept.delete {value : Unit}
    (hcommits : (deleteSecret ownerUserId secretId).Commits system.db value db') :
    SecretsKept cipher keyFiles ⟨db', system.history.delete secretId⟩ := by
  obtain ⟨-, -, hfind, -⟩ := commits_deleteSecret hcommits
  constructor
  · intro id secret hsecret hstatus
    rw [hfind id] at hsecret
    by_cases hid : id = secretId
    · rw [if_pos hid] at hsecret
      cases hsecret
    · rw [if_neg hid] at hsecret
      exact h.opens id secret hsecret hstatus
  · intro id hrevoked
    obtain ⟨hbefore, hid⟩ := List.mem_filter.mp hrevoked
    rw [hfind id, if_neg (of_decide_eq_true hid)]
    exact h.revoked id hbefore

end

variable {nonces : Nat → Nonce} {keyVersion limit count : Nat}

theorem find_reencryptBatch {resolveKey : Nat → Except SecretError MasterKey}
    (h : (reencryptBatch cipher keyVersion masterKey resolveKey limit nonces now).Commits
      db count db') (id : Nat) :
    db'.1.secrets.find id = db.1.secrets.find id ∨
      ∃ row plaintext oldKey, db.1.secrets.find id = some row ∧ row.Stale keyVersion ∧
        resolveKey row.keyVersion = .ok oldKey ∧ row.decrypt cipher oldKey = some plaintext ∧
        db'.1.secrets.find id =
          some (row.reencrypted cipher keyVersion masterKey nonces now plaintext) := by
  obtain ⟨-, hdone, hothers, -⟩ := commits_reencryptBatch h
  by_cases hbatch : ∃ row ∈ db.1.batch keyVersion limit, row.id = id
  · obtain ⟨row, hrow, rfl⟩ := hbatch
    obtain ⟨hfind, hstale⟩ := mem_batch hrow
    obtain ⟨plaintext, oldKey, hresolve, hplaintext, hafter⟩ := hdone row hrow
    exact Or.inr ⟨row, plaintext, oldKey, hfind, hstale, hresolve, hplaintext, hafter⟩
  · exact Or.inl (hothers id fun row hrow hid => hbatch ⟨row, hrow, hid⟩)

theorem commits_managerReencrypt {limit count : Nat} :
    (SecretManager.reencryptBatch cipher keyFiles resolver limit nonces now).Commits db count
      db' ↔
      (1 ≤ limit ∧ limit ≤ 1000) ∧ ∃ masterKey, keyFiles resolver.keyVersion = some masterKey ∧
        (reencryptBatch cipher resolver.keyVersion masterKey (resolveVersion keyFiles) limit
          nonces now).Commits db count db' := by
  simp only [SecretManager.reencryptBatch, Tx.commits_bind, Tx.commits_require,
    Tx.commits_ofExcept]
  constructor
  · rintro ⟨_, _, ⟨hlimit, rfl⟩, ⟨version, masterKey⟩, _, ⟨hresolve, rfl⟩, hbatch⟩
    obtain ⟨rfl, hfile⟩ := (resolve_eq_ok keyFiles).mp hresolve
    exact ⟨hlimit, masterKey, hfile, hbatch⟩
  · rintro ⟨hlimit, masterKey, hfile, hbatch⟩
    exact ⟨(), db, ⟨hlimit, rfl⟩, (resolver.keyVersion, masterKey), db,
      ⟨(resolve_eq_ok keyFiles).mpr ⟨rfl, hfile⟩, rfl⟩, hbatch⟩

theorem SecretsKept.reencryptBatch (h : SecretsKept cipher keyFiles system)
    (hfile : keyFiles keyVersion = some masterKey)
    (hcommits : (NervOS.reencryptBatch cipher keyVersion masterKey (resolveVersion keyFiles)
      limit nonces now).Commits system.db count db') :
    SecretsKept cipher keyFiles ⟨db', system.history⟩ := by
  constructor
  · intro id secret hsecret hstatus
    rcases find_reencryptBatch hcommits id with hsame |
      ⟨row, plaintext, oldKey, hrow, hstale, hresolve, hplaintext, hafter⟩
    · rw [hsame] at hsecret
      exact h.opens id secret hsecret hstatus
    · rw [hafter] at hsecret
      obtain rfl := Option.some.inj hsecret
      obtain ⟨value, masterKey', hvalue, hfile', hopens⟩ := h.opens id row hrow hstale.2
      have hold := ((resolveVersion_eq_ok keyFiles).mp hresolve).2
      rw [hold] at hfile'
      obtain rfl := Option.some.inj hfile'
      rw [hplaintext] at hopens
      obtain rfl := Option.some.inj hopens
      exact ⟨plaintext, masterKey, hvalue, hfile,
        decrypt_reseal row keyVersion masterKey (nonces row.id) plaintext⟩
  · intro id hrevoked
    obtain ⟨secret, hsecret, hgone⟩ := h.revoked id hrevoked
    rcases find_reencryptBatch hcommits id with hsame | ⟨row, _, _, hrow, hstale, -⟩
    · exact ⟨secret, hsame.trans hsecret, hgone⟩
    · rw [hsecret] at hrow
      exact absurd (Option.some.inj hrow ▸ hgone) hstale.2

end Steps

theorem SecretsKept.step (op : SecretOp) (h : SecretsKept cipher keyFiles system) :
    SecretsKept cipher keyFiles (system.step cipher keyFiles op) := by
  cases op with
  | create =>
    rw [SecretSystem.step]
    exact SecretSystem.commit_invariant h fun _ _ hcommits => h.create hcommits
  | replace =>
    rw [SecretSystem.step]
    exact SecretSystem.commit_invariant h fun _ _ hcommits => h.replace hcommits
  | setStatus =>
    rw [SecretSystem.step]
    exact SecretSystem.commit_invariant h fun _ _ hcommits => h.setStatus hcommits
  | delete =>
    rw [SecretSystem.step]
    exact SecretSystem.commit_invariant h fun _ _ hcommits => h.delete hcommits
  | rotateActiveKey =>
    rw [SecretSystem.step]
    exact SecretSystem.commit_invariant h fun _ _ hcommits =>
      h.of_sameSecrets (commits_rotateActiveKey hcommits).2 rfl rfl
  | reencryptBatch =>
    rw [SecretSystem.step]
    refine SecretSystem.commit_invariant h fun count db' hcommits => ?_
    obtain ⟨-, masterKey, hfile, hbatch⟩ := commits_managerReencrypt.mp hcommits
    exact h.reencryptBatch hfile hbatch
  | retireKeyVersion =>
    rw [SecretSystem.step]
    exact SecretSystem.commit_invariant h fun _ _ hcommits =>
      h.of_sameSecrets (commits_retireKeyVersion hcommits).2 rfl rfl
  | account op =>
    obtain ⟨hsecrets, hhistory⟩ := stepAccount_sameSecrets op system
    rw [SecretSystem.step]
    exact h.of_sameSecrets hsecrets (congrArg _ hhistory) (congrArg _ hhistory)

/-- The process whose key version an operation writes under. -/
def SecretOp.sealer : SecretOp → Option MasterKeyResolver
  | .create resolver .. | .replace resolver .. | .reencryptBatch resolver .. => some resolver
  | .setStatus .. | .delete .. | .rotateActiveKey .. | .retireKeyVersion .. | .account _ => none

/-- The operation is one that seals some value in `db`: its arguments are accepted and there
is something to seal. -/
def SecretOp.Seals (db : SecretTables γ) : SecretOp → Prop
  | .create _ ownerUserId name value _ _ _ =>
    (validateSecretName name).isOk = true ∧ ValueLength value ∧
      ∀ other ∈ db.secrets.rows, ¬ (other.ownerUserId = ownerUserId ∧ other.name = name)
  | .replace _ ownerUserId secretId value _ _ =>
    ValueLength value ∧ ∃ row ∈ db.ownedSecret ownerUserId secretId, row.status ≠ .revoked
  | .reencryptBatch resolver limit _ _ =>
    (1 ≤ limit ∧ limit ≤ 1000) ∧ ∃ row ∈ db.secrets.rows, row.Stale resolver.keyVersion
  | .setStatus .. | .delete .. | .rotateActiveKey .. | .retireKeyVersion .. | .account _ => False

/-- The operation sealed a value under the version of `secret'`. -/
def SecretOp.Sealed (keyFiles : Nat → Option MasterKey) (system : SecretSystem γ)
    (op : SecretOp) (secret' : SecretRecord γ) : Prop :=
  ∃ resolver, op.sealer = some resolver ∧ op.Seals system.db.1 ∧
    (keyFiles resolver.keyVersion).isSome = true ∧ secret'.keyVersion = resolver.keyVersion

/-- A value that was not revoked stood there under the version of `secret'`. -/
def SecretSystem.Stood (system : SecretSystem γ) (id : Nat) (secret' : SecretRecord γ) : Prop :=
  ∃ secret, system.db.1.secrets.find id = some secret ∧ secret.status ≠ .revoked ∧
    secret'.keyVersion = secret.keyVersion

theorem SecretSystem.step_written (op : SecretOp) {id : Nat} {secret' : SecretRecord γ}
    (hfind : (system.step cipher keyFiles op).db.1.secrets.find id = some secret')
    (hstatus : secret'.status ≠ .revoked) :
    op.Sealed keyFiles system secret' ∨ system.Stood id secret' := by
  have hsame : ∀ {db' : SecretDatabase γ}, db'.1.secrets.find id = some secret' →
      db'.1.secrets.find id = system.db.1.secrets.find id → system.Stood id secret' :=
    fun hafter heq => ⟨secret', heq ▸ hafter, hstatus, rfl⟩
  have hcommit : ∀ {α : Type} (x : SecretConnection γ α) record, (∀ value db',
      x.Commits system.db value db' → db'.1.secrets.find id = some secret' →
      op.Sealed keyFiles system secret' ∨ system.Stood id secret') →
      (system.commit x record).db.1.secrets.find id = some secret' →
      op.Sealed keyFiles system secret' ∨ system.Stood id secret' :=
    fun x record hx => commit_invariant (I := fun after : SecretSystem γ =>
      after.db.1.secrets.find id = some secret' → _) (fun hbefore => Or.inr (hsame hbefore rfl)) hx
  revert hfind
  cases op with
  | create resolver ownerUserId name value providerHint nonce now =>
    rw [SecretSystem.step]
    refine hcommit _ _ fun secret db' hcommits hfind => ?_
    simp only [SecretManager.create, Tx.commits_bind, Tx.commits_ofExcept] at hcommits
    obtain ⟨_, _, ⟨hname, rfl⟩, resolved, _, ⟨hresolved, rfl⟩, hcreate⟩ := hcommits
    obtain ⟨hversion, hfile⟩ := (resolve_eq_ok keyFiles).mp hresolved
    obtain ⟨hlength, -, hfree, hafter, -⟩ := commits_createSecret hcreate
    by_cases hid : id = system.db.1.secrets.next
    · rw [hafter, if_pos hid] at hfind
      obtain rfl := Option.some.inj hfind
      refine Or.inl ⟨resolver, rfl, ⟨?_, hlength, ?_⟩, ?_, hversion⟩
      · rw [hname]
        rfl
      · rwa [validateSecretName_eq_ok hname] at hfree
      · rw [hfile]
        rfl
    · exact Or.inr (hsame hfind ((hafter id).trans (if_neg hid)))
  | replace resolver ownerUserId secretId value nonce now =>
    rw [SecretSystem.step]
    refine hcommit _ _ fun secret db' hcommits hfind => ?_
    obtain ⟨resolved, _, hresolved, hreplace⟩ := Tx.commits_bind.mp hcommits
    obtain ⟨hresolve, rfl⟩ := Tx.commits_ofExcept.mp hresolved
    obtain ⟨hversion, hfile⟩ := (resolve_eq_ok keyFiles).mp hresolve
    obtain ⟨row, howned, hunrevoked, hlength, hafter, -⟩ := commits_replaceSecret hreplace
    by_cases hid : id = secretId
    · rw [hafter, if_pos hid] at hfind
      obtain rfl := Option.some.inj hfind
      refine Or.inl ⟨resolver, rfl, ⟨hlength, row, howned, hunrevoked⟩, ?_, hversion⟩
      rw [hfile]
      rfl
    · exact Or.inr (hsame hfind ((hafter id).trans (if_neg hid)))
  | setStatus ownerUserId secretId status now =>
    rw [SecretSystem.step]
    refine hcommit _ _ fun secret db' hcommits hfind => ?_
    obtain ⟨row, howned, hterminal, -, hafter, -⟩ := commits_setSecretStatus hcommits
    by_cases hid : id = secretId
    · rw [hafter, if_pos hid] at hfind
      obtain rfl := Option.some.inj hfind
      refine Or.inr ⟨row, hid ▸ (ownedSecret_eq_some.mp howned).1, ?_, ?_⟩
      · intro hgone
        apply hstatus
        rw [SecretRecord.withStatus, if_pos (hterminal hgone)]
        exact hterminal hgone
      · unfold SecretRecord.withStatus
        split <;> rfl
    · exact Or.inr (hsame hfind ((hafter id).trans (if_neg hid)))
  | delete ownerUserId secretId =>
    rw [SecretSystem.step]
    refine hcommit _ _ fun value db' hcommits hfind => ?_
    obtain ⟨-, -, hafter, -⟩ := commits_deleteSecret hcommits
    by_cases hid : id = secretId
    · rw [hafter, if_pos hid] at hfind
      cases hfind
    · exact Or.inr (hsame hfind ((hafter id).trans (if_neg hid)))
  | rotateActiveKey resolver now =>
    rw [SecretSystem.step]
    refine hcommit _ _ fun value db' hcommits hfind => ?_
    refine Or.inr (hsame hfind ?_)
    rw [(commits_rotateActiveKey hcommits).2]
  | reencryptBatch resolver limit nonces now =>
    rw [SecretSystem.step]
    refine hcommit _ _ fun count db' hcommits hfind => ?_
    obtain ⟨hlimit, masterKey, hfile, hbatch⟩ := commits_managerReencrypt.mp hcommits
    rcases find_reencryptBatch hbatch id with heq | ⟨row, _, _, hrow, hstale, -, -, hafter⟩
    · exact Or.inr (hsame hfind heq)
    · rw [hafter] at hfind
      obtain rfl := Option.some.inj hfind
      refine Or.inl ⟨resolver, rfl, ⟨hlimit, row, ?_, hstale⟩, ?_, rfl⟩
      · exact (Table.find_eq_some.mp hrow).1
      · rw [hfile]
        rfl
  | retireKeyVersion resolver version =>
    rw [SecretSystem.step]
    refine hcommit _ _ fun value db' hcommits hfind => ?_
    refine Or.inr (hsame hfind ?_)
    rw [(commits_retireKeyVersion hcommits).2]
  | account op =>
    rw [SecretSystem.step]
    intro hfind
    refine Or.inr (hsame hfind ?_)
    rw [(stepAccount_sameSecrets op system).1]

theorem secretsKept_init : SecretsKept cipher keyFiles (.init : SecretSystem γ) := by
  constructor
  · intro id secret hfind
    cases hfind
  · intro id hid
    cases hid

theorem secretsKept_of_reachable (h : (secretEngine cipher keyFiles).Reachable system) :
    SecretsKept cipher keyFiles system :=
  h.invariant secretsKept_init fun _ op hkept => hkept.step op

end NervOS
