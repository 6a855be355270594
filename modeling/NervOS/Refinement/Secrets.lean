/-
What each operation on the secret store writes, secret by secret.
-/
import NervOS.SecretEngine

namespace NervOS

open Relational Cryptography

variable {γ : Type} {cipher : SecretCipher γ} {keyFiles : Nat → Option MasterKey}
  {db db' : SecretDatabase γ}

section Reading

variable {secret : SecretRecord γ}

theorem ownedSecret_eq_some {ownerUserId secretId : Nat} :
    db.1.ownedSecret ownerUserId secretId = some secret ↔
      db.1.secrets.find secretId = some secret ∧ secret.ownerUserId = ownerUserId := by
  simp only [SecretTables.ownedSecret, Option.filter_eq_some_iff, decide_eq_true_eq]

theorem commits_readSecret {secretId : Nat} :
    (readSecret secretId).Commits db secret db' ↔
      db.1.secrets.find secretId = some secret ∧ db' = db := by
  simp only [readSecret, Tx.commits_bind, Tx.commits_query, Tx.commits_found]
  constructor
  · rintro ⟨_, _, ⟨rfl, rfl⟩, hfound, rfl⟩
    exact ⟨hfound, rfl⟩
  · rintro ⟨hfound, rfl⟩
    exact ⟨_, _, ⟨rfl, rfl⟩, hfound, rfl⟩

theorem decrypt_reseal (secret : SecretRecord γ) (keyVersion : Nat) (masterKey : MasterKey)
    (nonce : Nonce) (plaintext : String) :
    (secret.reseal cipher keyVersion masterKey nonce plaintext).decrypt cipher masterKey =
      some plaintext :=
  cipher.opens masterKey nonce plaintext _

theorem decrypt_withStatus {status : SecretStatus} {now : Instant} (hstatus : status ≠ .revoked)
    (masterKey : MasterKey) :
    (secret.withStatus status now).decrypt cipher masterKey =
      secret.decrypt cipher masterKey := by
  rw [SecretRecord.withStatus, if_neg hstatus]
  rfl

theorem decrypt_of_isEmpty (hempty : secret.ciphertext.IsEmpty) (masterKey : MasterKey) :
    secret.decrypt cipher masterKey = none := by
  unfold SecretRecord.decrypt
  cases hciphertext : secret.ciphertext with
  | destroyed => cases secret.nonce <;> rfl
  | placeholder | sealed => rw [hciphertext] at hempty; cases hempty

end Reading

section Writing

/-- The tables beside the secrets are as they were. -/
structure OnlySecrets (db db' : SecretDatabase γ) : Prop where
  keyVersions : db'.1.keyVersions = db.1.keyVersions
  accountConnections : db'.1.accountConnections = db.1.accountConnections

theorem OnlySecrets.refl (db : SecretDatabase γ) : OnlySecrets db db :=
  ⟨rfl, rfl⟩

theorem OnlySecrets.trans {db'' : SecretDatabase γ} (h : OnlySecrets db db')
    (h' : OnlySecrets db' db'') : OnlySecrets db db'' :=
  ⟨h'.1.trans h.1, h'.2.trans h.2⟩

theorem onlySecrets_of_setTable {t : Table (SecretRecord γ)} (h : db'.1 = setTable t db.1) :
    OnlySecrets db db' := by
  constructor <;> rw [h] <;> rfl

variable {secretId : Nat} {f : SecretRecord γ → SecretRecord γ}

theorem updates_secret
    (h : Tx.Updates (fun secret : SecretRecord γ => secret.id = secretId) f db db')
    (hkey : ∀ secret : SecretRecord γ, (f secret).id = secret.id) (id : Nat) :
    db'.1.secrets.find id =
      if id = secretId then (db.1.secrets.find id).map f else db.1.secrets.find id := by
  have hfind := h.find hkey id
  rw [table_secret, table_secret] at hfind
  rw [hfind]
  cases hold : db.1.secrets.find id with
  | none => simp
  | some secret =>
    have hid : secret.id = id := (Table.find_eq_some.mp hold).2
    by_cases hsame : id = secretId
    · have hp : secret.id = secretId := hid.trans hsame
      rw [if_pos hsame, Option.map_some, Option.map_some, Table.amend, if_pos hp]
    · have hp : ¬ secret.id = secretId := by rwa [hid]
      rw [if_neg hsame, Option.map_some, Table.amend, if_neg hp]

theorem updates_onlySecrets {p : SecretRecord γ → Prop} [DecidablePred p]
    (h : Tx.Updates p f db db') : OnlySecrets db db' := by
  obtain ⟨t', -, hdb'⟩ := h
  exact onlySecrets_of_setTable hdb'

end Writing

section Operations

variable {ownerUserId secretId keyVersion : Nat} {name plaintext : String}
  {providerHint : Option String} {masterKey : MasterKey} {nonce : Nonce} {now : Instant}
  {secret : SecretMetadata}

theorem commits_createSecret
    (h : (createSecret cipher ownerUserId name plaintext providerHint keyVersion masterKey nonce
      now).Commits db secret db') :
    ValueLength plaintext ∧ secret.id = db.1.secrets.next ∧
      (∀ other ∈ db.1.secrets.rows, ¬ (other.ownerUserId = ownerUserId ∧ other.name = name)) ∧
      (∀ id, db'.1.secrets.find id = if id = db.1.secrets.next then
        some ((newSecret ownerUserId name providerHint keyVersion now
          db.1.secrets.next).reseal cipher keyVersion masterKey nonce plaintext)
        else db.1.secrets.find id) ∧ OnlySecrets db db' := by
  simp only [createSecret, Tx.commits_bind, Tx.commits_require, Tx.commits_insert,
    Tx.commits_update, commits_readSecret, Tx.commits_pure] at h
  obtain ⟨_, db, ⟨hlength, rfl⟩, _, inserted, ⟨rfl, hinserts⟩, _, written, ⟨-, hupdates⟩, row, _,
    ⟨hrow, rfl⟩, rfl, rfl⟩ := h
  have hfound := hinserts.find (fun _ => rfl)
  have hmoved := updates_secret hupdates fun _ => rfl
  obtain ⟨t', ht', hdb'⟩ := hinserts
  refine ⟨hlength, (Table.find_eq_some.mp hrow).2, Table.insert?_not_clash ht', ?_,
    (onlySecrets_of_setTable hdb').trans (updates_onlySecrets hupdates)⟩
  intro id
  simp only [table_secret] at hfound hmoved
  rw [hmoved id, hfound id]
  by_cases hid : id = db.1.secrets.next
  · rw [if_pos hid, if_pos hid, Option.map_some, if_pos hid]
  · rw [if_neg hid, if_neg hid, if_neg hid]

theorem commits_replaceSecret
    (h : (replaceSecret cipher ownerUserId secretId plaintext keyVersion masterKey nonce
      now).Commits db secret db') :
    ∃ row, db.1.ownedSecret ownerUserId secretId = some row ∧ row.status ≠ .revoked ∧
      ValueLength plaintext ∧
      (∀ id, db'.1.secrets.find id = if id = secretId then
        some { row.reseal cipher keyVersion masterKey nonce plaintext with
          rotationCount := row.rotationCount + 1
          updatedAt := now }
        else db.1.secrets.find id) ∧ OnlySecrets db db' := by
  simp only [replaceSecret, Tx.commits_bind, Tx.commits_require, Tx.commits_query,
    Tx.commits_found, Tx.commits_update, commits_readSecret, Tx.commits_pure] at h
  obtain ⟨_, _, ⟨hlength, rfl⟩, _, _, ⟨rfl, rfl⟩, row, _, ⟨hrow, rfl⟩, _, written,
    ⟨-, hupdates⟩, _, _, ⟨-, rfl⟩, -, rfl⟩ := h
  rw [Option.filter_eq_some_iff, decide_eq_true_eq] at hrow
  refine ⟨row, hrow.1, hrow.2, hlength, ?_, updates_onlySecrets hupdates⟩
  intro id
  rw [updates_secret hupdates (fun _ => rfl) id]
  by_cases hid : id = secretId
  · rw [if_pos hid, if_pos hid, hid, (ownedSecret_eq_some.mp hrow.1).1, Option.map_some]
  · rw [if_neg hid, if_neg hid]

theorem commits_setSecretStatus {status : SecretStatus}
    (h : (setSecretStatus ownerUserId secretId status now).Commits db secret db') :
    ∃ row, db.1.ownedSecret ownerUserId secretId = some row ∧
      (row.status = .revoked → status = .revoked) ∧
      (status ≠ .active → ¬ db.1.Referenced secretId) ∧
      (∀ id, db'.1.secrets.find id = if id = secretId then some (row.withStatus status now)
        else db.1.secrets.find id) ∧ OnlySecrets db db' := by
  simp only [setSecretStatus, Tx.commits_bind, Tx.commits_require, Tx.commits_query,
    Tx.commits_found, Tx.commits_update, commits_readSecret, Tx.commits_pure] at h
  obtain ⟨_, _, ⟨rfl, rfl⟩, row, _, ⟨hrow, rfl⟩, _, _, ⟨hterminal, rfl⟩, _, _, ⟨rfl, rfl⟩, _, _,
    ⟨hreferenced, rfl⟩, _, written, ⟨-, hupdates⟩, _, _, ⟨-, rfl⟩, -, rfl⟩ := h
  have hkey : ∀ secret : SecretRecord γ, (secret.withStatus status now).id = secret.id := by
    intro secret
    unfold SecretRecord.withStatus
    split <;> rfl
  refine ⟨row, hrow, ?_, ?_, ?_, updates_onlySecrets hupdates⟩
  · intro hrevoked
    by_contra hstatus
    exact hterminal ⟨hrevoked, hstatus⟩
  · intro hstatus hnamed
    exact hreferenced ⟨decide_eq_true hnamed, hstatus⟩
  · intro id
    rw [updates_secret hupdates hkey id]
    by_cases hid : id = secretId
    · rw [if_pos hid, if_pos hid, hid, (ownedSecret_eq_some.mp hrow).1, Option.map_some]
    · rw [if_neg hid, if_neg hid]

theorem commits_deleteSecret {value : Unit}
    (h : (deleteSecret ownerUserId secretId).Commits db value db') :
    (∃ row, db.1.ownedSecret ownerUserId secretId = some row) ∧
      ¬ db.1.Referenced secretId ∧
      (∀ id, db'.1.secrets.find id = if id = secretId then none else db.1.secrets.find id) ∧
      OnlySecrets db db' := by
  simp only [deleteSecret, Tx.commits_bind, Tx.commits_require, Tx.commits_query,
    Tx.commits_vacate] at h
  obtain ⟨_, _, ⟨rfl, rfl⟩, _, db, ⟨hreferenced, rfl⟩, count, _, ⟨hcount, hdb'⟩, hfound, rfl⟩ := h
  obtain ⟨row, hrow, howned⟩ := List.countP_pos_iff.mp
    (Nat.pos_of_ne_zero (hcount ▸ hfound))
  have howned : row.id = secretId ∧ row.ownerUserId = ownerUserId := of_decide_eq_true howned
  refine ⟨⟨row, ownedSecret_eq_some.mpr
    ⟨Table.find_eq_some.mpr ⟨hrow, howned.1⟩, howned.2⟩⟩,
    of_decide_eq_false hreferenced, ?_, onlySecrets_of_setTable hdb'⟩
  intro id
  ext secret
  have hmem : secret ∈ db'.1.secrets.rows ↔ secret ∈ db.1.secrets.rows ∧
      ¬ (secret.id = secretId ∧ secret.ownerUserId = ownerUserId) := by
    rw [hdb']
    exact Table.mem_vacate
  by_cases hid : id = secretId
  · rw [if_pos hid]
    simp only [Table.find_eq_some, hmem, reduceCtorEq, iff_false]
    rintro ⟨⟨hsecret, hother⟩, hkey⟩
    have hsame : secret = row :=
      Table.eq_of_key_eq hsecret hrow (hkey.trans (hid.trans howned.1.symm))
    exact hother (hsame ▸ howned)
  · rw [if_neg hid]
    simp only [Table.find_eq_some, hmem]
    constructor
    · rintro ⟨⟨hsecret, -⟩, hkey⟩
      exact ⟨hsecret, hkey⟩
    · rintro ⟨hsecret, hkey⟩
      exact ⟨⟨hsecret, fun howner => hid (hkey.symm.trans howner.1)⟩, hkey⟩

end Operations

section Maintenance

variable {keyVersion limit : Nat} {masterKey : MasterKey}
  {resolveKey : Nat → Except SecretError MasterKey} {nonces : Nat → Nonce} {now : Instant}
  {rows : List (SecretRecord γ)} {row : SecretRecord γ}

theorem authenticate_eq_ok {plaintext : String} :
    row.authenticate cipher resolveKey = .ok plaintext ↔
      ∃ oldKey, resolveKey row.keyVersion = .ok oldKey ∧
        row.decrypt cipher oldKey = some plaintext := by
  unfold SecretRecord.authenticate
  cases hresolve : resolveKey row.keyVersion with
  | error error => simp
  | ok oldKey => simp [Tx.elim_eq_ok]

/-- A row of the store that `db` holds was opened and sealed again in `db'`. -/
def Reencrypted (cipher : SecretCipher γ) (keyVersion : Nat) (masterKey : MasterKey)
    (resolveKey : Nat → Except SecretError MasterKey) (nonces : Nat → Nonce) (now : Instant)
    (db' : SecretDatabase γ) (row : SecretRecord γ) : Prop :=
  ∃ plaintext oldKey, resolveKey row.keyVersion = .ok oldKey ∧
    row.decrypt cipher oldKey = some plaintext ∧
    db'.1.secrets.find row.id =
      some (row.reencrypted cipher keyVersion masterKey nonces now plaintext)

theorem commits_reencryptSecret {value : Unit} (hrow : db.1.secrets.find row.id = some row)
    (h : (reencryptSecret cipher keyVersion masterKey resolveKey nonces now row).Commits
      db value db') :
    Reencrypted cipher keyVersion masterKey resolveKey nonces now db' row ∧
      (∀ id ≠ row.id, db'.1.secrets.find id = db.1.secrets.find id) ∧ OnlySecrets db db' := by
  simp only [reencryptSecret, Tx.commits_bind, Tx.commits_ofExcept, authenticate_eq_ok,
    Tx.commits_update, Tx.commits_pure] at h
  obtain ⟨plaintext, _, ⟨⟨oldKey, hresolve, hplaintext⟩, rfl⟩, _, written, ⟨-, hupdates⟩, -,
    rfl⟩ := h
  have hmoved := updates_secret hupdates fun _ => rfl
  refine ⟨⟨plaintext, oldKey, hresolve, hplaintext, ?_⟩, ?_, updates_onlySecrets hupdates⟩
  · rw [hmoved, if_pos rfl, hrow]
    rfl
  · intro id hid
    rw [hmoved, if_neg hid]

theorem commits_reencryptSecrets {value : Unit}
    (hrows : ∀ row ∈ rows, db.1.secrets.find row.id = some row)
    (hdistinct : (rows.map SecretRecord.id).Nodup)
    (h : (reencryptSecrets cipher keyVersion masterKey resolveKey nonces now rows).Commits
      db value db') :
    (∀ row ∈ rows, Reencrypted cipher keyVersion masterKey resolveKey nonces now db' row) ∧
      (∀ id, (∀ row ∈ rows, row.id ≠ id) → db'.1.secrets.find id = db.1.secrets.find id) ∧
      OnlySecrets db db' := by
  induction rows generalizing db with
  | nil =>
    obtain ⟨-, rfl⟩ := Tx.commits_pure.mp h
    exact ⟨by simp, fun _ _ => rfl, .refl db'⟩
  | cons head rest ih =>
    obtain ⟨_, middle, hhead, hrest⟩ := Tx.commits_bind.mp h
    obtain ⟨hdone, hothers, honly⟩ :=
      commits_reencryptSecret (hrows head List.mem_cons_self) hhead
    rw [List.map_cons, List.nodup_cons, List.mem_map, not_exists] at hdistinct
    have hne : ∀ row ∈ rest, row.id ≠ head.id := fun row hrow hid =>
      hdistinct.1 row ⟨hrow, hid⟩
    have hrestRows : ∀ row ∈ rest, middle.1.secrets.find row.id = some row := by
      intro row hrow
      rw [hothers row.id (hne row hrow)]
      exact hrows row (List.mem_cons_of_mem _ hrow)
    obtain ⟨hrestDone, hrestOthers, hrestOnly⟩ := ih hrestRows hdistinct.2 hrest
    refine ⟨?_, ?_, honly.trans hrestOnly⟩
    · intro row hrow
      rcases List.mem_cons.mp hrow with rfl | hrow
      · obtain ⟨plaintext, oldKey, hresolve, hplaintext, hfind⟩ := hdone
        refine ⟨plaintext, oldKey, hresolve, hplaintext, ?_⟩
        rw [hrestOthers row.id hne, hfind]
      · exact hrestDone row hrow
    · intro id hid
      rw [hrestOthers id fun row hrow => hid row (List.mem_cons_of_mem _ hrow),
        hothers id (hid head List.mem_cons_self).symm]

theorem mem_batch (hrow : row ∈ db.1.batch keyVersion limit) :
    db.1.secrets.find row.id = some row ∧ row.Stale keyVersion := by
  have hfilter := List.mem_of_mem_take hrow
  obtain ⟨hmem, hstale⟩ := List.mem_filter.mp hfilter
  exact ⟨Table.find_key hmem, of_decide_eq_true hstale⟩

theorem batch_distinct : ((db.1.batch keyVersion limit).map SecretRecord.id).Nodup := by
  have hall : (db.1.secrets.rows.map SecretRecord.id).Nodup := by
    rw [List.nodup_iff_pairwise_ne, List.pairwise_map]
    exact db.1.secrets.lawful.ascending.imp fun hlt => Nat.ne_of_lt hlt
  refine hall.sublist (List.Sublist.map _ ?_)
  exact (List.take_sublist _ _).trans List.filter_sublist

theorem commits_reencryptBatch {count : Nat}
    (h : (reencryptBatch cipher keyVersion masterKey resolveKey limit nonces now).Commits
      db count db') :
    count = (db.1.batch keyVersion limit).length ∧
      (∀ row ∈ db.1.batch keyVersion limit,
        Reencrypted cipher keyVersion masterKey resolveKey nonces now db' row) ∧
      (∀ id, (∀ row ∈ db.1.batch keyVersion limit, row.id ≠ id) →
        db'.1.secrets.find id = db.1.secrets.find id) ∧ OnlySecrets db db' := by
  simp only [reencryptBatch, Tx.commits_bind, Tx.commits_query, Tx.commits_pure] at h
  obtain ⟨_, _, ⟨rfl, rfl⟩, _, _, hloop, rfl, rfl⟩ := h
  exact ⟨rfl, commits_reencryptSecrets (fun row hrow => (mem_batch hrow).1) batch_distinct hloop⟩

theorem reencryptSecrets_succeeds (hpositive : 1 ≤ keyVersion)
    (hrows : ∀ row ∈ rows, db.1.secrets.find row.id = some row)
    (hdistinct : (rows.map SecretRecord.id).Nodup)
    (hopen : ∀ row ∈ rows, row.status ≠ .revoked ∧
      ∃ plaintext, row.authenticate cipher resolveKey = .ok plaintext) :
    ∃ db', (reencryptSecrets cipher keyVersion masterKey resolveKey nonces now rows).Commits
      db () db' := by
  induction rows generalizing db with
  | nil => exact ⟨db, Tx.commits_pure.mpr ⟨rfl, rfl⟩⟩
  | cons head rest ih =>
    obtain ⟨hstatus, plaintext, hplaintext⟩ := hopen head List.mem_cons_self
    have hhead := hrows head List.mem_cons_self
    obtain ⟨hmem, -⟩ := Table.find_eq_some.mp hhead
    have hold : head.Check := db.1.secrets.lawful.checked head hmem
    have hkept : ∀ t', db.1.secrets.update? (fun secret => secret.id = head.id)
        (fun secret => { secret.reencrypted cipher keyVersion masterKey nonces now plaintext with
          rotationCount := head.rotationCount + 1 }) = some t' →
        ({ db.1 with secrets := t' } : SecretTables γ).References := by
      intro t' ht' connection hconnection
      have hfind := Table.find_update ht' (fun _ => rfl) connection.secretId
      rw [hfind, Option.isSome_map]
      exact db.2 connection hconnection
    obtain ⟨middle, -, hupdates⟩ : ∃ middle : SecretDatabase γ, _ ∧ Tx.Updates
        (fun secret : SecretRecord γ => secret.id = head.id)
        (fun secret => { secret.reencrypted cipher keyVersion masterKey nonces now plaintext with
          rotationCount := head.rotationCount + 1 }) db middle :=
      Tx.exists_updates hmem rfl (fun _ hid => hid) rfl
        ⟨hold.nameBound, hpositive, iff_of_false hstatus id⟩ (fun _ _ => ⟨id, id⟩) hkept
    have hstep : (reencryptSecret cipher keyVersion masterKey resolveKey nonces now
        head).Commits db () middle := by
      simp only [reencryptSecret, Tx.commits_bind, Tx.commits_ofExcept, Tx.commits_update,
        Tx.commits_pure]
      exact ⟨plaintext, db, ⟨hplaintext, rfl⟩, _, middle, ⟨rfl, hupdates⟩, trivial, rfl⟩
    obtain ⟨-, hothers, -⟩ := commits_reencryptSecret hhead hstep
    rw [List.map_cons, List.nodup_cons, List.mem_map, not_exists] at hdistinct
    have hrestRows : ∀ row ∈ rest, middle.1.secrets.find row.id = some row := by
      intro row hrow
      rw [hothers row.id fun hid => hdistinct.1 row ⟨hrow, hid⟩]
      exact hrows row (List.mem_cons_of_mem _ hrow)
    obtain ⟨db', hrest⟩ := ih hrestRows hdistinct.2
      fun row hrow => hopen row (List.mem_cons_of_mem _ hrow)
    exact ⟨db', Tx.commits_bind.mpr ⟨(), middle, hstep, hrest⟩⟩

end Maintenance

def SameSecrets (db db' : SecretTables γ) : Prop :=
  db'.secrets = db.secrets

instance : Std.Refl (SameSecrets (γ := γ)) :=
  ⟨fun _ => rfl⟩

instance : IsTrans (SecretTables γ) SameSecrets :=
  ⟨fun _ _ _ h h' => h'.trans h⟩

section Statements

variable {ρ : Type} [Record ρ] [HasTable (SecretTables γ) ρ] {p : ρ → Prop} [DecidablePred p]
  {f : ρ → ρ}
  (hframe : ∀ (t : Table ρ) (db : SecretTables γ), (setTable t db).secrets = db.secrets)
include hframe

theorem update_sameSecrets :
    Tx.Preserves SameSecrets (Tx.update p f : SecretConnection γ Nat) :=
  Tx.Preserves.update fun db t' _ => hframe t' db

theorem insert_sameSecrets {row : Nat → ρ} :
    Tx.Preserves SameSecrets (Tx.insert row : SecretConnection γ Nat) :=
  Tx.Preserves.insert fun db t' _ => hframe t' db

end Statements

variable {ownerUserId connectionId : Nat}

theorem readOwned_sameSecrets :
    Tx.Preserves SameSecrets
      (readOwned ownerUserId connectionId : SecretConnection γ AccountConnectionRecord) :=
  Tx.Preserves.query_bind fun _ => Tx.Preserves.ofExcept

theorem readOwnedView_sameSecrets :
    Tx.Preserves SameSecrets
      (readOwnedView ownerUserId connectionId : SecretConnection γ AccountConnectionRecord) :=
  Tx.Preserves.bind readOwned_sameSecrets fun _ => Tx.Preserves.ofExcept

theorem stepAccount_sameSecrets (op : AccountOp) (system : SecretSystem γ) :
    (SecretSystem.stepAccount op system).db.1.secrets = system.db.1.secrets ∧
      (SecretSystem.stepAccount op system).history = system.history := by
  have hcommit : ∀ {α : Type} (x : SecretConnection γ α), Tx.Preserves SameSecrets x →
      (system.commit x fun _ => id).db.1.secrets = system.db.1.secrets ∧
        (system.commit x fun _ => id).history = system.history := by
    intro α x hx
    rcases system.commit_cases x fun _ => id with ⟨value, db', hcommits, hstep⟩ | hstep
    · rw [hstep]
      exact ⟨hx _ _ _ hcommits, rfl⟩
    · rw [hstep]
      exact ⟨rfl, rfl⟩
  have hupdate : ∀ {p : AccountConnectionRecord → Prop} [DecidablePred p]
      {f : AccountConnectionRecord → AccountConnectionRecord},
      Tx.Preserves SameSecrets (Tx.update p f : SecretConnection γ Nat) :=
    update_sameSecrets fun _ _ => rfl
  cases op with
  | create =>
    apply hcommit
    refine Tx.Preserves.query_bind fun _ => Tx.Preserves.require_bind fun _ =>
      Tx.Preserves.query_bind fun _ => Tx.Preserves.require_bind fun _ => ?_
    exact Tx.Preserves.bind (insert_sameSecrets fun _ _ => rfl) fun _ =>
      readOwnedView_sameSecrets
  | setState | setExpiry =>
    apply hcommit
    exact Tx.Preserves.bind readOwned_sameSecrets fun _ =>
      Tx.Preserves.bind hupdate fun _ => readOwnedView_sameSecrets
  | claimRefresh =>
    apply hcommit
    refine Tx.Preserves.bind readOwned_sameSecrets fun _ => Tx.Preserves.ite ?_ ?_
    · exact Tx.Preserves.bind hupdate fun _ =>
        Tx.Preserves.bind readOwnedView_sameSecrets fun _ => Tx.Preserves.pure _
    · exact Tx.Preserves.pure _
  | finishRefresh =>
    apply hcommit
    refine Tx.Preserves.bind readOwned_sameSecrets fun _ =>
      Tx.Preserves.query_bind fun _ => Tx.Preserves.ite ?_ ?_
    · exact Tx.Preserves.bind hupdate fun _ => Tx.Preserves.pure _
    · exact Tx.Preserves.pure _
  | failRefresh =>
    apply hcommit
    exact Tx.Preserves.bind hupdate fun _ => Tx.Preserves.pure _
  | recordRevocation =>
    apply hcommit
    exact Tx.Preserves.bind readOwned_sameSecrets fun _ =>
      Tx.Preserves.bind hupdate fun _ => Tx.Preserves.pure _

variable {resolver : MasterKeyResolver} {keyVersion : Nat} {now : Instant}

theorem commits_rotateActiveKey {version : SecretKeyVersion}
    (h : (SecretManager.rotateActiveKey keyFiles resolver now).Commits db version db') :
    version.keyVersion = resolver.keyVersion ∧ db'.1.secrets = db.1.secrets := by
  obtain ⟨resolved, _, hresolved, hactivate⟩ := Tx.commits_bind.mp h
  obtain ⟨hresolve, rfl⟩ := Tx.commits_ofExcept.mp hresolved
  rw [← ((resolve_eq_ok keyFiles).mp hresolve).1]
  constructor
  · simp only [activateKeyVersion, Tx.commits_bind, Tx.commits_query, Tx.commits_found,
      Tx.commits_pure] at hactivate
    obtain ⟨_, _, -, _, _, -, _, _, ⟨rfl, rfl⟩, row, _, ⟨hrow, rfl⟩, rfl, -⟩ := hactivate
    have hversion := List.find?_some hrow
    rwa [decide_eq_true_eq] at hversion
  · have hmark : Tx.Preserves SameSecrets
        (markKeyVersion resolved.1 now : SecretConnection γ Unit) := by
      refine Tx.Preserves.query_bind fun _ => Tx.Preserves.ite ?_ ?_
      · exact Tx.Preserves.bind (update_sameSecrets fun _ _ => rfl) fun _ => Tx.Preserves.pure _
      · exact Tx.Preserves.bind (insert_sameSecrets fun _ _ => rfl) fun _ => Tx.Preserves.pure _
    have hframe : Tx.Preserves SameSecrets
        (activateKeyVersion resolved.1 now : SecretConnection γ SecretKeyVersion) :=
      Tx.Preserves.bind (update_sameSecrets fun _ _ => rfl) fun _ =>
        Tx.Preserves.bind hmark fun _ => Tx.Preserves.query_bind fun _ =>
          Tx.Preserves.ofExcept_bind fun _ => Tx.Preserves.pure _
    exact hframe _ _ _ hactivate

theorem commits_retireKeyVersion {value : Unit}
    (h : (SecretManager.retireKeyVersion keyFiles resolver keyVersion).Commits db value db') :
    (∀ secret ∈ db.1.secrets.rows, secret.status ≠ .revoked → secret.keyVersion ≠ keyVersion) ∧
      db'.1.secrets = db.1.secrets := by
  simp only [SecretManager.retireKeyVersion, retireKeyVersion, Tx.commits_bind,
    Tx.commits_ofExcept, Tx.commits_require, Tx.commits_query, Tx.commits_delete] at h
  obtain ⟨_, _, ⟨-, rfl⟩, _, _, ⟨-, rfl⟩, _, _, ⟨rfl, rfl⟩, _, _, ⟨rfl, rfl⟩, _, db,
    ⟨⟨hreferenced, -⟩, rfl⟩, hdb'⟩ := h
  constructor
  · intro secret hsecret hstatus hversion
    exact of_decide_eq_false hreferenced ⟨secret, hsecret, hversion, hstatus⟩
  · rw [hdb']
    rfl

end NervOS
