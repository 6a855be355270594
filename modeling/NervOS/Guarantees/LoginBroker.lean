/-
One credential for each consented login: where a credential of a command line client stems from,
over every interleaving of the sign-in.
-/
import NervOS.Marketplace.Authentication
import NervOS.Relational.Fallible

namespace NervOS

open Relational

/-- The rows as they were inserted. -/
def AuthTransaction.opened (login : AuthTransaction) : AuthTransaction :=
  { login with completedAccountId := none, consumed := false, consented := false }

def HostedSession.issued (session : HostedSession) : HostedSession :=
  { session with idleExpiresAt := session.expiresAt, revoked := false }

def AuthorizationCode.issued (code : AuthorizationCode) : AuthorizationCode :=
  { code with consumed := false }

def CliCredential.issued (credential : CliCredential) : CliCredential :=
  { credential with revoked := false }

structure Consumption.Truthful (consumption : Consumption) : Prop where
  browser : consumption.login.browserHash = tokenHash consumption.browser
  unconsumed : consumption.login.consumed = false
  inTime : consumption.now < consumption.login.expiresAt

structure ConsentGiven.Truthful (consent : ConsentGiven) : Prop where
  browser : consent.login.browserHash = tokenHash consent.browser
  unconsented : consent.login.consented = false
  inTime : consent.now < consent.login.expiresAt
  live : consent.session.revoked = false ∧ consent.now < consent.session.expiresAt
  completed : consent.login.completedAccountId = some consent.session.accountId
  account : consent.code.accountId = consent.session.accountId
  evidence : consent.code.evidence = consent.session.evidence
  client : consent.code.clientId = publisherClient
  redirectUri : consent.login.redirectUri = some consent.code.redirectUri
  challenge : consent.login.cliChallenge = some consent.code.challenge
  scope : consent.code.scope = consent.login.scope
  publisher : consent.code.publisherId = consent.login.publisherId

structure ExchangeDone.Truthful (exchange : ExchangeDone) : Prop where
  unconsumed : exchange.code.consumed = false
  inTime : exchange.now < exchange.code.expiresAt
  client : exchange.code.clientId = exchange.clientId
  redirectUri : exchange.code.redirectUri = exchange.callback
  verifier : pkce exchange.verifier = .ok exchange.code.challenge
  holder : exchange.account.id = exchange.code.accountId
  active : exchange.account.active = true
  account : exchange.credential.accountId = exchange.code.accountId
  evidence : exchange.credential.evidence = exchange.code.evidence
  scope : exchange.credential.scope = exchange.code.scope
  publisher : exchange.credential.publisherId = exchange.code.publisherId

def CliCredential.Stems (broker : LoginBroker) (credential : CliCredential) : Prop :=
  ∃ exchange ∈ broker.exchanges, exchange.credential = credential.issued ∧ exchange.Truthful ∧
    ∃ consent ∈ broker.consents, consent.code = exchange.code.issued ∧ consent.Truthful ∧
      (∃ consumption ∈ broker.consumptions,
        consumption.login.opened = consent.login.opened ∧ consumption.Truthful) ∧
      ∃ completion ∈ broker.completions, completion.stateHash = consent.login.stateHash ∧
        completion.session.accountId = credential.accountId

structure LoginBroker.OnePerLogin (broker : LoginBroker) : Prop where
  stems : ∀ credential ∈ broker.db.credentials, credential.Stems broker
  issuedOnce : (broker.exchanges.map (·.credential.tokenHash)).Nodup
  exchangedOnce : (broker.exchanges.map (·.code.codeHash)).Nodup
  codedOnce : (broker.consents.map (·.code.codeHash)).Nodup
  consentedOnce : (broker.consents.map (·.login.stateHash)).Nodup
  consumedOnce : (broker.consumptions.map (·.login.stateHash)).Nodup
  completedOnce : (broker.completions.map (·.stateHash)).Nodup

section Inversion

variable {db : AuthTables} {ρ : Type}

@[simp] theorem found_eq_ok {row : Option ρ} {value : ρ} :
    found row = .ok value ↔ row = some value := by
  cases row <;> simp [found]

@[simp] theorem inserted_eq_ok {rows : Option (List ρ)} {value : List ρ} :
    inserted rows = .ok value ↔ rows = some value := by
  cases rows <;> simp [inserted]

theorem refuse_eq_ok {condition : Prop} [Decidable condition] {error : MarketplaceError}
    {rest : Except MarketplaceError ρ} {value : ρ} :
    (if condition then .error error else rest) = .ok value ↔ ¬ condition ∧ rest = .ok value := by
  by_cases h : condition <;> simp [h]

variable {now : Instant} {login : AuthTransaction} {db' : AuthTables}

theorem start_eq_ok {request : LoginRequest} {state browser : String}
    (h : db.start request state browser now = .ok (login, db')) :
    login.stateHash ∉ db.logins.map AuthTransaction.stateHash ∧ login.consumed = false ∧
      login.consented = false ∧ login.completedAccountId = none ∧ login.opened = login ∧
      login.scope = request.scope ∧ db' = { db with logins := db.logins ++ [login] } := by
  simp only [AuthTables.start, bind_eq_ok, inserted_eq_ok, pure_eq_ok, Prod.mk.injEq] at h
  obtain ⟨logins, hinsert, rfl, rfl⟩ := h
  obtain ⟨hnew, rfl⟩ := Keyed.insert?_eq_some hinsert
  exact ⟨hnew, rfl, rfl, rfl, rfl, rfl, rfl⟩

theorem consume_eq_ok {state browser : String} (h : db.consume state browser now = .ok (login, db'))
    :
    login ∈ db.logins ∧ login.consumed = false ∧ now < login.expiresAt ∧
      login.browserHash = tokenHash browser ∧ db' = { db with
        logins := Keyed.update AuthTransaction.stateHash login.stateHash
          (fun login => { login with consumed := true }) db.logins } := by
  simp only [AuthTables.consume, AuthTables.login?, bind_eq_ok, found_eq_ok, refuse_eq_ok,
    pure_eq_ok, Prod.mk.injEq, not_or, Bool.not_eq_true, Int.not_le, ne_eq, not_not] at h
  obtain ⟨row, hrow, ⟨hconsumed, hexpires, hbrowser⟩, rfl, rfl⟩ := h
  obtain ⟨hmem, hkey⟩ := Keyed.row?_eq_some hrow
  exact ⟨hmem, hconsumed, hexpires, hbrowser, by rw [hkey]⟩

variable {identity : RedeemedIdentity}

theorem signIn_eq_ok {newAccountId accountId : Nat}
    (h : db.signIn identity newAccountId = .ok (accountId, db')) :
    ∃ accounts identities, db' = { db with accounts := accounts, identities := identities } := by
  unfold AuthTables.signIn at h
  split at h
  · simp only [bind_eq_ok] at h
    obtain ⟨account, -, h⟩ := h
    split at h
    · simp only [pure_eq_ok, Prod.mk.injEq] at h
      exact ⟨db.accounts, db.identities, h.2.symm⟩
    · cases h
  · simp only [bind_eq_ok, pure_eq_ok, Prod.mk.injEq] at h
    obtain ⟨accounts, -, -, rfl⟩ := h
    exact ⟨_, _, rfl⟩

variable {token : String}

theorem complete_eq_ok {stateHash : Digest} {newAccountId : Nat} {session : HostedSession}
    (h : db.complete stateHash identity newAccountId token now = .ok (session, db')) :
    session.tokenHash ∉ db.sessions.map HostedSession.tokenHash ∧
      ∃ accounts identities, db' = { db with
        accounts := accounts
        identities := identities
        sessions := db.sessions ++ [session]
        logins := Keyed.update AuthTransaction.stateHash stateHash
          (fun login => { login with completedAccountId := some session.accountId })
          db.logins } := by
  simp only [AuthTables.complete, bind_eq_ok, inserted_eq_ok, pure_eq_ok, Prod.mk.injEq] at h
  obtain ⟨⟨accountId, db₁⟩, hsignIn, sessions, hinsert, rfl, rfl⟩ := h
  obtain ⟨accounts, identities, rfl⟩ := signIn_eq_ok hsignIn
  obtain ⟨hnew, rfl⟩ := Keyed.insert?_eq_some hinsert
  exact ⟨hnew, accounts, identities, rfl⟩

variable {actor : Actor}

theorem authenticateBrowser_eq_ok (h : db.authenticateBrowser token now = .ok (actor, db')) :
    (∃ session ∈ db.sessions, session.tokenHash = actor.credentialHash ∧
      session.accountId = actor.accountId ∧ session.evidence = actor.evidence) ∧
      ∃ key idle, db' = { db with
        sessions := Keyed.update HostedSession.tokenHash key
          (fun session => { session with idleExpiresAt := min session.expiresAt idle })
          db.sessions } := by
  unfold AuthTables.authenticateBrowser at h
  split at h
  case isFalse => cases h
  case isTrue =>
    split at h
    case h_1 => cases h
    case h_2 session hsession =>
      simp only [bind_eq_ok, refuse_eq_ok, pure_eq_ok, Prod.mk.injEq] at h
      obtain ⟨account, -, -, rfl, rfl⟩ := h
      obtain ⟨hmem, hkey⟩ := Keyed.row?_eq_some hsession
      exact ⟨⟨session, hmem, hkey, rfl, rfl⟩, _, _, rfl⟩

theorem authenticateCli_eq_ok (h : db.authenticateCli token now = .ok actor) :
    ∃ credential ∈ db.credentials, actor.scope = credential.scope := by
  unfold AuthTables.authenticateCli at h
  split at h
  case isFalse => cases h
  case isTrue =>
    split at h
    case h_1 => cases h
    case h_2 credential hcredential =>
      simp only [bind_eq_ok, refuse_eq_ok, pure_eq_ok] at h
      obtain ⟨account, -, -, rfl⟩ := h
      exact ⟨credential, (Keyed.row?_eq_some hcredential).1, rfl⟩

variable {code : AuthorizationCode}

theorem consent_eq_ok {state browser token : String}
    (h : db.consent actor state browser token now = .ok (login, code, db')) :
    ∃ session ∈ db.sessions, db.session? actor.credentialHash = .ok session ∧
      session.tokenHash = actor.credentialHash ∧ actor.scope = "browser" ∧
      session.revoked = false ∧ now < session.expiresAt ∧
      login ∈ db.logins ∧ login.consumed = true ∧ login.consented = false ∧
      now < login.expiresAt ∧ login.browserHash = tokenHash browser ∧
      login.completedAccountId = some actor.accountId ∧
      login.redirectUri = some code.redirectUri ∧ login.cliChallenge = some code.challenge ∧
      code.codeHash ∉ db.codes.map AuthorizationCode.codeHash ∧
      code.accountId = actor.accountId ∧ code.clientId = publisherClient ∧
      code.scope = login.scope ∧ code.publisherId = login.publisherId ∧
      code.evidence = actor.evidence ∧ code.consumed = false ∧ db' = { db with
        codes := db.codes ++ [code]
        logins := Keyed.update AuthTransaction.stateHash login.stateHash
          (fun login => { login with consented := true }) db.logins } := by
  simp only [AuthTables.consent, bind_eq_ok, refuse_eq_ok] at h
  obtain ⟨session, hsession, hlive, row, hrow, hwaits, h⟩ := h
  simp only [not_or, ne_eq, not_not, Bool.not_eq_true, Int.not_le,
    Bool.not_eq_false] at hlive hwaits
  split at h
  case h_1 => cases h
  case h_2 => cases h
  case h_3 redirectUri challenge hredirect hchallenge =>
    simp only [bind_eq_ok, inserted_eq_ok, pure_eq_ok, Prod.mk.injEq] at h
    obtain ⟨codes, hinsert, rfl, rfl, rfl⟩ := h
    obtain ⟨hnew, rfl⟩ := Keyed.insert?_eq_some hinsert
    have hlogin := hrow
    rw [AuthTables.login?, found_eq_ok] at hlogin
    obtain ⟨hmem, hkey⟩ := Keyed.row?_eq_some hlogin
    have hread := hsession
    rw [AuthTables.session?, found_eq_ok] at hread
    obtain ⟨hsessionMem, hsessionKey⟩ := Keyed.row?_eq_some hread
    exact ⟨session, hsessionMem, hsession, hsessionKey, hlive.1, hlive.2.1, hlive.2.2, hmem,
      hwaits.1, hwaits.2.1, hwaits.2.2.1, hwaits.2.2.2.1, hwaits.2.2.2.2, hredirect, hchallenge,
      hnew, rfl, rfl, rfl, rfl, rfl, rfl, by rw [hkey]⟩

theorem exchange_eq_ok {redirectUri : String → Bool}
    {token verifier callback clientId fresh : String} {account : MarketplaceAccount}
    {credential : CliCredential}
    (h : db.exchange redirectUri token verifier callback clientId fresh now =
      .ok (code, account, credential, db')) :
    code ∈ db.codes ∧ code.consumed = false ∧ now < code.expiresAt ∧ code.clientId = clientId ∧
      code.redirectUri = callback ∧ pkce verifier = .ok code.challenge ∧
      account.id = code.accountId ∧ account.active = true ∧
      credential.tokenHash ∉ db.credentials.map CliCredential.tokenHash ∧
      credential.accountId = code.accountId ∧ credential.evidence = code.evidence ∧
      credential.scope = code.scope ∧ credential.publisherId = code.publisherId ∧
      credential.revoked = false ∧ db' = { db with
        credentials := db.credentials ++ [credential]
        codes := Keyed.update AuthorizationCode.codeHash code.codeHash
          (fun code => { code with consumed := true }) db.codes } := by
  simp only [AuthTables.exchange, bind_eq_ok, refuse_eq_ok, inserted_eq_ok, pure_eq_ok,
    Prod.mk.injEq] at h
  obtain ⟨-, value, hvalue, hopen, challenge, hpkce, hchallenge, holder, hholder, hactive,
    credentials, hinsert, rfl, rfl, rfl, rfl⟩ := h
  simp only [not_or, ne_eq, not_not, Bool.not_eq_true, Int.not_le] at hopen
  rw [ne_eq, not_not] at hchallenge
  rw [Bool.not_eq_false] at hactive
  rw [AuthTables.code?, found_eq_ok] at hvalue
  rw [AuthTables.account?, found_eq_ok] at hholder
  obtain ⟨hmem, hkey⟩ := Keyed.row?_eq_some hvalue
  obtain ⟨hnew, rfl⟩ := Keyed.insert?_eq_some hinsert
  exact ⟨hmem, hopen.1, hopen.2.1, hopen.2.2.1, hopen.2.2.2, hchallenge ▸ hpkce,
    (Keyed.row?_eq_some hholder).2, hactive, hnew, rfl, rfl, rfl, rfl, rfl, by rw [hkey]⟩

end Inversion

section Books

/-- The tables are what the history says. -/
structure LoginBroker.Books (broker : LoginBroker) : Prop where
  logins : broker.db.logins.map AuthTransaction.opened = broker.starts
  loginKeys : (broker.db.logins.map AuthTransaction.stateHash).Nodup
  scopes : ∀ login ∈ broker.starts, login.scope ≠ "browser"
  consumed : Keyed.Marked AuthTransaction.stateHash AuthTransaction.consumed broker.db.logins
    (broker.consumptions.map (·.login.stateHash))
  consented : Keyed.Marked AuthTransaction.stateHash AuthTransaction.consented broker.db.logins
    (broker.consents.map (·.login.stateHash))
  settled : (broker.redeeming ++ broker.completions.map (·.stateHash)).Nodup
  begun : ∀ stateHash ∈ broker.redeeming ++ broker.completions.map (·.stateHash),
    stateHash ∈ broker.consumptions.map (·.login.stateHash)
  completed : ∀ login ∈ broker.db.logins, ∀ accountId ∈ login.completedAccountId,
    ∃ completion ∈ broker.completions, completion.stateHash = login.stateHash ∧
      completion.session.accountId = accountId
  consumptions : ∀ consumption ∈ broker.consumptions,
    consumption.Truthful ∧ consumption.login.opened ∈ broker.starts
  consents : ∀ consent ∈ broker.consents, consent.Truthful ∧
    consent.login.opened ∈ broker.starts ∧
    consent.login.stateHash ∈ broker.consumptions.map (·.login.stateHash) ∧
    ∃ completion ∈ broker.completions, completion.stateHash = consent.login.stateHash ∧
      completion.session.accountId = consent.session.accountId
  codes : broker.db.codes.map AuthorizationCode.issued = broker.consents.map (·.code)
  codeKeys : (broker.db.codes.map AuthorizationCode.codeHash).Nodup
  spent : Keyed.Marked AuthorizationCode.codeHash AuthorizationCode.consumed broker.db.codes
    (broker.exchanges.map (·.code.codeHash))
  exchanges : ∀ exchange ∈ broker.exchanges, exchange.Truthful ∧
    exchange.code.issued ∈ broker.consents.map (·.code)
  credentials : broker.db.credentials.map CliCredential.issued =
    broker.exchanges.map (·.credential)
  credentialKeys : (broker.db.credentials.map CliCredential.tokenHash).Nodup
  sessionKeys : (broker.db.sessions.map HostedSession.tokenHash).Nodup
  actors : ∀ actor ∈ broker.actors, actor.scope = "browser" →
    ∃ session ∈ broker.db.sessions.map HostedSession.issued,
      session.tokenHash = actor.credentialHash ∧ session.accountId = actor.accountId ∧
        session.evidence = actor.evidence

variable {broker : LoginBroker}

theorem LoginBroker.Books.onePerLogin (h : broker.Books) : broker.OnePerLogin where
  stems := by
    intro credential hcredential
    have hissued : credential.issued ∈ broker.exchanges.map (·.credential) := by
      rw [← h.credentials]
      exact List.mem_map_of_mem hcredential
    obtain ⟨exchange, hexchange, heq⟩ := List.mem_map.mp hissued
    obtain ⟨hdone, hcode⟩ := h.exchanges exchange hexchange
    obtain ⟨consent, hconsent, hissuedCode⟩ := List.mem_map.mp hcode
    obtain ⟨hgiven, hopened, hconsumed, completion, hcompletion, hstate, haccount⟩ :=
      h.consents consent hconsent
    obtain ⟨consumption, hconsumption, hsame⟩ := List.mem_map.mp hconsumed
    obtain ⟨htruthful, hstarted⟩ := h.consumptions consumption hconsumption
    have hkeys : (broker.starts.map AuthTransaction.stateHash).Nodup := by
      rw [← h.logins, List.map_map]
      exact h.loginKeys
    refine ⟨exchange, hexchange, heq, hdone, consent, hconsent, hissuedCode, hgiven,
      ⟨consumption, hconsumption, ?_, htruthful⟩, completion, hcompletion, hstate, ?_⟩
    · exact Keyed.eq_of_column hkeys hstarted hopened hsame
    · calc
        completion.session.accountId = consent.code.accountId := by
          rw [haccount, hgiven.account]
        _ = exchange.code.accountId := by
          rw [hissuedCode]
          rfl
        _ = credential.accountId := by
          rw [← hdone.account, heq]
          rfl
  issuedOnce := by
    have hkeys : (broker.exchanges.map (·.credential.tokenHash)) =
        broker.db.credentials.map CliCredential.tokenHash := by
      have hview := congrArg (List.map CliCredential.tokenHash) h.credentials
      rw [List.map_map, List.map_map] at hview
      exact hview.symm
    rw [hkeys]
    exact h.credentialKeys
  exchangedOnce := h.spent.once
  codedOnce := by
    have hkeys : (broker.consents.map (·.code.codeHash)) =
        broker.db.codes.map AuthorizationCode.codeHash := by
      have hview := congrArg (List.map AuthorizationCode.codeHash) h.codes
      rw [List.map_map, List.map_map] at hview
      exact hview.symm
    rw [hkeys]
    exact h.codeKeys
  consentedOnce := h.consented.once
  consumedOnce := h.consumed.once
  completedOnce := (List.nodup_append.mp h.settled).2.1

end Books

section Steps

variable {broker : LoginBroker} {redirectUri : String → Bool}

theorem LoginRequest.Accepted.scope {request : LoginRequest}
    (h : request.Accepted redirectUri) : request.scope ≠ "browser" := by
  rcases h.1 with hscope | hscope <;> rw [hscope] <;> decide

section

variable (h : broker.Books)

include h

theorem LoginBroker.Books.start (request : LoginRequest) (state browser : String) (now : Instant) :
    (broker.start redirectUri request state browser now).Books := by
  unfold LoginBroker.start
  by_cases haccepted : request.Accepted redirectUri
  · rw [if_pos haccepted]
    split
    case h_1 => exact h
    case h_2 login db hstart =>
      obtain ⟨hnew, hconsumed, hconsented, hcompleted, hopened, hscope, rfl⟩ :=
        start_eq_ok hstart
      refine { h with
        loginKeys := Keyed.nodup_append h.loginKeys hnew
        consumed := h.consumed.insert hnew hconsumed
        consented := h.consented.insert hnew hconsented
        logins := ?_, scopes := ?_, completed := ?_, consumptions := ?_, consents := ?_ }
      · rw [List.map_append, h.logins, List.map_singleton, hopened]
      · intro other hother
        rw [List.mem_append, List.mem_singleton] at hother
        rcases hother with hother | rfl
        · exact h.scopes other hother
        · rw [hscope]
          exact haccepted.scope
      · intro other hother
        rw [List.mem_append, List.mem_singleton] at hother
        rcases hother with hother | rfl
        · exact h.completed other hother
        · rw [hcompleted]
          simp
      · intro consumption hconsumption
        obtain ⟨htruthful, hstarted⟩ := h.consumptions consumption hconsumption
        exact ⟨htruthful, List.mem_append_left _ hstarted⟩
      · intro consent hconsent
        obtain ⟨htruthful, hstarted, hrest⟩ := h.consents consent hconsent
        exact ⟨htruthful, List.mem_append_left _ hstarted, hrest⟩
  · rw [if_neg haccepted]
    exact h

theorem LoginBroker.Books.callback (state browser : String) (now : Instant) :
    (broker.callback state browser now).Books := by
  unfold LoginBroker.callback
  split
  case h_1 => exact h
  case h_2 login db hconsume =>
    obtain ⟨hmem, hconsumed, hexpires, hbrowser, rfl⟩ := consume_eq_ok hconsume
    have hunlisted : login.stateHash ∉ broker.consumptions.map (·.login.stateHash) := by
      rw [← h.consumed.iff login hmem, hconsumed]
      decide
    refine { h with
      logins := Keyed.view_update h.logins fun _ => rfl
      loginKeys := Keyed.nodup_update h.loginKeys fun _ => rfl
      consented := h.consented.frame (fun _ => rfl) fun _ => rfl
      consumed := ?_, settled := ?_, begun := ?_, completed := ?_, consumptions := ?_,
      consents := ?_ }
    · rw [List.map_append]
      exact h.consumed.mark hmem hconsumed (fun _ => rfl) fun _ => rfl
    · rw [List.append_assoc, List.singleton_append]
      refine List.nodup_middle.mpr (List.nodup_cons.mpr ⟨?_, h.settled⟩)
      exact fun hbegun => hunlisted (h.begun _ hbegun)
    · intro stateHash hstate
      rw [List.map_append, List.map_singleton, List.mem_append, List.mem_singleton]
      rw [List.append_assoc, List.mem_append, List.singleton_append, List.mem_cons] at hstate
      rcases hstate with hstate | rfl | hstate
      · exact .inl (h.begun _ (List.mem_append_left _ hstate))
      · exact .inr rfl
      · exact .inl (h.begun _ (List.mem_append_right _ hstate))
    · intro other hother accountId haccount
      obtain ⟨before, hbefore, rfl⟩ := Keyed.mem_update hother
      by_cases hkey : before.stateHash = login.stateHash
      · rw [if_pos hkey] at haccount ⊢
        exact h.completed before hbefore accountId haccount
      · rw [if_neg hkey] at haccount ⊢
        exact h.completed before hbefore accountId haccount
    · intro consumption hconsumption
      rw [List.mem_append, List.mem_singleton] at hconsumption
      rcases hconsumption with hconsumption | rfl
      · exact h.consumptions consumption hconsumption
      · refine ⟨⟨hbrowser, hconsumed, hexpires⟩, ?_⟩
        rw [← h.logins]
        exact List.mem_map_of_mem hmem
    · intro consent hconsent
      obtain ⟨htruthful, hstarted, hlisted, hcompletion⟩ := h.consents consent hconsent
      refine ⟨htruthful, hstarted, ?_, hcompletion⟩
      rw [List.map_append]
      exact List.mem_append_left _ hlisted

theorem LoginBroker.Books.redeemed (stateHash : Digest) (identity : RedeemedIdentity)
    (newAccountId : Nat) (session : String) (now : Instant) :
    (broker.redeemed stateHash identity newAccountId session now).Books := by
  unfold LoginBroker.redeemed
  by_cases hwaiting : stateHash ∈ broker.redeeming
  · rw [if_pos hwaiting]
    have hsub : (broker.redeeming.erase stateHash ++ broker.completions.map (·.stateHash)).Sublist
        (broker.redeeming ++ broker.completions.map (·.stateHash)) :=
      List.Sublist.append_right List.erase_sublist _
    dsimp only
    split
    case h_1 =>
      exact { h with
        settled := h.settled.sublist hsub
        begun := fun _ hstate => h.begun _ (hsub.subset hstate) }
    case h_2 issued db hcomplete =>
      obtain ⟨hnew, accounts, identities, rfl⟩ := complete_eq_ok hcomplete
      refine { h with
        logins := Keyed.view_update h.logins fun _ => rfl
        loginKeys := Keyed.nodup_update h.loginKeys fun _ => rfl
        consumed := h.consumed.frame (fun _ => rfl) fun _ => rfl
        consented := h.consented.frame (fun _ => rfl) fun _ => rfl
        sessionKeys := Keyed.nodup_append h.sessionKeys hnew
        settled := ?_, begun := ?_, completed := ?_, consents := ?_, actors := ?_ }
      · rw [List.map_append, List.map_singleton, ← List.append_assoc]
        obtain ⟨hwaits, -, hapart⟩ := List.nodup_append.mp h.settled
        have hgone : stateHash ∉
            broker.redeeming.erase stateHash ++ broker.completions.map (·.stateHash) := by
          rw [List.mem_append, hwaits.mem_erase_iff]
          rintro (hstays | hcompleted)
          · exact hstays.1 rfl
          · exact hapart _ hwaiting _ hcompleted rfl
        exact List.nodup_append_comm.mp (List.nodup_cons.mpr ⟨hgone, h.settled.sublist hsub⟩)
      · intro other hother
        rw [List.map_append, List.map_singleton, ← List.append_assoc, List.mem_append,
          List.mem_singleton] at hother
        rcases hother with hother | rfl
        · exact h.begun _ (hsub.subset hother)
        · exact h.begun _ (List.mem_append_left _ hwaiting)
      · intro login hlogin accountId haccount
        obtain ⟨before, hbefore, rfl⟩ := Keyed.mem_update hlogin
        by_cases hkey : before.stateHash = stateHash
        · rw [if_pos hkey] at haccount ⊢
          refine ⟨⟨stateHash, issued⟩, List.mem_append_right _ (List.mem_singleton_self _),
            hkey.symm, ?_⟩
          simpa using haccount
        · rw [if_neg hkey] at haccount ⊢
          obtain ⟨completion, hcompletion, hsame⟩ :=
            h.completed before hbefore accountId haccount
          exact ⟨completion, List.mem_append_left _ hcompletion, hsame⟩
      · intro consent hconsent
        obtain ⟨htruthful, hstarted, hlisted, completion, hcompletion, hsame⟩ :=
          h.consents consent hconsent
        exact ⟨htruthful, hstarted, hlisted, completion, List.mem_append_left _ hcompletion, hsame⟩
      · intro actor hactor hscope
        obtain ⟨row, hrow, hsame⟩ := h.actors actor hactor hscope
        refine ⟨row, ?_, hsame⟩
        rw [List.map_append]
        exact List.mem_append_left _ hrow
  · rw [if_neg hwaiting]
    exact h

theorem LoginBroker.Books.credential_scope {credential : CliCredential}
    (hcredential : credential ∈ broker.db.credentials) : credential.scope ≠ "browser" := by
  obtain ⟨exchange, hexchange, hissued, hdone, consent, hconsent, hcode, hgiven, -⟩ :=
    h.onePerLogin.stems credential hcredential
  obtain ⟨-, hstarted, -⟩ := h.consents consent hconsent
  have hscope : credential.scope = consent.login.opened.scope := by
    calc
      credential.scope = exchange.code.scope := by
        rw [← hdone.scope, hissued]
        rfl
      _ = consent.code.scope := by
        rw [hcode]
        rfl
      _ = consent.login.opened.scope := hgiven.scope
  rw [hscope]
  exact h.scopes _ hstarted

theorem LoginBroker.Books.authenticate (token : String) (browser : Bool) (now : Instant) :
    (broker.authenticate token browser now).Books := by
  unfold LoginBroker.authenticate
  cases browser with
  | true =>
    rw [if_pos rfl]
    split
    case h_1 => exact h
    case h_2 actor db hauthenticate =>
      obtain ⟨⟨session, hsession, hkey, haccount, hevidence⟩, key, idle, rfl⟩ :=
        authenticateBrowser_eq_ok hauthenticate
      refine { h with
        sessionKeys := Keyed.nodup_update h.sessionKeys fun _ => rfl
        actors := ?_ }
      intro other hother hscope
      rw [List.mem_append, List.mem_singleton] at hother
      rcases hother with hother | rfl
      · obtain ⟨row, hrow, hsame⟩ := h.actors other hother hscope
        exact ⟨row, Keyed.mem_view_update hrow fun _ => rfl, hsame⟩
      · exact ⟨session.issued, Keyed.mem_view_update (List.mem_map_of_mem hsession) fun _ => rfl,
          hkey, haccount, hevidence⟩
  | false =>
    rw [if_neg (by decide)]
    split
    case h_1 => exact h
    case h_2 actor hauthenticate =>
      obtain ⟨credential, hcredential, hsame⟩ := authenticateCli_eq_ok hauthenticate
      refine { h with actors := ?_ }
      intro other hother hscope
      rw [List.mem_append, List.mem_singleton] at hother
      rcases hother with hother | rfl
      · exact h.actors other hother hscope
      · rw [hsame] at hscope
        exact absurd hscope (h.credential_scope hcredential)

theorem LoginBroker.Books.consent (actor : Actor) (state browser code : String) (now : Instant) :
    (broker.consent actor state browser code now).Books := by
  unfold LoginBroker.consent
  by_cases hactor : actor ∈ broker.actors
  · rw [if_pos hactor]
    split
    case h_2 => exact h
    case h_1 session login code db hread hconsent =>
      obtain ⟨found, hmem, hfound, hkey, hscope, hrevoked, hlive, hlogin, hconsumed,
        hunconsented, hopen, hbrowser, hcompleted, hredirect, hchallenge, hnew, haccount, hclient,
        hcodeScope, hpublisher, hevidence, hunspent, rfl⟩ := consent_eq_ok hconsent
      obtain rfl : found = session := Except.ok.inj (hfound.symm.trans hread)
      -- the actor's row is the session that was read
      obtain ⟨row, hrow, hrowKey, hrowAccount, hrowEvidence⟩ := h.actors actor hactor hscope
      obtain ⟨other, hother, rfl⟩ := List.mem_map.mp hrow
      obtain rfl : other = found :=
        Keyed.eq_of_column h.sessionKeys hother hmem (hrowKey.trans hkey.symm)
      have hcode : code.issued = code := by
        rw [AuthorizationCode.issued, ← hunspent]
      have hlisted := (h.consumed.iff login hlogin).mp hconsumed
      obtain ⟨completion, hcompletion, hstate, hsame⟩ := h.completed login hlogin _ hcompleted
      refine { h with
        logins := Keyed.view_update h.logins fun _ => rfl
        loginKeys := Keyed.nodup_update h.loginKeys fun _ => rfl
        consumed := h.consumed.frame (fun _ => rfl) fun _ => rfl
        codeKeys := Keyed.nodup_append h.codeKeys hnew
        spent := h.spent.insert hnew hunspent
        consented := ?_, completed := ?_, consents := ?_, codes := ?_, exchanges := ?_ }
      · rw [List.map_append]
        exact h.consented.mark hlogin hunconsented (fun _ => rfl) fun _ => rfl
      · intro other hother accountId haccount
        obtain ⟨before, hbefore, rfl⟩ := Keyed.mem_update hother
        by_cases hsame : before.stateHash = login.stateHash
        · rw [if_pos hsame] at haccount ⊢
          exact h.completed before hbefore accountId haccount
        · rw [if_neg hsame] at haccount ⊢
          exact h.completed before hbefore accountId haccount
      · intro consent hconsent
        rw [List.mem_append, List.mem_singleton] at hconsent
        rcases hconsent with hconsent | rfl
        · exact h.consents consent hconsent
        · refine ⟨⟨hbrowser, hunconsented, hopen, ⟨hrevoked, hlive⟩, ?_, ?_, ?_, hclient,
            hredirect, hchallenge, hcodeScope, hpublisher⟩, ?_, hlisted, completion, hcompletion,
            hstate, ?_⟩
          · rw [hcompleted, ← hrowAccount]
            rfl
          · rw [haccount, ← hrowAccount]
            rfl
          · rw [hevidence, ← hrowEvidence]
            rfl
          · rw [← h.logins]
            exact List.mem_map_of_mem hlogin
          · rw [hsame, ← hrowAccount]
            rfl
      · rw [List.map_append, List.map_append, h.codes, List.map_singleton, hcode,
          List.map_singleton]
      · intro exchange hexchange
        obtain ⟨htruthful, hissued⟩ := h.exchanges exchange hexchange
        refine ⟨htruthful, ?_⟩
        rw [List.map_append]
        exact List.mem_append_left _ hissued
  · rw [if_neg hactor]
    exact h

theorem LoginBroker.Books.exchange (code verifier callback clientId token : String) (now : Instant)
    :
    (broker.exchange redirectUri code verifier callback clientId token now).Books := by
  unfold LoginBroker.exchange
  split
  case h_1 => exact h
  case h_2 code account credential db hexchange =>
    obtain ⟨hmem, hunspent, hopen, hclient, hcallback, hpkce, hholder, hactive, hnew, haccount,
      hevidence, hscope, hpublisher, hunrevoked, rfl⟩ := exchange_eq_ok hexchange
    have hcredential : credential.issued = credential := by
      rw [CliCredential.issued, ← hunrevoked]
    refine { h with
      codes := Keyed.view_update h.codes fun _ => rfl
      codeKeys := Keyed.nodup_update h.codeKeys fun _ => rfl
      credentialKeys := Keyed.nodup_append h.credentialKeys hnew
      spent := ?_, exchanges := ?_, credentials := ?_ }
    · rw [List.map_append]
      exact h.spent.mark hmem hunspent (fun _ => rfl) fun _ => rfl
    · intro exchange hexchange
      rw [List.mem_append, List.mem_singleton] at hexchange
      rcases hexchange with hexchange | rfl
      · exact h.exchanges exchange hexchange
      · refine ⟨⟨hunspent, hopen, hclient, hcallback, hpkce, hholder, hactive, haccount,
          hevidence, hscope, hpublisher⟩, ?_⟩
        rw [← h.codes]
        exact List.mem_map_of_mem hmem
    · rw [List.map_append, List.map_append, h.credentials, List.map_singleton, hcredential,
        List.map_singleton]

theorem LoginBroker.Books.logout (actor : Actor) :
    (broker.logout actor).Books := by
  unfold LoginBroker.logout AuthTables.logout
  by_cases hactor : actor ∈ broker.actors
  · rw [if_pos hactor]
    split
    case isTrue =>
      refine { h with
        sessionKeys := Keyed.nodup_update h.sessionKeys fun _ => rfl
        actors := ?_ }
      intro other hother hscope
      obtain ⟨row, hrow, hsame⟩ := h.actors other hother hscope
      exact ⟨row, Keyed.mem_view_update hrow fun _ => rfl, hsame⟩
    case isFalse =>
      exact { h with
        credentials := Keyed.view_update h.credentials fun _ => rfl
        credentialKeys := Keyed.nodup_update h.credentialKeys fun _ => rfl }
  · rw [if_neg hactor]
    exact h

theorem LoginBroker.Books.disableAccount (accountId : Nat) :
    (broker.disableAccount accountId).Books := by
  unfold LoginBroker.disableAccount AuthTables.disableAccount
  cases broker.db.account? accountId with
  | error => exact h
  | ok account => exact { h with }

theorem LoginBroker.Books.exec (op : BrokerOp) :
    (broker.exec redirectUri op).Books := by
  cases op with
  | start request state browser now => exact h.start request state browser now
  | callback state browser now => exact h.callback state browser now
  | redeemed stateHash identity newAccountId session now =>
    exact h.redeemed stateHash identity newAccountId session now
  | authenticate token browser now => exact h.authenticate token browser now
  | consent actor state browser code now => exact h.consent actor state browser code now
  | exchange code verifier callback clientId token now =>
    exact h.exchange code verifier callback clientId token now
  | logout actor => exact h.logout actor
  | disableAccount accountId => exact h.disableAccount accountId

end

end Steps

/-- Whatever the browsers, clients and operators do, in any order. -/
theorem one_credential_per_login (redirectUri : String → Bool) {broker : LoginBroker}
    (h : (loginBroker redirectUri).Reachable broker) : broker.OnePerLogin := by
  have hbooks : broker.Books := by
    apply h.invariant
    · constructor <;> simp [loginBroker, Keyed.marked_nil]
    · intro before op hbefore
      exact hbefore.exec op
  exact hbooks.onePerLogin

def sampleCallback : String := "http://127.0.0.1:8000/callback"

def sampleToken (letter : Char) : String :=
  String.ofList (List.replicate 43 letter)

def sampleLogin : LoginRequest :=
  ⟨some publisherClient, some sampleCallback, some (sampleToken 'c'),
    some (.text (sampleToken 'v')), "publisher", none⟩

def sampleIdentity : RedeemedIdentity :=
  ⟨"issuer", "subject", ⟨0, none, ["pwd"]⟩⟩

def sampleSignIn : List BrokerOp :=
  [.start sampleLogin "state" "browser" 0, .callback "state" "browser" 1,
    .redeemed (tokenHash "state") sampleIdentity 1 (sampleToken 's') 2,
    .authenticate (sampleToken 's') true 3,
    .consent ⟨1, sampleIdentity.evidence, "browser", tokenHash (sampleToken 's'), none⟩ "state"
      "browser" "code" 4,
    .exchange "code" (sampleToken 'v') sampleCallback publisherClient (sampleToken 't') 5]

def sampleBroker : LoginBroker :=
  (loginBroker (· = sampleCallback)).run sampleSignIn (loginBroker (· = sampleCallback)).init

theorem sampleBroker_reachable : (loginBroker (· = sampleCallback)).Reachable sampleBroker :=
  ⟨sampleSignIn, rfl⟩

theorem one_credential_per_login_signedIn :
    sampleBroker.db.credentials.map CliCredential.tokenHash = [tokenHash (sampleToken 't')] ∧
      sampleBroker.OnePerLogin :=
  ⟨by decide +kernel, one_credential_per_login _ sampleBroker_reachable⟩

end NervOS
