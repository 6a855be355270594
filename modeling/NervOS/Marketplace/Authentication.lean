/-
The sign-in of the marketplace: browser sessions, and the one-time codes that a command line
client exchanges for a credential.  Four transactions, two of them around calls to the identity
provider, with any others in between.
-/
import NervOS.Application.Tools
import NervOS.Domain.Triggers
import NervOS.Relational.Keyed
import NervOS.Relational.Machine

namespace NervOS

open Relational

structure MarketplaceError where
  code : String
  status : Nat
deriving DecidableEq

def invalidRequest : MarketplaceError := ⟨"invalid_request", 400⟩
def rowNotFound : MarketplaceError := ⟨"not_found", 404⟩
def ownershipConflict : MarketplaceError := ⟨"ownership_conflict", 409⟩
def authenticationRequired : MarketplaceError := ⟨"authentication_required", 401⟩
def credentialExpired : MarketplaceError := ⟨"credential_expired", 401⟩
def forbidden : MarketplaceError := ⟨"forbidden", 403⟩

def tokenHash (value : String) : Digest := .text value

structure Evidence where
  authenticatedAt : Instant
  acr : Option String
  amr : List String
deriving DecidableEq

structure MarketplaceAccount where
  id : Nat
  active : Bool
deriving DecidableEq

structure ExternalIdentity where
  accountId : Nat
  issuer : String
  subject : String
deriving DecidableEq

structure HostedSession where
  tokenHash : Digest
  accountId : Nat
  evidence : Evidence
  expiresAt : Instant
  idleExpiresAt : Instant
  revoked : Bool
deriving DecidableEq

structure CliCredential where
  tokenHash : Digest
  accountId : Nat
  evidence : Evidence
  scope : String
  publisherId : Option Nat
  expiresAt : Instant
  revoked : Bool
deriving DecidableEq

structure AuthTransaction where
  stateHash : Digest
  browserHash : Digest
  redirectUri : Option String
  cliState : Option String
  cliChallenge : Option Digest
  scope : String
  publisherId : Option Nat
  completedAccountId : Option Nat
  expiresAt : Instant
  consumed : Bool
  consented : Bool
deriving DecidableEq

structure AuthorizationCode where
  codeHash : Digest
  accountId : Nat
  clientId : String
  redirectUri : String
  challenge : Digest
  scope : String
  publisherId : Option Nat
  evidence : Evidence
  expiresAt : Instant
  consumed : Bool
deriving DecidableEq

/-- Who acts: what `authenticate` read of the session or credential. -/
structure Actor where
  accountId : Nat
  evidence : Evidence
  scope : String
  credentialHash : Digest
  publisherId : Option Nat
deriving DecidableEq

structure AuthTables where
  accounts : List MarketplaceAccount := []
  identities : List ExternalIdentity := []
  sessions : List HostedSession := []
  credentials : List CliCredential := []
  logins : List AuthTransaction := []
  codes : List AuthorizationCode := []

/-- `get`, and the primary key that `insert` meets. -/
def found {ρ : Type} (row : Option ρ) : Except MarketplaceError ρ :=
  row.elim (.error rowNotFound) .ok

def inserted {ρ : Type} (rows : Option (List ρ)) : Except MarketplaceError (List ρ) :=
  rows.elim (.error ownershipConflict) .ok

def sessionSeconds : Int := 28800
def idleSeconds : Int := 1800
def tokenSeconds : Int := 900
def loginSeconds : Int := 300
def codeSeconds : Int := 60

def publisherClient : String := "nervos-publisher-cli"

/-- `[A-Za-z0-9_-]` between `least` and `most` times. -/
def isUrlSafeText (least most : Nat) (value : String) : Bool :=
  value.toList.all isUrlSafe && decide (least ≤ value.length ∧ value.length ≤ most)

/-- `pkce`: the challenge of a well-formed verifier. -/
def pkce (verifier : String) : Except MarketplaceError Digest :=
  if verifier.toList.all (fun ch => ch.isAlphanum || ch ∈ ['.', '_', '~', '-']) = true ∧
      43 ≤ verifier.length ∧ verifier.length ≤ 128 then
    .ok (.text verifier)
  else .error invalidRequest

/-- What `start` is called with. -/
structure LoginRequest where
  clientId : Option String
  callback : Option String
  cliState : Option String
  challenge : Option Digest
  scope : String
  publisherId : Option Nat
deriving DecidableEq

/-- The checks of a login: a callback comes with the client, its state and its challenge.
`redirectUri` says which callbacks are accepted. -/
def LoginRequest.Accepted (redirectUri : String → Bool) (request : LoginRequest) : Prop :=
  (request.scope = "publisher" ∨ request.scope = "operator") ∧
    ∀ callback ∈ request.callback, redirectUri callback = true ∧
      request.clientId = some publisherClient ∧ request.challenge.isSome = true ∧
        (request.cliState.any (isUrlSafeText 20 256)) = true

instance (redirectUri : String → Bool) (request : LoginRequest) :
    Decidable (request.Accepted redirectUri) :=
  inferInstanceAs (Decidable (_ ∧ ∀ callback ∈ request.callback, _))

/-- What the identity provider answers a redemption with. -/
structure RedeemedIdentity where
  issuer : String
  subject : String
  evidence : Evidence
deriving DecidableEq

namespace AuthTables

variable (db : AuthTables)

def login? (stateHash : Digest) : Except MarketplaceError AuthTransaction :=
  found (Keyed.row? AuthTransaction.stateHash stateHash db.logins)

def account? (id : Nat) : Except MarketplaceError MarketplaceAccount :=
  found (Keyed.row? MarketplaceAccount.id id db.accounts)

def session? (tokenHash : Digest) : Except MarketplaceError HostedSession :=
  found (Keyed.row? HostedSession.tokenHash tokenHash db.sessions)

def code? (codeHash : Digest) : Except MarketplaceError AuthorizationCode :=
  found (Keyed.row? AuthorizationCode.codeHash codeHash db.codes)

/-- The transaction of `start`, once the provider's URL is known. -/
def start (request : LoginRequest) (state browser : String) (now : Instant) :
    Except MarketplaceError (AuthTransaction × AuthTables) := do
  let row : AuthTransaction :=
    { stateHash := tokenHash state
      browserHash := tokenHash browser
      redirectUri := request.callback
      cliState := request.cliState
      cliChallenge := request.challenge
      scope := request.scope
      publisherId := request.publisherId
      completedAccountId := none
      expiresAt := now + seconds loginSeconds
      consumed := false
      consented := false }
  let logins ← inserted (Keyed.insert? AuthTransaction.stateHash row db.logins)
  pure (row, { db with logins := logins })

/-- The first transaction of `callback`: the login is consumed before the network exchange. -/
def consume (state browser : String) (now : Instant) :
    Except MarketplaceError (AuthTransaction × AuthTables) := do
  let login ← db.login? (tokenHash state)
  if login.consumed = true ∨ login.expiresAt ≤ now ∨ login.browserHash ≠ tokenHash browser then
    .error authenticationRequired
  else
    pure (login, { db with
      logins := Keyed.update AuthTransaction.stateHash (tokenHash state)
        (fun login => { login with consumed := true }) db.logins })

def signIn (identity : RedeemedIdentity) (newAccountId : Nat) :
    Except MarketplaceError (Nat × AuthTables) :=
  match db.identities.find? fun row =>
      row.issuer = identity.issuer ∧ row.subject = identity.subject with
  | some row => do
    let account ← db.account? row.accountId
    if account.active then pure (account.id, db) else .error forbidden
  | none => do
    let accounts ← inserted (Keyed.insert? MarketplaceAccount.id ⟨newAccountId, true⟩ db.accounts)
    pure (newAccountId, { db with
      accounts := accounts
      identities := db.identities ++ [⟨newAccountId, identity.issuer, identity.subject⟩] })

/-- The second transaction of `callback`: a session is issued to the identity's account, which
has completed the login. -/
def complete (stateHash : Digest) (identity : RedeemedIdentity) (newAccountId : Nat)
    (session : String) (now : Instant) : Except MarketplaceError (HostedSession × AuthTables) := do
  let (accountId, db) ← db.signIn identity newAccountId
  let row : HostedSession :=
    { tokenHash := tokenHash session
      accountId := accountId
      evidence := identity.evidence
      expiresAt := now + seconds sessionSeconds
      idleExpiresAt := now + seconds idleSeconds
      revoked := false }
  let sessions ← inserted (Keyed.insert? HostedSession.tokenHash row db.sessions)
  pure (row, { db with
    sessions := sessions
    logins := Keyed.update AuthTransaction.stateHash stateHash
      (fun login => { login with completedAccountId := some accountId }) db.logins })

/-- `authenticate` of a browser. -/
def authenticateBrowser (token : String) (now : Instant) :
    Except MarketplaceError (Actor × AuthTables) :=
  if isUrlSafeText 43 43 token then
    match Keyed.row? HostedSession.tokenHash (tokenHash token) db.sessions with
    | none => .error authenticationRequired
    | some session => do
      let account ← db.account? session.accountId
      if account.active = false ∨ session.revoked = true ∨ session.expiresAt ≤ now ∨
          session.idleExpiresAt ≤ now then
        .error credentialExpired
      else
        pure (⟨session.accountId, session.evidence, "browser", tokenHash token, none⟩, { db with
          sessions := Keyed.update HostedSession.tokenHash (tokenHash token)
            (fun session => { session with
              idleExpiresAt := min session.expiresAt (now + seconds idleSeconds) })
            db.sessions })
  else .error authenticationRequired

/-- `authenticate` of a command line client. -/
def authenticateCli (token : String) (now : Instant) : Except MarketplaceError Actor :=
  if isUrlSafeText 43 43 token then
    match Keyed.row? CliCredential.tokenHash (tokenHash token) db.credentials with
    | none => .error authenticationRequired
    | some credential => do
      let account ← db.account? credential.accountId
      if account.active = false ∨ credential.revoked = true ∨ credential.expiresAt ≤ now then
        .error credentialExpired
      else
        pure ⟨credential.accountId, credential.evidence, credential.scope, tokenHash token,
          credential.publisherId⟩
  else .error authenticationRequired

/-- `consent`: a code for the account that completed this browser's login. -/
def consent (actor : Actor) (state browser code : String) (now : Instant) :
    Except MarketplaceError (AuthTransaction × AuthorizationCode × AuthTables) := do
  let session ← db.session? actor.credentialHash
  if actor.scope ≠ "browser" ∨ session.revoked = true ∨ session.expiresAt ≤ now then
    .error authenticationRequired
  else do
    let login ← db.login? (tokenHash state)
    if login.consumed = false ∨ login.consented = true ∨ login.expiresAt ≤ now ∨
        login.browserHash ≠ tokenHash browser ∨
        login.completedAccountId ≠ some actor.accountId then
      .error authenticationRequired
    else
      match login.redirectUri, login.cliChallenge with
      | none, _ => .error authenticationRequired
      | some _, none => .error ownershipConflict
      | some redirectUri, some challenge => do
        let row : AuthorizationCode :=
          { codeHash := tokenHash code
            accountId := actor.accountId
            clientId := publisherClient
            redirectUri := redirectUri
            challenge := challenge
            scope := login.scope
            publisherId := login.publisherId
            evidence := actor.evidence
            expiresAt := now + seconds codeSeconds
            consumed := false }
        let codes ← inserted (Keyed.insert? AuthorizationCode.codeHash row db.codes)
        pure (login, row, { db with
          codes := codes
          logins := Keyed.update AuthTransaction.stateHash (tokenHash state)
            (fun login => { login with consented := true }) db.logins })

/-- `exchange`: a credential for the code, its verifier, its callback and its client. -/
def exchange (redirectUri : String → Bool) (code verifier callback clientId token : String)
    (now : Instant) :
    Except MarketplaceError
      (AuthorizationCode × MarketplaceAccount × CliCredential × AuthTables) := do
  if redirectUri callback = false then .error invalidRequest
  else do
    let value ← db.code? (tokenHash code)
    if value.consumed = true ∨ value.expiresAt ≤ now ∨ value.clientId ≠ clientId ∨
        value.redirectUri ≠ callback then
      .error authenticationRequired
    else do
      let challenge ← pkce verifier
      if value.challenge ≠ challenge then .error authenticationRequired
      else do
        let account ← db.account? value.accountId
        if account.active = false then .error forbidden
        else do
          let row : CliCredential :=
            { tokenHash := tokenHash token
              accountId := value.accountId
              evidence := value.evidence
              scope := value.scope
              publisherId := value.publisherId
              expiresAt := now + seconds tokenSeconds
              revoked := false }
          let credentials ← inserted (Keyed.insert? CliCredential.tokenHash row db.credentials)
          pure (value, account, row, { db with
            credentials := credentials
            codes := Keyed.update AuthorizationCode.codeHash (tokenHash code)
              (fun code => { code with consumed := true }) db.codes })

def logout (actor : Actor) : AuthTables :=
  if actor.scope = "browser" then
    { db with
      sessions := Keyed.update HostedSession.tokenHash actor.credentialHash
        (fun session => { session with revoked := true }) db.sessions }
  else
    { db with
      credentials := Keyed.update CliCredential.tokenHash actor.credentialHash
        (fun credential => { credential with revoked := true }) db.credentials }

/-- `disable_account`, for an operator. -/
def disableAccount (accountId : Nat) : Except MarketplaceError AuthTables := do
  let _ ← db.account? accountId
  pure { db with
    accounts := Keyed.update MarketplaceAccount.id accountId
      (fun account => { account with active := false }) db.accounts }

end AuthTables

structure Consumption where
  login : AuthTransaction
  browser : String
  now : Instant

/-- A callback that was completed, and the session that it issued. -/
structure LoginCompletion where
  stateHash : Digest
  session : HostedSession

structure ConsentGiven where
  login : AuthTransaction
  session : HostedSession
  browser : String
  code : AuthorizationCode
  now : Instant

structure ExchangeDone where
  code : AuthorizationCode
  account : MarketplaceAccount
  verifier : String
  callback : String
  clientId : String
  credential : CliCredential
  now : Instant

structure LoginBroker where
  db : AuthTables := {}
  redeeming : List Digest := []
  actors : List Actor := []
  starts : List AuthTransaction := []
  consumptions : List Consumption := []
  completions : List LoginCompletion := []
  consents : List ConsentGiven := []
  exchanges : List ExchangeDone := []

inductive BrokerOp where
  | start (request : LoginRequest) (state browser : String) (now : Instant)
  | callback (state browser : String) (now : Instant)
  | redeemed (stateHash : Digest) (identity : RedeemedIdentity) (newAccountId : Nat)
      (session : String) (now : Instant)
  | authenticate (token : String) (browser : Bool) (now : Instant)
  | consent (actor : Actor) (state browser code : String) (now : Instant)
  | exchange (code verifier callback clientId token : String) (now : Instant)
  | logout (actor : Actor)
  | disableAccount (accountId : Nat)

namespace LoginBroker

variable (redirectUri : String → Bool) (broker : LoginBroker)

def start (request : LoginRequest) (state browser : String) (now : Instant) : LoginBroker :=
  if request.Accepted redirectUri then
    match broker.db.start request state browser now with
    | .error _ => broker
    | .ok (login, db) => { broker with db := db, starts := broker.starts ++ [login] }
  else broker

def callback (state browser : String) (now : Instant) : LoginBroker :=
  match broker.db.consume state browser now with
  | .error _ => broker
  | .ok (login, db) => { broker with
      db := db
      redeeming := broker.redeeming ++ [login.stateHash]
      consumptions := broker.consumptions ++ [⟨login, browser, now⟩] }

/-- The provider answers a callback that waits, once. -/
def redeemed (stateHash : Digest) (identity : RedeemedIdentity) (newAccountId : Nat)
    (session : String) (now : Instant) : LoginBroker :=
  if stateHash ∈ broker.redeeming then
    let broker := { broker with redeeming := broker.redeeming.erase stateHash }
    match broker.db.complete stateHash identity newAccountId session now with
    | .error _ => broker
    | .ok (session, db) => { broker with
        db := db
        completions := broker.completions ++ [⟨stateHash, session⟩] }
  else broker

def authenticate (token : String) (browser : Bool) (now : Instant) : LoginBroker :=
  if browser then
    match broker.db.authenticateBrowser token now with
    | .error _ => broker
    | .ok (actor, db) => { broker with db := db, actors := broker.actors ++ [actor] }
  else
    match broker.db.authenticateCli token now with
    | .error _ => broker
    | .ok actor => { broker with actors := broker.actors ++ [actor] }

/-- An authenticated request carries the actor that `authenticate` returned. -/
def consent (actor : Actor) (state browser code : String) (now : Instant) : LoginBroker :=
  if actor ∈ broker.actors then
    match broker.db.session? actor.credentialHash,
      broker.db.consent actor state browser code now with
    | .ok session, .ok (login, code, db) => { broker with
        db := db
        consents := broker.consents ++ [⟨login, session, browser, code, now⟩] }
    | _, _ => broker
  else broker

def exchange (code verifier callback clientId token : String) (now : Instant) : LoginBroker :=
  match broker.db.exchange redirectUri code verifier callback clientId token now with
  | .error _ => broker
  | .ok (code, account, credential, db) => { broker with
      db := db
      exchanges := broker.exchanges ++
        [⟨code, account, verifier, callback, clientId, credential, now⟩] }

def logout (actor : Actor) : LoginBroker :=
  if actor ∈ broker.actors then { broker with db := broker.db.logout actor } else broker

def disableAccount (accountId : Nat) : LoginBroker :=
  match broker.db.disableAccount accountId with
  | .error _ => broker
  | .ok db => { broker with db := db }

def exec : BrokerOp → LoginBroker
  | .start request state browser now => broker.start redirectUri request state browser now
  | .callback state browser now => broker.callback state browser now
  | .redeemed stateHash identity newAccountId session now =>
    broker.redeemed stateHash identity newAccountId session now
  | .authenticate token browser now => broker.authenticate token browser now
  | .consent actor state browser code now => broker.consent actor state browser code now
  | .exchange code verifier callback clientId token now =>
    broker.exchange redirectUri code verifier callback clientId token now
  | .logout actor => broker.logout actor
  | .disableAccount accountId => broker.disableAccount accountId

end LoginBroker

/-- Every interleaving of the broker's transactions. -/
def loginBroker (redirectUri : String → Bool) : Machine LoginBroker BrokerOp where
  init := {}
  exec op broker := broker.exec redirectUri op

end NervOS
