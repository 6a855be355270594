/-
What each of the marketplace's transactions may ask for, and what it holds when it does.
-/
import NervOS.Marketplace.RowLocks

namespace NervOS

open Relational

/-- What may hold when a transaction asks for a row that it does not hold, when it reads an owner,
and when it lists the projects of a publisher. -/
structure LockRules where
  asks : List Nat → List MarketRow → MarketRow → Prop
  reads : List MarketRow → Nat → Prop
  lists : List MarketRow → Nat → Prop

namespace Locking

variable {α β : Type} {rules : LockRules}

/-- The rules hold along the whole program, and `post` of its end. -/
def Always (rules : LockRules) :
    Locking α → (α → List Nat → List MarketRow → Prop) → List Nat → List MarketRow → Prop
  | .done value, post, listed, held => post value listed held
  | .lock row next, post, listed, held =>
    (row ∉ held → rules.asks listed held row) ∧ next.Always rules post listed (row :: held)
  | .readOwner _ next, post, listed, held =>
    ∀ owner, rules.reads held owner → (next owner).Always rules post listed held
  | .readProjects publisher next, post, _, held =>
    rules.lists held publisher ∧ ∀ projects, (next projects).Always rules post projects held
  | .transferTo project source _ next, post, listed, held =>
    (.publisher source ∈ held ∧ .project project ∈ held) ∧ next.Always rules post listed held

variable {post : β → List Nat → List MarketRow → Prop} {listed : List Nat}
  {held : List MarketRow}

@[simp] theorem always_bind {x : Locking α} {f : α → Locking β} :
    (x >>= f).Always rules post listed held ↔
      x.Always rules (fun value listed held => (f value).Always rules post listed held) listed
        held := by
  change (x.bind f).Always rules post listed held ↔ _
  induction x generalizing listed held with
  | done value => rfl
  | lock row next ih => simp only [Locking.bind, Always, ih]
  | readOwner project next ih => simp only [Locking.bind, Always, ih]
  | readProjects publisher next ih => simp only [Locking.bind, Always, ih]
  | transferTo project source destination next ih => simp only [Locking.bind, Always, ih]

@[simp] theorem always_pure {value : β} :
    (pure value : Locking β).Always rules post listed held ↔ post value listed held :=
  Iff.rfl

variable {ending : Unit → List Nat → List MarketRow → Prop}

@[simp] theorem always_get {row : MarketRow} :
    (get row).Always rules ending listed held ↔
      (row ∉ held → rules.asks listed held row) ∧ ending () listed (row :: held) :=
  Iff.rfl

@[simp] theorem always_update {row : MarketRow} :
    (update row).Always rules ending listed held ↔
      (row ∉ held → rules.asks listed held row) ∧ ending () listed (row :: held) :=
  Iff.rfl

@[simp] theorem always_ownerOf {project : Nat} {reading : Nat → List Nat → List MarketRow → Prop} :
    (ownerOf project).Always rules reading listed held ↔
      ∀ owner, rules.reads held owner → reading owner listed held :=
  Iff.rfl

@[simp] theorem always_projectsOf {publisher : Nat}
    {reading : List Nat → List Nat → List MarketRow → Prop} :
    (projectsOf publisher).Always rules reading listed held ↔
      rules.lists held publisher ∧ ∀ projects, reading projects projects held :=
  Iff.rfl

@[simp] theorem always_handOver {project source destination : Nat} :
    (handOver project source destination).Always rules ending listed held ↔
      (.publisher source ∈ held ∧ .project project ∈ held) ∧ ending () listed held :=
  Iff.rfl

theorem always_updateAll {rows : List MarketRow}
    (hasks : ∀ row ∈ rows, ∀ more, more ⊆ rows → row ∉ more ++ held →
      rules.asks listed (more ++ held) row)
    (hending : ∀ more, more ⊆ rows → ending () listed (more ++ held)) :
    (updateAll rows).Always rules ending listed held := by
  induction rows generalizing held with
  | nil => exact hending [] (List.Subset.refl [])
  | cons row rows ih =>
    rw [updateAll, always_bind, always_update]
    refine ⟨fun hnew => hasks row List.mem_cons_self [] (List.nil_subset _) hnew, ih ?_ ?_⟩
    · intro other hother more hmore hnew
      have hsub : more ++ [row] ⊆ row :: rows := by
        intro taken htaken
        rw [List.mem_append, List.mem_singleton] at htaken
        rcases htaken with htaken | rfl
        · exact List.mem_cons_of_mem _ (hmore htaken)
        · exact List.mem_cons_self
      have happend : more ++ row :: held = (more ++ [row]) ++ held := by simp
      rw [happend] at hnew ⊢
      exact hasks other (List.mem_cons_of_mem _ hother) _ hsub hnew
    · intro more hmore
      have hsub : more ++ [row] ⊆ row :: rows := by
        intro taken htaken
        rw [List.mem_append, List.mem_singleton] at htaken
        rcases htaken with htaken | rfl
        · exact List.mem_cons_of_mem _ (hmore htaken)
        · exact List.mem_cons_self
      have happend : more ++ row :: held = (more ++ [row]) ++ held := by simp
      rw [happend]
      exact hending _ hsub

end Locking

namespace MarketRow

/-- The tables in their order. -/
def level : MarketRow → Nat
  | code _ => 0
  | account _ => 1
  | credential _ _ => 2
  | authTransaction _ => 3
  | publisher _ => 4
  | membership _ _ => 6
  | keyChallenge _ => 6
  | transfer _ => 7
  | project _ => 8
  | keyAuthorization _ _ => 9
  | operation _ => 10
  | listing _ => 11
  | release _ => 11
  | signingKey _ => 12
  | admission => 13

def Below : MarketRow → MarketRow → Prop
  | publisher left, publisher right => left < right
  | left, right => left.level < right.level

end MarketRow

namespace MarketCall

def disables? : MarketCall → Option (Actor × Nat)
  | disableAccount actor accountId => some (actor, accountId)
  | _ => none

def transferrer? : MarketCall → Option Actor
  | transfer actor _ _ => some actor
  | _ => none

def moderates? : MarketCall → Option Nat
  | moderate _ publisherId => some publisherId
  | _ => none

/-- After its account and its credential the call locks a publisher, or a second account. -/
def exposed : MarketCall → Bool
  | create _ => false
  | distribution actor _ _ => actor.scope ≠ "operator"
  | call => call.actor?.isSome

structure Asks (call : MarketCall) (listed : List Nat) (held : List MarketRow) (row : MarketRow) :
    Prop where
  code : ∀ codeHash, row = .code codeHash → held = []
  account : ∀ accountId, row = .account accountId → held = [] ∨
    (∃ codeHash, held = [.code codeHash]) ∨
    (∃ browser tokenHash, call = .authenticate browser tokenHash ∧
      held = [.credential browser tokenHash]) ∨
    (∃ actor, call.disables? = some (actor, accountId) ∧
        held = [actor.row, .account actor.accountId]) ∨
    (∃ actor ∈ call.transferrer?, actor.accountId = accountId ∧
      ∀ other ∈ held, ∃ publisherId, other = .publisher publisherId)
  credential : ∀ browser tokenHash, row = .credential browser tokenHash → held = [] ∨
    ∃ actor ∈ call.actor?, actor.row = row ∧ .account actor.accountId ∈ held
  publisher : ∀ publisherId, row = .publisher publisherId → call.exposed = true
  keyAuthorization : ∀ projectId keyId,
    row = .keyAuthorization projectId keyId → .project projectId ∈ held
  moderated : ∀ publisherId ∈ call.moderates?, ∀ projectId,
    row = .project projectId ∨ .project projectId ∈ held → projectId ∈ listed
  order : 4 ≤ row.level → ∀ other ∈ held, other.Below row ∨
    (∃ left right, other = .project left ∧ row = .project right ∧ call.moderates?.isSome = true) ∨
    ∃ projectId left right, other = .keyAuthorization projectId left ∧
      row = .keyAuthorization projectId right
  holdsAccount : ∀ accountId, .account accountId ∈ held →
    (∃ stateHash, row = .authTransaction stateHash) ∨
      ∃ actor ∈ call.actor?, actor.accountId = accountId
  holdsCredential : ∀ browser tokenHash, .credential browser tokenHash ∈ held →
    call = .authenticate browser tokenHash ∨ (∃ stateHash, row = .authTransaction stateHash) ∨
      ∃ actor ∈ call.actor?, actor.row = .credential browser tokenHash ∧
        .account actor.accountId ∈ held
  holdsAuthTransaction : ∀ stateHash, .authTransaction stateHash ∉ held
  holdsKeyAuthorization : ∀ projectId keyId,
    .keyAuthorization projectId keyId ∈ held → .project projectId ∈ held

def Reads (call : MarketCall) (held : List MarketRow) (owner : Nat) : Prop :=
  call.transferrer?.isSome = true → (∃ publisherId, .publisher publisherId ∈ held) →
    .publisher owner ∈ held

def rules (call : MarketCall) : LockRules where
  asks := call.Asks
  reads := call.Reads
  lists held publisherId := call.moderates? = some publisherId ∧ .publisher publisherId ∈ held

end MarketCall

open Locking

def MarketCall.Follows (data : MarketData) (call : MarketCall) : Prop :=
  (call.program data).Always call.rules (fun _ _ _ => True) [] []

variable {data : MarketData}

/-- Rows that an authorized call holds when it asks for a later one. -/
def MarketRow.Passed (other : MarketRow) (actor : Actor) (row : MarketRow) : Prop :=
  other.Below row ∧ (∀ accountId, other = .account accountId → actor.accountId = accountId) ∧
    (∀ browser tokenHash, other = .credential browser tokenHash → other = actor.row) ∧
    (∀ stateHash, other ≠ .authTransaction stateHash) ∧
    ∀ projectId keyId, other ≠ .keyAuthorization projectId keyId

theorem asks_later {call : MarketCall} {actor : Actor} {listed : List Nat} {held : List MarketRow}
    {row : MarketRow} (hactor : call.actor? = some actor)
    (hlevel : 4 ≤ row.level) (hexposed : call.exposed = true ∨ 4 < row.level)
    (hkey : ∀ projectId keyId, row ≠ .keyAuthorization projectId keyId)
    (hmoderates : call.moderates? = none ∨ 4 = row.level ∧ ∀ projectId, .project projectId ∉ held)
    (haccount : .account actor.accountId ∈ held)
    (hheld : ∀ other ∈ held, other.Passed actor row) : call.Asks listed held row where
  code := by
    rintro codeHash rfl
    simp [MarketRow.level] at hlevel
  account := by
    rintro accountId rfl
    simp [MarketRow.level] at hlevel
  credential := by
    rintro browser tokenHash rfl
    simp [MarketRow.level] at hlevel
  publisher := by
    rintro publisherId rfl
    exact hexposed.resolve_right (by simp [MarketRow.level])
  keyAuthorization := fun projectId keyId h => absurd h (hkey projectId keyId)
  moderated := by
    intro publisherId hpublisher projectId hproject
    rcases hmoderates with hnone | ⟨hpublishers, hnoProjects⟩
    · rw [hnone] at hpublisher
      cases hpublisher
    · rcases hproject with rfl | hproject
      · simp [MarketRow.level] at hpublishers
      · exact absurd hproject (hnoProjects projectId)
  order := fun _ other hother => .inl (hheld other hother).1
  holdsAccount := fun accountId hother =>
    .inr ⟨actor, hactor, (hheld _ hother).2.1 accountId rfl⟩
  holdsCredential := fun browser tokenHash hother =>
    .inr (.inr ⟨actor, hactor, ((hheld _ hother).2.2.1 browser tokenHash rfl).symm, haccount⟩)
  holdsAuthTransaction := fun stateHash hother => (hheld _ hother).2.2.2.1 stateHash rfl
  holdsKeyAuthorization := fun projectId keyId hother =>
    absurd rfl ((hheld _ hother).2.2.2.2 projectId keyId)

/-- A row that is locked in one loop with the asked one. -/
def MarketRow.Sibling (other : MarketRow) (call : MarketCall) (listed : List Nat)
    (row : MarketRow) : Prop :=
  (∃ left right, other = .project left ∧ left ∈ listed ∧ row = .project right ∧
    call.moderates?.isSome = true) ∨
  ∃ projectId left right, other = .keyAuthorization projectId left ∧
    row = .keyAuthorization projectId right

theorem MarketCall.Asks.among {call : MarketCall} {listed : List Nat} {held more : List MarketRow}
    {row : MarketRow} (h : call.Asks listed held row)
    (hmore : ∀ other ∈ more, other.Sibling call listed row) (hlevel : 8 ≤ row.level) :
    call.Asks listed (more ++ held) row where
  code := by
    rintro codeHash rfl
    simp [MarketRow.level] at hlevel
  account := by
    rintro accountId rfl
    simp [MarketRow.level] at hlevel
  credential := by
    rintro browser tokenHash rfl
    simp [MarketRow.level] at hlevel
  publisher := h.publisher
  keyAuthorization := fun projectId keyId hrow =>
    List.mem_append_right _ (h.keyAuthorization projectId keyId hrow)
  moderated := by
    intro publisherId hpublisher projectId hproject
    rw [List.mem_append] at hproject
    rcases hproject with hrow | hproject | hproject
    · exact h.moderated publisherId hpublisher projectId (.inl hrow)
    · rcases hmore _ hproject with ⟨left, right, heq, hlisted, -⟩ | ⟨_, _, _, heq, -⟩
      · cases heq
        exact hlisted
      · cases heq
    · exact h.moderated publisherId hpublisher projectId (.inr hproject)
  order := by
    intro hrow other hother
    rw [List.mem_append] at hother
    rcases hother with hother | hother
    · rcases hmore _ hother with ⟨left, right, heq, -, hrow⟩ | hkey
      · exact .inr (.inl ⟨left, right, heq, hrow⟩)
      · exact .inr (.inr hkey)
    · exact h.order hrow other hother
  holdsAccount := by
    intro accountId hother
    rw [List.mem_append] at hother
    rcases hother with hother | hother
    · rcases hmore _ hother with ⟨_, _, heq, -⟩ | ⟨_, _, _, heq, -⟩ <;> cases heq
    · exact h.holdsAccount accountId hother
  holdsCredential := by
    intro browser tokenHash hother
    rw [List.mem_append] at hother
    rcases hother with hother | hother
    · rcases hmore _ hother with ⟨_, _, heq, -⟩ | ⟨_, _, _, heq, -⟩ <;> cases heq
    · refine (h.holdsCredential browser tokenHash hother).imp_right (Or.imp_right ?_)
      rintro ⟨actor, hactor, hrow, haccount⟩
      exact ⟨actor, hactor, hrow, List.mem_append_right _ haccount⟩
  holdsAuthTransaction := by
    intro stateHash hother
    rw [List.mem_append] at hother
    rcases hother with hother | hother
    · rcases hmore _ hother with ⟨_, _, heq, -⟩ | ⟨_, _, _, heq, -⟩ <;> cases heq
    · exact h.holdsAuthTransaction stateHash hother
  holdsKeyAuthorization := by
    intro projectId keyId hother
    rw [List.mem_append] at hother
    rcases hother with hother | hother
    · rcases hmore _ hother with ⟨_, _, heq, -⟩ | ⟨_, _, _, heq, hrow⟩
      · cases heq
      · cases heq
        exact List.mem_append_right _ (h.keyAuthorization _ _ hrow)
    · exact List.mem_append_right _ (h.holdsKeyAuthorization projectId keyId hother)

section Authorized

attribute [local simp] MarketRow.Passed MarketRow.Below MarketRow.level Actor.row

variable {call : MarketCall} {actor : Actor} {ending : Unit → List Nat → List MarketRow → Prop}

theorem asks_next {row : MarketRow} {listed : List Nat} {held : List MarketRow}
    (hactor : call.actor? = some actor) (hexposed : call.exposed = true ∨ 4 < row.level)
    (hmoderates : call.moderates? = none)
    (hrow : 4 ≤ row.level ∧ (∀ projectId keyId, row ≠ .keyAuthorization projectId keyId) ∧
      .account actor.accountId ∈ held ∧ ∀ other ∈ held, other.Passed actor row) :
    call.Asks listed held row :=
  asks_later hactor hrow.1 hexposed hrow.2.1 (.inl hmoderates) hrow.2.2.1 hrow.2.2.2

section

variable (hactor : call.actor? = some actor)

include hactor

theorem always_account (hending : ending () [] [actor.row, .account actor.accountId]) :
    (Authorization.account actor).Always call.rules ending [] [] := by
  simp only [Authorization.account, always_bind, always_get]
  refine ⟨fun _ => ?_, fun _ => ?_, hending⟩
  · constructor <;> simp
  · constructor <;> simp [hactor]

theorem always_publisher (hexposed : call.exposed = true) {publisherId : Nat}
    (hending : ending () [] [.publisher publisherId, actor.row, .account actor.accountId]) :
    (Authorization.publisher actor publisherId).Always call.rules ending [] [] := by
  rw [Authorization.publisher, always_bind]
  apply always_account hactor
  refine ⟨fun _ => ?_, hending⟩
  exact asks_later hactor (by simp) (.inl hexposed) (by simp) (.inr ⟨rfl, by simp⟩) (by simp)
    (by simp)

theorem always_project (hexposed : call.exposed = true) (hmoderates : call.moderates? = none)
    {projectId : Nat}
    (hending : ∀ owner, ending () []
      [.project projectId, .publisher owner, actor.row, .account actor.accountId]) :
    (Authorization.project actor projectId).Always call.rules ending [] [] := by
  rw [Authorization.project, always_bind, always_ownerOf]
  intro owner _
  rw [always_bind]
  apply always_publisher hactor hexposed
  refine ⟨fun _ => ?_, hending owner⟩
  exact asks_next hactor (.inl hexposed) hmoderates (by simp)

end

theorem follows_unauthorized {call : MarketCall} (h : call.actor? = none) :
    call.Follows data := by
  unfold MarketCall.Follows
  cases call with
  | callback stateHash =>
    simp only [MarketCall.program, Authentication.callback, always_bind, always_get,
      always_update]
    refine ⟨fun _ => ?_, by simp⟩
    constructor <;> simp
  | complete account stateHash =>
    cases account with
    | none =>
      simp only [MarketCall.program, Authentication.complete, always_update]
      refine ⟨fun _ => ?_, trivial⟩
      constructor <;> simp
    | some account =>
      simp only [MarketCall.program, Authentication.complete, always_bind, always_get,
        always_update]
      refine ⟨fun _ => ?_, fun _ => ?_, trivial⟩
      · constructor <;> simp
      · constructor <;> simp
  | authenticate browser tokenHash =>
    simp only [MarketCall.program, Authentication.authenticate, always_bind, always_get]
    refine ⟨fun _ => ?_, fun _ => ?_, ?_⟩
    · constructor <;> simp
    · constructor <;> simp
    · cases browser <;> simp
  | csrf actor =>
    simp only [MarketCall.program, Authentication.csrf, always_get]
    refine ⟨fun _ => ?_, trivial⟩
    constructor <;> simp
  | consent actor stateHash =>
    simp only [MarketCall.program, Authentication.consent, always_bind, always_get,
      always_update]
    refine ⟨fun _ => ?_, fun _ => ?_, by simp⟩
    · constructor <;> simp
    · constructor <;> simp
  | exchange codeHash =>
    simp only [MarketCall.program, Authentication.exchange, always_bind, always_get,
      always_update]
    refine ⟨fun _ => ?_, fun _ => ?_, by simp⟩
    · constructor <;> simp
    · constructor <;> simp
  | logout actor =>
    simp only [MarketCall.program, Authentication.logout, always_update]
    refine ⟨fun _ => ?_, trivial⟩
    constructor <;> simp
  | interrupted operationId =>
    simp only [MarketCall.program, Publication.interrupted, always_bind, always_get,
      always_update]
    refine ⟨fun _ => ?_, by simp⟩
    constructor <;> simp [MarketCall.moderates?]
  | heartbeat operationId =>
    simp only [MarketCall.program, Publication.heartbeat, always_bind, always_get,
      always_update]
    refine ⟨fun _ => ?_, by simp, fun _ => ?_, by simp⟩
    · constructor <;> simp [MarketCall.moderates?]
    · constructor <;> simp [MarketCall.moderates?]
  | cleanup =>
    simp only [MarketCall.program, Publication.cleanup, always_bind, always_get, always_update]
    refine ⟨fun _ => ?_, by simp⟩
    constructor <;> simp [MarketCall.moderates?]
  | _ => cases h

theorem follows_showPublisher (actor : Actor) (publisherId : Nat) :
    (MarketCall.showPublisher actor publisherId).Follows data :=
  always_publisher rfl rfl trivial

theorem follows_updatePublisher (actor : Actor) (publisherId : Nat) :
    (MarketCall.update actor publisherId).Follows data := by
  simp only [MarketCall.Follows, MarketCall.program, PublisherManagement.update, always_bind,
    always_update]
  exact always_publisher rfl rfl (by simp)

theorem follows_membership (actor : Actor) (publisherId : Nat) (member : Option Nat) :
    (MarketCall.membership actor publisherId member).Follows data := by
  simp only [MarketCall.Follows, MarketCall.program, PublisherManagement.membership, always_bind]
  apply always_publisher rfl rfl
  cases member with
  | none => trivial
  | some accountId =>
    refine ⟨fun _ => ?_, trivial⟩
    exact asks_next rfl (.inl rfl) rfl (by simp)

theorem follows_prove (actor : Actor) (publisherId challengeId : Nat) :
    (MarketCall.prove actor publisherId challengeId).Follows data := by
  simp only [MarketCall.Follows, MarketCall.program, PublisherManagement.prove, always_bind,
    always_get, always_update]
  apply always_publisher rfl rfl
  refine ⟨fun _ => ?_, by simp⟩
  exact asks_next rfl (.inl rfl) rfl (by simp)

theorem follows_keyState (actor : Actor) (publisherId keyId : Nat) :
    (MarketCall.keyState actor publisherId keyId).Follows data := by
  simp only [MarketCall.Follows, MarketCall.program, PublisherManagement.keyState, always_bind,
    always_get, always_update]
  apply always_publisher rfl rfl
  refine ⟨fun _ => ?_, by simp⟩
  exact asks_next rfl (.inl rfl) rfl (by simp)

theorem follows_authorizeKey (actor : Actor) (projectId keyId : Nat) :
    (MarketCall.authorizeKey actor projectId keyId).Follows data := by
  simp only [MarketCall.Follows, MarketCall.program, PublisherManagement.authorizeKey, always_bind]
  refine always_project rfl rfl rfl fun owner => ⟨fun _ => ?_, trivial⟩
  exact asks_next rfl (.inl rfl) rfl (by simp)

theorem follows_createUpload (actor : Actor) (projectId : Nat) (existing : Option Nat) :
    (MarketCall.createUpload actor projectId existing).Follows data := by
  simp only [MarketCall.Follows, MarketCall.program, Publication.createUpload, always_bind]
  refine always_project rfl rfl rfl fun owner => ?_
  cases existing with
  | none => trivial
  | some operationId =>
    refine ⟨fun _ => ?_, trivial⟩
    exact asks_next rfl (.inl rfl) rfl (by simp)

theorem always_operation (hactor : call.actor? = some actor) (hexposed : call.exposed = true)
    (hmoderates : call.moderates? = none) {operationId : Nat}
    (hending : ∀ owner, ending () [] [.operation operationId,
      .project (data.operationProject operationId), .publisher owner, actor.row,
      .account actor.accountId]) :
    (Publication.operation data actor operationId).Always call.rules ending [] [] := by
  rw [Publication.operation, always_bind]
  refine always_project hactor hexposed hmoderates fun owner => ⟨fun _ => ?_, hending owner⟩
  exact asks_next hactor (.inl hexposed) hmoderates (by simp)

theorem follows_receive (actor : Actor) (operationId : Nat) :
    (MarketCall.receive actor operationId).Follows data := by
  simp only [MarketCall.Follows, MarketCall.program, Publication.receive, always_bind,
    always_update]
  exact always_operation rfl rfl rfl fun owner => by simp

theorem follows_verifyUpload (actor : Actor) (operationId : Nat) :
    (MarketCall.verifyUpload actor operationId).Follows data := by
  simp only [MarketCall.Follows, MarketCall.program, Publication.verifyUpload, always_bind,
    always_get, always_update]
  refine always_operation rfl rfl rfl fun owner => ⟨fun _ => ?_, by simp⟩
  exact asks_next rfl (.inl rfl) rfl (by simp)

theorem follows_reserve (actor : Actor) (operationId keyId : Nat) :
    (MarketCall.reserve actor operationId keyId).Follows data := by
  simp only [MarketCall.Follows, MarketCall.program, Publication.reserve, always_bind,
    always_get, always_update]
  refine always_operation rfl rfl rfl fun owner => ⟨by simp, fun _ => ?_, by simp⟩
  exact asks_next rfl (.inl rfl) rfl (by simp)

theorem follows_publish (actor : Actor) (projectId releaseId keyId : Nat) :
    (MarketCall.publish actor projectId releaseId keyId).Follows data := by
  simp only [MarketCall.Follows, MarketCall.program, Publication.publish, always_bind,
    always_get, always_update]
  refine always_project rfl rfl rfl fun owner => ⟨fun _ => ?_, fun _ => ?_, by simp⟩
  · exact asks_next rfl (.inl rfl) rfl (by simp)
  · exact asks_next rfl (.inl rfl) rfl (by simp)

theorem follows_listing (actor : Actor) (projectId : Nat) :
    (MarketCall.listing actor projectId).Follows data := by
  simp only [MarketCall.Follows, MarketCall.program, Publication.listing, always_bind,
    always_get, always_update]
  refine always_project rfl rfl rfl fun owner => ⟨fun _ => ?_, by simp⟩
  exact asks_next rfl (.inl rfl) rfl (by simp)

theorem follows_distribution (actor : Actor) (projectId releaseId : Nat) :
    (MarketCall.distribution actor projectId releaseId).Follows data := by
  simp only [MarketCall.Follows, MarketCall.program, Publication.distribution]
  by_cases hscope : actor.scope = "operator"
  · rw [if_pos hscope]
    simp only [Authorization.operator, always_bind, always_get, always_update]
    refine always_account rfl ⟨fun _ => ?_, fun _ => ?_, by simp⟩
    · exact asks_next rfl (.inr (by simp)) rfl (by simp)
    · exact asks_next rfl (.inr (by simp)) rfl (by simp)
  · rw [if_neg hscope]
    simp only [always_bind, always_get, always_update]
    have hexposed : (MarketCall.distribution actor projectId releaseId).exposed = true := by
      simp [MarketCall.exposed, hscope]
    refine always_project rfl hexposed rfl fun owner => ⟨fun _ => ?_, by simp⟩
    exact asks_next rfl (.inl hexposed) rfl (by simp)

theorem follows_moderate (actor : Actor) (publisherId : Nat) :
    (MarketCall.moderate actor publisherId).Follows data := by
  simp only [MarketCall.Follows, MarketCall.program, PublisherManagement.moderate,
    Authorization.operator, always_bind, always_get, always_update, always_projectsOf]
  refine always_account rfl ⟨fun _ => ?_, by simp, ⟨rfl, by simp⟩, fun projects => ?_⟩
  · exact asks_later rfl (by simp) (.inl rfl) (by simp) (.inr ⟨rfl, by simp⟩) (by simp)
      (by simp)
  · apply always_updateAll
    case hending =>
      intro _ _
      trivial
    case hasks =>
      intro row hrow more hmore hnew
      obtain ⟨projectId, hproject, rfl⟩ := List.mem_map.mp hrow
      have hbase : (MarketCall.moderate actor publisherId).Asks projects
          [.publisher publisherId, .publisher publisherId, actor.row,
            .account actor.accountId] (.project projectId) := by
        constructor <;> simp [MarketCall.actor?, hproject]
      refine hbase.among ?_ (by simp)
      intro other hother
      obtain ⟨left, hleft, rfl⟩ := List.mem_map.mp (hmore hother)
      exact .inl ⟨left, projectId, rfl, hleft, rfl, rfl⟩

theorem follows_transfer (actor : Actor) (projectId destination : Nat) :
    (MarketCall.transfer actor projectId destination).Follows data := by
  have hactor : (MarketCall.transfer actor projectId destination).actor? = some actor := rfl
  simp only [MarketCall.Follows, MarketCall.program, PublisherManagement.transfer, getSorted,
    Authorization.project, Authorization.publisher, Authorization.account, always_bind, always_get,
    always_ownerOf]
  intro initial _
  refine ⟨fun _ => ?_, fun hnew => ?_, fun owner howner => ⟨fun _ => ?_, fun _ => ?_,
    fun hnew => ?_, fun _ => ?_, fun hnew => ?_, trivial⟩⟩
  · constructor <;> simp [MarketCall.exposed, MarketCall.actor?, MarketCall.moderates?]
  · have hlt : min initial destination < max initial destination := by
      have hne : max initial destination ≠ min initial destination := by
        rintro heq
        rw [heq] at hnew
        simp at hnew
      omega
    constructor <;> simp [MarketCall.exposed, MarketCall.actor?, MarketCall.moderates?, hlt]
  · constructor <;> simp [MarketCall.transferrer?, MarketCall.moderates?]
  · constructor <;> simp [MarketCall.moderates?, hactor]
  · -- the second reading is among the publishers
    have hheld := howner rfl ⟨_, List.mem_cons_self⟩
    exact absurd (List.mem_cons_of_mem _ (List.mem_cons_of_mem _ hheld)) hnew
  · exact asks_next rfl (.inl rfl) rfl (by simp)
  · exfalso
    rcases Nat.le_total initial destination with hle | hle
    · simp [hle] at hnew
    · simp [hle] at hnew

theorem follows_finishTransfer (actor : Actor) (transferId : Nat) (accept : Bool)
    (keys : List Nat) :
    (MarketCall.finishTransfer actor transferId accept keys).Follows data := by
  have hactor : (MarketCall.finishTransfer actor transferId accept keys).actor? = some actor := rfl
  simp only [MarketCall.Follows, MarketCall.program, PublisherManagement.finishTransfer, getSorted,
    Authorization.publisher, always_bind, always_get]
  refine always_account hactor ⟨fun _ => ?_, fun hnew => ?_, ?_⟩
  · exact asks_next rfl (.inl rfl) rfl (by simp)
  · have hlt : min (data.transferSource transferId) (data.transferDestination transferId) <
        max (data.transferSource transferId) (data.transferDestination transferId) := by
      have hne : max (data.transferSource transferId) (data.transferDestination transferId) ≠
          min (data.transferSource transferId) (data.transferDestination transferId) := by
        rintro heq
        rw [heq] at hnew
        simp at hnew
      omega
    exact asks_later hactor (by simp) (.inl rfl) (by simp) (.inl rfl) (by simp) (by simp [hlt])
  · simp only [Authorization.account, always_bind, always_get]
    refine ⟨by simp, by simp, fun hnew => ?_, fun _ => ?_, fun _ => ?_, ?_⟩
    · exfalso
      rcases Nat.le_total (data.transferSource transferId)
        (data.transferDestination transferId) with hle | hle <;>
        cases accept <;> simp [hle] at hnew
    · exact asks_next rfl (.inl rfl) rfl (by simp)
    · exact asks_next rfl (.inl rfl) rfl (by simp)
    · cases accept with
      | false => simp
      | true =>
        simp only [if_pos, always_bind, always_handOver, always_update]
        refine ⟨⟨?_, by simp⟩, by simp, ?_⟩
        · rcases Nat.le_total (data.transferSource transferId)
            (data.transferDestination transferId) with hle | hle <;> simp [hle]
        · apply always_updateAll
          case hending =>
            intro more _
            simp
          case hasks =>
            intro row hrow more hmore hnew
            obtain ⟨keyId, -, rfl⟩ := List.mem_map.mp hrow
            refine MarketCall.Asks.among ?_ ?_ (by simp)
            · constructor <;> simp [MarketCall.moderates?, hactor]
            · intro other hother
              obtain ⟨left, -, rfl⟩ := List.mem_map.mp (hmore hother)
              exact .inr ⟨_, left, keyId, rfl, rfl⟩

theorem follows_disableAccount (actor : Actor) (accountId : Nat) :
    (MarketCall.disableAccount actor accountId).Follows data := by
  simp only [MarketCall.Follows, MarketCall.program, PublisherManagement.disableAccount,
    Authorization.operator, always_bind, always_get, always_update]
  refine always_account rfl ⟨fun _ => ?_, by simp⟩
  constructor <;> simp [MarketCall.disables?, MarketCall.actor?]

theorem MarketCall.follows (call : MarketCall) : call.Follows data := by
  cases call with
  | create actor => exact always_account rfl trivial
  | showPublisher actor publisherId => exact follows_showPublisher actor publisherId
  | update actor publisherId => exact follows_updatePublisher actor publisherId
  | membership actor publisherId member => exact follows_membership actor publisherId member
  | moderate actor publisherId => exact follows_moderate actor publisherId
  | disableAccount actor accountId => exact follows_disableAccount actor accountId
  | project actor projectId => exact always_project rfl rfl rfl fun _ => trivial
  | transfer actor projectId destination => exact follows_transfer actor projectId destination
  | finishTransfer actor transferId accept keys =>
    exact follows_finishTransfer actor transferId accept keys
  | prove actor publisherId challengeId => exact follows_prove actor publisherId challengeId
  | keyState actor publisherId keyId => exact follows_keyState actor publisherId keyId
  | authorizeKey actor projectId keyId => exact follows_authorizeKey actor projectId keyId
  | createUpload actor projectId existing => exact follows_createUpload actor projectId existing
  | receive actor operationId => exact follows_receive actor operationId
  | verifyUpload actor operationId => exact follows_verifyUpload actor operationId
  | reserve actor operationId keyId => exact follows_reserve actor operationId keyId
  | publish actor projectId releaseId keyId =>
    exact follows_publish actor projectId releaseId keyId
  | listing actor projectId => exact follows_listing actor projectId
  | distribution actor projectId releaseId =>
    exact follows_distribution actor projectId releaseId
  | callback | complete | authenticate | csrf | consent | exchange | logout | interrupted
  | heartbeat | cleanup => exact follows_unauthorized rfl

end Authorized

end NervOS
