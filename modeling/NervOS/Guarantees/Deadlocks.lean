/-
When the marketplace's transactions cannot wait for each other in a circle, and a circle where
they can.
-/
import NervOS.Guarantees.LoginBroker
import NervOS.Refinement.RowLocks
import NervOS.Relational.WaitsFor

namespace NervOS

open Relational Relation

def MarketTransaction.asks? (tx : MarketTransaction) : Option MarketRow :=
  match tx.program with
  | .lock row _ => if row ∈ tx.held then none else some row
  | _ => none

def Marketplace.Waits (market : Marketplace) (tx other : MarketTransaction) : Prop :=
  tx ∈ market.running ∧ other ∈ market.running ∧ tx.id ≠ other.id ∧
    ∃ row ∈ tx.asks?, row ∈ other.held

def Marketplace.Deadlocked (market : Marketplace) : Prop :=
  ∃ tx, TransGen market.Waits tx tx

namespace MarketCall

def credential? : MarketCall → Option MarketRow
  | authenticate browser tokenHash => some (.credential browser tokenHash)
  | _ => none

def Collides (call other : MarketCall) : Prop :=
  (∃ row ∈ call.credential?, ∃ actor ∈ other.actor?, actor.row = row) ∨
    (∃ disabling ∈ call.disables?, ∃ target ∈ other.disables?,
      target.1.accountId = disabling.2) ∨
    ∃ actor ∈ call.transferrer?, other.exposed = true ∧
      ∃ another ∈ other.actor?, another.accountId = actor.accountId

instance (call other : MarketCall) : Decidable (call.Collides other) :=
  inferInstanceAs (Decidable ((∃ row ∈ call.credential?, ∃ actor ∈ other.actor?, actor.row = row) ∨
    (∃ disabling ∈ call.disables?, ∃ target ∈ other.disables?,
      target.1.accountId = disabling.2) ∨
    ∃ actor ∈ call.transferrer?, other.exposed = true ∧
      ∃ another ∈ other.actor?, another.accountId = actor.accountId))

end MarketCall

def MarketTransaction.Rereads (tx : MarketTransaction) (owner : Nat → Nat) : Prop :=
  match tx.program with
  | .readOwner project _ => tx.call.Reads tx.held (owner project)
  | _ => True

/-- What collides does not overlap, and no transfer finds another owner. -/
def Marketplace.Separate (market : Marketplace) : MarketOp → Prop
  | .begin _ call => ∀ tx ∈ market.running, ¬ call.Collides tx.call ∧ ¬ tx.call.Collides call
  | .step id _ => ∀ tx ∈ market.transaction? id, tx.Rereads market.owner
  | .abort _ => True

section Invariant

variable {data : MarketData} {market : Marketplace}

structure MarketTransaction.Sound (data : MarketData) (owner : Nat → Nat)
    (tx : MarketTransaction) : Prop where
  authentic : Marketplace.Authentic data tx.call
  always : tx.program.Always tx.call.rules (fun _ _ _ => True) tx.listed tx.held
  listed : ∀ project ∈ tx.listed, ∃ publisher ∈ tx.call.moderates?,
    .publisher publisher ∈ tx.held ∧ owner project = publisher
  pending : ∀ handOver ∈ tx.pending, .publisher handOver.2.1 ∈ tx.held ∧
    .project handOver.1 ∈ tx.held ∧ owner handOver.1 = handOver.2.1

structure Marketplace.Kept (data : MarketData) (market : Marketplace) : Prop where
  ids : (market.running.map MarketTransaction.id).Nodup
  sound : ∀ tx ∈ market.running, tx.Sound data market.owner
  apart : ∀ tx ∈ market.running, ∀ other ∈ market.running, ∀ row ∈ tx.held, row ∈ other.held →
    tx = other
  separate : ∀ tx ∈ market.running, ∀ other ∈ market.running, tx ≠ other →
    ¬ tx.call.Collides other.call

theorem Marketplace.Kept.begin (h : market.Kept data) (id : Nat) {call : MarketCall}
    (hseparate : market.Separate (.begin id call)) : (market.begin data id call).Kept data := by
  unfold Marketplace.begin
  split
  case isFalse => exact h
  case isTrue hbegins =>
    obtain ⟨hnew, hauthentic⟩ := hbegins
    constructor
    case ids => exact Keyed.nodup_append h.ids hnew
    case sound =>
      intro tx htx
      rw [List.mem_append, List.mem_singleton] at htx
      rcases htx with htx | rfl
      · exact h.sound tx htx
      · exact ⟨hauthentic, call.follows, by simp, by simp⟩
    case apart =>
      intro tx htx other hother row hrow hheld
      rw [List.mem_append, List.mem_singleton] at htx hother
      rcases htx with htx | rfl
      · rcases hother with hother | rfl
        · exact h.apart tx htx other hother row hrow hheld
        · cases hheld
      · cases hrow
    case separate =>
      intro tx htx other hother hne
      rw [List.mem_append, List.mem_singleton] at htx hother
      rcases htx with htx | rfl
      · rcases hother with hother | rfl
        · exact h.separate tx htx other hother hne
        · exact (hseparate tx htx).2
      · rcases hother with hother | rfl
        · exact (hseparate other hother).1
        · exact absurd rfl hne

variable {tx : MarketTransaction}

theorem Marketplace.mem_remove {id : Nat} (h : tx ∈ (market.remove id).running) :
    tx ∈ market.running ∧ tx.id ≠ id := by
  simpa [Marketplace.remove] using h

section

variable (h : market.Kept data)

include h

theorem Marketplace.Kept.remove (id : Nat) :
    (market.remove id).Kept data where
  ids := h.ids.sublist (List.filter_sublist.map _)
  sound := fun tx htx => h.sound tx (Marketplace.mem_remove htx).1
  apart := fun tx htx other hother =>
    h.apart tx (Marketplace.mem_remove htx).1 other (Marketplace.mem_remove hother).1
  separate := fun tx htx other hother =>
    h.separate tx (Marketplace.mem_remove htx).1 other (Marketplace.mem_remove hother).1

theorem Marketplace.Kept.replace {tx tx' : MarketTransaction} (htx : tx ∈ market.running)
    (hid : tx'.id = tx.id) (hcall : tx'.call = tx.call) (hsound : tx'.Sound data market.owner)
    (hheld : ∀ row ∈ tx'.held, row ∈ tx.held ∨ ¬ market.HeldByOther tx.id row) :
    (market.replace tx').Kept data := by
  have hapart : ∀ other ∈ market.running, other.id ≠ tx.id → ∀ row ∈ tx'.held,
      row ∉ other.held := by
    intro other hother hne row hrow hboth
    rcases hheld row hrow with hmine | hfree
    · exact hne (congrArg _ (h.apart tx htx other hother row hmine hboth).symm)
    · exact hfree ⟨other, hother, hne, hboth⟩
  constructor
  case ids =>
    have hids : ((market.replace tx').running.map MarketTransaction.id) =
        market.running.map MarketTransaction.id := by
      rw [Marketplace.replace, Keyed.update, List.map_map]
      apply List.map_congr_left
      intro other _
      by_cases hsame : other.id = tx'.id
      · simp [hsame]
      · simp [hsame]
    rw [hids]
    exact h.ids
  case sound =>
    intro other hother
    obtain ⟨before, hbefore, rfl⟩ := Keyed.mem_update hother
    split
    · exact hsound
    · exact h.sound before hbefore
  case apart =>
    intro left hleft right hright row hrow hboth
    obtain ⟨before, hbefore, rfl⟩ := Keyed.mem_update hleft
    obtain ⟨after, hafter, rfl⟩ := Keyed.mem_update hright
    by_cases hl : before.id = tx'.id
    · by_cases hr : after.id = tx'.id
      · rw [if_pos hl, if_pos hr]
      · rw [if_pos hl] at hrow
        rw [if_neg hr] at hboth
        exact absurd hboth (hapart after hafter (hid ▸ hr) row hrow)
    · by_cases hr : after.id = tx'.id
      · rw [if_neg hl] at hrow
        rw [if_pos hr] at hboth
        exact absurd hrow (hapart before hbefore (hid ▸ hl) row hboth)
      · rw [if_neg hl] at hrow ⊢
        rw [if_neg hr] at hboth ⊢
        exact h.apart before hbefore after hafter row hrow hboth
  case separate =>
    intro left hleft right hright hne
    obtain ⟨before, hbefore, rfl⟩ := Keyed.mem_update hleft
    obtain ⟨after, hafter, rfl⟩ := Keyed.mem_update hright
    by_cases hl : before.id = tx'.id
    · by_cases hr : after.id = tx'.id
      · rw [if_pos hl, if_pos hr] at hne
        exact absurd rfl hne
      · rw [if_pos hl, if_neg hr, hcall]
        refine h.separate tx htx after hafter ?_
        rintro rfl
        exact hr hid.symm
    · by_cases hr : after.id = tx'.id
      · rw [if_neg hl, if_pos hr, hcall]
        refine h.separate before hbefore tx htx ?_
        rintro rfl
        exact hl hid.symm
      · rw [if_neg hl, if_neg hr] at hne ⊢
        exact h.separate before hbefore after hafter hne

theorem Marketplace.Kept.commit (htx : tx ∈ market.running) :
    (market.commit tx).Kept data := by
  unfold Marketplace.commit
  have hremoved := h.remove tx.id
  split
  case h_1 => exact hremoved
  case h_2 project source destination hpending =>
    obtain ⟨hsource, hproject, howner⟩ := (h.sound tx htx).pending _ hpending
    refine { hremoved with sound := ?_ }
    intro other hother
    obtain ⟨hmem, hne⟩ := Marketplace.mem_remove hother
    have hsound := h.sound other hmem
    -- the rows under the changed owner are locked by the one that changes it
    refine { hsound with listed := ?_, pending := ?_ }
    · intro listed hlisted
      obtain ⟨publisher, hmoderates, hheld, hlistedOwner⟩ := hsound.listed listed hlisted
      refine ⟨publisher, hmoderates, hheld, ?_⟩
      by_cases hsame : listed = project
      · rw [hsame, howner] at hlistedOwner
        dsimp only at hlistedOwner
        rw [← hlistedOwner] at hheld
        exact absurd (congrArg _ (h.apart other hmem tx htx _ hheld hsource)) hne
      · exact (Function.update_of_ne hsame _ _).trans hlistedOwner
    · intro handOver hhandOver
      obtain ⟨hpublisher, hheld, hothersOwner⟩ := hsound.pending handOver hhandOver
      refine ⟨hpublisher, hheld, ?_⟩
      by_cases hsame : handOver.1 = project
      · rw [hsame] at hheld
        exact absurd (congrArg _ (h.apart other hmem tx htx _ hheld hproject)) hne
      · exact (Function.update_of_ne hsame _ _).trans hothersOwner

theorem Marketplace.Kept.advance (htx : tx ∈ market.running) (hrereads : tx.Rereads market.owner)
    (projects : List Nat) :
    (market.advance tx projects).Kept data := by
  have hsound := h.sound tx htx
  have halways := hsound.always
  unfold Marketplace.advance
  unfold MarketTransaction.Rereads at hrereads
  split
  case h_1 => exact h.commit htx
  case h_2 row next hprogram =>
    rw [hprogram] at halways
    split
    · exact h
    case isFalse hfree =>
      refine h.replace htx rfl rfl ⟨hsound.authentic, halways.2, ?_, ?_⟩ ?_
      · intro project hproject
        obtain ⟨publisher, hmoderates, hheld, howner⟩ := hsound.listed project hproject
        exact ⟨publisher, hmoderates, List.mem_cons_of_mem _ hheld, howner⟩
      · intro handOver hhandOver
        obtain ⟨hpublisher, hheld, howner⟩ := hsound.pending handOver hhandOver
        exact ⟨List.mem_cons_of_mem _ hpublisher, List.mem_cons_of_mem _ hheld, howner⟩
      · intro other hother
        rcases List.mem_cons.mp hother with rfl | hother
        · exact .inr hfree
        · exact .inl hother
  case h_3 project next hprogram =>
    rw [hprogram] at halways hrereads
    exact h.replace htx rfl rfl
      ⟨hsound.authentic, halways _ hrereads, hsound.listed, hsound.pending⟩
      fun row hrow => .inl hrow
  case h_4 publisher next hprogram =>
    rw [hprogram] at halways
    split
    case isFalse => exact h
    case isTrue howned =>
      refine h.replace htx rfl rfl ⟨hsound.authentic, halways.2 projects, ?_, hsound.pending⟩
        fun row hrow => .inl hrow
      intro project hproject
      exact ⟨publisher, halways.1.1, halways.1.2, howned project hproject⟩
  case h_5 project source destination next hprogram =>
    rw [hprogram] at halways
    split
    case isFalse => exact h.remove tx.id
    case isTrue howner =>
      refine h.replace htx rfl rfl ⟨hsound.authentic, halways.2, hsound.listed, ?_⟩
        fun row hrow => .inl hrow
      intro handOver hhandOver
      obtain rfl := Option.some.inj hhandOver
      exact ⟨halways.1.1, halways.1.2, howner⟩

theorem Marketplace.Kept.exec {op : MarketOp} (hseparate : market.Separate op) :
    (market.exec data op).Kept data := by
  cases op with
  | begin id call => exact h.begin id hseparate
  | abort id => exact h.remove id
  | step id projects =>
    unfold Marketplace.exec
    dsimp only
    split
    case h_1 => exact h
    case h_2 tx hfound =>
      exact h.advance (Keyed.row?_eq_some hfound).1 (hseparate tx hfound) projects

end

end Invariant

section Cycles

variable {data : MarketData} {market : Marketplace} {tx other : MarketTransaction}
  {row next : MarketRow}

structure Marketplace.Circled (market : Marketplace) (tx : MarketTransaction) (row : MarketRow) :
    Prop where
  cycle : TransGen market.Waits tx tx
  asks : tx.asks? = some row

/-- It asks for what the next one of the cycle holds. -/
structure Marketplace.Behind (market : Marketplace) (tx : MarketTransaction) (row : MarketRow)
    (other : MarketTransaction) (next : MarketRow) : Prop where
  circled : market.Circled tx row
  circledNext : market.Circled other next
  running : tx ∈ market.running
  runningNext : other ∈ market.running
  ne : tx ≠ other
  held : row ∈ other.held

namespace Marketplace

theorem behind_of_waits (hwaits : market.Waits tx other) (htx : TransGen market.Waits tx tx)
    (hother : TransGen market.Waits other other) :
    ∃ row next, market.Behind tx row other next := by
  obtain ⟨hrunning, hrunningNext, hne, row, hrow, hheld⟩ := hwaits
  obtain ⟨_, ⟨-, -, -, next, hnext, -⟩, -⟩ := exists_step_of_cycle hother
  refine ⟨row, next, ⟨htx, hrow⟩, ⟨hother, hnext⟩, hrunning, hrunningNext, ?_, hheld⟩
  rintro rfl
  exact hne rfl

section

variable (h : market.Circled tx row)

include h

theorem Circled.ahead :
    ∃ other next, market.Behind tx row other next := by
  obtain ⟨other, hwaits, hother⟩ := exists_step_of_cycle h.cycle
  obtain ⟨asked, next, hbehind⟩ := behind_of_waits hwaits h.cycle hother
  have hsame : some row = some asked := h.asks.symm.trans hbehind.circled.asks
  obtain rfl := Option.some.inj hsame
  exact ⟨other, next, hbehind⟩

theorem Circled.previous :
    ∃ before asked, market.Behind before asked tx row := by
  obtain ⟨before, hwaits, hbefore⟩ := exists_into_of_cycle h.cycle
  obtain ⟨asked, next, hbehind⟩ := behind_of_waits hwaits hbefore h.cycle
  have hsame : some row = some next := h.asks.symm.trans hbehind.circledNext.asks
  obtain rfl := Option.some.inj hsame
  exact ⟨before, asked, hbehind⟩

theorem Circled.held_ne_nil : tx.held ≠ [] := by
  obtain ⟨_, _, hbehind⟩ := h.previous
  exact List.ne_nil_of_mem hbehind.held

theorem Circled.running : tx ∈ market.running := by
  obtain ⟨_, _, hbehind⟩ := h.ahead
  exact hbehind.running

end

section

variable (h : market.Kept data)

include h

theorem Kept.asks (hcircled : market.Circled tx row) :
    tx.call.Asks tx.listed tx.held row := by
  have halways := (h.sound tx hcircled.running).always
  have hasks := hcircled.asks
  unfold MarketTransaction.asks? at hasks
  split at hasks
  case h_2 => cases hasks
  case h_1 asked program hprogram =>
    rw [hprogram] at halways
    split at hasks
    case isTrue => cases hasks
    case isFalse hnew =>
      obtain rfl := Option.some.inj hasks
      exact halways.1 hnew

theorem Kept.not_code {codeHash : Digest} :
    ¬ market.Circled tx (.code codeHash) := by
  intro hcircled
  exact hcircled.held_ne_nil ((h.asks hcircled).code codeHash rfl)

theorem Kept.not_authTransaction {stateHash : Digest} :
    ¬ market.Circled tx (.authTransaction stateHash) := by
  intro hcircled
  obtain ⟨other, next, hbehind⟩ := hcircled.ahead
  exact (h.asks hbehind.circledNext).holdsAuthTransaction stateHash hbehind.held

theorem Kept.not_credential {browser : Bool} {tokenHash : Digest} :
    ¬ market.Circled tx (.credential browser tokenHash) := by
  intro hcircled
  obtain ⟨other, next, hbehind⟩ := hcircled.ahead
  rcases (h.asks hcircled).credential browser tokenHash rfl with hnil | ⟨actor, hactor, hrow, hmine⟩
  · exact hcircled.held_ne_nil hnil
  · rcases (h.asks hbehind.circledNext).holdsCredential browser tokenHash hbehind.held with
      hauthenticates | ⟨stateHash, rfl⟩ | ⟨another, hanother, hsame, hheld⟩
    · refine h.separate other hbehind.runningNext tx hbehind.running hbehind.ne.symm (.inl ?_)
      rw [hauthenticates]
      exact ⟨_, rfl, actor, hactor, hrow⟩
    · exact h.not_authTransaction hbehind.circledNext
    · have haccount := (h.sound tx hbehind.running).authentic actor hactor
      have hothers := (h.sound other hbehind.runningNext).authentic another hanother
      rw [Actor.row, MarketRow.credential.injEq] at hrow hsame
      rw [hrow.1, hrow.2] at haccount
      rw [hsame.1, hsame.2] at hothers
      rw [haccount] at hmine
      rw [hothers] at hheld
      exact hbehind.ne (h.apart tx hbehind.running other hbehind.runningNext _ hmine hheld)

end

variable {call : MarketCall} {accountId : Nat}

theorem actor_of_disables {actor : Actor} (h : call.disables? = some (actor, accountId)) :
    call.actor? = some actor := by
  cases call with
  | disableAccount =>
    simp only [MarketCall.disables?, Option.some.injEq, Prod.mk.injEq] at h
    simp [MarketCall.actor?, h.1]
  | _ => cases h

theorem exposed_of_disables {disabling : Actor × Nat} (h : call.disables? = some disabling) :
    call.exposed = true := by
  cases call with
  | disableAccount => rfl
  | _ => cases h

theorem exposed_of_transferrer {actor : Actor} (h : call.transferrer? = some actor) :
    call.exposed = true := by
  cases call with
  | transfer => rfl
  | _ => cases h

variable (h : market.Kept data)

include h

theorem Kept.account_cases (hcircled : market.Circled tx (.account accountId)) :
    (∃ actor, tx.call.disables? = some (actor, accountId) ∧
      tx.held = [actor.row, .account actor.accountId]) ∨
    ∃ actor ∈ tx.call.transferrer?, actor.accountId = accountId ∧
      ∀ other ∈ tx.held, ∃ publisherId, other = .publisher publisherId := by
  obtain ⟨before, asked, hbehind⟩ := hcircled.previous
  have hheld := hbehind.held
  rcases (h.asks hcircled).account accountId rfl with
    hnil | ⟨codeHash, hcode⟩ | ⟨browser, tokenHash, -, hcredential⟩ | hdisables | htransfers
  · exact absurd hnil hcircled.held_ne_nil
  · rw [hcode, List.mem_singleton] at hheld
    exact absurd (hheld ▸ hbehind.circled) h.not_code
  · rw [hcredential, List.mem_singleton] at hheld
    exact absurd (hheld ▸ hbehind.circled) h.not_credential
  · exact .inl hdisables
  · exact .inr htransfers

theorem Kept.transfers (hcircled : market.Circled tx (.account accountId)) :
    ∃ actor ∈ tx.call.transferrer?, actor.accountId = accountId ∧
      ∀ other ∈ tx.held, ∃ publisherId, other = .publisher publisherId := by
  refine (h.account_cases hcircled).resolve_left ?_
  rintro ⟨actor, hdisables, hholds⟩
  obtain ⟨before, asked, hbehind⟩ := hcircled.previous
  have hheld := hbehind.held
  have hapart := h.separate before hbehind.running tx hbehind.runningNext hbehind.ne
  rw [hholds, List.mem_cons, List.mem_singleton] at hheld
  rcases hheld with rfl | rfl
  · exact h.not_credential hbehind.circled
  · rcases h.account_cases hbehind.circled with
      ⟨disabler, hbefore, -⟩ | ⟨transferrer, hbefore, haccount, -⟩
    · exact hapart (.inr (.inl ⟨_, hbefore, _, hdisables, rfl⟩))
    · exact hapart (.inr (.inr ⟨transferrer, hbefore, exposed_of_disables hdisables, actor,
        actor_of_disables hdisables, haccount.symm⟩))

theorem Kept.above_account (hbehind : market.Behind tx (.account accountId) other next) :
    6 ≤ next.level := by
  obtain ⟨actor, htransfers, haccount, -⟩ := h.transfers hbehind.circled
  have hnext := hbehind.circledNext
  have hasks := h.asks hnext
  have hcovered : other.call.exposed = false := by
    rcases hasks.holdsAccount accountId hbehind.held with ⟨stateHash, rfl⟩ | ⟨another, hacts, hsame⟩
    · exact absurd hnext h.not_authTransaction
    · by_contra hexposed
      rw [Bool.not_eq_false] at hexposed
      exact h.separate tx hbehind.running other hbehind.runningNext hbehind.ne
        (.inr (.inr ⟨actor, htransfers, hexposed, another, hacts, hsame.trans haccount.symm⟩))
  cases next with
  | code => exact absurd hnext h.not_code
  | account =>
    obtain ⟨another, htransfer, -⟩ := h.transfers hnext
    rw [exposed_of_transferrer htransfer] at hcovered
    cases hcovered
  | credential => exact absurd hnext h.not_credential
  | authTransaction => exact absurd hnext h.not_authTransaction
  | publisher publisherId =>
    rw [hasks.publisher publisherId rfl] at hcovered
    cases hcovered
  | _ => simp [MarketRow.level]

theorem Kept.project_ne (hbehind : market.Behind tx row other next) {projectId : Nat}
    (hmine : .project projectId ∈ tx.held) (hheld : .project projectId ∈ other.held) : False :=
  hbehind.ne (h.apart tx hbehind.running other hbehind.runningNext _ hmine hheld)

theorem Kept.not_both_moderate (hbehind : market.Behind tx row other next) {projectId : Nat}
    (hmine : projectId ∈ tx.listed) (hlisted : projectId ∈ other.listed) : False := by
  obtain ⟨publisher, -, hlocked, howner⟩ := (h.sound tx hbehind.running).listed projectId hmine
  obtain ⟨another, -, hheld, hsame⟩ :=
    (h.sound other hbehind.runningNext).listed projectId hlisted
  rw [← hsame, howner] at hheld
  exact hbehind.ne (h.apart tx hbehind.running other hbehind.runningNext _ hlocked hheld)

end Marketplace

namespace MarketRow

def isProject : MarketRow → Bool
  | project _ => true
  | _ => false

/-- The order in which a cycle would ask: an account after the publishers that a transfer locks,
and a project again among those that a moderation updates. -/
def rank (again : Bool) : MarketRow → ℕ ×ₗ ℕ
  | publisher id => toLex (4, id)
  | account _ => toLex (5, 0)
  | row => toLex (row.level, again.toNat)

theorem rank_of_level {again : Bool} (h : 5 ≤ row.level) :
    row.rank again = toLex (row.level, again.toNat) := by
  cases row with
  | account | publisher => simp [level] at h
  | _ => rfl

theorem rank_lt_of_level {left right : Bool} (h : 4 ≤ row.level) (hlt : row.level < next.level) :
    row.rank left < next.rank right := by
  have hnext : 5 ≤ next.level := by omega
  rw [rank_of_level hnext, Prod.Lex.lt_iff]
  left
  cases row with
  | account => simp [level] at h
  | _ => simpa [rank, level] using hlt

theorem rank_lt_of_below {left right : Bool} (h : 4 ≤ row.level) (hbelow : row.Below next) :
    row.rank left < next.rank right := by
  unfold Below at hbelow
  split at hbelow
  case h_1 => simpa [rank, Prod.Lex.lt_iff] using hbelow
  case h_2 => exact rank_lt_of_level h hbelow

end MarketRow

def MarketTransaction.rank (tx : MarketTransaction) : ℕ ×ₗ ℕ :=
  match tx.asks? with
  | none => toLex (0, 0)
  | some row => row.rank (tx.held.any MarketRow.isProject)

namespace Marketplace

theorem Kept.rises (h : market.Kept data) (hbehind : market.Behind tx row other next) :
    row.rank (tx.held.any MarketRow.isProject) <
      next.rank (other.held.any MarketRow.isProject) := by
  have hcircled := hbehind.circled
  have hnext := hbehind.circledNext
  have hasks := h.asks hnext
  by_cases hlevel : 4 ≤ row.level
  · by_cases hnextLevel : 4 ≤ next.level
    · rcases hasks.order hnextLevel row hbehind.held with
        hbelow | ⟨left, right, rfl, rfl, hmoderates⟩ | ⟨projectId, left, right, rfl, rfl⟩
      · exact MarketRow.rank_lt_of_below hlevel hbelow
      · -- the one behind holds no project yet, or it would moderate the same publisher
        have hagain : other.held.any MarketRow.isProject = true :=
          List.any_eq_true.mpr ⟨_, hbehind.held, rfl⟩
        have hfirst : tx.held.any MarketRow.isProject = false := by
          by_contra hholds
          rw [Bool.not_eq_false, List.any_eq_true] at hholds
          obtain ⟨mine, hmine, hproject⟩ := hholds
          cases mine with
          | project projectId =>
            have hmine := (h.asks hcircled).order hlevel _ hmine
            simp only [MarketRow.Below, MarketRow.level, lt_irrefl, reduceCtorEq,
              exists_false, false_or, or_false, and_false] at hmine
            obtain ⟨_, _, -, -, hmoderator⟩ := hmine
            obtain ⟨publisher, hpublisher⟩ := Option.isSome_iff_exists.mp hmoderator
            obtain ⟨another, hanother⟩ := Option.isSome_iff_exists.mp hmoderates
            exact h.not_both_moderate hbehind
              ((h.asks hcircled).moderated publisher hpublisher left (.inl rfl))
              (hasks.moderated another hanother left (.inr hbehind.held))
          | _ => cases hproject
        rw [hagain, hfirst, MarketRow.rank_of_level (by simp [MarketRow.level]),
          MarketRow.rank_of_level (by simp [MarketRow.level])]
        simp [Prod.Lex.lt_iff, MarketRow.level]
      · exact (h.project_ne hbehind ((h.asks hcircled).keyAuthorization projectId left rfl)
          (hasks.holdsKeyAuthorization projectId left hbehind.held)).elim
    · cases next with
      | code => exact absurd hnext h.not_code
      | credential => exact absurd hnext h.not_credential
      | authTransaction => exact absurd hnext h.not_authTransaction
      | account =>
        obtain ⟨_, -, -, hholds⟩ := h.transfers hnext
        obtain ⟨publisher, rfl⟩ := hholds row hbehind.held
        simp [MarketRow.rank, Prod.Lex.lt_iff]
      | _ => simp [MarketRow.level] at hnextLevel
  · cases row with
    | code => exact absurd hcircled h.not_code
    | credential => exact absurd hcircled h.not_credential
    | authTransaction => exact absurd hcircled h.not_authTransaction
    | account =>
      have habove := h.above_account hbehind
      have hnext : 5 ≤ next.level := by omega
      rw [MarketRow.rank_of_level hnext]
      simp only [MarketRow.rank, Prod.Lex.lt_iff, ofLex_toLex]
      omega
    | _ => simp [MarketRow.level] at hlevel

theorem Kept.not_deadlocked (h : market.Kept data) : ¬ market.Deadlocked := by
  rintro ⟨tx, hcycle⟩
  refine not_cycle_of_rising (φ := MarketTransaction.rank) ?_ tx hcycle
  intro tx other hwaits htx hother
  obtain ⟨row, next, hbehind⟩ := behind_of_waits hwaits htx hother
  rw [MarketTransaction.rank, MarketTransaction.rank, hbehind.circled.asks,
    hbehind.circledNext.asks]
  exact h.rises hbehind

end Marketplace

end Cycles

/-- Whatever the owners are at first, and whatever is aborted: where no two transactions collide
and no transfer finds another owner, the waits never close to a circle. -/
theorem no_deadlock {data : MarketData} {owner : Nat → Nat} {market : Marketplace}
    (h : (marketTransactions data owner).ReachableAlong (fun market op => market.Separate op)
      market) : ¬ market.Deadlocked := by
  refine Marketplace.Kept.not_deadlocked (?_ : market.Kept data)
  apply h.invariant
  · constructor <;> simp [marketTransactions]
  · intro before op hbefore hseparate
    exact hbefore.exec hseparate

/-- Every row belongs to the first account, project and publishers. -/
def sampleData : MarketData :=
  ⟨fun _ _ => 1, fun _ => 1, fun _ => 1, fun _ => 1, fun _ => 2, fun _ => 1⟩

def sampleActor : Actor :=
  ⟨1, sampleIdentity.evidence, "browser", tokenHash (sampleToken 's'), none⟩

/-- The account lists its publishers and changes one. -/
def sampleTransactions : List MarketOp :=
  [.begin 1 (.create sampleActor), .begin 2 (.update sampleActor 1), .step 1 [], .step 2 []]

def sampleMarket : Marketplace :=
  (marketTransactions sampleData fun _ => 1).run sampleTransactions
    (marketTransactions sampleData fun _ => 1).init

theorem sampleMarket_reachable : (marketTransactions sampleData fun _ => 1).ReachableAlong
    (fun market op => market.Separate op) sampleMarket := by
  refine ⟨sampleTransactions, ⟨?_, ?_, ?_, ?_, trivial⟩, rfl⟩
  · rintro tx ⟨⟩
  · rintro tx htx
    obtain rfl := List.mem_singleton.mp htx
    decide
  · rintro tx ⟨⟩
    trivial
  · rintro tx ⟨⟩
    trivial

theorem no_deadlock_listing : sampleMarket.running.length = 2 ∧ ¬ sampleMarket.Deadlocked :=
  ⟨rfl, no_deadlock sampleMarket_reachable⟩

/-- An authentication locks the session first, and what acts under it the account. -/
def collidingTransactions : List MarketOp :=
  [.begin 1 (.authenticate true sampleActor.credentialHash), .begin 2 (.create sampleActor),
    .step 1 [], .step 2 []]

theorem Marketplace.deadlocked_of_mutual {market : Marketplace} (first second : Nat)
    (h : ∃ tx ∈ market.transaction? first, ∃ other ∈ market.transaction? second,
      tx.id ≠ other.id ∧ (∃ row ∈ tx.asks?, row ∈ other.held) ∧
        ∃ row ∈ other.asks?, row ∈ tx.held) : market.Deadlocked := by
  obtain ⟨tx, htx, other, hother, hne, hwaits, hback⟩ := h
  have hrunning := (Keyed.row?_eq_some htx).1
  have hrunningOther := (Keyed.row?_eq_some hother).1
  exact ⟨tx, .tail (.single ⟨hrunning, hrunningOther, hne, hwaits⟩)
    ⟨hrunningOther, hrunning, hne.symm, hback⟩⟩

/-- Two transactions of one session wait for each other. -/
theorem no_deadlock_reauthenticated : ∃ ops, ((marketTransactions sampleData fun _ => 1).run ops
    (marketTransactions sampleData fun _ => 1).init).Deadlocked :=
  ⟨collidingTransactions, Marketplace.deadlocked_of_mutual 1 2 (by decide +kernel)⟩

end NervOS
