/-
What the steps of the MCP gateway keep: its cache, the creations in flight and the owners behind
them, and what each task has to do with them.
-/
import NervOS.Mcp.Gateway

namespace NervOS

open Relational

def TaskStage.uses? : TaskStage → Option Nat
  | waiting session | calling session => some session
  | _ => none

namespace LiveSession

def Creating (session : LiveSession) : Prop :=
  session.stage = .opening ∨ session.stage = .abandoning

/-- Its owner closes it, or has been asked to. -/
def Leaving (session : LiveSession) : Prop :=
  session.stage = .abandoning ∨ session.stage = .closing ∨
    session.stage = .live ∧ session.closable = true

end LiveSession

namespace McpGateway

variable (gateway : McpGateway)

/-- A call is in flight on the session, or waits for it. -/
def InUse (session : Nat) : Prop :=
  ∃ task ∈ gateway.tasks, task.stage.uses? = some session

structure Owned : Prop where
  oneCreation : ∀ owner ∈ gateway.owners, ∀ other ∈ gateway.owners,
    owner.Creating → other.Creating → owner.connectionId = other.connectionId → owner = other
  accounted : ∀ owner ∈ gateway.owners, owner.stage ≠ .opening →
    (owner.connectionId, owner.id) ∈ gateway.sessions ∨ owner.Leaving ∨ owner.isDone = true
  fresh : ∀ task ∈ gateway.tasks, ∀ session, task.stage = .calling session →
    session ∉ task.requested
  unharmed : ∀ owner ∈ gateway.owners, owner.bystander = true → ¬ gateway.InUse owner.id
  unknown : ∀ task ∈ gateway.tasks, task.failed = true →
    ∀ outcome, task.stage = .ended outcome → outcome = .toolOutcomeUnknown
  shut : ∀ left ∈ gateway.leftOpen, left = []

def Spares (concerned : Option Nat) : Prop :=
  ∀ newest ∈ gateway.sessions.getLast?, concerned = some newest.2 ∨ ¬ gateway.InUse newest.2

/-- No creation is in flight, and no session is on its way out. -/
def AtRest : Prop :=
  gateway.pending = [] ∧ ∀ owner ∈ gateway.owners, ¬ owner.Leaving

/-- The close that the task awaits does not raise where its call has failed, and what it closes
next is the session concerned or idle. -/
def Resumes (task : GatewayTask) : Prop :=
  match task.stage with
  | .closing purpose target concerned newest session =>
    ∀ owner ∈ gateway.owner? session,
      (owner.stage = .done true → purpose ≠ .failure) ∧
        (owner.stage = .done false →
          (purpose = .shutdown → gateway.sessions = [] → gateway.AtRest) ∧
            (purpose ≠ .shutdown → newest ≠ target → gateway.Spares concerned))
  | _ => True

/-- The task closes sessions since its call failed. -/
def Discards (task : GatewayTask) : Prop :=
  match task.stage with
  | .closing .failure _ _ _ _ => True
  | _ => False

/-- What invalidates closes nothing else that is in use; no close fails under a failed call, which
is not cancelled meanwhile; nothing is on its way when `close_all` returns. -/
def Permits : GatewayOp → Prop
  | .callTool _ connectionId _ => ∀ session ∈ gateway.session? connectionId,
      gateway.isIdle session = true → gateway.Spares (some session)
  | .invalidate _ connectionId => (gateway.session? connectionId).isSome = true →
      gateway.Spares (gateway.session? connectionId)
  | .closeAll _ => gateway.sessions = [] → gateway.AtRest
  | .answered id .raised => ∀ task ∈ gateway.task? id, ∀ session, task.stage = .calling session →
      (gateway.session? task.connectionId).isSome = true → gateway.Spares (some session)
  | .resume id => ∀ task ∈ gateway.task? id, gateway.Resumes task
  | .cancel id => ∀ task ∈ gateway.task? id, ¬ Discards task
  | _ => True

end McpGateway

/-- The cache, the creations in flight and the owners behind them. -/
structure Housed (sessions pending : List (Nat × Nat)) (owners : List LiveSession) : Prop where
  ids : (owners.map LiveSession.id).Nodup
  bound : ∀ owner ∈ owners, owner.id < owners.length
  keys : (sessions.map Prod.fst ++ pending.map Prod.fst).Nodup
  cached : ∀ entry ∈ sessions, ∃ owner ∈ owners, (owner.connectionId, owner.id) = entry ∧
    owner.stage = .live ∧ owner.closable = false ∧ owner.bystander = false
  expected : ∀ entry ∈ pending, ∃ owner ∈ owners, (owner.connectionId, owner.id) = entry ∧
    owner.closable = false ∧ owner.bystander = false
  creating : ∀ owner ∈ owners, owner.Creating → (owner.connectionId, owner.id) ∈ pending
  live : ∀ owner ∈ owners, owner.stage = .live →
    (owner.connectionId, owner.id) ∈ sessions ∨ owner.closable = true

namespace Housed

variable {sessions pending : List (Nat × Nat)} {owners : List LiveSession} {owner : LiveSession}
  {f : LiveSession → LiveSession}

theorem eq_of_id (h : Housed sessions pending owners) {other : LiveSession}
    (howner : owner ∈ owners) (hother : other ∈ owners) (hid : owner.id = other.id) :
    owner = other :=
  Keyed.eq_of_column h.ids howner hother hid

theorem bound_update {session : Nat} (h : ∀ owner ∈ owners, owner.id < owners.length)
    (hid : ∀ owner, (f owner).id = owner.id) :
    ∀ owner ∈ Keyed.update LiveSession.id session f owners,
      owner.id < (Keyed.update LiveSession.id session f owners).length := by
  intro owner howner
  obtain ⟨before, hbefore, rfl⟩ := Keyed.mem_update howner
  rw [Keyed.update, List.length_map]
  by_cases hsame : before.id = session
  · simpa [hsame, hid] using h before hbefore
  · simpa [hsame] using h before hbefore

theorem mem_update_of_ne {session : Nat} (howner : owner ∈ owners) (hne : owner.id ≠ session) :
    owner ∈ Keyed.update LiveSession.id session f owners :=
  List.mem_map.mpr ⟨owner, howner, if_neg hne⟩

theorem mem_update_self (howner : owner ∈ owners) :
    f owner ∈ Keyed.update LiveSession.id owner.id f owners :=
  List.mem_map.mpr ⟨owner, howner, if_pos rfl⟩

section

variable (h : Housed sessions pending owners) (howner : owner ∈ owners)

include h howner

theorem move {sessions' pending' : List (Nat × Nat)}
    (hf : ∀ owner, (f owner).id = owner.id ∧ (f owner).connectionId = owner.connectionId)
    (hkeys : (sessions'.map Prod.fst ++ pending'.map Prod.fst).Nodup)
    (hcached : ∀ entry ∈ sessions', entry ∈ sessions ∧ entry ≠ (owner.connectionId, owner.id) ∨
      entry = (owner.connectionId, owner.id) ∧ (f owner).stage = .live ∧
        (f owner).closable = false ∧ (f owner).bystander = false)
    (hexpected : ∀ entry ∈ pending', entry ∈ pending ∧ entry ≠ (owner.connectionId, owner.id) ∨
      entry = (owner.connectionId, owner.id) ∧ (f owner).closable = false ∧
        (f owner).bystander = false)
    (hsessions : ∀ entry ∈ sessions, entry ≠ (owner.connectionId, owner.id) → entry ∈ sessions')
    (hpending : ∀ entry ∈ pending, entry ≠ (owner.connectionId, owner.id) → entry ∈ pending')
    (hcreating : (f owner).Creating → (owner.connectionId, owner.id) ∈ pending')
    (hlive : (f owner).stage = .live →
      (owner.connectionId, owner.id) ∈ sessions' ∨ (f owner).closable = true) :
    Housed sessions' pending' (Keyed.update LiveSession.id owner.id f owners) := by
  have hself : f owner ∈ Keyed.update LiveSession.id owner.id f owners := mem_update_self howner
  have hrow : ((f owner).connectionId, (f owner).id) = (owner.connectionId, owner.id) := by
    rw [(hf owner).1, (hf owner).2]
  have hother : ∀ other ∈ owners, (other.connectionId, other.id) ≠ (owner.connectionId, owner.id) →
      other ∈ Keyed.update LiveSession.id owner.id f owners := by
    intro other hother hne
    apply mem_update_of_ne hother
    intro hid
    rw [h.eq_of_id hother howner hid] at hne
    exact hne rfl
  have hback : ∀ other ∈ Keyed.update LiveSession.id owner.id f owners,
      other = f owner ∨ other ∈ owners ∧
        (other.connectionId, other.id) ≠ (owner.connectionId, owner.id) := by
    intro other hother
    obtain ⟨before, hbefore, rfl⟩ := Keyed.mem_update hother
    by_cases hid : before.id = owner.id
    · rw [if_pos hid, h.eq_of_id hbefore howner hid]
      exact .inl rfl
    · rw [if_neg hid]
      refine .inr ⟨hbefore, ?_⟩
      intro heq
      exact hid (Prod.mk.inj heq).2
  constructor
  case ids => exact Keyed.nodup_update h.ids fun owner => (hf owner).1
  case bound => exact bound_update h.bound fun owner => (hf owner).1
  case keys => exact hkeys
  case cached =>
    intro entry hentry
    rcases hcached entry hentry with ⟨hbefore, hne⟩ | ⟨rfl, hstands⟩
    · obtain ⟨other, hmem, rfl, hstands⟩ := h.cached entry hbefore
      exact ⟨other, hother other hmem hne, rfl, hstands⟩
    · exact ⟨f owner, hself, hrow, hstands⟩
  case expected =>
    intro entry hentry
    rcases hexpected entry hentry with ⟨hbefore, hne⟩ | ⟨rfl, hstands⟩
    · obtain ⟨other, hmem, rfl, hstands⟩ := h.expected entry hbefore
      exact ⟨other, hother other hmem hne, rfl, hstands⟩
    · exact ⟨f owner, hself, hrow, hstands⟩
  case creating =>
    intro other hmem hstage
    rcases hback other hmem with rfl | ⟨hbefore, hne⟩
    · rw [hrow]
      exact hcreating hstage
    · exact hpending _ (h.creating other hbefore hstage) hne
  case live =>
    intro other hmem hstage
    rcases hback other hmem with rfl | ⟨hbefore, hne⟩
    · rw [hrow]
      exact hlive hstage
    · exact (h.live other hbefore hstage).imp_left fun hentry => hsessions _ hentry hne

theorem of_cached (hentry : (owner.connectionId, owner.id) ∈ sessions) :
    owner.stage = .live ∧ owner.closable = false ∧ owner.bystander = false := by
  obtain ⟨other, hother, hrow, hstands⟩ := h.cached _ hentry
  rw [h.eq_of_id hother howner (Prod.mk.inj hrow).2] at hstands
  exact hstands

theorem of_expected (hentry : (owner.connectionId, owner.id) ∈ pending) :
    owner.closable = false ∧ owner.bystander = false := by
  obtain ⟨other, hother, hrow, hstands⟩ := h.expected _ hentry
  rw [h.eq_of_id hother howner (Prod.mk.inj hrow).2] at hstands
  exact hstands

theorem moveStage
    (hf : ∀ owner, (f owner).id = owner.id ∧ (f owner).connectionId = owner.connectionId ∧
      (f owner).closable = owner.closable ∧ (f owner).bystander = owner.bystander)
    (hcached : (owner.connectionId, owner.id) ∈ sessions → (f owner).stage = .live)
    (hcreating : (f owner).Creating → (owner.connectionId, owner.id) ∈ pending)
    (hlive : (f owner).stage = .live →
      (owner.connectionId, owner.id) ∈ sessions ∨ owner.closable = true) :
    Housed sessions pending (Keyed.update LiveSession.id owner.id f owners) := by
  obtain ⟨hid, hconnection, hclosable, hbystander⟩ := hf owner
  refine h.move howner (fun owner => ⟨(hf owner).1, (hf owner).2.1⟩) h.keys ?_ ?_
    (fun entry hentry _ => hentry) (fun entry hentry _ => hentry) hcreating ?_
  · intro entry hentry
    by_cases hown : entry = (owner.connectionId, owner.id)
    · subst hown
      obtain ⟨-, hasked, hstanding⟩ := h.of_cached howner hentry
      exact .inr ⟨rfl, hcached hentry, hclosable.trans hasked, hbystander.trans hstanding⟩
    · exact .inl ⟨hentry, hown⟩
  · intro entry hentry
    by_cases hown : entry = (owner.connectionId, owner.id)
    · subst hown
      obtain ⟨hasked, hstanding⟩ := h.of_expected howner hentry
      exact .inr ⟨rfl, hclosable.trans hasked, hbystander.trans hstanding⟩
    · exact .inl ⟨hentry, hown⟩
  · rw [hclosable]
    exact hlive

theorem touch
    (hf : ∀ owner, (f owner).id = owner.id ∧ (f owner).connectionId = owner.connectionId ∧
      (f owner).closable = owner.closable ∧ (f owner).bystander = owner.bystander)
    (hstage : (f owner).stage = owner.stage) :
    Housed sessions pending (Keyed.update LiveSession.id owner.id f owners) := by
  refine h.moveStage howner hf ?_ ?_ ?_
  · intro hentry
    rw [hstage]
    exact (h.of_cached howner hentry).1
  · rw [LiveSession.Creating, hstage]
    exact h.creating owner howner
  · rw [hstage]
    exact h.live owner howner

end

variable {entry other : Nat × Nat}

section

variable (h : Housed sessions pending owners)

include h

theorem eq_of_key (hentry : entry ∈ pending) (hother : other ∈ pending) (hkey : entry.1 = other.1) :
    entry = other :=
  Keyed.eq_of_column (List.nodup_append.mp h.keys).2.1 hentry hother hkey

theorem cached_key (hentry : entry ∈ sessions) (hother : other ∈ pending) : entry.1 ≠ other.1 :=
  (List.nodup_append.mp h.keys).2.2 _ (List.mem_map_of_mem hentry) _ (List.mem_map_of_mem hother)

theorem own_ne (hentry : (owner.connectionId, owner.id) ∈ pending) {entry : Nat × Nat}
    (hmem : entry ∈ sessions) : entry ≠ (owner.connectionId, owner.id) := by
  rintro rfl
  exact h.cached_key hmem hentry rfl

theorem keys_filter (connectionId : Nat) :
    (sessions.map Prod.fst ++
      (pending.filter fun entry => entry.1 ≠ connectionId).map Prod.fst).Nodup :=
  h.keys.sublist ((List.Sublist.refl _).append (List.filter_sublist.map _))

theorem mem_filter (hentry : (owner.connectionId, owner.id) ∈ pending) {entry : Nat × Nat} :
    entry ∈ pending.filter (fun entry => entry.1 ≠ owner.connectionId) ↔
      entry ∈ pending ∧ entry ≠ (owner.connectionId, owner.id) := by
  rw [List.mem_filter]
  apply and_congr_right
  intro hmem
  simp only [ne_eq, decide_eq_true_eq]
  refine not_congr ⟨fun hkey => h.eq_of_key hmem hentry hkey, ?_⟩
  rintro rfl
  rfl

theorem ask {newest : Nat × Nat} (bystander : Bool) (hnewest : newest ∈ sessions.getLast?) :
    Housed sessions.dropLast pending (Keyed.update LiveSession.id newest.2
      (fun owner => { owner with
        closable := true
        bystander := bystander }) owners) := by
  have hsplit : sessions = sessions.dropLast ++ [newest] :=
    (List.dropLast_append_getLast? newest hnewest).symm
  have hmem : newest ∈ sessions := List.mem_of_getLast? hnewest
  obtain ⟨owner, howner, rfl, hlive, -⟩ := h.cached newest hmem
  have hnodup : sessions.Nodup := (List.nodup_append.mp h.keys).1.of_map
  have hne : (owner.connectionId, owner.id) ∉ sessions.dropLast := by
    rw [hsplit, List.nodup_append] at hnodup
    exact fun hdropped => hnodup.2.2 _ hdropped _ List.mem_cons_self rfl
  apply h.move howner
  case hf => exact fun owner => ⟨rfl, rfl⟩
  case hkeys =>
    exact h.keys.sublist (((List.dropLast_sublist sessions).map _).append (List.Sublist.refl _))
  case hcached =>
    intro entry hentry
    refine .inl ⟨List.dropLast_subset sessions hentry, ?_⟩
    rintro rfl
    exact hne hentry
  case hexpected =>
    intro entry hentry
    refine .inl ⟨hentry, ?_⟩
    rintro rfl
    exact h.cached_key hmem hentry rfl
  case hsessions =>
    intro entry hentry hother
    rw [hsplit, List.mem_append, List.mem_singleton] at hentry
    exact hentry.resolve_right hother
  case hpending => exact fun entry hentry _ => hentry
  case hcreating => simp [LiveSession.Creating, hlive]
  case hlive => exact fun _ => .inr rfl

theorem start {connectionId : Nat} (now : Instant) (hcached : connectionId ∉ sessions.map Prod.fst)
    (hpending : connectionId ∉ pending.map Prod.fst) :
    Housed sessions (pending ++ [(connectionId, owners.length)])
      (owners ++ [{ id := owners.length, connectionId := connectionId, lastUsed := now }]) where
  ids := by
    apply Keyed.nodup_append h.ids
    intro hmem
    obtain ⟨owner, howner, hid⟩ := List.mem_map.mp hmem
    exact Nat.ne_of_lt (h.bound owner howner) hid
  bound := by
    intro owner howner
    rw [List.length_append, List.length_singleton]
    rw [List.mem_append, List.mem_singleton] at howner
    rcases howner with howner | rfl
    · exact Nat.lt_succ_of_lt (h.bound owner howner)
    · exact Nat.lt_succ_self _
  keys := by
    rw [List.map_append, ← List.append_assoc]
    apply List.Nodup.append h.keys (by simp)
    simp only [List.map_cons, List.map_nil, List.disjoint_singleton, List.mem_append, not_or]
    exact ⟨hcached, hpending⟩
  cached := by
    intro entry hentry
    obtain ⟨owner, howner, hstands⟩ := h.cached entry hentry
    exact ⟨owner, List.mem_append_left _ howner, hstands⟩
  expected := by
    intro entry hentry
    rw [List.mem_append, List.mem_singleton] at hentry
    rcases hentry with hentry | rfl
    · obtain ⟨owner, howner, hstands⟩ := h.expected entry hentry
      exact ⟨owner, List.mem_append_left _ howner, hstands⟩
    · exact ⟨_, List.mem_append_right _ List.mem_cons_self, rfl, rfl, rfl⟩
  creating := by
    intro owner howner hcreating
    rw [List.mem_append, List.mem_singleton] at howner
    rcases howner with howner | rfl
    · exact List.mem_append_left _ (h.creating owner howner hcreating)
    · exact List.mem_append_right _ List.mem_cons_self
  live := by
    intro owner howner hlive
    rw [List.mem_append, List.mem_singleton] at howner
    rcases howner with howner | rfl
    · exact h.live owner howner hlive
    · cases hlive

theorem not_cached (hentry : (owner.connectionId, owner.id) ∈ pending) :
    owner.connectionId ∉ sessions.map Prod.fst := by
  intro hkey
  obtain ⟨entry, hmem, hsame⟩ := List.mem_map.mp hkey
  exact h.cached_key hmem hentry hsame

theorem publish (howner : owner ∈ owners) (hopening : owner.stage = .opening)
    (hf : ∀ owner, (f owner).id = owner.id ∧ (f owner).connectionId = owner.connectionId ∧
      (f owner).closable = owner.closable ∧ (f owner).bystander = owner.bystander)
    (hstage : (f owner).stage = .live) :
    Housed (sessions ++ [(owner.connectionId, owner.id)])
      (pending.filter fun entry => entry.1 ≠ owner.connectionId)
      (Keyed.update LiveSession.id owner.id f owners) := by
  have hentry := h.creating owner howner (.inl hopening)
  obtain ⟨hclosable, hbystander⟩ := h.of_expected howner hentry
  obtain ⟨-, -, hasked, hstanding⟩ := hf owner
  apply h.move howner
  case hf => exact fun owner => ⟨(hf owner).1, (hf owner).2.1⟩
  case hkeys =>
    rw [List.map_append, List.append_assoc]
    have hfresh := h.not_cached hentry
    have hkeys := h.keys_filter owner.connectionId
    rw [List.nodup_append] at hkeys ⊢
    refine ⟨hkeys.1, ?_, ?_⟩
    · simp only [List.map_cons, List.map_nil, List.singleton_append, List.nodup_cons]
      refine ⟨?_, hkeys.2.1⟩
      simp
    · intro left hleft right hright
      rcases List.mem_append.mp hright with hright | hright
      · rw [List.map_singleton, List.mem_singleton] at hright
        intro heq
        rw [heq, hright] at hleft
        exact hfresh hleft
      · exact hkeys.2.2 left hleft right hright
  case hcached =>
    intro entry hmem
    rw [List.mem_append, List.mem_singleton] at hmem
    rcases hmem with hmem | rfl
    · exact .inl ⟨hmem, h.own_ne hentry hmem⟩
    · exact .inr ⟨rfl, hstage, hasked.trans hclosable, hstanding.trans hbystander⟩
  case hexpected => exact fun entry hmem => .inl ((h.mem_filter hentry).mp hmem)
  case hsessions => exact fun entry hmem _ => List.mem_append_left _ hmem
  case hpending => exact fun entry hmem hne => (h.mem_filter hentry).mpr ⟨hmem, hne⟩
  case hcreating => simp [LiveSession.Creating, hstage]
  case hlive => exact fun _ => .inl (List.mem_append_right _ List.mem_cons_self)

theorem abandon (howner : owner ∈ owners) (habandoning : owner.stage = .abandoning)
    (hf : ∀ owner, (f owner).id = owner.id ∧ (f owner).connectionId = owner.connectionId)
    (hstage : (f owner).stage = .done false) :
    Housed sessions (pending.filter fun entry => entry.1 ≠ owner.connectionId)
      (Keyed.update LiveSession.id owner.id f owners) := by
  have hentry := h.creating owner howner (.inr habandoning)
  apply h.move howner hf
  case hkeys => exact h.keys_filter owner.connectionId
  case hcached => exact fun entry hmem => .inl ⟨hmem, h.own_ne hentry hmem⟩
  case hexpected => exact fun entry hmem => .inl ((h.mem_filter hentry).mp hmem)
  case hsessions => exact fun entry hmem _ => hmem
  case hpending => exact fun entry hmem hne => (h.mem_filter hentry).mpr ⟨hmem, hne⟩
  case hcreating => simp [LiveSession.Creating, hstage]
  case hlive => simp [hstage]

theorem leave (howner : owner ∈ owners)
    (hf : ∀ owner, (f owner).id = owner.id ∧ (f owner).connectionId = owner.connectionId ∧
      (f owner).closable = owner.closable ∧ (f owner).bystander = owner.bystander)
    (hstage : (f owner).stage = .closing) :
    Housed (sessions.filter fun entry => entry ≠ (owner.connectionId, owner.id)) pending
      (Keyed.update LiveSession.id owner.id f owners) := by
  obtain ⟨-, -, hasked, hstanding⟩ := hf owner
  apply h.move howner
  case hf => exact fun owner => ⟨(hf owner).1, (hf owner).2.1⟩
  case hkeys =>
    exact h.keys.sublist ((List.filter_sublist.map _).append (List.Sublist.refl _))
  case hcached =>
    intro entry hmem
    exact .inl (by simpa using hmem)
  case hexpected =>
    intro entry hmem
    by_cases hown : entry = (owner.connectionId, owner.id)
    · subst hown
      obtain ⟨hclosable, hbystander⟩ := h.of_expected howner hmem
      exact .inr ⟨rfl, hasked.trans hclosable, hstanding.trans hbystander⟩
    · exact .inl ⟨hmem, hown⟩
  case hsessions =>
    intro entry hmem hne
    simp [hmem, hne]
  case hpending => exact fun entry hmem _ => hmem
  case hcreating => simp [LiveSession.Creating, hstage]
  case hlive => simp [hstage]

end

theorem all_done (h : Housed [] [] owners) (hleaving : ∀ owner ∈ owners, ¬ owner.Leaving)
    (howner : owner ∈ owners) : owner.isDone = true := by
  cases hstage : owner.stage with
  | opening => exact absurd (h.creating owner howner (.inl hstage)) List.not_mem_nil
  | abandoning => exact absurd (.inl hstage) (hleaving owner howner)
  | closing => exact absurd (.inr (.inl hstage)) (hleaving owner howner)
  | live =>
    have hclosable := (h.live owner howner hstage).resolve_left List.not_mem_nil
    exact absurd (.inr (.inr ⟨hstage, hclosable⟩)) (hleaving owner howner)
  | done => simp [LiveSession.isDone, hstage]

end Housed

def GatewayTask.Begun (owners : List LiveSession) (task : GatewayTask) : Prop :=
  ∀ session ∈ task.requested, ∃ owner ∈ owners, owner.id = session ∧ owner.closable = true

structure GatewayTask.Kept (owners : List LiveSession) (task : GatewayTask) : Prop where
  requested : task.Begun owners
  fresh : ∀ session ∈ task.stage.uses?, session ∉ task.requested
  unharmed : ∀ session ∈ task.stage.uses?, ∃ owner ∈ owners, owner.id = session ∧
    owner.bystander = false
  failed : task.failed = true → McpGateway.Discards task ∨ task.stage = .ended .toolOutcomeUnknown

/-- What a task has seen of the owners stays true: what is closable stays so, and what a task uses
does not become a bystander. -/
def OwnersLater (used : Nat → Prop) (owners owners' : List LiveSession) : Prop :=
  ∀ owner ∈ owners, ∃ later ∈ owners', later.id = owner.id ∧
    (owner.closable = true → later.closable = true) ∧
    (owner.bystander = false → used owner.id → later.bystander = false)

namespace OwnersLater

variable {owners : List LiveSession} {used : Nat → Prop}

theorem append (used : Nat → Prop) (owners more : List LiveSession) :
    OwnersLater used owners (owners ++ more) :=
  fun owner howner => ⟨owner, List.mem_append_left _ howner, rfl, id, fun h _ => h⟩

theorem update {f : LiveSession → LiveSession} {session : Nat}
    (hid : ∀ owner, (f owner).id = owner.id)
    (hclosable : ∀ owner, owner.closable = true → (f owner).closable = true)
    (hbystander : ∀ owner, owner.bystander = false → used session → (f owner).bystander = false) :
    OwnersLater used owners (Keyed.update LiveSession.id session f owners) := by
  intro owner howner
  by_cases hsame : owner.id = session
  · subst hsame
    exact ⟨f owner, Housed.mem_update_self howner, hid owner, hclosable owner, hbystander owner⟩
  · exact ⟨owner, Housed.mem_update_of_ne howner hsame, rfl, id, fun h _ => h⟩

end OwnersLater

variable {owners owners' : List LiveSession}

theorem GatewayTask.Begun.later {task : GatewayTask} {used : Nat → Prop} (h : task.Begun owners)
    (hlater : OwnersLater used owners owners') : task.Begun owners' := by
  intro session hsession
  obtain ⟨owner, howner, rfl, hclosable⟩ := h session hsession
  obtain ⟨later, hmem, hid, hasked, -⟩ := hlater owner howner
  exact ⟨later, hmem, hid, hasked hclosable⟩

theorem GatewayTask.Kept.later {task : GatewayTask} {used : Nat → Prop} (h : task.Kept owners)
    (hlater : OwnersLater used owners owners') (hused : ∀ session ∈ task.stage.uses?, used session)
    : task.Kept owners' where
  requested := h.requested.later hlater
  fresh := h.fresh
  unharmed := by
    intro session hsession
    obtain ⟨owner, howner, rfl, hbystander⟩ := h.unharmed session hsession
    obtain ⟨later, hmem, hid, -, hstands⟩ := hlater owner howner
    exact ⟨later, hmem, hid, hstands hbystander (hused _ hsession)⟩
  failed := h.failed

structure McpGateway.Kept (gateway : McpGateway) : Prop where
  housed : Housed gateway.sessions gateway.pending gateway.owners
  tasks : ∀ task ∈ gateway.tasks, task.Kept gateway.owners
  shut : ∀ left ∈ gateway.leftOpen, left = []

namespace McpGateway

variable {gateway : McpGateway} {task : GatewayTask} {concerned : Option Nat}

theorem Kept.put (h : gateway.Kept) (htask : task.Kept gateway.owners) :
    (gateway.put task).Kept where
  housed := h.housed
  tasks := by
    intro other hother
    obtain ⟨before, hbefore, rfl⟩ := Keyed.mem_update hother
    split
    · exact htask
    · exact h.tasks before hbefore
  shut := h.shut

theorem Kept.rehouse (h : gateway.Kept) {gateway' : McpGateway}
    (hhoused : Housed gateway'.sessions gateway'.pending gateway'.owners)
    (hlater : OwnersLater gateway.InUse gateway.owners gateway'.owners)
    (htasks : gateway'.tasks = gateway.tasks) (hshut : gateway'.leftOpen = gateway.leftOpen) :
    gateway'.Kept where
  housed := hhoused
  tasks := by
    intro other hother
    rw [htasks] at hother
    exact (h.tasks other hother).later hlater fun session hsession => ⟨other, hother, hsession⟩
  shut := hshut ▸ h.shut

theorem Kept.enter_unused (h : gateway.Kept) {stage : TaskStage}
    (hbegun : task.Begun gateway.owners) (huses : stage.uses? = none)
    (hfailed : task.failed = true →
      Discards { task with stage := stage } ∨ stage = .ended .toolOutcomeUnknown) :
    (gateway.enter task stage).Kept := by
  apply h.put
  constructor
  case requested => exact hbegun
  case fresh => simp [huses]
  case unharmed => simp [huses]
  case failed => exact hfailed

variable {owner : LiveSession}

theorem Kept.enter_using (h : gateway.Kept) {stage : TaskStage} (hbegun : task.Begun gateway.owners)
    (howner : owner ∈ gateway.owners) (huses : stage.uses? = some owner.id)
    (hclosable : owner.closable = false) (hbystander : owner.bystander = false)
    (hfailed : task.failed = false) :
    (gateway.enter task stage).Kept := by
  apply h.put
  constructor
  case requested => exact hbegun
  case fresh =>
    rintro session hsession hmem
    obtain rfl := Option.some.inj (huses.symm.trans hsession)
    obtain ⟨other, hother, hid, hasked⟩ := hbegun _ hmem
    rw [h.housed.eq_of_id hother howner hid, hclosable] at hasked
    cases hasked
  case unharmed =>
    rintro session hsession
    obtain rfl := Option.some.inj (huses.symm.trans hsession)
    exact ⟨owner, howner, rfl, hbystander⟩
  case failed =>
    intro hraised
    rw [show task.failed = true from hraised] at hfailed
    cases hfailed

variable {connectionId session : Nat}

theorem session?_spec (h : gateway.session? connectionId = some session) :
    (connectionId, session) ∈ gateway.sessions := by
  obtain ⟨entry, hentry, rfl⟩ := Option.map_eq_some_iff.mp h
  obtain ⟨hmem, rfl⟩ := Keyed.row?_eq_some hentry
  exact hmem

theorem pending?_spec (h : gateway.pending? connectionId = some session) :
    (connectionId, session) ∈ gateway.pending := by
  obtain ⟨entry, hentry, rfl⟩ := Option.map_eq_some_iff.mp h
  obtain ⟨hmem, rfl⟩ := Keyed.row?_eq_some hentry
  exact hmem

theorem Kept.usable (h : gateway.Kept) (hsession : gateway.session? connectionId = some session) :
    gateway.usable session = true := by
  obtain ⟨owner, howner, hrow, hlive, -⟩ := h.housed.cached _ (session?_spec hsession)
  obtain ⟨-, rfl⟩ := Prod.mk.inj hrow
  have hfound : gateway.owner? owner.id = some owner := Keyed.row?_of_mem h.housed.ids howner
  simp [McpGateway.usable, hfound, LiveSession.isDone, hlive]

section

variable (h : gateway.Kept) (hbegun : task.Begun gateway.owners) (hfailed : task.failed = false)

include h hbegun hfailed

theorem Kept.useSession {session : Nat}
    (hsession : gateway.session? task.connectionId = some session) :
    (gateway.useSession task session).Kept := by
  obtain ⟨owner, howner, hrow, hlive, hclosable, hbystander⟩ :=
    h.housed.cached _ (session?_spec hsession)
  obtain ⟨-, rfl⟩ := Prod.mk.inj hrow
  have hlater : OwnersLater gateway.InUse gateway.owners (Keyed.update LiveSession.id owner.id
      ({ · with lastUsed := gateway.now }) gateway.owners) :=
    OwnersLater.update (fun _ => rfl) (fun _ hasked => hasked) fun _ hstanding _ => hstanding
  have htouched : (gateway.setOwner owner.id ({ · with lastUsed := gateway.now })).Kept :=
    h.rehouse (h.housed.touch howner (fun _ => ⟨rfl, rfl, rfl, rfl⟩) rfl) hlater rfl rfl
  exact htouched.enter_using (hbegun.later hlater) (Housed.mem_update_self howner) rfl hclosable
    hbystander hfailed

theorem Kept.startCreation (hsession : gateway.session? task.connectionId = none)
    (hpending : gateway.pending? task.connectionId = none) :
    (gateway.startCreation task).Kept := by
  have hcached := Keyed.row?_eq_none (Option.map_eq_none_iff.mp hsession)
  have hexpected := Keyed.row?_eq_none (Option.map_eq_none_iff.mp hpending)
  have hlater := OwnersLater.append gateway.InUse gateway.owners
    [{ id := gateway.owners.length, connectionId := task.connectionId, lastUsed := gateway.now }]
  have hstarted : McpGateway.Kept { gateway with
      pending := gateway.pending ++ [(task.connectionId, gateway.owners.length)]
      owners := gateway.owners ++ [{
        id := gateway.owners.length
        connectionId := task.connectionId
        lastUsed := gateway.now }] } :=
    h.rehouse (h.housed.start gateway.now hcached hexpected) hlater rfl rfl
  exact hstarted.enter_using (hbegun.later hlater)
    (List.mem_append_right _ List.mem_cons_self) rfl rfl rfl hfailed

theorem Kept.createSession : (gateway.createSession task).Kept := by
  unfold McpGateway.createSession
  cases hsession : gateway.session? task.connectionId with
  | some session =>
    rw [Option.filter_some_pos (h.usable hsession)]
    exact h.useSession hbegun hfailed hsession
  | none =>
    rw [Option.filter_none]
    dsimp only
    split
    case h_1 session hpending =>
      obtain ⟨owner, howner, hrow, hclosable, hbystander⟩ :=
        h.housed.expected _ (pending?_spec hpending)
      obtain ⟨-, rfl⟩ := Prod.mk.inj hrow
      exact h.enter_using hbegun howner rfl hclosable hbystander hfailed
    case h_2 hpending => exact h.startCreation hbegun hfailed hsession hpending

end

theorem AtRest.all_done (h : gateway.AtRest) (hkept : gateway.Kept)
    (hsessions : gateway.sessions = []) (howner : owner ∈ gateway.owners) :
    owner.isDone = true := by
  have hhoused := hkept.housed
  rw [hsessions, h.1] at hhoused
  exact hhoused.all_done h.2 howner

variable {purpose : Purpose}

section

variable (h : gateway.Kept) (hbegun : task.Begun gateway.owners)
    (hpurpose : task.failed = true → purpose = .failure)

include h hbegun hpurpose

theorem Kept.finish (hshut : purpose = .shutdown → ∀ owner ∈ gateway.owners, owner.isDone = true) :
    (gateway.finish task purpose).Kept := by
  have hsound : purpose ≠ .failure → task.failed = false := by
    intro hne
    by_contra hraised
    rw [Bool.not_eq_false] at hraised
    exact hne (hpurpose hraised)
  cases purpose with
  | expiry => exact h.createSession hbegun (hsound (by decide))
  | failure => exact h.enter_unused hbegun rfl fun _ => .inr rfl
  | invalidation =>
    refine h.enter_unused hbegun rfl fun hraised => ?_
    cases hpurpose hraised
  | shutdown =>
    have hnone : gateway.owners.filter (fun owner => ! owner.isDone) = [] := by
      rw [List.filter_eq_nil_iff]
      intro owner howner
      simp [hshut rfl owner howner]
    have hlogged : McpGateway.Kept { gateway with
        leftOpen := gateway.leftOpen ++
          [(gateway.owners.filter fun owner => ! owner.isDone).map LiveSession.id] } := by
      refine { h with shut := ?_ }
      intro left hleft
      rw [hnone, List.mem_append, List.map_nil, List.mem_singleton] at hleft
      exact hleft.elim (h.shut left) id
    refine hlogged.enter_unused hbegun rfl fun hraised => ?_
    cases hpurpose hraised

theorem Kept.closeNewest {target : Nat} {concerned : Option Nat}
    (hspares : purpose ≠ .shutdown → gateway.Spares concerned)
    (hshut : purpose = .shutdown → gateway.sessions = [] → gateway.AtRest) :
    (gateway.closeNewest task purpose target concerned).Kept := by
  unfold McpGateway.closeNewest
  split
  case h_1 hnone =>
    apply h.finish hbegun hpurpose
    intro hpurpose owner howner
    have hsessions := List.getLast?_eq_none_iff.mp hnone
    exact (hshut hpurpose hsessions).all_done h hsessions howner
  case h_2 newest session hnewest =>
    have hlater : OwnersLater gateway.InUse gateway.owners (Keyed.update LiveSession.id session
        (fun owner => { owner with
          closable := true
          bystander := decide (purpose ≠ Purpose.shutdown ∧ concerned ≠ some session) })
        gateway.owners) := by
      refine OwnersLater.update (fun _ => rfl) (fun _ _ => rfl) fun _ _ hused => ?_
      -- who is in use is the one concerned, or the gateway shuts down
      rw [decide_eq_false_iff_not]
      rintro ⟨hpurpose, hother⟩
      rcases hspares hpurpose _ hnewest with hsame | hidle
      · exact hother hsame
      · exact hidle hused
    have hasked : McpGateway.Kept { gateway with
        sessions := gateway.sessions.dropLast
        owners := Keyed.update LiveSession.id session (fun owner => { owner with
          closable := true
          bystander := decide (purpose ≠ Purpose.shutdown ∧ concerned ≠ some session) })
          gateway.owners } :=
      h.rehouse (h.housed.ask _ hnewest) hlater rfl rfl
    refine hasked.enter_unused (hbegun.later hlater) rfl fun hraised => ?_
    obtain rfl := hpurpose hraised
    exact .inl trivial

theorem Kept.startInvalidate {concerned : Option Nat} (hworking : purpose ≠ .shutdown)
    (hspares : (gateway.session? task.connectionId).isSome = true → gateway.Spares concerned) :
    (gateway.startInvalidate task purpose concerned).Kept := by
  unfold McpGateway.startInvalidate
  split
  case h_1 => exact h.finish hbegun hpurpose fun hshut => absurd hshut hworking
  case h_2 session hsession =>
    have hsome : (gateway.session? task.connectionId).isSome = true := by simp [hsession]
    exact h.closeNewest hbegun hpurpose (fun _ => hspares hsome) fun hshut => absurd hshut hworking

end

theorem Kept.sessionFor (h : gateway.Kept) (hbegun : task.Begun gateway.owners)
    (hfailed : task.failed = false)
    (hspares : ∀ session ∈ gateway.session? task.connectionId, gateway.isIdle session = true →
      gateway.Spares (some session)) : (gateway.sessionFor task).Kept := by
  unfold McpGateway.sessionFor
  split
  case h_1 session hsession =>
    split
    case isTrue hstale =>
      have hidle : gateway.isIdle session = true := by
        refine hstale.resolve_left ?_
        rw [h.usable hsession]
        decide
      refine h.startInvalidate hbegun ?_ (by decide) fun _ => hspares session hsession hidle
      intro hraised
      rw [hraised] at hfailed
      cases hfailed
    case isFalse => exact h.useSession hbegun hfailed hsession
  case h_2 => exact h.createSession hbegun hfailed

theorem Spares.begin (h : gateway.Spares concerned) {task : GatewayTask}
    (huses : task.stage.uses? = none) :
    McpGateway.Spares { gateway with tasks := gateway.tasks ++ [task] } concerned := by
  intro newest hnewest
  refine (h newest hnewest).imp_right fun hidle => ?_
  rintro ⟨user, huser, hsession⟩
  rw [List.mem_append, List.mem_singleton] at huser
  rcases huser with huser | rfl
  · exact hidle ⟨user, huser, hsession⟩
  · cases huses.symm.trans hsession

variable (h : gateway.Kept)

include h

theorem Kept.begin {id connectionId : Nat} {f : McpGateway → GatewayTask → McpGateway}
    (hf : McpGateway.Kept { gateway with
        tasks := gateway.tasks ++ [gateway.newTask id connectionId] } →
      (gateway.newTask id connectionId).Begun gateway.owners →
      (f { gateway with tasks := gateway.tasks ++ [gateway.newTask id connectionId] }
        (gateway.newTask id connectionId)).Kept) : (gateway.begin id connectionId f).Kept := by
  unfold McpGateway.begin
  split
  case isTrue => exact h
  case isFalse =>
    have hbegun : (gateway.newTask id connectionId).Begun gateway.owners := by
      intro session hsession
      obtain ⟨owner, howner, rfl⟩ := List.mem_map.mp hsession
      exact ⟨owner, List.mem_of_mem_filter howner, rfl, List.of_mem_filter howner⟩
    refine hf { h with tasks := ?_ } hbegun
    intro task htask
    rw [List.mem_append, List.mem_singleton] at htask
    rcases htask with htask | rfl
    · exact h.tasks task htask
    · exact ⟨hbegun, nofun, nofun, nofun⟩

theorem Kept.answer {id session : Nat} (hfound : gateway.task? id = some task)
    (hstage : task.stage = .calling session) (toolAnswer : ToolAnswer)
    (hpermits : gateway.Permits (.answered id toolAnswer)) :
    (gateway.answer task session toolAnswer).Kept := by
  have htask := h.tasks task (Keyed.row?_eq_some hfound).1
  have hsound : task.failed = false := by
    by_contra hraised
    rw [Bool.not_eq_false] at hraised
    rcases htask.failed hraised with hdiscards | hended
    · simp [Discards, hstage] at hdiscards
    · rw [hstage] at hended
      cases hended
  cases toolAnswer with
  | returned | cancelled => exact h.enter_unused htask.requested rfl (by simp [hsound])
  | raised =>
    have hbegun : GatewayTask.Begun gateway.owners { task with failed := true } :=
      htask.requested
    exact h.startInvalidate hbegun (fun _ => rfl) (by decide)
      (hpermits task hfound session hstage)

theorem Kept.afterClose (hbegun : task.Begun gateway.owners) {target newest : Nat}
    (hpurpose : task.failed = true → purpose = .failure)
    (hspares : purpose ≠ .shutdown → newest ≠ target → gateway.Spares concerned)
    (hshut : purpose = .shutdown → gateway.sessions = [] → gateway.AtRest) :
    (gateway.afterClose task purpose target concerned newest).Kept := by
  unfold McpGateway.afterClose
  by_cases hlast : purpose ≠ .shutdown ∧ newest = target
  · rw [if_pos hlast]
    exact h.finish hbegun hpurpose fun hshutdown => absurd hshutdown hlast.1
  · rw [if_neg hlast]
    refine h.closeNewest hbegun hpurpose (fun hworking => ?_) hshut
    exact hspares hworking fun hsame => hlast ⟨hworking, hsame⟩

theorem Kept.resume {id : Nat} (hfound : gateway.task? id = some task)
    (hpermits : gateway.Resumes task) : (gateway.resume task).Kept := by
  have htask := h.tasks task (Keyed.row?_eq_some hfound).1
  unfold McpGateway.Resumes at hpermits
  unfold McpGateway.resume
  split
  case h_1 session hstage =>
    have hsound : task.failed = false := by
      by_contra hraised
      rw [Bool.not_eq_false] at hraised
      rcases htask.failed hraised with hdiscards | hended
      · simp [Discards, hstage] at hdiscards
      · rw [hstage] at hended
        cases hended
    split
    · apply h.put
      constructor
      case requested => exact htask.requested
      case fresh =>
        intro used hused
        exact htask.fresh used (by rw [hstage]; exact hused)
      case unharmed =>
        intro used hused
        exact htask.unharmed used (by rw [hstage]; exact hused)
      case failed =>
        intro hraised
        cases hsound.symm.trans hraised
    · exact h.enter_unused htask.requested rfl (by simp [hsound])
    · exact h.enter_unused htask.requested rfl (by simp [hsound])
    · exact h
  case h_2 purpose target concerned newest session hstage =>
    rw [hstage] at hpermits
    have hpurpose : task.failed = true → purpose = .failure := by
      intro hraised
      rcases htask.failed hraised with hdiscards | hended
      · unfold Discards at hdiscards
        rw [hstage] at hdiscards
        cases purpose with
        | failure => rfl
        | _ => cases hdiscards
      · rw [hstage] at hended
        cases hended
    split
    case h_1 howner =>
      obtain ⟨owner, howner, hdone⟩ := Option.map_eq_some_iff.mp howner
      refine h.enter_unused htask.requested rfl fun hraised => ?_
      exact absurd (hpurpose hraised) ((hpermits owner howner).1 hdone)
    case h_2 howner =>
      obtain ⟨owner, howner, hdone⟩ := Option.map_eq_some_iff.mp howner
      obtain ⟨hshut, hspares⟩ := (hpermits owner howner).2 hdone
      exact h.afterClose htask.requested hpurpose hspares hshut
    case h_3 => exact h
  case h_3 => exact h

theorem Kept.cancel {id : Nat} (hfound : gateway.task? id = some task) (hpermits : ¬ Discards task)
    : (gateway.cancel task).Kept := by
  have htask := h.tasks task (Keyed.row?_eq_some hfound).1
  have hsound : (∀ outcome, task.stage ≠ .ended outcome) → task.failed = false := by
    intro hrunning
    by_contra hraised
    rw [Bool.not_eq_false] at hraised
    exact (htask.failed hraised).elim hpermits (hrunning _)
  unfold McpGateway.cancel
  split
  case h_1 session hstage =>
    have hfailed := hsound (by simp [hstage])
    have hlater : OwnersLater gateway.InUse gateway.owners (Keyed.update LiveSession.id session
        (fun owner => if owner.ready = .pending then { owner with ready := .cancelled } else owner)
        gateway.owners) := by
      apply OwnersLater.update
      · intro owner
        split <;> rfl
      · intro owner hasked
        split <;> exact hasked
      · intro owner hstanding _
        split <;> exact hstanding
    obtain ⟨owner, howner, rfl, -⟩ := htask.unharmed session (by simp [hstage, TaskStage.uses?])
    have hcancelled : (gateway.setOwner owner.id fun owner =>
        if owner.ready = .pending then { owner with ready := .cancelled } else owner).Kept := by
      refine h.rehouse (h.housed.touch howner (fun owner => ?_) ?_) hlater rfl rfl
      · split <;> exact ⟨rfl, rfl, rfl, rfl⟩
      · split <;> rfl
    exact hcancelled.enter_unused (htask.requested.later hlater) rfl (by simp [hfailed])
  case h_2 session hstage =>
    have hfailed := hsound (by simp [hstage])
    exact h.enter_unused htask.requested rfl (by simp [hfailed])
  case h_3 hstage =>
    have hfailed := hsound (by simp [hstage])
    exact h.enter_unused htask.requested rfl (by simp [hfailed])
  case h_4 => exact h

theorem Kept.owned {session : Nat} {stage : OwnerStage} {f : LiveSession → McpGateway}
    (hf : ∀ owner ∈ gateway.owners, owner.stage = stage → (f owner).Kept) :
    (gateway.owned session stage f).Kept := by
  unfold McpGateway.owned
  split
  case h_1 owner hfound =>
    split
    case isTrue hstage => exact hf owner (Keyed.row?_eq_some hfound).1 hstage
    case isFalse => exact h
  case h_2 => exact h

theorem Kept.publish (howner : owner ∈ gateway.owners) (hopening : owner.stage = .opening) :
    (gateway.publish owner).Kept := by
  have hfresh := h.housed.not_cached (h.housed.creating owner howner (.inl hopening))
  unfold McpGateway.publish
  rw [if_neg hfresh]
  refine h.rehouse ?_ (OwnersLater.update (fun _ => rfl) (fun _ hasked => hasked)
    fun _ hstanding _ => hstanding) rfl rfl
  exact h.housed.publish howner hopening (fun _ => ⟨rfl, rfl, rfl, rfl⟩) rfl

theorem Kept.moveStage (howner : owner ∈ gateway.owners) {stage : OwnerStage}
    (hbefore : owner.stage ≠ .live) (hafter : stage ≠ .live)
    (hcreating : stage = .opening ∨ stage = .abandoning → owner.Creating) :
    (gateway.setOwner owner.id ({ · with stage := stage })).Kept := by
  refine h.rehouse ?_ (OwnersLater.update (fun _ => rfl) (fun _ hasked => hasked)
    fun _ hstanding _ => hstanding) rfl rfl
  refine h.housed.moveStage howner (fun _ => ⟨rfl, rfl, rfl, rfl⟩) ?_ ?_ ?_
  · intro hentry
    exact absurd (h.housed.of_cached howner hentry).1 hbefore
  · intro hstage
    exact h.housed.creating owner howner (hcreating hstage)
  · intro hlive
    exact absurd hlive hafter

theorem Kept.abandon (howner : owner ∈ gateway.owners) (habandoning : owner.stage = .abandoning)
    (raised : Bool) :
    (gateway.abandon owner raised).Kept := by
  unfold McpGateway.abandon
  split
  case isTrue => exact h.moveStage howner (by simp [habandoning]) (by decide) (by simp)
  case isFalse =>
    refine h.rehouse ?_ (OwnersLater.update (fun _ => rfl) (fun _ hasked => hasked)
      fun _ hstanding _ => hstanding) rfl rfl
    exact h.housed.abandon howner habandoning (fun _ => ⟨rfl, rfl⟩) rfl

theorem Kept.leave (howner : owner ∈ gateway.owners) :
    (gateway.leave owner).Kept := by
  refine h.rehouse ?_ (OwnersLater.update (fun _ => rfl) (fun _ hasked => hasked)
    fun _ hstanding _ => hstanding) rfl rfl
  exact h.housed.leave howner (fun _ => ⟨rfl, rfl, rfl, rfl⟩) rfl

theorem Kept.exec {op : GatewayOp} (hpermits : gateway.Permits op) :
    (gateway.exec op).Kept := by
  cases op with
  | callTool id connectionId available =>
    unfold McpGateway.exec
    refine h.begin fun hkept hbegun => ?_
    cases available with
    | false => exact hkept
    | true =>
      exact hkept.sessionFor hbegun rfl fun session hsession hidle =>
        Spares.begin (hpermits session hsession hidle) rfl
  | invalidate id connectionId =>
    unfold McpGateway.exec
    refine h.begin fun hkept hbegun => ?_
    exact hkept.startInvalidate hbegun nofun (by decide) fun hsome =>
      Spares.begin (hpermits hsome) rfl
  | closeAll id =>
    unfold McpGateway.exec
    refine h.begin fun hkept hbegun => ?_
    exact hkept.closeNewest hbegun nofun (absurd rfl) fun _ => hpermits
  | answered id toolAnswer =>
    unfold McpGateway.exec
    dsimp only
    split
    case h_2 => exact h
    case h_1 task hfound =>
      split
      case h_1 session hstage => exact h.answer hfound hstage toolAnswer hpermits
      case h_2 => exact h
  | resume id =>
    unfold McpGateway.exec
    dsimp only
    split
    case h_2 => exact h
    case h_1 task hfound => exact h.resume hfound (hpermits task hfound)
  | cancel id =>
    unfold McpGateway.exec
    dsimp only
    split
    case h_2 => exact h
    case h_1 task hfound => exact h.cancel hfound (hpermits task hfound)
  | opened session => exact h.owned fun owner howner hstage => h.publish howner hstage
  | openFailed session =>
    exact h.owned fun owner howner hstage =>
      h.moveStage howner (by simp [hstage]) (by decide) fun _ => .inl hstage
  | abandoned session raised =>
    exact h.owned fun owner howner hstage => h.abandon howner hstage raised
  | leave session => exact h.owned fun owner howner _ => h.leave howner
  | closed session raised =>
    exact h.owned fun owner howner hstage =>
      h.moveStage howner (by simp [hstage]) (by simp) (by simp)
  | tick elapsed => exact { h with }

theorem Kept.owned_sessions : gateway.Owned where
  oneCreation := by
    intro owner howner other hother hcreating hothers hsame
    have hentry := h.housed.creating owner howner hcreating
    have hentryOther := h.housed.creating other hother hothers
    exact h.housed.eq_of_id howner hother
      (Prod.mk.inj (h.housed.eq_of_key hentry hentryOther hsame)).2
  accounted := by
    intro owner howner hopened
    cases hstage : owner.stage with
    | opening => exact absurd hstage hopened
    | abandoning => exact .inr (.inl (.inl hstage))
    | closing => exact .inr (.inl (.inr (.inl hstage)))
    | live =>
      rcases h.housed.live owner howner hstage with hcached | hclosable
      · exact .inl hcached
      · exact .inr (.inl (.inr (.inr ⟨hstage, hclosable⟩)))
    | done => exact .inr (.inr (by simp [LiveSession.isDone, hstage]))
  fresh := by
    intro task htask session hstage
    exact (h.tasks task htask).fresh session (by rw [hstage]; rfl)
  unharmed := by
    rintro owner howner hbystander ⟨task, htask, huses⟩
    obtain ⟨used, hused, hid, hstands⟩ := (h.tasks task htask).unharmed owner.id huses
    rw [h.housed.eq_of_id hused howner hid, hbystander] at hstands
    cases hstands
  unknown := by
    intro task htask hraised outcome hended
    rcases (h.tasks task htask).failed hraised with hdiscards | hunknown
    · simp [Discards, hended] at hdiscards
    · exact TaskStage.ended.inj (hended.symm.trans hunknown)
  shut := h.shut

end McpGateway

end NervOS
