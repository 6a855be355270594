/-
What each operation of the install tickets does, step by step: the checks before the approval, the
handing over, and what comes after it.
-/
import NervOS.Refinement.InstallTickets

namespace NervOS

open Relational

namespace InstallDesk

variable {ports : InstallPorts} {desk : InstallDesk}

theorem updates_eq_true {id : Nat} {states : List RequestState}
    (h : desk.updates id states = true) :
    ∃ ticket ∈ desk.requests, ticket.id = id ∧ ticket.state ∈ states := by
  obtain ⟨ticket, hfound, hstate⟩ := (Option.any_eq_true _ _).mp h
  obtain ⟨hticket, hid⟩ := Keyed.row?_eq_some hfound
  exact ⟨ticket, hticket, hid, of_decide_eq_true hstate⟩

variable {operation : InstallOperation} {current : HostedRelease}

/-- A ticket that is still downloaded is approved by one operation, which then installs it. -/
theorem Kept.approve (h : desk.Kept ports) (hoperation : operation ∈ desk.running)
    {row : InstallRequest} {path : Nat} (hstage : operation.stage = .approving row path current) :
    (desk.approve operation.id row path current).Kept ports := by
  unfold InstallDesk.approve
  split
  case isFalse => exact h.finish operation.id
  case isTrue hupdates =>
    obtain ⟨ticket, hticket, hid, hstate⟩ := updates_eq_true hupdates
    rw [List.mem_singleton] at hstate
    have honly : ∀ other ∈ desk.requests, other.id = row.id → other.state = .downloaded := by
      intro other hother hsame
      rw [Keyed.eq_of_column h.requestIds hother hticket (hsame.trans hid.symm)]
      exact hstate
    have hfree : ∀ other ∈ desk.running, other.stage.installs? ≠ some row.id := by
      intro other hother hinstalls
      obtain ⟨held, hheld, hsame, hbefore⟩ := h.held other hother row.id hinstalls
      rw [honly held hheld hsame] at hbefore
      simp at hbefore
    have hunhanded : row.id ∉ desk.handed.map (·.row.id) := by
      intro hhanded
      obtain ⟨handing, hhanding, hsame⟩ := List.mem_map.mp hhanded
      obtain ⟨⟨given, hgiven, hgivenId, -, hranked⟩, -⟩ := h.handed handing hhanding
      rw [honly given hgiven (hgivenId.trans hsame)] at hranked
      simp [RequestState.rank] at hranked
    have happroved : (desk.updateRequest row.id [.downloaded] .approve).Kept ports := by
      refine h.updateRequest row.id [.downloaded] (fun _ => ⟨rfl, rfl⟩) ?_
      intro other hother hsame hbefore
      rw [List.mem_singleton] at hbefore
      refine ⟨by simp [hbefore, RequestState.rank], ⟨?_, ?_⟩, ?_, fun _ _ => .inl rfl, ?_⟩
      · intro hafter
        cases hafter
      rotate_left
      · intro hafter
        cases hafter
      · intro hafter
        cases hafter
      intro filed hfiled
      exact ((h.rows other hother).filed filed hfiled).of_row rfl rfl
    have hupdated : Later desk (desk.updateRequest row.id [.downloaded] .approve) := by
      refine later_updateRequest h row.id [.downloaded] (fun _ => ⟨rfl, rfl⟩) ?_
      intro other hother hsame hbefore
      rw [List.mem_singleton] at hbefore
      refine ⟨by simp [hbefore, RequestState.rank], ?_⟩
      intro hafter
      cases hafter
    have hlater : Later desk ((desk.updateRequest row.id [.downloaded] .approve).setStage
        operation.id (.handing row path current)) :=
      { hupdated with
        running := by
          intro later hmem
          rcases mem_setStage hmem with rfl | ⟨hmem, -⟩
          · exact .inl ⟨operation, hoperation, rfl⟩
          · exact .inl ⟨later, hmem, rfl⟩
        idle := by
          rintro other hother hranked hidle ⟨hinApproval, hlive⟩
          refine hupdated.idle other hother hranked hidle ⟨hinApproval, hlive.imp_left ?_⟩
          rintro ⟨later, hmem, hinstalls⟩
          rcases mem_setStage hmem with rfl | ⟨hmem, -⟩
          · -- this one was not approved before
            rw [honly other hother (Option.some.inj hinstalls).symm] at hranked
            simp [RequestState.rank] at hranked
          · exact ⟨later, hmem, hinstalls⟩ }
    have hkept := h.stages operation hoperation
    rw [hstage] at hkept
    refine { happroved with
      operationIds := Keyed.nodup_update h.operationIds fun _ => rfl
      operationBound := ?_
      rows := ?_
      stages := ?_
      held := ?_
      alone := ?_
      unhanded := ?_
      threads := fun thread hthread => (h.threads thread hthread).later hlater }
    · intro later hmem
      rcases mem_setStage hmem with rfl | ⟨hmem, -⟩
      · exact h.operationBound operation hoperation
      · exact h.operationBound later hmem
    · intro other hother
      exact (happroved.rows other hother).setStage hoperation
    · intro later hmem
      rcases mem_setStage hmem with rfl | ⟨hmem, -⟩
      · exact hkept.later hlater h.writers
      · exact (h.stages later hmem).later hlater h.writers
    · intro later hmem request hrequest
      rcases mem_setStage hmem with rfl | ⟨hmem, -⟩
      · obtain rfl := Option.some.inj hrequest
        refine ⟨_, List.mem_map_of_mem hticket, ?_⟩
        rw [if_pos hid]
        dsimp only
        rw [if_pos (by simp [hstate])]
        exact ⟨hid, .inl rfl⟩
      · exact happroved.held later hmem request hrequest
    · intro left hleft right hright request hrequest hsame
      rcases mem_setStage hleft with rfl | ⟨hleft, -⟩
      · rcases mem_setStage hright with rfl | ⟨hright, -⟩
        · rfl
        · exact absurd (hsame.trans hrequest.symm) (hfree right hright)
      · rcases mem_setStage hright with rfl | ⟨hright, -⟩
        · exact absurd (hrequest.trans hsame.symm) (hfree left hleft)
        · exact h.alone left hleft right hright request hrequest hsame
    · intro later hmem other otherPath otherCurrent hhanding
      rcases mem_setStage hmem with rfl | ⟨hmem, -⟩
      · cases hhanding
        exact hunhanded
      · exact h.unhanded later hmem other otherPath otherCurrent hhanding

/-- An approved ticket is handed to the package service once. -/
theorem Kept.handOver (h : desk.Kept ports) (hoperation : operation ∈ desk.running)
    {row : InstallRequest} {path : Nat} (hstage : operation.stage = .handing row path current) :
    (desk.handOver operation.id row path current).Kept ports := by
  have hkept := h.stages operation hoperation
  rw [hstage] at hkept
  obtain ⟨hrow, hreads, -, hpath, hunchanged⟩ := hkept
  have hread := hreads
  obtain ⟨ticket, hticket, hid, hterms, -⟩ := hread
  have hinstalls : operation.stage.installs? = some row.id := by rw [hstage]; rfl
  have hunhanded := h.unhanded operation hoperation row path current hstage
  have hranked : 2 ≤ ticket.state.rank := by
    obtain ⟨held, hheld, hsame, hstate⟩ := h.held operation hoperation row.id hinstalls
    rw [← Keyed.eq_of_column h.requestIds hheld hticket (hsame.trans hid.symm)]
    rcases hstate with hstate | hstate <;> simp [hstate, RequestState.rank]
  have hlater : Later desk (desk.handOver operation.id row path current) :=
    { Later.refl desk with
      running := by
        intro later hmem
        rcases mem_setStage hmem with rfl | ⟨hmem, -⟩
        · exact .inl ⟨operation, hoperation, rfl⟩
        · exact .inl ⟨later, hmem, rfl⟩
      threads := fun thread hthread => ⟨thread, List.mem_append_left _ hthread, rfl, rfl⟩
      idle := by
        rintro other - - hidle ⟨happroved, hlive⟩
        refine hidle ⟨happroved, ?_⟩
        rcases hlive with ⟨later, hmem, hrequest⟩ | ⟨thread, hthread, hrequest, hends⟩
        · rcases mem_setStage hmem with rfl | ⟨hmem, -⟩
          · exact .inl ⟨operation, hoperation, hinstalls.trans hrequest⟩
          · exact .inl ⟨later, hmem, hrequest⟩
        · rcases List.mem_append.mp hthread with hthread | hthread
          · exact .inr ⟨thread, hthread, hrequest, hends⟩
          · rw [List.mem_singleton] at hthread
            subst hthread
            exact .inl ⟨operation, hoperation, hinstalls.trans (congrArg some hrequest)⟩ }
  refine { h with
    operationIds := Keyed.nodup_update h.operationIds fun _ => rfl
    operationBound := ?_
    threadRequests := ?_
    threadHanded := ?_
    rows := fun other hother => (h.rows other hother).later hlater h.writers
    stages := ?_
    held := ?_
    alone := ?_
    unhanded := ?_
    threads := ?_
    handedIds := ?_
    handed := ?_ }
  · intro later hmem
    rcases mem_setStage hmem with rfl | ⟨hmem, -⟩
    · exact h.operationBound operation hoperation
    · exact h.operationBound later hmem
  · apply Keyed.nodup_append h.threadRequests
    intro htaken
    obtain ⟨thread, hthread, hrequest⟩ := List.mem_map.mp htaken
    have hhanded := h.threadHanded thread hthread
    rw [hrequest] at hhanded
    exact hunhanded hhanded
  · intro thread hthread
    rw [InstallDesk.handOver, InstallDesk.setStage, List.map_append]
    rcases List.mem_append.mp hthread with hthread | hthread
    · exact List.mem_append_left _ (h.threadHanded thread hthread)
    · rw [List.mem_singleton] at hthread
      subst hthread
      exact List.mem_append_right _ List.mem_cons_self
  · intro later hmem
    rcases mem_setStage hmem with rfl | ⟨hmem, -⟩
    · exact ⟨(hrow.filed path hpath).later hlater h.writers, hreads.later hlater, _,
        List.mem_append_right _ List.mem_cons_self, rfl, rfl⟩
    · exact (h.stages later hmem).later hlater h.writers
  · intro later hmem request hrequest
    rcases mem_setStage hmem with rfl | ⟨hmem, -⟩
    · exact h.held operation hoperation request (hinstalls.trans hrequest)
    · exact h.held later hmem request hrequest
  · have hother : ∀ other ∈ desk.running, other.id ≠ operation.id →
        other.stage.installs? ≠ some row.id := by
      intro other hother hne hsame
      exact hne (congrArg _ (h.alone other hother operation hoperation row.id hsame hinstalls))
    intro left hleft right hright request hrequest hsame
    rcases mem_setStage hleft with rfl | ⟨hleft, hne⟩
    · rcases mem_setStage hright with rfl | ⟨hright, hne⟩
      · rfl
      · exact absurd (hsame.trans hrequest.symm) (hother right hright hne)
    · rcases mem_setStage hright with rfl | ⟨hright, -⟩
      · exact absurd (hrequest.trans hsame.symm) (hother left hleft hne)
      · exact h.alone left hleft right hright request hrequest hsame
  · intro later hmem other otherPath otherCurrent hhanding
    rcases mem_setStage hmem with rfl | ⟨hmem, hne⟩
    · cases hhanding
    · rw [InstallDesk.handOver, InstallDesk.setStage, List.map_append, List.mem_append]
      rintro (hhanded | hhanded)
      · exact h.unhanded later hmem other otherPath otherCurrent hhanding hhanded
      · rw [List.map_singleton, List.mem_singleton] at hhanded
        have hsame : later.stage.installs? = some row.id := by
          rw [hhanding, ← hhanded]
          rfl
        exact hne (congrArg _ (h.alone later hmem operation hoperation row.id hsame hinstalls))
  · intro thread hthread
    rcases List.mem_append.mp hthread with hthread | hthread
    · exact (h.threads thread hthread).later hlater
    · rw [List.mem_singleton] at hthread
      subst hthread
      trivial
  · exact Keyed.nodup_append h.handedIds hunhanded
  · intro handing hhanding
    rcases List.mem_append.mp hhanding with hhanding | hhanding
    · exact h.handed handing hhanding
    · rw [List.mem_singleton] at hhanding
      subst hhanding
      refine ⟨⟨ticket, hticket, hid, hterms, hranked⟩, hunchanged, ?_⟩
      intro body hbody
      obtain ⟨found, hfound, rfl⟩ := Option.map_eq_some_iff.mp hbody
      obtain ⟨file, hfile, hsame, -, hverified, -⟩ := hrow.filed path hpath
      obtain ⟨hrowFound, -⟩ := Option.filter_eq_some_iff.mp hfound
      obtain ⟨hmem, hfoundPath⟩ := Keyed.row?_eq_some hrowFound
      rw [Keyed.eq_of_column h.paths hmem hfile (hfoundPath.trans hsame.symm)]
      exact hverified

end InstallDesk

namespace InstallDesk

variable {ports : InstallPorts} {desk : InstallDesk} {operation : InstallOperation}
  {row : InstallRequest} {states : List RequestState} {f : InstallRequest → InstallRequest}

theorem inProgress_of_update {id request : Nat} {states : List RequestState}
    (hf : ∀ row, (f row).state ≠ .approved)
    (h : (desk.updateRequest id states f).InProgress request) : desk.InProgress request := by
  obtain ⟨⟨later, hlater, hrequest, happroved⟩, hlive⟩ := h
  obtain ⟨before, hbefore, rfl⟩ := Keyed.mem_update hlater
  refine ⟨⟨before, hbefore, ?_⟩, hlive⟩
  split_ifs at hrequest happroved with hsame hstate
  · exact absurd happroved (hf before)
  · exact ⟨hrequest, happroved⟩
  · exact ⟨hrequest, happroved⟩

variable {ticket : InstallRequest}

theorem exists_updated (states : List RequestState) (hid : ∀ row, (f row).id = row.id)
    (hticket : ticket ∈ desk.requests) :
    ∃ later ∈ (desk.updateRequest ticket.id states f).requests, later.id = ticket.id ∧
      later.state = if ticket.state ∈ states then (f ticket).state else ticket.state := by
  refine ⟨_, List.mem_map_of_mem hticket, ?_⟩
  rw [if_pos rfl]
  dsimp only
  split_ifs
  · exact ⟨hid ticket, rfl⟩
  · exact ⟨rfl, rfl⟩

theorem Kept.withdrawn (h : desk.Kept ports) (hticket : ticket ∈ desk.requests)
    (hover : ticket.state = .installed ∨ ticket.state = .failed) :
    desk.Withdrawn ticket.id := by
  refine ⟨⟨ticket, hticket, rfl, by rcases hover with hover | hover <;>
    simp [hover, RequestState.rank]⟩, ?_⟩
  rintro ⟨⟨other, hother, hid, happroved⟩, -⟩
  rw [Keyed.eq_of_column h.requestIds hother hticket hid] at happroved
  rcases hover with hover | hover <;> cases hover.symm.trans happroved

theorem Kept.unlinkRow (h : desk.Kept ports) (hoperation : operation ∈ desk.running)
    (hrow : desk.RowKept ports row)
    (hwithdrawn : ∀ path ∈ row.artifactPath, desk.Withdrawn row.id) :
    (desk.unlinkRow operation.id row).Kept ports := by
  unfold InstallDesk.unlinkRow
  split
  case h_1 path hpath =>
    obtain ⟨file, hfile, hsame, hrequest, -, hended⟩ := hrow.filed path hpath
    refine h.goOn hoperation rfl ⟨hwithdrawn path hpath, ?_, file, hfile, hsame, hrequest, hended⟩
    intro state hstate
    cases hstate
  case h_2 => exact h.finish operation.id

theorem RowKept.updateRequest (hrow : desk.RowKept ports row) (id : Nat)
    (states : List RequestState) (f : InstallRequest → InstallRequest) :
    (desk.updateRequest id states f).RowKept ports row :=
  ⟨hrow.unfiled, hrow.filed⟩

theorem Kept.cancel (h : desk.Kept ports) (hoperation : operation ∈ desk.running)
    (hstage : operation.stage = .cancelling row) : (desk.cancel operation.id row).Kept ports := by
  have hkept := h.stages operation hoperation
  rw [hstage] at hkept
  unfold InstallDesk.cancel
  split
  case isFalse => exact h.finish operation.id
  case isTrue hupdates =>
    obtain ⟨ticket, hticket, hid, hstate⟩ := updates_eq_true hupdates
    have hfailed : (desk.updateRequest row.id [.created, .downloaded, .failed]
        (.withdraw "request_cancelled")).Kept ports := by
      refine h.fail row.id _ (fun _ => ⟨rfl, rfl, rfl, .inr rfl⟩) ?_
      intro other _ _ hbefore hafter
      rcases hafter with hafter | hafter <;> simp [hafter] at hbefore
    refine hfailed.unlinkRow hoperation (hkept.1.updateRequest _ _ _) fun path hpath => ?_
    obtain ⟨later, hlater, hsame, hafter⟩ := exists_updated [.created, .downloaded, .failed]
      (f := .withdraw "request_cancelled") (fun _ => rfl) hticket
    rw [if_pos hstate] at hafter
    rw [hid] at hlater hsame
    have hover := hfailed.withdrawn hlater (.inr hafter)
    rwa [hsame] at hover

variable {expected : RequestState}

theorem withdrawn_of_marked (hreads : desk.Reads row) (hstate : row.state ≠ .created)
    (hidle : ¬ desk.InProgress row.id) {code : String}
    (hexpected : row.state = .downloaded → expected = .downloaded) :
    (desk.markFailed row.id code expected).Withdrawn row.id := by
  obtain ⟨ticket, hticket, hid, -, hrank, -⟩ := hreads
  obtain ⟨later, hlater, hsame, hafter⟩ := exists_updated [expected] (f := .fail code)
    (fun _ => rfl) hticket
  rw [hid] at hlater hsame
  refine ⟨⟨later, hlater, hsame, ?_⟩, fun hprogress =>
    hidle (inProgress_of_update (fun _ => by simp) hprogress)⟩
  rw [hafter]
  split_ifs with hmarked
  · simp [RequestState.rank]
  · cases hrow : row.state with
    | created => exact absurd hrow hstate
    | downloaded =>
      rw [hexpected hrow, List.mem_singleton] at hmarked
      rw [hrow] at hrank
      cases hticketState : ticket.state with
      | created => simp [hticketState, RequestState.rank] at hrank
      | downloaded => exact absurd hticketState hmarked
      | _ => simp [RequestState.rank]
    | approved | installed | failed =>
      rw [hrow] at hrank
      exact Nat.le_trans (by simp [RequestState.rank]) hrank

section

variable (h : desk.Kept ports)

include h

theorem Kept.expire (hoperation : operation ∈ desk.running) (hrow : desk.RowKept ports row)
    (hreads : desk.Reads row) (hspares : desk.SparesExpired row) :
    (desk.expire operation.id row).Kept ports := by
  unfold InstallDesk.expire
  have hmarked := h.markFailed row.id "request_expired" hspares.1
    fun happroved hprogress => (hspares.2 hprogress).1 happroved
  refine hmarked.unlinkRow hoperation (hrow.updateRequest _ _ _) fun path hpath => ?_
  apply withdrawn_of_marked hreads
  · intro hcreated
    rw [hrow.unfiled hcreated] at hpath
    cases hpath
  · intro hprogress
    rw [(hspares.2 hprogress).2] at hpath
    cases hpath
  · exact id

theorem Kept.prepare (hoperation : operation ∈ desk.running)
    (hstage : operation.stage = .preparing row)
    (hspares : desk.isExpired row = true → desk.SparesExpired row) :
    (desk.prepare ports operation.id row).Kept ports := by
  have hkept := h.stages operation hoperation
  rw [hstage] at hkept
  unfold InstallDesk.prepare
  split_ifs with hexpired hcreated
  · exact h.expire hoperation hkept.1 hkept.2 (hspares hexpired)
  · exact h.goOn hoperation rfl hkept
  · exact h.finish operation.id

theorem Kept.markCreated (request : Nat) (code : String) :
    (desk.markFailed request code .created).Kept ports := by
  apply h.markFailed request code (by decide)
  intro hbefore
  cases hbefore

theorem Kept.download (hoperation : operation ∈ desk.running)
    (hstage : operation.stage = .downloading row) (answer : InstallAnswer) :
    (desk.download ports operation.id row answer).Kept ports := by
  have hkept := h.stages operation hoperation
  rw [hstage] at hkept
  cases answer with
  | unavailable => exact (h.markCreated row.id _).finish operation.id
  | raised => exact h.finish operation.id
  | body bytes =>
    unfold InstallDesk.download InstallDesk.receive
    dsimp only
    split_ifs
    · exact (h.markCreated row.id _).finish operation.id
    · exact (h.markCreated row.id _).finish operation.id
    · refine (h.write (h.operationBound operation hoperation) row.id bytes).goOn hoperation rfl ?_
      exact ⟨hkept.2, _, List.mem_append_right _ List.mem_cons_self, rfl, rfl, rfl⟩
  | proceeds | listing | release => exact h

end

variable {path : Nat}

theorem file?_eq_some {file : ArtifactFile} (h : desk.file? path = some file) :
    file ∈ desk.files ∧ file.path = path :=
  Keyed.row?_eq_some (Option.filter_eq_some_iff.mp h).1

theorem Kept.verify (h : desk.Kept ports) (hoperation : operation ∈ desk.running)
    (hstage : operation.stage = .verifying row path) (answer : InstallAnswer) :
    (desk.verify ports operation.id row path answer).Kept ports := by
  have hkept := h.stages operation hoperation
  rw [hstage] at hkept
  obtain ⟨hreads, file, hfile, hpath, hrequest, hwriter⟩ := hkept
  unfold InstallDesk.verify
  split
  case isTrue hverified =>
    obtain ⟨found, hfound, hinspected⟩ := (Option.any_eq_true _ _).mp hverified.2
    obtain ⟨hmem, hsame⟩ := file?_eq_some hfound
    rw [Keyed.eq_of_column h.paths hmem hfile (hsame.trans hpath.symm)] at hinspected
    exact h.goOn hoperation rfl ⟨hreads, file, hfile, hpath, hrequest, hwriter, hinspected⟩
  case isFalse => exact (h.unlink path).goOn hoperation rfl (.inl rfl)

theorem Kept.record (h : desk.Kept ports) (hoperation : operation ∈ desk.running)
    (hstage : operation.stage = .recording row path) :
    (desk.record operation.id row path).Kept ports := by
  have hkept := h.stages operation hoperation
  rw [hstage] at hkept
  obtain ⟨⟨ticket, hticket, hid, hterms, -⟩, file, hfile, hpath, hrequest, hwriter, hverified⟩ :=
    hkept
  unfold InstallDesk.record
  split
  case isFalse => exact (h.unlink path).finish operation.id
  case isTrue =>
    -- the operation ends with its transaction, and then the ticket refers to its file
    change ((desk.finish operation.id).updateRequest row.id [.created] (.download path)).Kept ports
    refine (h.finish operation.id).updateRequest row.id [.created] (fun _ => ⟨rfl, rfl⟩) ?_
    intro other hother hsame hbefore
    rw [List.mem_singleton] at hbefore
    have heq : other = ticket :=
      Keyed.eq_of_column h.requestIds hother hticket (hsame.trans hid.symm)
    refine ⟨by simp [hbefore, RequestState.rank], ⟨?_, ?_⟩, by simp [hbefore], by simp [hbefore]⟩
    · intro hafter
      cases hafter
    rintro _ ⟨rfl⟩
    refine ⟨file, hfile, hpath, hrequest.trans hsame.symm, ?_, ?_⟩
    · have hkeptTerms : (other.download path).terms = row.terms := by
        rw [heq]
        exact hterms
      rw [hkeptTerms]
      exact hverified
    · intro running hrunning
      rw [hwriter]
      simpa using (List.mem_filter.mp hrunning).2

theorem activeFor_of_isActive {terms : InstallTerms} (h : desk.isActive terms = true) :
    desk.ActiveFor terms := by
  obtain ⟨package, hfound, hactive⟩ := (Option.any_eq_true _ _).mp h
  obtain ⟨hstatus, hinstalled⟩ := of_decide_eq_true hactive
  exact ⟨package, (Keyed.row?_eq_some hfound).1, hinstalled, hstatus⟩

theorem Kept.start (h : desk.Kept ports) (hoperation : operation ∈ desk.running)
    (hstage : operation.stage = .starting row)
    (hspares : row.state ≠ .installed → row.state ≠ .approved → desk.isExpired row = true →
      desk.SparesExpired row) : (desk.start ports operation.id row).Kept ports := by
  have hkept := h.stages operation hoperation
  rw [hstage] at hkept
  unfold InstallDesk.start
  split
  case h_1 => exact h.finish operation.id
  case h_2 happroved =>
    split_ifs with hactive
    · exact h.goOn hoperation rfl ⟨hkept.1, hkept.2, happroved, activeFor_of_isActive hactive⟩
    · exact h.finish operation.id
  case h_3 hinstalled happroved =>
    by_cases hexpired : desk.isExpired row = true
    · rw [if_pos hexpired]
      exact h.expire hoperation hkept.1 hkept.2 (hspares hinstalled happroved hexpired)
    · rw [if_neg hexpired]
      cases hpath : row.artifactPath with
      | none => exact h.finish operation.id
      | some path =>
        dsimp only
        split
        case isTrue hdownloaded =>
          exact h.goOn hoperation rfl ⟨hkept.1, hkept.2, hdownloaded.1, hpath⟩
        case isFalse => exact h.finish operation.id

theorem withdrawn_of_settled (h : (desk.settle row states).Kept ports) (hreads : desk.Reads row)
    (hstates : ∀ ticket ∈ desk.requests, ticket.id = row.id → ticket.state ∈ states ∨
      ticket.state = .installed ∨ ticket.state = .failed) :
    (desk.settle row states).Withdrawn row.id := by
  obtain ⟨ticket, hticket, hid, -⟩ := hreads
  obtain ⟨later, hlater, hsame, hafter⟩ := exists_updated states (f := .settle)
    (fun _ => rfl) hticket
  rw [hid] at hlater hsame
  have hover : later.state = .installed ∨ later.state = .failed := by
    rw [hafter]
    split_ifs with hstate
    · exact .inl rfl
    · exact (hstates ticket hticket hid).resolve_left hstate
  have hwithdrawn := h.withdrawn hlater hover
  rwa [hsame] at hwithdrawn

section

variable (h : desk.Kept ports) (hoperation : operation ∈ desk.running)

include h hoperation

theorem Kept.reconcile (hstage : operation.stage = .reconciling row) :
    ((desk.settle row [.approved]).unlinkRow operation.id row).Kept ports := by
  have hkept := h.stages operation hoperation
  rw [hstage] at hkept
  obtain ⟨hrow, hreads, happroved, hactive⟩ := hkept
  have hsettled := h.settle [.approved] hreads hactive
  refine hsettled.unlinkRow hoperation ⟨hrow.unfiled, hrow.filed⟩ fun _ _ => ?_
  apply withdrawn_of_settled hsettled hreads
  intro other hother hid
  obtain ⟨ticket, hticket, hsame, -, hrank, -⟩ := hreads
  rw [Keyed.eq_of_column h.requestIds hother hticket (hid.trans hsame.symm)]
  rw [happroved] at hrank
  cases hstate : ticket.state with
  | created | downloaded => simp [hstate, RequestState.rank] at hrank
  | _ => simp

theorem Kept.observe (hstage : operation.stage = .observing row path) {answer : InstallAnswer}
    (hpasses : ∀ current, answer = .release current → ¬ row.terms.Unchanged current →
      ¬ desk.InProgress row.id) : (desk.observe operation.id row path answer).Kept ports := by
  have hkept := h.stages operation hoperation
  rw [hstage] at hkept
  obtain ⟨hrow, hreads, hdownloaded, hpath⟩ := hkept
  cases answer with
  | release current =>
    unfold InstallDesk.observe
    dsimp only
    split_ifs with hunchanged
    · exact h.goOn hoperation rfl ⟨hrow, hreads, hdownloaded, hpath, hunchanged⟩
    · have hidle := hpasses current rfl hunchanged
      obtain ⟨file, hfile, hsame, hrequest, -, hended⟩ := hrow.filed path hpath
      have hmarked : (desk.markFailed row.id "release_status_changed" .downloaded).Kept ports :=
        h.markFailed row.id _ (by decide) (by simp)
      have hwithdrawn :
          (desk.markFailed row.id "release_status_changed" .downloaded).Withdrawn row.id :=
        withdrawn_of_marked hreads (by simp [hdownloaded]) hidle fun _ => rfl
      exact hmarked.goOn hoperation rfl
        ⟨hwithdrawn, by simp, file, hfile, hsame, hrequest, hended⟩
  | raised => exact h.finish operation.id
  | proceeds | listing | body | unavailable => exact h

theorem withdrawn_of_failed (hinstalls : operation.stage.installs? = some row.id)
    {thread : InstallThread} (hthread : thread ∈ desk.threads) (hrequest : thread.request = row.id)
    (hended : thread.hasEnded = true) {stage : InstallStage} (hstage : stage.installs? = none) :
    (desk.setStage operation.id stage).Withdrawn row.id := by
  obtain ⟨ticket, hticket, hid, hstate⟩ := h.held operation hoperation row.id hinstalls
  refine ⟨⟨ticket, hticket, hid, ?_⟩, ?_⟩
  · rcases hstate with hstate | hstate <;> simp [hstate, RequestState.rank]
  · rintro ⟨-, ⟨other, hother, hsame⟩ | ⟨other, hother, hsame, hrunning⟩⟩
    · rcases mem_setStage hother with rfl | ⟨hother, hne⟩
      · rw [hstage] at hsame
        cases hsame
      · exact hne (congrArg _ (h.alone other hother operation hoperation row.id hsame hinstalls))
    · rw [Keyed.eq_of_column h.threadRequests hother hthread (hsame.trans hrequest.symm), hended]
        at hrunning
      cases hrunning

theorem Kept.awaitInstall (hstage : operation.stage = .installing row path) :
    (desk.awaitInstall operation.id row path).Kept ports := by
  have hkept := h.stages operation hoperation
  rw [hstage] at hkept
  obtain ⟨hfiled, hreads, thread, hthread, hrequest, hterms⟩ := hkept
  have hinstalls : operation.stage.installs? = some row.id := by rw [hstage]; rfl
  unfold InstallDesk.awaitInstall
  have hfound : ∀ {stage}, (desk.thread? row.id).map InstallThread.stage = some stage →
      thread.stage = stage := by
    intro stage hstage
    obtain ⟨found, hfound, rfl⟩ := Option.map_eq_some_iff.mp hstage
    obtain ⟨hmem, hsame⟩ := Keyed.row?_eq_some hfound
    rw [Keyed.eq_of_column h.threadRequests hmem hthread (hsame.trans hrequest.symm)]
  split
  case h_1 hsucceeded =>
    have hactive := h.threads thread hthread
    unfold ThreadKept at hactive
    rw [hfound hsucceeded, hterms] at hactive
    have hnothing : ∀ request, (InstallStage.finishing row path).installs? = some request →
        operation.stage.installs? = some request := fun _ hrequest => hinstalls.trans hrequest
    have hfinishing : desk.StageKept ports operation.id (.finishing row path) := 
      ⟨hfiled, hreads, hactive⟩
    exact h.setStage hoperation hnothing (fun _ _ _ => by simp)
      (hfinishing.later (later_setStage hoperation hnothing) h.writers)
  case h_2 hfailed =>
    have hended : thread.hasEnded = true := by
      simp [InstallThread.hasEnded, hfound hfailed]
    have hwithdrawn : (desk.setStage operation.id
        (.unlinking row.id path (some .approved))).Withdrawn row.id :=
      withdrawn_of_failed h hoperation hinstalls hthread hrequest hended rfl
    obtain ⟨file, hfile, hsame, hwrote, -, hfree⟩ := hfiled
    refine h.setStage hoperation (fun _ hnothing => ?_) (fun _ _ _ => by simp)
      ⟨hwithdrawn, by simp, file, hfile, hsame, hwrote, ?_⟩
    · simp [InstallStage.installs?] at hnothing
    · intro other hother
      rcases mem_setStage hother with rfl | ⟨hother, -⟩
      · exact hfree operation hoperation
      · exact hfree other hother
  case h_3 => exact h

theorem Kept.settleLast (hstage : operation.stage = .finishing row path) :
    ((desk.settle row [.created, .downloaded, .approved, .installed, .failed]).setStage
      operation.id (.unlinking row.id path none)).Kept ports := by
  have hkept := h.stages operation hoperation
  rw [hstage] at hkept
  obtain ⟨⟨file, hfile, hsame, hrequest, -, hended⟩, hreads, hactive⟩ := hkept
  have hinstalls : operation.stage.installs? = some row.id := by rw [hstage]; rfl
  have hsettled := h.settle [.created, .downloaded, .approved, .installed, .failed] hreads hactive
  obtain ⟨ticket, hticket, hid, -⟩ := h.held operation hoperation row.id hinstalls
  obtain ⟨later, hlater, hsameId, hafter⟩ := exists_updated
    [.created, .downloaded, .approved, .installed, .failed] (f := .settle) (fun _ => rfl) hticket
  rw [hid] at hlater hsameId
  have hover : later.state = .installed := by
    rw [hafter, if_pos (by cases ticket.state <;> simp)]
    rfl
  have hwithdrawn := hsettled.withdrawn hlater (.inl hover)
  rw [hsameId] at hwithdrawn
  exact hsettled.goOn hoperation rfl
    ⟨hwithdrawn, by simp, file, hfile, hsame, hrequest, hended⟩

theorem Kept.unlinked {request path : Nat} {expected : Option RequestState}
    (hstage : operation.stage = .unlinking request path expected) (answer : InstallAnswer) :
    (desk.advance ports operation answer).Kept ports := by
  have hkept := h.stages operation hoperation
  rw [hstage] at hkept
  obtain ⟨hwithdrawn, hexpected, -⟩ := hkept
  unfold InstallDesk.advance
  rw [hstage]
  have hunlinked := h.unlink path
  cases expected with
  | none => exact hunlinked.finish operation.id
  | some state => exact hunlinked.goOn hoperation rfl (.inr ⟨hexpected state rfl, hwithdrawn⟩)

theorem Kept.marked {request : Nat} {code : String}
    (hstage : operation.stage = .marking request code expected) :
    ((desk.markFailed request code expected).finish operation.id).Kept ports := by
  have hkept := h.stages operation hoperation
  rw [hstage] at hkept
  rcases hkept with rfl | ⟨rfl, hwithdrawn⟩
  · exact (h.markCreated request code).finish operation.id
  · exact (h.markFailed request code (by decide) fun _ => hwithdrawn.2).finish operation.id

theorem Kept.sweep (referenced remaining : List Nat) (creating : Option CreateRequest) :
    (desk.sweep operation.id referenced remaining creating).Kept ports := by
  unfold InstallDesk.sweep
  cases remaining with
  | nil =>
    cases creating with
    | none => exact h.finish operation.id
    | some request => exact h.goOn hoperation rfl trivial
  | cons path rest =>
    dsimp only
    split_ifs
    · exact h.goOn hoperation rfl trivial
    · split
      case h_1 => exact h.finish operation.id
      case h_2 =>
        split_ifs
        · exact (h.unlink path).goOn hoperation rfl trivial
        · exact h.goOn hoperation rfl trivial

end

theorem Kept.insertRequest (h : desk.Kept ports) (terms : InstallTerms) :
    (desk.insertRequest terms).Kept ports := by
  unfold InstallDesk.insertRequest
  split
  case isFalse => exact h
  case isTrue =>
    have hlater : Later desk { desk with
        requests := desk.requests ++ [{ id := desk.requests.length, terms := terms }] } :=
      { Later.refl desk with
        tickets := fun ticket hticket => ⟨ticket, List.mem_append_left _ hticket, rfl, rfl,
          Nat.le_refl _, fun _ _ => rfl⟩
        idle := by
          rintro ticket - - hidle ⟨⟨later, hlater, hid, happroved⟩, hlive⟩
          rcases List.mem_append.mp hlater with hlater | hlater
          · exact hidle ⟨⟨later, hlater, hid, happroved⟩, hlive⟩
          · rw [List.mem_singleton] at hlater
            subst hlater
            cases happroved }
    exact { h with
      requestIds := by
        apply Keyed.nodup_append h.requestIds
        intro htaken
        obtain ⟨row, hrow, hid⟩ := List.mem_map.mp htaken
        exact Nat.ne_of_lt (h.requestBound row hrow) hid
      requestBound := by
        intro row hrow
        dsimp only at hrow ⊢
        rw [List.length_append, List.length_singleton]
        rw [List.mem_append, List.mem_singleton] at hrow
        rcases hrow with hrow | rfl
        · exact Nat.lt_succ_of_lt (h.requestBound row hrow)
        · exact Nat.lt_succ_self _
      rows := by
        intro row hrow
        rcases List.mem_append.mp hrow with hrow | hrow
        · exact (h.rows row hrow).later hlater h.writers
        · rw [List.mem_singleton] at hrow
          subst hrow
          refine ⟨fun _ => rfl, ?_⟩
          intro path hpath
          cases hpath
      stages := fun running hrunning => (h.stages running hrunning).later hlater h.writers
      held := by
        intro running hrunning request hrequest
        obtain ⟨ticket, hticket, hheld⟩ := h.held running hrunning request hrequest
        exact ⟨ticket, List.mem_append_left _ hticket, hheld⟩
      threads := fun thread hthread => (h.threads thread hthread).later hlater
      handed := by
        intro handing hhanding
        obtain ⟨⟨ticket, hticket, hgiven⟩, hrest⟩ := h.handed handing hhanding
        exact ⟨⟨ticket, List.mem_append_left _ hticket, hgiven⟩, hrest⟩
      installed := by
        intro row hrow hstate
        rcases List.mem_append.mp hrow with hrow | hrow
        · exact h.installed row hrow hstate
        · rw [List.mem_singleton] at hrow
          subst hrow
          cases hstate }

theorem Kept.create (h : desk.Kept ports) (request : CreateRequest) (answer : InstallAnswer) :
    (desk.create ports operation.id request answer).Kept ports := by
  cases answer with
  | release current =>
    unfold InstallDesk.create
    dsimp only
    split
    case h_1 terms _ => exact (h.insertRequest terms).finish operation.id
    case h_2 => exact h.finish operation.id
  | raised => exact h.finish operation.id
  | proceeds | listing | body | unavailable => exact h

theorem Kept.advance (h : desk.Kept ports) (hoperation : operation ∈ desk.running)
    {answer : InstallAnswer} (hpasses : desk.Passes operation answer) :
    (desk.advance ports operation answer).Kept ports := by
  unfold InstallDesk.Passes at hpasses
  cases hstage : operation.stage with
  | unlinking request path expected => exact h.unlinked hoperation hstage answer
  | referencing creating =>
    unfold InstallDesk.advance
    rw [hstage]
    cases answer with
    | listing paths => exact h.goOn hoperation rfl trivial
    | _ => exact h
  | sweeping referenced remaining creating =>
    unfold InstallDesk.advance
    rw [hstage]
    exact h.sweep hoperation referenced remaining creating
  | awaitingRelease request =>
    unfold InstallDesk.advance
    rw [hstage]
    exact h.create request answer
  | cancelling row =>
    unfold InstallDesk.advance
    rw [hstage]
    exact h.cancel hoperation hstage
  | preparing row =>
    unfold InstallDesk.advance
    rw [hstage] at hpasses ⊢
    exact h.prepare hoperation hstage hpasses
  | downloading row =>
    unfold InstallDesk.advance
    rw [hstage]
    exact h.download hoperation hstage answer
  | verifying row path =>
    unfold InstallDesk.advance
    rw [hstage]
    exact h.verify hoperation hstage answer
  | recording row path =>
    unfold InstallDesk.advance
    rw [hstage]
    exact h.record hoperation hstage
  | starting row =>
    unfold InstallDesk.advance
    rw [hstage] at hpasses ⊢
    exact h.start hoperation hstage hpasses
  | reconciling row =>
    unfold InstallDesk.advance
    rw [hstage]
    exact h.reconcile hoperation hstage
  | observing row path =>
    unfold InstallDesk.advance
    rw [hstage] at hpasses ⊢
    exact h.observe hoperation hstage hpasses
  | approving row path current =>
    unfold InstallDesk.advance
    rw [hstage]
    exact h.approve hoperation hstage
  | handing row path current =>
    unfold InstallDesk.advance
    rw [hstage]
    exact h.handOver hoperation hstage
  | installing row path =>
    unfold InstallDesk.advance
    rw [hstage]
    exact h.awaitInstall hoperation hstage
  | finishing row path =>
    unfold InstallDesk.advance
    rw [hstage]
    exact h.settleLast hoperation hstage
  | marking request code expected =>
    unfold InstallDesk.advance
    rw [hstage]
    exact h.marked hoperation hstage

end InstallDesk

namespace InstallDesk

variable {ports : InstallPorts} {desk : InstallDesk} {verified : VerifiedArtifact}

theorem exists_status {terms : InstallTerms} {package : InstalledPackage}
    (hpackage : package ∈ desk.packages) (hinstalled : terms.Installed package)
    (hnames : terms.Names verified) (status : PackageInstallStatus) :
    ∃ later ∈ (desk.setStatus verified status).packages, terms.Installed later ∧
      later.status = status := by
  have hkey : (package.packageId, package.packageVersion) =
      (verified.packageId, verified.packageVersion) := by
    rw [hinstalled.1, hinstalled.2.1, hnames.1, hnames.2.1]
  refine ⟨_, List.mem_map_of_mem hpackage, ?_⟩
  rw [if_pos hkey]
  exact ⟨hinstalled, rfl⟩

theorem Kept.beginInstall (h : desk.Kept ports) {thread : InstallThread}
    (hthread : thread ∈ desk.threads) (hstage : thread.stage = .beginning verified)
    (hactivates : desk.Activates thread) :
    (desk.beginInstall thread.request verified).Kept ports := by
  have hrunning : thread.hasEnded = false := by simp [InstallThread.hasEnded, hstage]
  have hnames : thread.terms.Names verified := by
    have hkept := h.threads thread hthread
    unfold ThreadKept at hkept
    rwa [hstage] at hkept
  have hnamed := hnames
  obtain ⟨hid, hversion, hsigner, hcontent, harchive⟩ := hnamed
  unfold InstallDesk.beginInstall
  cases hfound : desk.package? verified.packageId verified.packageVersion with
  | none =>
    have hinserted : InstallDesk.Kept ports { desk with
        packages := desk.packages ++ [⟨verified.packageId, verified.packageVersion, .installing,
          verified.contentDigest, verified.archiveDigest, verified.signerFingerprint⟩] } := by
      apply h.repackage
      · exact Keyed.nodup_append h.packageKeys (Keyed.row?_eq_none hfound)
      · intro package hpackage
        exact ⟨package, List.mem_append_left _ hpackage, fun _ => id, id⟩
    exact hinserted.setThread hthread hrunning ⟨hnames, _,
      List.mem_append_right _ List.mem_cons_self, hid, hversion, harchive, hcontent, hsigner⟩
  | some existing =>
    dsimp only
    split_ifs with hdiffers
    · exact h.setThread hthread hrunning trivial
    · simp only [not_or, not_not] at hdiffers
      obtain ⟨hpackage, hkey⟩ := Keyed.row?_eq_some hfound
      obtain ⟨hsameId, hsameVersion⟩ := Prod.mk.inj hkey
      have hinstalled : thread.terms.Installed existing :=
        ⟨hsameId.trans hid, hsameVersion.trans hversion, hdiffers.2.2.trans harchive,
          hdiffers.1.trans hcontent, hdiffers.2.1.trans hsigner⟩
      cases hstatus : existing.status with
      | installed => exact absurd hstatus (hactivates verified hstage existing hfound hinstalled)
      | active =>
        exact h.setThread hthread hrunning ⟨existing, hpackage, hinstalled, hstatus⟩
      | failed =>
        have hreset : (desk.setStatus verified .installing).Kept ports := by
          apply h.setStatus
          rw [statusOf, hfound, Option.map_some, hstatus]
          simp
        obtain ⟨later, hlater, hsame, -⟩ := exists_status hpackage hinstalled hnames .installing
        exact hreset.setThread hthread hrunning ⟨hnames, later, hlater, hsame⟩
      | installing | pendingRemoval | removed => exact h.setThread hthread hrunning trivial

theorem Kept.advancePackage (h : desk.Kept ports) {thread : InstallThread}
    (hthread : thread ∈ desk.threads) {answer : PackageAnswer}
    (hactivates : answer = .proceeds → desk.Activates thread) :
    (desk.advancePackage ports thread answer).Kept ports := by
  have hkept := h.threads thread hthread
  unfold ThreadKept at hkept
  unfold InstallDesk.advancePackage
  cases hstage : thread.stage with
  | ended succeeded => exact h
  | snapshotting =>
    have hrunning : thread.hasEnded = false := by simp [InstallThread.hasEnded, hstage]
    cases answer with
    | raised marked => exact h.setThread hthread hrunning trivial
    | proceeds =>
      dsimp only
      split
      case h_1 verified _ =>
        split_ifs with hnames
        · exact h.setThread hthread hrunning hnames
        · exact h.setThread hthread hrunning trivial
      case h_2 => exact h.setThread hthread hrunning trivial
  | beginning verified =>
    have hrunning : thread.hasEnded = false := by simp [InstallThread.hasEnded, hstage]
    cases answer with
    | raised marked => exact h.setThread hthread hrunning trivial
    | proceeds => exact h.beginInstall hthread hstage (hactivates rfl)
  | materializing verified =>
    have hrunning : thread.hasEnded = false := by simp [InstallThread.hasEnded, hstage]
    rw [hstage] at hkept
    obtain ⟨hnames, package, hpackage, hinstalled⟩ := hkept
    cases answer with
    | raised marked => exact h.raisePackage hthread hrunning verified marked
    | proceeds =>
      dsimp only
      split_ifs with hstatus
      · obtain ⟨later, hlater, hsame, -⟩ := exists_status hpackage hinstalled hnames .installed
        exact (h.setStatus verified .installed (by simp [hstatus])).setThread hthread hrunning
          ⟨hnames, later, hlater, hsame⟩
      · exact h.raisePackage hthread hrunning verified true
  | activating verified =>
    have hrunning : thread.hasEnded = false := by simp [InstallThread.hasEnded, hstage]
    rw [hstage] at hkept
    obtain ⟨hnames, package, hpackage, hinstalled⟩ := hkept
    cases answer with
    | raised marked => exact h.raisePackage hthread hrunning verified marked
    | proceeds =>
      dsimp only
      split_ifs with hstatus
      · exact (h.setStatus verified .active (by simp [hstatus])).setThread hthread hrunning
          (exists_status hpackage hinstalled hnames .active)
      · exact h.raisePackage hthread hrunning verified true

end InstallDesk

namespace InstallDesk

variable {ports : InstallPorts} {desk : InstallDesk}

section

variable (h : desk.Kept ports)

include h

theorem Kept.expireIdle : desk.expireIdle.Kept ports := by
  unfold InstallDesk.expireIdle
  apply h.mapRequests
  · intro row
    split_ifs <;> rfl
  · intro row
    split_ifs <;> rfl
  · intro row _
    split_ifs
    · cases row.state <;> simp [RequestState.rank]
    · exact Nat.le_refl _
  · intro row hrow
    split_ifs
    · exact ⟨fun _ => rfl, by simp [InstallRequest.withdraw]⟩
    · exact h.rows row hrow
  · intro row _ _ hafter
    split_ifs at hafter ⊢
    · simp at hafter
    · rfl
  · intro row _ hbefore _
    split_ifs with hidle
    · rcases hbefore with hbefore | hbefore <;> simp [hbefore] at hidle
    · exact hbefore
  · intro row _ hafter
    split_ifs at hafter
    · simp at hafter
    · exact .inl hafter

theorem Kept.cleanup (creating : Option CreateRequest) :
    (desk.cleanup creating).Kept ports := by
  unfold InstallDesk.cleanup
  split_ifs
  · exact h.expireIdle.begin rfl trivial
  · cases creating with
    | some request => exact h.begin rfl trivial
    | none => exact h

theorem Kept.beginWith (owner id : Nat) {stage : InstallRequest → InstallStage}
    (hinstalls : ∀ row, (stage row).installs? = none)
    (hstage : ∀ row, desk.RowKept ports row → desk.Reads row →
      desk.StageKept ports desk.begun (stage row)) :
    (desk.beginWith owner id stage).Kept ports := by
  unfold InstallDesk.beginWith
  split
  case h_2 => exact h
  case h_1 row hread =>
    obtain ⟨hfound, -⟩ := Option.filter_eq_some_iff.mp hread
    obtain ⟨hrow, -⟩ := Keyed.row?_eq_some hfound
    exact h.begin (hinstalls row) (hstage row (h.rows row hrow)
      ⟨row, hrow, rfl, rfl, Nat.le_refl _, fun _ _ => rfl⟩)

theorem Kept.restart :
    InstallDesk.Kept ports { desk with
      running := []
      threads := [] } :=
  { h with
    operationIds := List.nodup_nil
    operationBound := by simp
    threadRequests := List.nodup_nil
    threadHanded := by simp
    rows := by
      intro row hrow
      obtain ⟨hunfiled, hfiled⟩ := h.rows row hrow
      refine ⟨hunfiled, fun path hpath => ?_⟩
      obtain ⟨file, hfile, hsame, hrequest, hverified, -⟩ := hfiled path hpath
      exact ⟨file, hfile, hsame, hrequest, hverified, by simp⟩
    stages := by simp
    held := by simp
    alone := by simp
    unhanded := by simp
    threads := by simp }

theorem Kept.tick (now : Instant) :
    InstallDesk.Kept ports { desk with now := now } := by
  have hlater : Later desk { desk with now := now } := { Later.refl desk with }
  exact { h with
    rows := fun row hrow => (h.rows row hrow).later hlater h.writers
    stages := fun operation hoperation =>
      (h.stages operation hoperation).later hlater h.writers
    threads := fun thread hthread => (h.threads thread hthread).later hlater }

theorem Kept.exec {op : InstallOp} (hpermits : desk.Permits op) :
    (desk.exec ports op).Kept ports := by
  cases op with
  | create request => exact h.cleanup (some request)
  | cleanupExpired => exact h.cleanup none
  | cancel owner request | prepare owner request | install owner request =>
    exact h.beginWith owner request (fun _ => rfl) fun _ hrow hreads => ⟨hrow, hreads⟩
  | step id answer =>
    unfold InstallDesk.exec
    dsimp only
    cases hfound : desk.operation? id with
    | none => exact h
    | some operation =>
      exact h.advance (Keyed.row?_eq_some hfound).1 (hpermits operation hfound)
  | stop id => exact h.finish id
  | package request answer =>
    unfold InstallDesk.exec
    dsimp only
    cases hfound : desk.thread? request with
    | none => exact h
    | some thread =>
      refine h.advancePackage (Keyed.row?_eq_some hfound).1 ?_
      rintro rfl
      exact hpermits thread hfound
  | restart => exact h.restart
  | tick elapsed => exact h.tick _

end

theorem kept_init : InstallDesk.Kept ports {} := by
  constructor <;> simp

theorem kept_of_permitted {desk : InstallDesk}
    (h : (installService ports).ReachableAlong InstallDesk.Permits desk) : desk.Kept ports :=
  h.invariant kept_init fun _ _ hkept hpermits => hkept.exec hpermits

end InstallDesk

end NervOS
