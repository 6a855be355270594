/-
What the steps of the install tickets keep: which file a ticket refers to, who installs it, and
what the package service was given.
-/
import NervOS.Api.MarketplaceInstallation

namespace NervOS

open Relational

def RequestState.rank : RequestState → Nat
  | created => 0
  | downloaded => 1
  | approved => 2
  | installed => 3
  | failed => 3

def RequestState.isTerminal : RequestState → Bool
  | installed | failed => true
  | _ => false

/-- The ticket that an operation installs. -/
def InstallStage.installs? : InstallStage → Option Nat
  | handing row _ _ | installing row _ | finishing row _ => some row.id
  | _ => none

def InstallThread.hasEnded (thread : InstallThread) : Bool :=
  match thread.stage with
  | .ended _ => true
  | _ => false

namespace InstallDesk

variable (ports : InstallPorts) (desk : InstallDesk)

def Live (request : Nat) : Prop :=
  (∃ operation ∈ desk.running, operation.stage.installs? = some request) ∨
    ∃ thread ∈ desk.threads, thread.request = request ∧ thread.hasEnded = false

/-- The ticket is approved, and its installation has not ended. -/
def InProgress (request : Nat) : Prop :=
  (∃ row ∈ desk.requests, row.id = request ∧ row.state = .approved) ∧ desk.Live request

/-- A ticket that has expired was not installed when it was read; and while it is installed, the
row that was read neither shows that nor refers to its file. -/
def SparesExpired (row : InstallRequest) : Prop :=
  row.state ≠ .installed ∧
    (desk.InProgress row.id → row.state ≠ .approved ∧ row.artifactPath = none)

/-- Nothing expires or changes under an installation, and no sweep meets its file. -/
def Passes (operation : InstallOperation) (answer : InstallAnswer) : Prop :=
  match operation.stage with
  | .preparing row => desk.isExpired row = true → desk.SparesExpired row
  | .starting row =>
    row.state ≠ .installed → row.state ≠ .approved → desk.isExpired row = true →
      desk.SparesExpired row
  | .observing row _ => ∀ current, answer = .release current → ¬ row.terms.Unchanged current →
      ¬ desk.InProgress row.id
  | .sweeping referenced (path :: _) _ => path ∉ referenced →
      ∀ file ∈ desk.file? path, file.modified < desk.now - oneHour →
        ∀ row ∈ desk.requests, row.artifactPath = some path → ¬ desk.InProgress row.id
  | _ => True

def Activates (thread : InstallThread) : Prop :=
  ∀ verified, thread.stage = .beginning verified →
    ∀ package ∈ desk.package? verified.packageId verified.packageVersion,
      thread.terms.Installed package → package.status ≠ .installed

def Permits : InstallOp → Prop
  | .step id answer => ∀ operation ∈ desk.operation? id, desk.Passes operation answer
  | .package request .proceeds => ∀ thread ∈ desk.thread? request, desk.Activates thread
  | _ => True

end InstallDesk

namespace InstallDesk

variable (ports : InstallPorts) (desk : InstallDesk)

/-- The version is active from the bytes that the terms name. -/
def ActiveFor (terms : InstallTerms) : Prop :=
  ∃ package ∈ desk.packages, terms.Installed package ∧ package.status = .active

/-- A verified file that was written for the ticket, by an operation that has ended. -/
def Filed (row : InstallRequest) (path : Nat) : Prop :=
  ∃ file ∈ desk.files, file.path = path ∧ file.request = row.id ∧
    ports.inspects row.terms file.body = true ∧
    ∀ operation ∈ desk.running, operation.id ≠ file.writer

/-- A row as it is, or as it was read. -/
structure RowKept (row : InstallRequest) : Prop where
  unfiled : row.state = .created → row.artifactPath = none
  filed : ∀ path ∈ row.artifactPath, desk.Filed ports row path

def Reads (row : InstallRequest) : Prop :=
  ∃ ticket ∈ desk.requests, ticket.id = row.id ∧ ticket.terms = row.terms ∧
    row.state.rank ≤ ticket.state.rank ∧
    (row.state = .downloaded → ticket.state = .downloaded →
      ticket.artifactPath = row.artifactPath)

def Held (request : Nat) : Prop :=
  ∃ ticket ∈ desk.requests, ticket.id = request ∧
    (ticket.state = .approved ∨ ticket.state = .installed)

/-- The ticket has left the states before its approval, and is not being installed. -/
def Withdrawn (request : Nat) : Prop :=
  (∃ ticket ∈ desk.requests, ticket.id = request ∧ 2 ≤ ticket.state.rank) ∧
    ¬ desk.InProgress request

def Written (id : Nat) (row : InstallRequest) (path : Nat) : Prop :=
  ∃ file ∈ desk.files, file.path = path ∧ file.request = row.id ∧ file.writer = id

/-- What an operation knows at its stage. -/
def StageKept (id : Nat) : InstallStage → Prop
  | .referencing _ | .sweeping _ _ _ | .awaitingRelease _ => True
  | .cancelling row | .preparing row | .downloading row | .starting row =>
    desk.RowKept ports row ∧ desk.Reads row
  | .verifying row path =>
    desk.Reads row ∧ desk.Written id row path
  | .recording row path =>
    desk.Reads row ∧ ∃ file ∈ desk.files, file.path = path ∧ file.request = row.id ∧
      file.writer = id ∧ ports.inspects row.terms file.body = true
  | .reconciling row =>
    desk.RowKept ports row ∧ desk.Reads row ∧ row.state = .approved ∧ desk.ActiveFor row.terms
  | .observing row path =>
    desk.RowKept ports row ∧ desk.Reads row ∧ row.state = .downloaded ∧
      row.artifactPath = some path
  | .approving row path current | .handing row path current =>
    desk.RowKept ports row ∧ desk.Reads row ∧ row.state = .downloaded ∧
      row.artifactPath = some path ∧ row.terms.Unchanged current
  | .installing row path =>
    desk.Filed ports row path ∧ desk.Reads row ∧
      ∃ thread ∈ desk.threads, thread.request = row.id ∧ thread.terms = row.terms
  | .finishing row path => desk.Filed ports row path ∧ desk.Reads row ∧ desk.ActiveFor row.terms
  | .unlinking request path expected =>
    desk.Withdrawn request ∧ (∀ state ∈ expected, state = .approved) ∧
      ∃ file ∈ desk.files, file.path = path ∧ file.request = request ∧
        ∀ operation ∈ desk.running, operation.id ≠ file.writer
  | .marking request _ expected =>
    expected = .created ∨ expected = .approved ∧ desk.Withdrawn request

/-- What a thread has found of the archive and of the version. -/
def ThreadKept (thread : InstallThread) : Prop :=
  match thread.stage with
  | .snapshotting | .ended false => True
  | .beginning verified => thread.terms.Names verified
  | .materializing verified | .activating verified =>
    thread.terms.Names verified ∧
      ∃ package ∈ desk.packages, thread.terms.Installed package
  | .ended true => desk.ActiveFor thread.terms

structure Kept : Prop where
  requestIds : (desk.requests.map InstallRequest.id).Nodup
  requestBound : ∀ row ∈ desk.requests, row.id < desk.requests.length
  paths : (desk.files.map ArtifactFile.path).Nodup
  pathBound : ∀ file ∈ desk.files, file.path < desk.files.length
  writers : ∀ file ∈ desk.files, file.writer < desk.begun
  packageKeys : (desk.packages.map fun package =>
    (package.packageId, package.packageVersion)).Nodup
  operationIds : (desk.running.map InstallOperation.id).Nodup
  operationBound : ∀ operation ∈ desk.running, operation.id < desk.begun
  threadRequests : (desk.threads.map InstallThread.request).Nodup
  threadHanded : ∀ thread ∈ desk.threads, thread.request ∈ desk.handed.map (·.row.id)
  rows : ∀ row ∈ desk.requests, desk.RowKept ports row
  stages : ∀ operation ∈ desk.running, desk.StageKept ports operation.id operation.stage
  held : ∀ operation ∈ desk.running, ∀ request ∈ operation.stage.installs?, desk.Held request
  alone : ∀ operation ∈ desk.running, ∀ other ∈ desk.running, ∀ request,
    operation.stage.installs? = some request → other.stage.installs? = some request →
      operation = other
  unhanded : ∀ operation ∈ desk.running, ∀ row path current,
    operation.stage = .handing row path current → row.id ∉ desk.handed.map (·.row.id)
  threads : ∀ thread ∈ desk.threads, desk.ThreadKept thread
  handedIds : (desk.handed.map (·.row.id)).Nodup
  handed : ∀ handing ∈ desk.handed, (∃ ticket ∈ desk.requests, ticket.id = handing.row.id ∧
      ticket.terms = handing.row.terms ∧ 2 ≤ ticket.state.rank) ∧
    handing.row.terms.Unchanged handing.current ∧
    ∀ body ∈ handing.archive, ports.inspects handing.row.terms body = true
  installed : ∀ row ∈ desk.requests, row.state = .installed → desk.ActiveFor row.terms

end InstallDesk

namespace InstallDesk

variable {ports : InstallPorts} {desk desk' : InstallDesk}

/-- What an operation has seen stays so. -/
structure Later (desk desk' : InstallDesk) : Prop where
  tickets : ∀ ticket ∈ desk.requests, ∃ later ∈ desk'.requests, later.id = ticket.id ∧
    later.terms = ticket.terms ∧ ticket.state.rank ≤ later.state.rank ∧
    (ticket.state = .downloaded → later.state = .downloaded →
      later.artifactPath = ticket.artifactPath)
  files : ∀ file ∈ desk.files, ∃ later ∈ desk'.files, later.path = file.path ∧
    later.request = file.request ∧ later.body = file.body ∧ later.writer = file.writer
  running : ∀ later ∈ desk'.running, (∃ operation ∈ desk.running, operation.id = later.id) ∨
    desk.begun ≤ later.id
  packages : ∀ package ∈ desk.packages, ∃ later ∈ desk'.packages,
    (∀ terms : InstallTerms, terms.Installed package → terms.Installed later) ∧
    (package.status = .active → later.status = .active)
  threads : ∀ thread ∈ desk.threads, ∃ later ∈ desk'.threads, later.request = thread.request ∧
    later.terms = thread.terms
  idle : ∀ ticket ∈ desk.requests, 2 ≤ ticket.state.rank → ¬ desk.InProgress ticket.id →
    ¬ desk'.InProgress ticket.id

theorem unwritten_later (h : Later desk desk') (hwriters : ∀ file ∈ desk.files,
    file.writer < desk.begun) {file : ArtifactFile} (hfile : file ∈ desk.files)
    (hended : ∀ operation ∈ desk.running, operation.id ≠ file.writer) :
    ∀ operation ∈ desk'.running, operation.id ≠ file.writer := by
  intro operation hoperation
  rcases h.running operation hoperation with ⟨before, hbefore, hid⟩ | hnew
  · rw [← hid]
    exact hended before hbefore
  · exact Nat.ne_of_gt (Nat.lt_of_lt_of_le (hwriters file hfile) hnew)

variable {row : InstallRequest}

theorem Filed.later {path : Nat} (hfiled : desk.Filed ports row path) (h : Later desk desk')
    (hwriters : ∀ file ∈ desk.files, file.writer < desk.begun) :
    desk'.Filed ports row path := by
  obtain ⟨file, hfile, hpath, hrequest, hverified, hended⟩ := hfiled
  obtain ⟨later, hlater, hsame, howner, hbody, hwriter⟩ := h.files file hfile
  refine ⟨later, hlater, hsame.trans hpath, howner.trans hrequest, by rw [hbody]; exact hverified,
    ?_⟩
  rw [hwriter]
  exact unwritten_later h hwriters hfile hended

theorem RowKept.later (hrow : desk.RowKept ports row) (h : Later desk desk')
    (hwriters : ∀ file ∈ desk.files, file.writer < desk.begun) :
    desk'.RowKept ports row where
  unfiled := hrow.unfiled
  filed path hpath := (hrow.filed path hpath).later h hwriters

theorem Reads.later (hreads : desk.Reads row) (h : Later desk desk') :
    desk'.Reads row := by
  obtain ⟨ticket, hticket, hid, hterms, hrank, hartifact⟩ := hreads
  obtain ⟨later, hlater, hsame, hkept, hmore, hpath⟩ := h.tickets ticket hticket
  refine ⟨later, hlater, hsame.trans hid, hkept.trans hterms, Nat.le_trans hrank hmore, ?_⟩
  intro hrow hdownloaded
  -- what is downloaded when it was read and now was downloaded in between
  have hbetween : ticket.state = .downloaded := by
    rw [hrow] at hrank
    rw [hdownloaded] at hmore
    cases hstate : ticket.state with
    | downloaded => rfl
    | created => simp [hstate, RequestState.rank] at hrank
    | approved | installed | failed => simp [hstate, RequestState.rank] at hmore
  exact (hpath hbetween hdownloaded).trans (hartifact hrow hbetween)

theorem ActiveFor.later {terms : InstallTerms} (hactive : desk.ActiveFor terms)
    (h : Later desk desk') : desk'.ActiveFor terms := by
  obtain ⟨package, hpackage, hinstalled, hstatus⟩ := hactive
  obtain ⟨later, hlater, hsame, hstill⟩ := h.packages package hpackage
  exact ⟨later, hlater, hsame terms hinstalled, hstill hstatus⟩

theorem Withdrawn.later {request : Nat} (hwithdrawn : desk.Withdrawn request)
    (h : Later desk desk') : desk'.Withdrawn request := by
  obtain ⟨⟨ticket, hticket, rfl, hrank⟩, hidle⟩ := hwithdrawn
  obtain ⟨later, hlater, hid, -, hmore, -⟩ := h.tickets ticket hticket
  exact ⟨⟨later, hlater, hid, Nat.le_trans hrank hmore⟩, h.idle ticket hticket hrank hidle⟩

theorem StageKept.later {id : Nat} {stage : InstallStage} (hstage : desk.StageKept ports id stage)
    (h : Later desk desk') (hwriters : ∀ file ∈ desk.files, file.writer < desk.begun) :
    desk'.StageKept ports id stage := by
  cases stage with
  | referencing | sweeping | awaitingRelease => trivial
  | cancelling row | preparing row | downloading row | starting row =>
    exact ⟨hstage.1.later h hwriters, hstage.2.later h⟩
  | verifying row path =>
    obtain ⟨hreads, file, hfile, hpath, hrequest, hwriter⟩ := hstage
    obtain ⟨later, hlater, hsame, howner, -, hwrote⟩ := h.files file hfile
    exact ⟨hreads.later h, later, hlater, hsame.trans hpath, howner.trans hrequest,
      hwrote.trans hwriter⟩
  | recording row path =>
    obtain ⟨hreads, file, hfile, hpath, hrequest, hwriter, hverified⟩ := hstage
    obtain ⟨later, hlater, hsame, howner, hbody, hwrote⟩ := h.files file hfile
    exact ⟨hreads.later h, later, hlater, hsame.trans hpath, howner.trans hrequest,
      hwrote.trans hwriter, by rw [hbody]; exact hverified⟩
  | reconciling row =>
    obtain ⟨hrow, hreads, hstate, hactive⟩ := hstage
    exact ⟨hrow.later h hwriters, hreads.later h, hstate, hactive.later h⟩
  | observing row path | approving row path current | handing row path current =>
    obtain ⟨hrow, hreads, hrest⟩ := hstage
    exact ⟨hrow.later h hwriters, hreads.later h, hrest⟩
  | installing row path =>
    obtain ⟨hfiled, hreads, thread, hthread, hrequest, hterms⟩ := hstage
    obtain ⟨later, hlater, hsame, hkept⟩ := h.threads thread hthread
    exact ⟨hfiled.later h hwriters, hreads.later h, later, hlater, hsame.trans hrequest,
      hkept.trans hterms⟩
  | finishing row path =>
    exact ⟨hstage.1.later h hwriters, hstage.2.1.later h, hstage.2.2.later h⟩
  | unlinking request path expected =>
    obtain ⟨hwithdrawn, hexpected, file, hfile, hpath, hrequest, hended⟩ := hstage
    obtain ⟨later, hlater, hsame, howner, -, hwriter⟩ := h.files file hfile
    refine ⟨hwithdrawn.later h, hexpected, later, hlater, hsame.trans hpath,
      howner.trans hrequest, ?_⟩
    rw [hwriter]
    exact unwritten_later h hwriters hfile hended
  | marking request code expected =>
    exact hstage.imp_right fun ⟨hexpected, hwithdrawn⟩ => ⟨hexpected, hwithdrawn.later h⟩

theorem ThreadKept.later {thread : InstallThread} (hthread : desk.ThreadKept thread)
    (h : Later desk desk') : desk'.ThreadKept thread := by
  unfold ThreadKept at hthread ⊢
  split at hthread
  case h_1 | h_2 => trivial
  case h_3 => exact hthread
  case h_4 | h_5 =>
    obtain ⟨hnames, package, hpackage, hinstalled⟩ := hthread
    obtain ⟨later, hlater, hsame, -⟩ := h.packages package hpackage
    exact ⟨hnames, later, hlater, hsame _ hinstalled⟩
  case h_6 => exact ActiveFor.later hthread h

end InstallDesk

namespace InstallDesk

variable {ports : InstallPorts} {desk : InstallDesk}

theorem Later.refl (desk : InstallDesk) : Later desk desk where
  tickets ticket hticket := ⟨ticket, hticket, rfl, rfl, Nat.le_refl _, fun _ _ => rfl⟩
  files file hfile := ⟨file, hfile, rfl, rfl, rfl, rfl⟩
  running operation hoperation := .inl ⟨operation, hoperation, rfl⟩
  packages package hpackage := ⟨package, hpackage, fun _ => id, id⟩
  threads thread hthread := ⟨thread, hthread, rfl, rfl⟩
  idle _ _ _ := id

theorem later_running {running : List InstallOperation} (begun : Nat)
    (hids : ∀ later ∈ running, (∃ operation ∈ desk.running, operation.id = later.id) ∨
      desk.begun ≤ later.id)
    (hinstalls : ∀ later ∈ running, ∀ request, later.stage.installs? = some request →
      ∃ operation ∈ desk.running, operation.stage.installs? = some request) :
    Later desk { desk with
      running := running
      begun := begun } :=
  { Later.refl desk with
    running := hids
    idle := by
      rintro ticket - - hidle ⟨happroved, hlive⟩
      refine hidle ⟨happroved, hlive.imp_left ?_⟩
      rintro ⟨later, hlater, hstage⟩
      exact hinstalls later hlater _ hstage }

variable {stage : InstallStage} {operation : InstallOperation}

theorem mem_setStage {id : Nat} (h : operation ∈ (desk.setStage id stage).running) :
    operation = ⟨id, stage⟩ ∨ operation ∈ desk.running ∧ operation.id ≠ id := by
  obtain ⟨before, hbefore, rfl⟩ := Keyed.mem_update h
  by_cases hid : before.id = id
  · rw [if_pos hid, ← hid]
    exact .inl rfl
  · rw [if_neg hid]
    exact .inr ⟨hbefore, hid⟩

theorem RowKept.setStage {row : InstallRequest} (hrow : desk.RowKept ports row)
    (hoperation : operation ∈ desk.running) :
    (desk.setStage operation.id stage).RowKept ports row where
  unfiled := hrow.unfiled
  filed := by
    intro path hpath
    obtain ⟨file, hfile, hsame, hrequest, hverified, hended⟩ := hrow.filed path hpath
    refine ⟨file, hfile, hsame, hrequest, hverified, ?_⟩
    intro later hmem
    rcases mem_setStage hmem with rfl | ⟨hmem, -⟩
    · exact hended operation hoperation
    · exact hended later hmem

theorem later_setStage (hoperation : operation ∈ desk.running)
    (hinstalls : ∀ request, stage.installs? = some request →
      operation.stage.installs? = some request) :
    Later desk (desk.setStage operation.id stage) := by
  apply later_running
  · intro later hmem
    rcases mem_setStage hmem with rfl | ⟨hmem, -⟩
    · exact .inl ⟨operation, hoperation, rfl⟩
    · exact .inl ⟨later, hmem, rfl⟩
  · intro later hmem request hrequest
    rcases mem_setStage hmem with rfl | ⟨hmem, -⟩
    · exact ⟨operation, hoperation, hinstalls request hrequest⟩
    · exact ⟨later, hmem, hrequest⟩

theorem Kept.setStage (h : desk.Kept ports) (hoperation : operation ∈ desk.running)
    (hinstalls : ∀ request, stage.installs? = some request →
      operation.stage.installs? = some request)
    (hhanding : ∀ row path current, stage ≠ .handing row path current)
    (hstage : (desk.setStage operation.id stage).StageKept ports operation.id stage) :
    (desk.setStage operation.id stage).Kept ports := by
  have hlater := later_setStage hoperation hinstalls
  refine { h with
    operationIds := Keyed.nodup_update h.operationIds fun _ => rfl
    operationBound := ?_
    rows := fun row hrow => (h.rows row hrow).later hlater h.writers
    stages := ?_
    held := ?_
    alone := ?_
    unhanded := ?_
    threads := fun thread hthread => (h.threads thread hthread).later hlater }
  · intro later hmem
    rcases mem_setStage hmem with rfl | ⟨hmem, -⟩
    · exact h.operationBound operation hoperation
    · exact h.operationBound later hmem
  · intro later hmem
    rcases mem_setStage hmem with rfl | ⟨hmem, -⟩
    · exact hstage
    · exact (h.stages later hmem).later hlater h.writers
  · intro later hmem request hrequest
    rcases mem_setStage hmem with rfl | ⟨hmem, -⟩
    · exact h.held operation hoperation request (hinstalls request hrequest)
    · exact h.held later hmem request hrequest
  · have hother : ∀ other ∈ desk.running, other.id ≠ operation.id → ∀ request,
        stage.installs? = some request → other.stage.installs? ≠ some request := by
      intro other hother hne request hrequest hsame
      exact hne (congrArg _ (h.alone other hother operation hoperation request hsame
        (hinstalls request hrequest)))
    intro left hleft right hright request hrequest hsame
    rcases mem_setStage hleft with rfl | ⟨hleft, hne⟩
    · rcases mem_setStage hright with rfl | ⟨hright, hne⟩
      · rfl
      · exact absurd hsame (hother right hright hne request hrequest)
    · rcases mem_setStage hright with rfl | ⟨hright, -⟩
      · exact absurd hrequest (hother left hleft hne request hsame)
      · exact h.alone left hleft right hright request hrequest hsame
  · intro later hmem row path current hstage
    rcases mem_setStage hmem with rfl | ⟨hmem, -⟩
    · exact absurd hstage (hhanding row path current)
    · exact h.unhanded later hmem row path current hstage

theorem Kept.goOn (h : desk.Kept ports) (hoperation : operation ∈ desk.running)
    (hinstalls : stage.installs? = none) (hstage : desk.StageKept ports operation.id stage) :
    (desk.setStage operation.id stage).Kept ports := by
  have hnothing : ∀ request, stage.installs? = some request →
      operation.stage.installs? = some request := by
    intro request hrequest
    rw [hinstalls] at hrequest
    cases hrequest
  refine h.setStage hoperation hnothing ?_ (hstage.later (later_setStage hoperation hnothing)
    h.writers)
  rintro row path current rfl
  cases hinstalls

theorem Kept.finish (h : desk.Kept ports) (id : Nat) : (desk.finish id).Kept ports := by
  have hmem : ∀ {operation}, operation ∈ (desk.finish id).running → operation ∈ desk.running :=
    fun hoperation => List.mem_of_mem_filter hoperation
  have hlater : Later desk (desk.finish id) :=
    later_running _ (fun later hfinished => .inl ⟨later, hmem hfinished, rfl⟩)
      fun later hfinished request hrequest => ⟨later, hmem hfinished, hrequest⟩
  exact { h with
    operationIds := h.operationIds.sublist (List.filter_sublist.map _)
    operationBound := fun operation hoperation => h.operationBound operation (hmem hoperation)
    rows := fun row hrow => (h.rows row hrow).later hlater h.writers
    stages := fun operation hoperation =>
      (h.stages operation (hmem hoperation)).later hlater h.writers
    held := fun operation hoperation => h.held operation (hmem hoperation)
    alone := fun left hleft right hright => h.alone left (hmem hleft) right (hmem hright)
    unhanded := fun operation hoperation => h.unhanded operation (hmem hoperation)
    threads := fun thread hthread => (h.threads thread hthread).later hlater }

theorem mem_begin (h : operation ∈ (desk.begin stage).running) :
    operation ∈ desk.running ∨ operation = ⟨desk.begun, stage⟩ := by
  rwa [InstallDesk.begin, List.mem_append, List.mem_singleton] at h

theorem later_begin (hinstalls : stage.installs? = none) :
    Later desk (desk.begin stage) := by
  apply later_running
  · intro later hlater
    rcases mem_begin hlater with hlater | rfl
    · exact .inl ⟨later, hlater, rfl⟩
    · exact .inr (Nat.le_refl _)
  · intro later hlater request hrequest
    rcases mem_begin hlater with hlater | rfl
    · exact ⟨later, hlater, hrequest⟩
    · rw [hinstalls] at hrequest
      cases hrequest

theorem Kept.begin (h : desk.Kept ports) (hinstalls : stage.installs? = none)
    (hstage : desk.StageKept ports desk.begun stage) : (desk.begin stage).Kept ports := by
  have hlater : Later desk (desk.begin stage) := later_begin hinstalls
  refine { h with
    writers := fun file hfile => Nat.lt_succ_of_lt (h.writers file hfile)
    operationIds := ?_
    operationBound := ?_
    rows := fun row hrow => (h.rows row hrow).later hlater h.writers
    stages := ?_
    held := ?_
    alone := ?_
    unhanded := ?_
    threads := fun thread hthread => (h.threads thread hthread).later hlater }
  · apply Keyed.nodup_append h.operationIds
    intro htaken
    obtain ⟨operation, hoperation, hid⟩ := List.mem_map.mp htaken
    exact Nat.ne_of_lt (h.operationBound operation hoperation) hid
  · intro operation hoperation
    rcases mem_begin hoperation with hoperation | rfl
    · exact Nat.lt_succ_of_lt (h.operationBound operation hoperation)
    · exact Nat.lt_succ_self _
  · intro operation hoperation
    rcases mem_begin hoperation with hoperation | rfl
    · exact (h.stages operation hoperation).later hlater h.writers
    · exact hstage.later hlater h.writers
  · intro operation hoperation request hrequest
    rcases mem_begin hoperation with hoperation | rfl
    · exact h.held operation hoperation request hrequest
    · rw [hinstalls] at hrequest
      cases hrequest
  · intro left hleft right hright request hrequest hsame
    rcases mem_begin hleft with hleft | rfl
    · rcases mem_begin hright with hright | rfl
      · exact h.alone left hleft right hright request hrequest hsame
      · rw [hinstalls] at hsame
        cases hsame
    · rw [hinstalls] at hrequest
      cases hrequest
  · intro operation hoperation row path current hstage
    rcases mem_begin hoperation with hoperation | rfl
    · exact h.unhanded operation hoperation row path current hstage
    · subst hstage
      cases hinstalls

end InstallDesk

namespace InstallDesk

variable {ports : InstallPorts} {desk : InstallDesk}

theorem Filed.of_row {row other : InstallRequest} {path : Nat} (h : desk.Filed ports row path)
    (hid : other.id = row.id) (hterms : other.terms = row.terms) : desk.Filed ports other path := by
  obtain ⟨file, hfile, hpath, hrequest, hverified, hended⟩ := h
  exact ⟨file, hfile, hpath, hrequest.trans hid.symm, by rw [hterms]; exact hverified, hended⟩

variable {g : InstallRequest → InstallRequest}

section

variable (h : desk.Kept ports) (hid : ∀ row, (g row).id = row.id)
    (hterms : ∀ row, (g row).terms = row.terms)
    (hrank : ∀ row ∈ desk.requests, row.state.rank ≤ (g row).state.rank)

include h hid hterms hrank

theorem later_mapRequests
    (hartifact : ∀ row ∈ desk.requests, row.state = .downloaded → (g row).state = .downloaded →
      (g row).artifactPath = row.artifactPath) :
    Later desk { desk with requests := desk.requests.map g } :=
  { Later.refl desk with
    tickets := fun ticket hticket => ⟨g ticket, List.mem_map_of_mem hticket, hid ticket,
      hterms ticket, hrank ticket hticket, hartifact ticket hticket⟩
    idle := by
      rintro ticket hticket hranked hidle ⟨⟨later, hlater, hsame, happroved⟩, hlive⟩
      obtain ⟨before, hbefore, rfl⟩ := List.mem_map.mp hlater
      have heq : before = ticket :=
        Keyed.eq_of_column h.requestIds hbefore hticket ((hid before).symm.trans hsame)
      subst heq
      refine hidle ⟨⟨before, hbefore, rfl, ?_⟩, hlive⟩
      have hmore := hrank before hbefore
      rw [happroved] at hmore
      cases hstate : before.state with
      | approved => rfl
      | created | downloaded => simp [hstate, RequestState.rank] at hranked
      | installed => simp [hstate, RequestState.rank] at hmore
      | failed => simp [hstate, RequestState.rank] at hmore }

theorem Kept.mapRequests (hrow : ∀ row ∈ desk.requests, desk.RowKept ports (g row))
    (hartifact : ∀ row ∈ desk.requests, row.state = .downloaded → (g row).state = .downloaded →
      (g row).artifactPath = row.artifactPath)
    (hheld : ∀ row ∈ desk.requests, row.state = .approved ∨ row.state = .installed →
      (∃ operation ∈ desk.running, operation.stage.installs? = some row.id) →
      (g row).state = .approved ∨ (g row).state = .installed)
    (hinstalled : ∀ row ∈ desk.requests, (g row).state = .installed →
      row.state = .installed ∨ desk.ActiveFor row.terms) :
    InstallDesk.Kept ports { desk with requests := desk.requests.map g } := by
  have hids : (desk.requests.map g).map InstallRequest.id =
    desk.requests.map InstallRequest.id := by
    rw [List.map_map]
    exact List.map_congr_left fun row _ => hid row
  have hlater := later_mapRequests h hid hterms hrank hartifact
  exact { h with
    requestIds := by
      rw [hids]
      exact h.requestIds
    requestBound := by
      intro row hmem
      obtain ⟨before, hbefore, rfl⟩ := List.mem_map.mp hmem
      rw [hid, List.length_map]
      exact h.requestBound before hbefore
    rows := by
      intro row hmem
      obtain ⟨before, hbefore, rfl⟩ := List.mem_map.mp hmem
      exact (hrow before hbefore).later hlater h.writers
    stages := fun operation hoperation =>
      (h.stages operation hoperation).later hlater h.writers
    held := by
      intro operation hoperation request hrequest
      obtain ⟨ticket, hticket, rfl, hstate⟩ := h.held operation hoperation request hrequest
      exact ⟨g ticket, List.mem_map_of_mem hticket, hid ticket,
        hheld ticket hticket hstate ⟨operation, hoperation, hrequest⟩⟩
    threads := fun thread hthread => (h.threads thread hthread).later hlater
    handed := by
      intro handing hhanding
      obtain ⟨⟨ticket, hticket, hsame, hkept, hranked⟩, hrest⟩ := h.handed handing hhanding
      exact ⟨⟨g ticket, List.mem_map_of_mem hticket, (hid ticket).trans hsame,
        (hterms ticket).trans hkept, Nat.le_trans hranked (hrank ticket hticket)⟩, hrest⟩
    installed := by
      intro row hmem hstate
      obtain ⟨before, hbefore, rfl⟩ := List.mem_map.mp hmem
      rw [hterms]
      exact (hinstalled before hbefore hstate).elim (h.installed before hbefore) id }

end

variable {f : InstallRequest → InstallRequest}

theorem Kept.updateRequest (h : desk.Kept ports) (id : Nat) (states : List RequestState)
    (hf : ∀ row, (f row).id = row.id ∧ (f row).terms = row.terms)
    (hstep : ∀ row ∈ desk.requests, row.id = id → row.state ∈ states →
      row.state.rank ≤ (f row).state.rank ∧ desk.RowKept ports (f row) ∧
      ((f row).state = .downloaded → row.state ≠ .downloaded) ∧
      (row.state = .approved ∨ row.state = .installed →
        (∃ operation ∈ desk.running, operation.stage.installs? = some row.id) →
        (f row).state = .approved ∨ (f row).state = .installed) ∧
      ((f row).state = .installed → desk.ActiveFor row.terms)) :
    (desk.updateRequest id states f).Kept ports := by
  unfold InstallDesk.updateRequest Keyed.update
  apply h.mapRequests
  · intro row
    dsimp only
    split_ifs
    · exact (hf row).1
    · rfl
    · rfl
  · intro row
    dsimp only
    split_ifs
    · exact (hf row).2
    · rfl
    · rfl
  · intro row hrow
    dsimp only
    split_ifs with hid hstate
    · exact (hstep row hrow hid hstate).1
    · exact Nat.le_refl _
    · exact Nat.le_refl _
  · intro row hrow
    dsimp only
    split_ifs with hid hstate
    · obtain ⟨hunfiled, hfiled⟩ := (hstep row hrow hid hstate).2.1
      exact ⟨hunfiled, hfiled⟩
    · exact h.rows row hrow
    · exact h.rows row hrow
  · intro row hrow
    dsimp only
    split_ifs with hid hstate
    · intro hbefore hafter
      exact absurd hbefore ((hstep row hrow hid hstate).2.2.1 hafter)
    · exact fun _ _ => rfl
    · exact fun _ _ => rfl
  · intro row hrow hbefore hinstalls
    dsimp only
    split_ifs with hid hstate
    · exact (hstep row hrow hid hstate).2.2.2.1 hbefore hinstalls
    · exact hbefore
    · exact hbefore
  · intro row hrow
    dsimp only
    split_ifs with hid hstate
    · exact fun hinstalled => .inr ((hstep row hrow hid hstate).2.2.2.2 hinstalled)
    · exact .inl
    · exact .inl

theorem later_updateRequest (h : desk.Kept ports) (id : Nat) (states : List RequestState)
    (hf : ∀ row, (f row).id = row.id ∧ (f row).terms = row.terms)
    (hstep : ∀ row ∈ desk.requests, row.id = id → row.state ∈ states →
      row.state.rank ≤ (f row).state.rank ∧ ((f row).state = .downloaded → row.state ≠ .downloaded))
    :
    Later desk (desk.updateRequest id states f) := by
  unfold InstallDesk.updateRequest Keyed.update
  apply later_mapRequests h
  · intro row
    dsimp only
    split_ifs
    · exact (hf row).1
    · rfl
    · rfl
  · intro row
    dsimp only
    split_ifs
    · exact (hf row).2
    · rfl
    · rfl
  · intro row hrow
    dsimp only
    split_ifs with hid hstate
    · exact (hstep row hrow hid hstate).1
    · exact Nat.le_refl _
    · exact Nat.le_refl _
  · intro row hrow
    dsimp only
    split_ifs with hid hstate
    · intro hbefore hafter
      exact absurd hbefore ((hstep row hrow hid hstate).2 hafter)
    · exact fun _ _ => rfl
    · exact fun _ _ => rfl

theorem Kept.fail (h : desk.Kept ports) (id : Nat) (states : List RequestState)
    (hf : ∀ row, (f row).id = row.id ∧ (f row).terms = row.terms ∧ (f row).state = .failed ∧
      ((f row).artifactPath = row.artifactPath ∨ (f row).artifactPath = none))
    (hidle : ∀ row ∈ desk.requests, row.id = id → row.state ∈ states →
      row.state = .approved ∨ row.state = .installed →
      ∀ operation ∈ desk.running, operation.stage.installs? ≠ some id) :
    (desk.updateRequest id states f).Kept ports := by
  refine h.updateRequest id states (fun row => ⟨(hf row).1, (hf row).2.1⟩) ?_
  intro row hrow hid hstate
  obtain ⟨hsame, hterms, hfailed, hartifact⟩ := hf row
  refine ⟨?_, ⟨?_, ?_⟩, ?_, ?_, by simp [hfailed]⟩
  · rw [hfailed]
    cases row.state <;> simp [RequestState.rank]
  · rw [hfailed]
    nofun
  · intro path hpath
    rcases hartifact with hkept | hnone
    · rw [hkept] at hpath
      exact ((h.rows row hrow).filed path hpath).of_row hsame hterms
    · rw [hnone] at hpath
      cases hpath
  · rw [hfailed]
    nofun
  · rintro hbefore ⟨operation, hoperation, hinstalls⟩
    exact absurd (hid ▸ hinstalls) (hidle row hrow hid hstate hbefore operation hoperation)

theorem not_installs {id : Nat} (hidle : ¬ desk.InProgress id) {row : InstallRequest}
    (hrow : row ∈ desk.requests) (hid : row.id = id) (happroved : row.state = .approved) :
    ∀ operation ∈ desk.running, operation.stage.installs? ≠ some id :=
  fun operation hoperation hinstalls =>
    hidle ⟨⟨row, hrow, hid, happroved⟩, .inl ⟨operation, hoperation, hinstalls⟩⟩

theorem Kept.markFailed (h : desk.Kept ports) (id : Nat) (code : String)
    {expected : RequestState} (hexpected : expected ≠ .installed)
    (hidle : expected = .approved → ¬ desk.InProgress id) :
    (desk.markFailed id code expected).Kept ports := by
  refine h.fail id [expected] (fun row => ⟨rfl, rfl, rfl, .inl rfl⟩) ?_
  intro row hrow hid hstate hbefore
  rw [List.mem_singleton] at hstate
  rcases hbefore with happroved | hinstalled
  · exact not_installs (hidle (hstate.symm.trans happroved)) hrow hid happroved
  · exact absurd (hstate.symm.trans hinstalled) hexpected

theorem Kept.settle (h : desk.Kept ports) {row : InstallRequest} (states : List RequestState)
    (hreads : desk.Reads row) (hactive : desk.ActiveFor row.terms) :
    (desk.settle row states).Kept ports := by
  refine h.updateRequest row.id states (fun _ => ⟨rfl, rfl⟩) fun ticket hticket hid _ => ?_
  refine ⟨?_, ⟨nofun, nofun⟩, nofun, fun _ _ => .inr rfl, fun _ => ?_⟩
  · cases ticket.state <;> simp [RequestState.rank]
  · obtain ⟨read, hread, hsame, hterms, -⟩ := hreads
    rw [Keyed.eq_of_column h.requestIds hticket hread (hid.trans hsame.symm), hterms]
    exact hactive

end InstallDesk

namespace InstallDesk

variable {ports : InstallPorts} {desk : InstallDesk}

theorem Kept.unlink (h : desk.Kept ports) (path : Nat) : (desk.unlink path).Kept ports := by
  have hlater : Later desk (desk.unlink path) :=
    { Later.refl desk with
      files := by
        intro file hfile
        refine ⟨_, List.mem_map_of_mem hfile, ?_⟩
        split_ifs <;> exact ⟨rfl, rfl, rfl, rfl⟩ }
  exact { h with
    paths := Keyed.nodup_update h.paths fun _ => rfl
    pathBound := by
      intro file hfile
      obtain ⟨before, hbefore, rfl⟩ := Keyed.mem_update hfile
      have hlength : (desk.unlink path).files.length = desk.files.length := List.length_map ..
      rw [hlength]
      split_ifs <;> exact h.pathBound before hbefore
    writers := by
      intro file hfile
      obtain ⟨before, hbefore, rfl⟩ := Keyed.mem_update hfile
      split_ifs <;> exact h.writers before hbefore
    rows := fun row hrow => (h.rows row hrow).later hlater h.writers
    stages := fun operation hoperation =>
      (h.stages operation hoperation).later hlater h.writers
    threads := fun thread hthread => (h.threads thread hthread).later hlater }

theorem Kept.write (h : desk.Kept ports) {id : Nat} (hid : id < desk.begun) (request : Nat)
    (bytes : List UInt8) : InstallDesk.Kept ports { desk with
      files := desk.files ++ [{
        path := desk.files.length
        body := bytes
        modified := desk.now
        request := request
        writer := id }] } := by
  have hlater : Later desk { desk with
      files := desk.files ++ [{
        path := desk.files.length
        body := bytes
        modified := desk.now
        request := request
        writer := id }] } :=
    { Later.refl desk with
      files := fun file hfile => ⟨file, List.mem_append_left _ hfile, rfl, rfl, rfl, rfl⟩ }
  exact { h with
    paths := by
      apply Keyed.nodup_append h.paths
      intro htaken
      obtain ⟨file, hfile, hpath⟩ := List.mem_map.mp htaken
      exact Nat.ne_of_lt (h.pathBound file hfile) hpath
    pathBound := by
      intro file hfile
      dsimp only at hfile ⊢
      rw [List.length_append, List.length_singleton]
      rw [List.mem_append, List.mem_singleton] at hfile
      rcases hfile with hfile | rfl
      · exact Nat.lt_succ_of_lt (h.pathBound file hfile)
      · exact Nat.lt_succ_self _
    writers := by
      intro file hfile
      dsimp only at hfile
      rw [List.mem_append, List.mem_singleton] at hfile
      rcases hfile with hfile | rfl
      · exact h.writers file hfile
      · exact hid
    rows := fun row hrow => (h.rows row hrow).later hlater h.writers
    stages := fun operation hoperation =>
      (h.stages operation hoperation).later hlater h.writers
    threads := fun thread hthread => (h.threads thread hthread).later hlater }

end InstallDesk

namespace InstallDesk

variable {ports : InstallPorts} {desk : InstallDesk} (h : desk.Kept ports)

include h

theorem Kept.repackage {packages : List InstalledPackage}
    (hkeys : (packages.map fun package => (package.packageId, package.packageVersion)).Nodup)
    (hpackages : ∀ package ∈ desk.packages, ∃ later ∈ packages,
      (∀ terms : InstallTerms, terms.Installed package → terms.Installed later) ∧
      (package.status = .active → later.status = .active)) :
    InstallDesk.Kept ports { desk with packages := packages } := by
  have hlater : Later desk { desk with packages := packages } :=
    { Later.refl desk with packages := hpackages }
  exact { h with
    packageKeys := hkeys
    rows := fun row hrow => (h.rows row hrow).later hlater h.writers
    stages := fun operation hoperation =>
      (h.stages operation hoperation).later hlater h.writers
    threads := fun thread hthread => (h.threads thread hthread).later hlater
    installed := fun row hrow hstate => (h.installed row hrow hstate).later hlater }

theorem Kept.setStatus (verified : VerifiedArtifact) (status : PackageInstallStatus)
    (hinactive : desk.statusOf verified ≠ some .active) :
    (desk.setStatus verified status).Kept ports := by
  refine h.repackage (Keyed.nodup_update h.packageKeys fun _ => rfl) ?_
  intro package hpackage
  refine ⟨_, List.mem_map_of_mem hpackage, ?_⟩
  by_cases hkey : (package.packageId, package.packageVersion) =
      (verified.packageId, verified.packageVersion)
  · rw [if_pos hkey]
    refine ⟨fun terms => id, fun hactive => ?_⟩
    have hfound := Keyed.row?_of_mem h.packageKeys hpackage
    rw [hkey] at hfound
    refine absurd ?_ hinactive
    rw [statusOf, package?, hfound, Option.map_some, hactive]
  · rw [if_neg hkey]
    exact ⟨fun terms => id, id⟩

theorem Kept.failPackage (verified : VerifiedArtifact) :
    (desk.failPackage verified).Kept ports := by
  unfold InstallDesk.failPackage
  split
  case isTrue hstatus =>
    apply h.setStatus
    intro hactive
    rw [hactive] at hstatus
    simp at hstatus
  case isFalse => exact h

theorem Kept.setThread {thread : InstallThread} (hthread : thread ∈ desk.threads)
    (hrunning : thread.hasEnded = false) {stage : ThreadStage}
    (hstage : desk.ThreadKept { thread with stage := stage }) :
    (desk.setThread thread.request stage).Kept ports := by
  have hlater : Later desk (desk.setThread thread.request stage) :=
    { Later.refl desk with
      threads := by
        intro other hother
        refine ⟨_, List.mem_map_of_mem hother, ?_⟩
        split_ifs <;> exact ⟨rfl, rfl⟩
      idle := by
        rintro ticket - - hidle ⟨happroved, hlive⟩
        refine hidle ⟨happroved, hlive.imp_right ?_⟩
        rintro ⟨later, hlater, hrequest, hends⟩
        obtain ⟨before, hbefore, rfl⟩ := Keyed.mem_update hlater
        by_cases hsame : before.request = thread.request
        · have heq := Keyed.eq_of_column h.threadRequests hbefore hthread hsame
          rw [if_pos hsame] at hrequest
          exact ⟨before, hbefore, hrequest, heq ▸ hrunning⟩
        · rw [if_neg hsame] at hrequest hends
          exact ⟨before, hbefore, hrequest, hends⟩ }
  exact { h with
    threadRequests := Keyed.nodup_update h.threadRequests fun _ => rfl
    threadHanded := by
      intro later hmem
      obtain ⟨before, hbefore, rfl⟩ := Keyed.mem_update hmem
      split_ifs <;> exact h.threadHanded before hbefore
    rows := fun row hrow => (h.rows row hrow).later hlater h.writers
    stages := fun operation hoperation =>
      (h.stages operation hoperation).later hlater h.writers
    threads := by
      intro later hmem
      obtain ⟨before, hbefore, rfl⟩ := Keyed.mem_update hmem
      by_cases hsame : before.request = thread.request
      · rw [if_pos hsame, Keyed.eq_of_column h.threadRequests hbefore hthread hsame]
        exact ThreadKept.later hstage hlater
      · rw [if_neg hsame]
        exact (h.threads before hbefore).later hlater }

theorem Kept.raisePackage {thread : InstallThread} (hthread : thread ∈ desk.threads)
    (hrunning : thread.hasEnded = false) (verified : VerifiedArtifact) (marked : Bool) :
    (desk.raisePackage thread.request verified marked).Kept ports := by
  unfold InstallDesk.raisePackage
  cases marked with
  | false => exact h.setThread hthread hrunning trivial
  | true =>
    have hthreads : (desk.failPackage verified).threads = desk.threads := by
      unfold InstallDesk.failPackage
      split <;> rfl
    exact (h.failPackage verified).setThread (hthreads ▸ hthread) hrunning trivial

end InstallDesk

end NervOS
