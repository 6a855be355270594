/-
What becomes of the tickets that are over, of the file of a ticket under installation, and of
those that were interrupted.
-/
import NervOS.Refinement.InstallSteps

namespace NervOS

open Relational

/-- The process stops under an operation, or altogether. -/
def InstallOp.isCrash : InstallOp → Bool
  | stop _ | restart => true
  | _ => false

namespace InstallDesk

variable (ports : InstallPorts) (desk : InstallDesk)

def HasFile (path : Nat) : Prop :=
  ∃ file ∈ desk.files, file.path = path ∧ file.isPresent = true

/-- What was installed or has failed stays so. -/
def KeepsTerminal (before after : List InstallRequest) : Prop :=
  ∀ row ∈ before, row.state.isTerminal = true →
    ∃ later ∈ after, later.id = row.id ∧ later.state = row.state

def Recoverable (request : Nat) : Prop :=
  ∃ ops, (installService ports).Along Permits ops desk ∧ (∀ op ∈ ops, op.isCrash = false) ∧
    ∃ ticket ∈ ((installService ports).run ops desk).requests,
      ticket.id = request ∧ ticket.state.isTerminal = true

end InstallDesk

namespace InstallDesk

variable {ports : InstallPorts} {desk : InstallDesk} {id request : Nat}
  {row : InstallRequest} {verified : VerifiedArtifact}

theorem unlinkRow_frame : (desk.unlinkRow id row).requests = desk.requests ∧
    (desk.unlinkRow id row).files = desk.files := by
  unfold unlinkRow
  split <;> exact ⟨rfl, rfl⟩

theorem failPackage_frame : (desk.failPackage verified).requests = desk.requests ∧
    (desk.failPackage verified).files = desk.files := by
  unfold failPackage
  split <;> exact ⟨rfl, rfl⟩

theorem raisePackage_frame {marked : Bool} :
    (desk.raisePackage request verified marked).requests = desk.requests ∧
      (desk.raisePackage request verified marked).files = desk.files := by
  unfold raisePackage
  cases marked with
  | false => exact ⟨rfl, rfl⟩
  | true => exact failPackage_frame

theorem beginInstall_frame : (desk.beginInstall request verified).requests = desk.requests ∧
    (desk.beginInstall request verified).files = desk.files := by
  unfold beginInstall
  split
  case h_1 => exact ⟨rfl, rfl⟩
  case h_2 =>
    split_ifs
    · exact ⟨rfl, rfl⟩
    · split <;> exact ⟨rfl, rfl⟩

theorem advancePackage_frame {thread : InstallThread} {answer : PackageAnswer} :
    (desk.advancePackage ports thread answer).requests = desk.requests ∧
      (desk.advancePackage ports thread answer).files = desk.files := by
  unfold advancePackage
  split
  case h_1 =>
    split
    case h_1 => split_ifs <;> exact ⟨rfl, rfl⟩
    case h_2 => exact ⟨rfl, rfl⟩
  case h_2 | h_3 => exact ⟨rfl, rfl⟩
  case h_4 => exact beginInstall_frame
  case h_5 | h_6 =>
    split_ifs
    · exact ⟨rfl, rfl⟩
    · exact raisePackage_frame
  case h_7 | h_8 => exact raisePackage_frame
  case h_9 => exact ⟨rfl, rfl⟩

end InstallDesk

namespace InstallDesk

variable {ports : InstallPorts} {desk : InstallDesk} {operation : InstallOperation}
  {row : InstallRequest}

theorem KeepsTerminal.refl (rows : List InstallRequest) : KeepsTerminal rows rows :=
  fun row hrow _ => ⟨row, hrow, rfl, rfl⟩

theorem keepsTerminal_append (row : InstallRequest) :
    KeepsTerminal desk.requests (desk.requests ++ [row]) :=
  fun ticket hticket _ => ⟨ticket, List.mem_append_left _ hticket, rfl, rfl⟩

theorem keepsTerminal_map {rows : List InstallRequest} {g : InstallRequest → InstallRequest}
    (hid : ∀ row ∈ rows, (g row).id = row.id)
    (hstate : ∀ row ∈ rows, row.state.isTerminal = true → (g row).state = row.state) :
    KeepsTerminal rows (rows.map g) :=
  fun row hrow hterminal =>
    ⟨g row, List.mem_map_of_mem hrow, hid row hrow, hstate row hrow hterminal⟩

variable (id : Nat) {f : InstallRequest → InstallRequest}

theorem keepsTerminal_update (states : List RequestState) (hid : ∀ row, (f row).id = row.id)
    (hstate : ∀ row ∈ desk.requests, row.id = id → row.state ∈ states →
      row.state.isTerminal = true → (f row).state = row.state) :
    KeepsTerminal desk.requests (desk.updateRequest id states f).requests := by
  apply keepsTerminal_map
  · intro row _
    dsimp only
    split_ifs
    · exact hid row
    · rfl
    · rfl
  · intro row hrow hterminal
    dsimp only
    split_ifs with hsame hmem
    · exact hstate row hrow hsame hmem hterminal
    · rfl
    · rfl

theorem keepsTerminal_mark (code : String) {expected : RequestState}
    (hexpected : expected ≠ .installed) :
    KeepsTerminal desk.requests (desk.markFailed id code expected).requests := by
  refine keepsTerminal_update id [expected] (fun _ => rfl) ?_
  intro row _ _ hmem hterminal
  rw [List.mem_singleton] at hmem
  cases hstate : row.state with
  | installed => exact absurd (hmem.symm.trans hstate) hexpected
  | failed => rfl
  | created | downloaded | approved => simp [hstate, RequestState.isTerminal] at hterminal

theorem keepsTerminal_expire (hstate : row.state ≠ .installed) :
    KeepsTerminal desk.requests (desk.expire id row).requests := by
  unfold expire
  rw [unlinkRow_frame.1]
  exact keepsTerminal_mark row.id _ hstate

theorem keepsTerminal_open {states : List RequestState} (hid : ∀ row, (f row).id = row.id)
    (hstates : ∀ state ∈ states, state.isTerminal = false) :
    KeepsTerminal desk.requests (desk.updateRequest id states f).requests := by
  refine keepsTerminal_update id states hid ?_
  intro row _ _ hmem hterminal
  rw [hstates row.state hmem] at hterminal
  cases hterminal

theorem keepsTerminal_cancel :
    KeepsTerminal desk.requests (desk.cancel operation.id row).requests := by
  unfold cancel
  split_ifs
  · rw [unlinkRow_frame.1]
    refine keepsTerminal_update row.id _ (fun _ => rfl) ?_
    intro ticket _ _ hmem hterminal
    cases hstate : ticket.state with
    | failed => rfl
    | installed => simp [hstate] at hmem
    | created | downloaded | approved => simp [hstate, RequestState.isTerminal] at hterminal
  · exact .refl _

variable {answer : InstallAnswer}

theorem keepsTerminal_download :
    KeepsTerminal desk.requests (desk.download ports operation.id row answer).requests := by
  unfold download
  split
  case h_1 bytes =>
    unfold receive
    split_ifs
    · exact keepsTerminal_mark row.id _ (by simp)
    · exact keepsTerminal_mark row.id _ (by simp)
    · exact .refl _
  case h_2 => exact keepsTerminal_mark row.id _ (by simp)
  case h_3 | h_4 => exact .refl _

theorem keepsTerminal_start (hspares : row.state ≠ .installed → row.state ≠ .approved →
      desk.isExpired row = true → desk.SparesExpired row) :
    KeepsTerminal desk.requests (desk.start ports operation.id row).requests := by
  unfold start
  split
  case h_1 => exact .refl _
  case h_2 => split_ifs <;> exact .refl _
  case h_3 hinstalled happroved =>
    by_cases hexpired : desk.isExpired row = true
    · rw [if_pos hexpired]
      exact keepsTerminal_expire operation.id (hspares hinstalled happroved hexpired).1
    · rw [if_neg hexpired]
      split
      case h_1 => split_ifs <;> exact .refl _
      case h_2 => exact .refl _

theorem keepsTerminal_create {request : CreateRequest} :
    KeepsTerminal desk.requests (desk.create ports operation.id request answer).requests := by
  unfold create
  split
  case h_1 =>
    split
    case h_1 =>
      unfold insertRequest
      split_ifs
      · exact keepsTerminal_append _
      · exact .refl _
    case h_2 => exact .refl _
  case h_2 | h_3 => exact .refl _

variable {creating : Option CreateRequest}

theorem keepsTerminal_sweep {referenced remaining : List Nat} :
    KeepsTerminal desk.requests
      (desk.sweep operation.id referenced remaining creating).requests := by
  unfold sweep
  split
  case h_1 => cases creating <;> exact .refl _
  case h_2 =>
    split_ifs
    · exact .refl _
    · split
      case h_1 => exact .refl _
      case h_2 => split_ifs <;> exact .refl _

theorem Kept.keepsTerminal (h : desk.Kept ports) (hoperation : operation ∈ desk.running)
    (hpasses : desk.Passes operation answer) :
    KeepsTerminal desk.requests (desk.advance ports operation answer).requests := by
  have hkept := h.stages operation hoperation
  unfold Passes at hpasses
  unfold InstallDesk.advance
  cases hstage : operation.stage with
  | referencing creating => cases answer <;> exact .refl _
  | sweeping referenced remaining creating => exact keepsTerminal_sweep
  | awaitingRelease request => exact keepsTerminal_create
  | cancelling row => exact keepsTerminal_cancel
  | preparing row =>
    rw [hstage] at hpasses
    dsimp only
    unfold InstallDesk.prepare
    split_ifs with hexpired
    · exact keepsTerminal_expire operation.id (hpasses hexpired).1
    · exact .refl _
    · exact .refl _
  | downloading row => exact keepsTerminal_download
  | verifying row path =>
    dsimp only
    unfold InstallDesk.verify
    split_ifs <;> exact .refl _
  | recording row path =>
    dsimp only
    unfold InstallDesk.record
    split_ifs
    · exact keepsTerminal_open row.id (fun _ => rfl) (by simp [RequestState.isTerminal])
    · exact .refl _
  | starting row =>
    rw [hstage] at hpasses
    exact keepsTerminal_start hpasses
  | reconciling row =>
    dsimp only
    rw [unlinkRow_frame.1]
    exact keepsTerminal_open row.id (fun _ => rfl) (by simp [RequestState.isTerminal])
  | observing row path =>
    dsimp only
    unfold InstallDesk.observe
    split
    case h_1 =>
      split_ifs
      · exact .refl _
      · exact keepsTerminal_mark row.id _ (by simp)
    case h_2 | h_3 => exact .refl _
  | approving row path current =>
    dsimp only
    unfold InstallDesk.approve
    split_ifs
    · exact keepsTerminal_open row.id (fun _ => rfl) (by simp [RequestState.isTerminal])
    · exact .refl _
  | handing row path current => exact .refl _
  | installing row path =>
    dsimp only
    unfold InstallDesk.awaitInstall
    split <;> exact .refl _
  | finishing row path =>
    -- the ticket is approved, or a second operation has reconciled it
    obtain ⟨held, hheld, hsame, hbefore⟩ := h.held operation hoperation row.id (by rw [hstage]; rfl)
    refine keepsTerminal_update row.id _ (fun _ => rfl) ?_
    intro ticket hticket hid _ hterminal
    rw [Keyed.eq_of_column h.requestIds hticket hheld (hid.trans hsame.symm)] at hterminal ⊢
    rcases hbefore with hbefore | hbefore
    · simp [hbefore, RequestState.isTerminal] at hterminal
    · exact hbefore.symm
  | unlinking request path expected => cases expected <;> exact .refl _
  | marking request code expected =>
    rw [hstage] at hkept
    apply keepsTerminal_mark request code
    rcases hkept with rfl | ⟨rfl, -⟩ <;> simp

theorem keepsTerminal_cleanup :
    KeepsTerminal desk.requests (desk.cleanup creating).requests := by
  unfold cleanup
  split_ifs
  · apply keepsTerminal_map
    · intro row _
      split_ifs <;> rfl
    · intro row _ hterminal
      split_ifs with hidle
      · cases hstate : row.state <;> simp [hstate, RequestState.isTerminal] at hterminal hidle
      · rfl
  · cases creating <;> exact .refl _

theorem beginWith_frame {owner request : Nat} {stage : InstallRequest → InstallStage} :
    (desk.beginWith owner request stage).requests = desk.requests ∧
      (desk.beginWith owner request stage).files = desk.files := by
  unfold beginWith
  split <;> exact ⟨rfl, rfl⟩

theorem Kept.keepsTerminal_exec (h : desk.Kept ports) {op : InstallOp}
    (hpermits : desk.Permits op) :
    KeepsTerminal desk.requests (desk.exec ports op).requests := by
  cases op with
  | create | cleanupExpired => exact keepsTerminal_cleanup
  | cancel owner request | prepare owner request | install owner request =>
    unfold InstallDesk.exec
    dsimp only
    rw [beginWith_frame.1]
    exact .refl _
  | step id answer =>
    unfold InstallDesk.exec
    dsimp only
    cases hfound : desk.operation? id with
    | none => exact .refl _
    | some operation =>
      exact h.keepsTerminal (Keyed.row?_eq_some hfound).1 (hpermits operation hfound)
  | package request answer =>
    unfold InstallDesk.exec
    dsimp only
    cases desk.thread? request with
    | none => exact .refl _
    | some thread =>
      dsimp only
      rw [advancePackage_frame.1]
      exact .refl _
  | stop id | restart | tick elapsed => exact .refl _

end InstallDesk

namespace InstallDesk

variable {ports : InstallPorts} {desk : InstallDesk} {operation : InstallOperation}
  {row : InstallRequest} {path : Nat}

theorem hasFile_unlink (hfile : desk.HasFile path) {other : Nat} (hne : path ≠ other) :
    (desk.unlink other).HasFile path := by
  obtain ⟨file, hmem, hpath, hpresent⟩ := hfile
  refine ⟨_, List.mem_map_of_mem hmem, ?_⟩
  rw [if_neg (by rwa [hpath])]
  exact ⟨hpath, hpresent⟩

theorem HasFile.of_files {desk' : InstallDesk} (hfile : desk.HasFile path)
    (hfiles : desk'.files = desk.files) : desk'.HasFile path := by
  unfold HasFile
  rw [hfiles]
  exact hfile

theorem files_unlinkRow {id : Nat} {row : InstallRequest} :
    (desk.unlinkRow id row).files = desk.files :=
  unlinkRow_frame.2

variable {answer : InstallAnswer}

theorem hasFile_download (hfile : desk.HasFile path) :
    (desk.download ports operation.id row answer).HasFile path := by
  unfold download
  split
  case h_1 bytes =>
    unfold receive
    split_ifs
    · exact hfile
    · exact hfile
    · obtain ⟨file, hmem, hkept⟩ := hfile
      exact ⟨file, List.mem_append_left _ hmem, hkept⟩
  case h_2 | h_3 | h_4 => exact hfile

theorem files_start :
    (desk.start ports operation.id row).files = desk.files := by
  unfold start
  split
  case h_1 => rfl
  case h_2 => split_ifs <;> rfl
  case h_3 =>
    by_cases hexpired : desk.isExpired row = true
    · rw [if_pos hexpired]
      exact files_unlinkRow
    · rw [if_neg hexpired]
      split
      case h_1 => split_ifs <;> rfl
      case h_2 => rfl

theorem files_create {request : CreateRequest} :
    (desk.create ports operation.id request answer).files = desk.files := by
  unfold create
  split
  case h_1 =>
    split
    case h_1 =>
      unfold insertRequest
      split_ifs <;> rfl
    case h_2 => rfl
  case h_2 | h_3 => rfl

theorem Kept.ne_of_written (h : desk.Kept ports) (hoperation : operation ∈ desk.running)
    (hrow : row ∈ desk.requests) (hpath : path ∈ row.artifactPath) {reader : InstallRequest}
    {other : Nat} (hwritten : desk.Written operation.id reader other) : path ≠ other := by
  rintro rfl
  obtain ⟨file, hfile, hsame, -, -, hended⟩ := (h.rows row hrow).filed path hpath
  obtain ⟨new, hnew, hnewPath, -, hwriter⟩ := hwritten
  rw [Keyed.eq_of_column h.paths hfile hnew (hsame.trans hnewPath.symm)] at hended
  exact hended operation hoperation hwriter.symm

theorem Kept.hasFile (h : desk.Kept ports) (hoperation : operation ∈ desk.running)
    (hpasses : desk.Passes operation answer) (hrow : row ∈ desk.requests)
    (hpath : path ∈ row.artifactPath) (hprogress : desk.InProgress row.id)
    (hfile : desk.HasFile path) : (desk.advance ports operation answer).HasFile path := by
  have hkept := h.stages operation hoperation
  unfold Passes at hpasses
  unfold InstallDesk.advance
  cases hstage : operation.stage with
  | referencing creating => cases answer <;> exact hfile
  | sweeping referenced remaining creating =>
    dsimp only
    unfold InstallDesk.sweep
    cases remaining with
    | nil => cases creating <;> exact hfile
    | cons swept rest =>
      rw [hstage] at hpasses
      dsimp only
      split_ifs with hreferenced
      · exact hfile
      · cases hfound : desk.file? swept with
        | none => exact hfile
        | some file =>
          dsimp only
          split_ifs with hold
          · apply hasFile_unlink hfile
            rintro rfl
            exact hpasses hreferenced file hfound hold row hrow hpath hprogress
          · exact hfile
  | awaitingRelease request => exact hfile.of_files files_create
  | cancelling row =>
    dsimp only
    unfold InstallDesk.cancel
    split_ifs
    · exact hfile.of_files files_unlinkRow
    · exact hfile
  | preparing row =>
    dsimp only
    unfold InstallDesk.prepare
    split_ifs
    · exact hfile.of_files files_unlinkRow
    · exact hfile
    · exact hfile
  | downloading row => exact hasFile_download hfile
  | verifying reader written =>
    rw [hstage] at hkept
    dsimp only
    unfold InstallDesk.verify
    split_ifs
    · exact hfile
    · exact hasFile_unlink hfile (h.ne_of_written hoperation hrow hpath hkept.2)
  | recording reader written =>
    rw [hstage] at hkept
    obtain ⟨-, new, hnew, hnewPath, hrequest, hwriter, -⟩ := hkept
    dsimp only
    unfold InstallDesk.record
    split_ifs
    · exact hfile
    · exact hasFile_unlink hfile (h.ne_of_written hoperation hrow hpath
        ⟨new, hnew, hnewPath, hrequest, hwriter⟩)
  | starting row => exact hfile.of_files files_start
  | reconciling row => exact hfile.of_files files_unlinkRow
  | observing row path =>
    dsimp only
    unfold InstallDesk.observe
    split
    case h_1 => split_ifs <;> exact hfile
    case h_2 | h_3 => exact hfile
  | approving row path current =>
    dsimp only
    unfold InstallDesk.approve
    split_ifs <;> exact hfile
  | handing row path current => exact hfile
  | installing row path =>
    dsimp only
    unfold InstallDesk.awaitInstall
    split <;> exact hfile
  | finishing row path => exact hfile
  | unlinking request gone expected =>
    rw [hstage] at hkept
    obtain ⟨hwithdrawn, -, file, hmem, hgone, hrequest, -⟩ := hkept
    have hne : path ≠ gone := by
      rintro rfl
      obtain ⟨own, hown, hsame, howner, -⟩ := (h.rows row hrow).filed path hpath
      rw [Keyed.eq_of_column h.paths hmem hown (hgone.trans hsame.symm), howner] at hrequest
      exact hwithdrawn.2 (hrequest ▸ hprogress)
    cases expected <;> exact hasFile_unlink hfile hne
  | marking request code expected => exact hfile

theorem Kept.hasFile_exec (h : desk.Kept ports) {op : InstallOp} (hpermits : desk.Permits op)
    (hrow : row ∈ desk.requests) (hpath : path ∈ row.artifactPath)
    (hprogress : desk.InProgress row.id) (hfile : desk.HasFile path) :
    (desk.exec ports op).HasFile path := by
  have hcleanup : ∀ creating, (desk.cleanup creating).files = desk.files := by
    intro creating
    unfold InstallDesk.cleanup
    split_ifs
    · rfl
    · cases creating <;> rfl
  cases op with
  | create | cleanupExpired => exact hfile.of_files (hcleanup _)
  | cancel owner request | prepare owner request | install owner request =>
    exact hfile.of_files beginWith_frame.2
  | step id answer =>
    unfold InstallDesk.exec
    dsimp only
    cases hfound : desk.operation? id with
    | none => exact hfile
    | some operation =>
      exact h.hasFile (Keyed.row?_eq_some hfound).1 (hpermits operation hfound) hrow hpath
        hprogress hfile
  | package request answer =>
    unfold InstallDesk.exec
    dsimp only
    cases desk.thread? request with
    | none => exact hfile
    | some thread => exact hfile.of_files advancePackage_frame.2
  | stop id | restart | tick elapsed => exact hfile

end InstallDesk

namespace InstallDesk

variable {ports : InstallPorts} {desk : InstallDesk}

theorem Recoverable.cons {request : Nat} (op : InstallOp) (hpermits : desk.Permits op)
    (hcrash : op.isCrash = false) (h : (desk.exec ports op).Recoverable ports request) :
    desk.Recoverable ports request := by
  obtain ⟨ops, halong, hordinary, hticket⟩ := h
  refine ⟨op :: ops, ⟨hpermits, halong⟩, ?_, hticket⟩
  intro next hnext
  rcases List.mem_cons.mp hnext with rfl | hnext
  · exact hcrash
  · exact hordinary next hnext

variable {ticket : InstallRequest}

theorem recoverable_of_terminal (hticket : ticket ∈ desk.requests)
    (hterminal : ticket.state.isTerminal = true) : desk.Recoverable ports ticket.id :=
  ⟨[], trivial, by simp, ticket, hticket, rfl, hterminal⟩

variable {operation : InstallOperation}

section

variable (h : desk.Kept ports) (hoperation : operation ∈ desk.running)

include h hoperation

theorem Kept.operation? :
    desk.operation? operation.id = some operation :=
  Keyed.row?_of_mem h.operationIds hoperation

theorem exec_step (answer : InstallAnswer) :
    desk.exec ports (.step operation.id answer) = desk.advance ports operation answer := by
  unfold InstallDesk.exec
  dsimp only
  rw [h.operation? hoperation]

theorem permits_step {answer : InstallAnswer} (hpasses : desk.Passes operation answer) :
    desk.Permits (.step operation.id answer) := by
  intro found hfound
  rw [h.operation? hoperation] at hfound
  obtain rfl := Option.some.inj hfound
  exact hpasses

end

theorem recoverable_idle (h : desk.Kept ports) (hticket : ticket ∈ desk.requests)
    (hidle : ¬ desk.InProgress ticket.id) :
    desk.Recoverable ports ticket.id := by
  by_cases hterminal : ticket.state.isTerminal = true
  · exact recoverable_of_terminal hticket hterminal
  let elapsed : Nat := (ticket.terms.createdAt + oneHour - desk.now + 1).toNat
  let later : InstallDesk := { desk with now := desk.now + (elapsed : Int) }
  have hlater : later.Kept ports := h.tick _
  have hread : later.row? ticket.terms.ownerUserId ticket.id = some ticket := by
    have hfound : later.request? ticket.id = some ticket :=
      Keyed.row?_of_mem h.requestIds hticket
    simp [row?, hfound]
  have hbegun : later.exec ports (.prepare ticket.terms.ownerUserId ticket.id) =
      later.begin (.preparing ticket) := by
    unfold InstallDesk.exec InstallDesk.beginWith
    dsimp only
    rw [hread]
  have hbegins : (later.begin (.preparing ticket)).Kept ports := by
    rw [← hbegun]
    exact hlater.exec trivial
  have hoperation : (⟨later.begun, .preparing ticket⟩ : InstallOperation) ∈
      (later.begin (.preparing ticket)).running :=
    List.mem_append_right _ List.mem_cons_self
  have hexpired : (later.begin (.preparing ticket)).isExpired ticket = true := by
    apply decide_eq_true
    show ticket.terms.createdAt + oneHour < desk.now + (elapsed : Int)
    unfold elapsed Instant Duration at *
    omega
  -- what expires is not under installation
  have hspares : (later.begin (.preparing ticket)).SparesExpired ticket := by
    refine ⟨?_, ?_⟩
    · intro hinstalled
      rw [hinstalled] at hterminal
      exact hterminal rfl
    · rintro ⟨happroved, ⟨running, hrunning, hinstalls⟩ | hthread⟩
      · rcases mem_begin hrunning with hrunning | rfl
        · exact absurd ⟨happroved, .inl ⟨running, hrunning, hinstalls⟩⟩ hidle
        · simp [InstallStage.installs?] at hinstalls
      · exact absurd ⟨happroved, .inr hthread⟩ hidle
  apply Recoverable.cons (.tick elapsed) trivial rfl
  apply Recoverable.cons (.prepare ticket.terms.ownerUserId ticket.id) trivial rfl
  show (later.exec ports _).Recoverable ports ticket.id
  rw [hbegun]
  apply Recoverable.cons (.step later.begun .proceeds)
    (permits_step hbegins hoperation fun _ => hspares) rfl
  rw [exec_step hbegins hoperation]
  have hticketLater : ticket ∈ (later.begin (.preparing ticket)).requests := hticket
  obtain ⟨failed, hfailed, hid, hstate⟩ := exists_updated [ticket.state]
    (f := .fail "request_expired") (fun _ => rfl) hticketLater
  rw [if_pos (List.mem_singleton_self _)] at hstate
  rw [← hid]
  apply recoverable_of_terminal
  · show failed ∈ (prepare ports _ later.begun ticket).requests
    rw [prepare, if_pos hexpired, expire, unlinkRow_frame.1]
    exact hfailed
  · rw [hstate]
    rfl

theorem recoverable_withdrawn (h : desk.Kept ports) {request : Nat}
    (hwithdrawn : desk.Withdrawn request) : desk.Recoverable ports request := by
  obtain ⟨⟨ticket, hticket, rfl, -⟩, hidle⟩ := hwithdrawn
  exact recoverable_idle h hticket hidle

variable {row : InstallRequest} {path : Nat} (h : desk.Kept ports)

include h

theorem recoverable_finishing (hoperation : operation ∈ desk.running)
    (hstage : operation.stage = .finishing row path) : desk.Recoverable ports row.id := by
  have hpasses : desk.Passes operation .proceeds := by
    unfold Passes
    rw [hstage]
    trivial
  apply Recoverable.cons (.step operation.id .proceeds) (permits_step h hoperation hpasses) rfl
  rw [exec_step h hoperation]
  have hkept := h.settleLast hoperation hstage
  unfold InstallDesk.advance
  rw [hstage]
  have hunlinking : (⟨operation.id, .unlinking row.id path none⟩ : InstallOperation) ∈
      ((desk.settle row [.created, .downloaded, .approved, .installed, .failed]).setStage
        operation.id (.unlinking row.id path none)).running := by
    refine List.mem_map.mpr ⟨operation, hoperation, ?_⟩
    rw [if_pos rfl]
  exact recoverable_withdrawn hkept (hkept.stages _ hunlinking).1

theorem recoverable_ended (hoperation : operation ∈ desk.running)
    (hstage : operation.stage = .installing row path) {thread : InstallThread}
    (hthread : thread ∈ desk.threads) (hrequest : thread.request = row.id) {succeeded : Bool}
    (hended : thread.stage = .ended succeeded) : desk.Recoverable ports row.id := by
  have hpasses : desk.Passes operation .proceeds := by
    unfold Passes
    rw [hstage]
    trivial
  apply Recoverable.cons (.step operation.id .proceeds) (permits_step h hoperation hpasses) rfl
  rw [exec_step h hoperation]
  have hkept := h.advance hoperation hpasses
  have hfound : desk.thread? row.id = some thread := by
    rw [← hrequest]
    exact Keyed.row?_of_mem h.threadRequests hthread
  cases succeeded with
  | true =>
    have hnext : desk.advance ports operation .proceeds =
        desk.setStage operation.id (.finishing row path) := by
      simp [InstallDesk.advance, hstage, awaitInstall, hfound, hended]
    rw [hnext] at hkept ⊢
    have hmem : (⟨operation.id, .finishing row path⟩ : InstallOperation) ∈
        (desk.setStage operation.id (.finishing row path)).running := by
      refine List.mem_map.mpr ⟨operation, hoperation, ?_⟩
      rw [if_pos rfl]
    exact recoverable_finishing hkept hmem rfl
  | false =>
    have hnext : desk.advance ports operation .proceeds =
        desk.setStage operation.id (.unlinking row.id path (some .approved)) := by
      simp [InstallDesk.advance, hstage, awaitInstall, hfound, hended]
    rw [hnext] at hkept ⊢
    have hmem : (⟨operation.id, .unlinking row.id path (some .approved)⟩ : InstallOperation) ∈
        (desk.setStage operation.id (.unlinking row.id path (some .approved))).running := by
      refine List.mem_map.mpr ⟨operation, hoperation, ?_⟩
      rw [if_pos rfl]
    exact recoverable_withdrawn hkept (hkept.stages _ hmem).1

theorem exec_raised {thread : InstallThread} (hthread : thread ∈ desk.threads)
    (hrunning : thread.hasEnded = false) :
    desk.exec ports (.package thread.request (.raised false)) =
      desk.setThread thread.request (.ended false) := by
  have hfound : desk.thread? thread.request = some thread :=
    Keyed.row?_of_mem h.threadRequests hthread
  unfold InstallDesk.exec InstallDesk.advancePackage
  dsimp only
  rw [hfound]
  cases hstage : thread.stage with
  | ended succeeded => simp [InstallThread.hasEnded, hstage] at hrunning
  | snapshotting | beginning verified | materializing verified | activating verified =>
    simp [hstage, InstallDesk.raisePackage]

theorem recoverable_installing (hoperation : operation ∈ desk.running)
    (hstage : operation.stage = .installing row path) : desk.Recoverable ports row.id := by
  have hkept := h.stages operation hoperation
  rw [hstage] at hkept
  obtain ⟨-, -, thread, hthread, hrequest, -⟩ := hkept
  by_cases hended : thread.hasEnded = true
  · cases hthreadStage : thread.stage with
    | ended succeeded =>
      exact recoverable_ended h hoperation hstage hthread hrequest hthreadStage
    | snapshotting | beginning verified | materializing verified | activating verified =>
      simp [InstallThread.hasEnded, hthreadStage] at hended
  · rw [Bool.not_eq_true] at hended
    apply Recoverable.cons (.package thread.request (.raised false)) trivial rfl
    have hraises : (desk.exec ports (.package thread.request (.raised false))).Kept ports :=
      h.exec trivial
    rw [exec_raised h hthread hended] at hraises ⊢
    have hmem : ({ thread with stage := .ended false } : InstallThread) ∈
        (desk.setThread thread.request (.ended false)).threads := by
      refine List.mem_map.mpr ⟨thread, hthread, ?_⟩
      rw [if_pos rfl]
    exact recoverable_ended hraises hoperation hstage hmem hrequest rfl

theorem recoverable_handing (hoperation : operation ∈ desk.running) {current : HostedRelease}
    (hstage : operation.stage = .handing row path current) :
    desk.Recoverable ports row.id := by
  have hpasses : desk.Passes operation .proceeds := by
    unfold Passes
    rw [hstage]
    trivial
  apply Recoverable.cons (.step operation.id .proceeds) (permits_step h hoperation hpasses) rfl
  rw [exec_step h hoperation]
  have hkept := h.handOver hoperation hstage
  unfold InstallDesk.advance
  rw [hstage]
  have hmem : (⟨operation.id, .installing row path⟩ : InstallOperation) ∈
      (desk.handOver operation.id row path current).running := by
    refine List.mem_map.mpr ⟨operation, hoperation, ?_⟩
    rw [if_pos rfl]
  exact recoverable_installing hkept hmem rfl

theorem Kept.recoverable (hticket : ticket ∈ desk.requests) :
    desk.Recoverable ports ticket.id := by
  by_cases hinstalls : ∃ operation ∈ desk.running, operation.stage.installs? = some ticket.id
  · obtain ⟨operation, hoperation, hinstalls⟩ := hinstalls
    cases hstage : operation.stage with
    | handing row path current =>
      rw [hstage] at hinstalls
      rw [← Option.some.inj hinstalls]
      exact recoverable_handing h hoperation hstage
    | installing row path =>
      rw [hstage] at hinstalls
      rw [← Option.some.inj hinstalls]
      exact recoverable_installing h hoperation hstage
    | finishing row path =>
      rw [hstage] at hinstalls
      rw [← Option.some.inj hinstalls]
      exact recoverable_finishing h hoperation hstage
    | _ => simp [hstage, InstallStage.installs?] at hinstalls
  · by_cases hthread : ∃ thread ∈ desk.threads, thread.request = ticket.id ∧
        thread.hasEnded = false
    · -- a cancelled operation has left its thread
      obtain ⟨thread, hthread, hrequest, hrunning⟩ := hthread
      apply Recoverable.cons (.package thread.request (.raised false)) trivial rfl
      have hraises : (desk.exec ports (.package thread.request (.raised false))).Kept ports :=
        h.exec trivial
      rw [exec_raised h hthread hrunning] at hraises ⊢
      apply recoverable_idle hraises hticket
      rintro ⟨-, hlive | ⟨other, hother, hsame, hlive⟩⟩
      · exact hinstalls hlive
      · obtain ⟨before, hbefore, rfl⟩ := Keyed.mem_update hother
        by_cases hid : before.request = thread.request
        · rw [if_pos hid] at hlive
          simp [InstallThread.hasEnded] at hlive
        · rw [if_neg hid] at hsame
          exact hid (hsame.trans hrequest.symm)
    · apply recoverable_idle h hticket
      rintro ⟨-, hlive⟩
      exact hlive.elim hinstalls hthread

end InstallDesk

end NervOS
