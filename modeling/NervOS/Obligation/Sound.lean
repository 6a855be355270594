/-
The joint invariant of a Job, its Run, its Attempts, their calls and the
timeline, and its preservation by every move.
-/
import NervOS.Obligation.Protocol

namespace NervOS

open Relational

section Timeline

/-- A timeline of a Run in the given state: numbered without gaps, opened by the
two submission events, closed exactly when the Run is. -/
structure Timeline (status : RunStatus) (events : List RunEventRecord) : Prop where
  numbered : Numbered (events.map (·.sequence)) events.length
  opening : (events.map (·.eventType)).take 2 = [.runCreated, .runQueued]
  closing : (events.map (·.eventType)).filter (fun type => type.IsTerminal) = status.closing

variable {status status' : RunStatus} {events events' : List RunEventRecord}
  {types : List RunEventType}

theorem Appends.numbered (hnumbered : Numbered (events.map (·.sequence)) events.length)
    (h : Appends types events events') :
    Numbered (events'.map (·.sequence)) events'.length := by
  obtain ⟨new, rfl, htypes, hsequences⟩ := h
  have hlast : lastSequence events = events.length := hnumbered.max?
  have hlength : new.length = types.length := by rw [← htypes, List.length_map]
  rw [List.map_append, hsequences, hlast, List.length_append, hlength]
  exact hnumbered.append types.length

theorem Appends.eventTypes (h : Appends types events events') :
    events'.map (·.eventType) = events.map (·.eventType) ++ types := by
  obtain ⟨new, rfl, rfl, -⟩ := h
  exact List.map_append

theorem Timeline.append (h : Timeline status events) (hsame : status'.closing = status.closing)
    (hordinary : ∀ type ∈ types, ¬ type.IsTerminal) (happends : Appends types events events') :
    Timeline status' events' := by
  have hopening := h.opening
  refine ⟨happends.numbered h.numbered, ?_, ?_⟩
  · rw [happends.eventTypes, List.take_append_of_le_length, hopening]
    have hlength := congrArg List.length hopening
    simp only [List.length_take, List.length_cons, List.length_nil] at hlength
    omega
  · rw [happends.eventTypes, List.filter_append, h.closing, hsame, List.append_right_eq_self]
    rw [List.filter_eq_nil_iff]
    intro type htype
    simpa using hordinary type htype

theorem Timeline.close {last : RunEventType} (h : Timeline status events)
    (hopen : status.closing = []) (hlast : status'.closing = [last])
    (hordinary : ∀ type ∈ types, ¬ type.IsTerminal)
    (happends : Appends (types ++ [last]) events events') : Timeline status' events' := by
  have hopening := h.opening
  have hterminal : last.IsTerminal := by
    cases status' <;> simp [RunStatus.closing] at hlast <;> subst hlast <;> decide
  refine ⟨happends.numbered h.numbered, ?_, ?_⟩
  · rw [happends.eventTypes, List.take_append_of_le_length, hopening]
    have hlength := congrArg List.length hopening
    simp only [List.length_take, List.length_cons, List.length_nil] at hlength
    omega
  · have hnone : types.filter (fun type => type.IsTerminal) = [] := by
      rw [List.filter_eq_nil_iff]
      intro type htype
      simpa using hordinary type htype
    rw [happends.eventTypes, List.filter_append, h.closing, hopen, List.filter_append, hnone,
      hlast]
    simp [hterminal]

end Timeline

/-- The evidence that licenses a successor of this Attempt. -/
def ReplaySafe (calls : List ToolInvocationRecord) (attempt : JobAttemptRecord) : Prop :=
  (attempt.status = .expired ∧ attempt.executionStartedAt = none) ∨
    (attempt.status = .failed ∧ attempt.errorCode = some modelRateLimited ∧
      attempt.retryDisposition = some .safeToRetry ∧
      ∀ call ∈ calls, call.attemptId = attempt.id → ¬ call.status.IsDispatched)

structure Obligation.Executes (o : Obligation) (attempt : JobAttemptRecord) : Prop where
  mem : attempt ∈ o.attempts
  claimed : o.job.status = .claimed → attempt.status = .claimed
  running : o.job.status = .running → attempt.status = .running
  latest : attempt.attemptNumber = o.job.attemptCount
  carries : Carries o.job attempt
  only : ∀ other ∈ o.attempts, other.status.IsActive → other.id = attempt.id

structure Obligation.Sound (o : Obligation) : Prop where
  owned : ∀ attempt ∈ o.attempts, attempt.jobId = o.job.id
  distinct : (o.attempts.map (·.id)).Nodup
  numbered : Numbered (o.attempts.map (·.attemptNumber)) o.job.attemptCount
  budget : o.job.attemptCount ≤ o.job.maxAttempts
  waiting : o.job.status = .queued ∨ o.job.status = .retryWait →
    o.job.attemptCount < o.job.maxAttempts
  agrees : o.run.status ∈ o.job.status.runStatuses
  idle : ¬ o.job.status.IsActive →
    o.job.Claimless ∧ ∀ attempt ∈ o.attempts, ¬ attempt.status.IsActive
  executing : o.job.status.IsActive → ∃ attempt, o.Executes attempt
  replay : ∀ attempt ∈ o.attempts, ¬ attempt.status.IsActive →
    ¬ o.job.status.IsTerminal ∨ attempt.attemptNumber < o.job.attemptCount →
    ReplaySafe o.calls attempt
  called : ∀ call ∈ o.calls, ∃ attempt ∈ o.attempts,
    attempt.id = call.attemptId ∧ attempt.executionStartedAt ≠ none
  reported : ∀ call ∈ o.calls, call.runId = o.job.runId
  dated : o.run.createdAt = o.job.createdAt ∧
    ∀ attempt ∈ o.attempts, o.job.createdAt ≤ attempt.claimedAt
  told : Timeline o.run.status o.timeline

theorem Submitted.sound {o : Obligation} (h : Submitted o) : o.Sound where
  owned := by simp [h.attempts]
  distinct := by simp [h.attempts]
  numbered := by
    rw [h.attempts, h.unclaimed]
    exact Numbered.nil
  budget := by
    rw [h.unclaimed]
    exact Nat.zero_le _
  waiting _ := by
    rw [h.unclaimed]
    exact h.budget
  agrees := by simp [h.job, h.run, JobStatus.runStatuses]
  idle _ := ⟨h.claimless, by simp [h.attempts]⟩
  executing hactive := by
    rw [h.job] at hactive
    exact hactive.elim
  replay := by simp [h.attempts]
  called := by simp [h.calls]
  reported := by simp [h.calls]
  dated := ⟨h.dated, by simp [h.attempts]⟩
  told := by
    have happends := h.told
    have hnil : Numbered (([] : List RunEventRecord).map (·.sequence)) 0 := Numbered.nil
    refine ⟨happends.numbered hnil, ?_, ?_⟩
    · rw [happends.eventTypes]
      rfl
    · rw [happends.eventTypes, h.run]
      rfl

variable {rules : Discipline} {now : Instant} {o o' : Obligation} {left right : JobAttemptRecord}

theorem eq_of_id {attempts : List JobAttemptRecord} (hdistinct : (attempts.map (·.id)).Nodup)
    (hleft : left ∈ attempts) (hright : right ∈ attempts) (hid : left.id = right.id) :
    left = right :=
  List.inj_on_of_nodup_map hdistinct hleft hright hid

variable {attempt : JobAttemptRecord}

theorem Obligation.Executes.active (h : o.Executes attempt) (hactive : o.job.status.IsActive) :
    attempt.status.IsActive := by
  cases hstatus : o.job.status with
  | claimed => rw [h.claimed hstatus]; trivial
  | running => rw [h.running hstatus]; trivial
  | queued | retryWait | succeeded | failed | cancelled =>
    rw [hstatus] at hactive
    exact hactive.elim

variable {P : JobAttemptRecord → JobAttemptRecord → Prop}

theorem Obligation.Executes.move (h : o.Executes attempt) (hactive : o.job.status.IsActive)
    (hmoved : AttemptsMove P o.attempts o'.attempts)
    (hcount : o'.job.attemptCount = o.job.attemptCount)
    (hstep : ∀ attempt', SameAttempt attempt attempt' → P attempt attempt' →
      (o'.job.status = .claimed → attempt'.status = .claimed) ∧
        (o'.job.status = .running → attempt'.status = .running) ∧
        Carries o'.job attempt') :
    ∃ attempt', o'.Executes attempt' := by
  obtain ⟨attempt', hattempt', hsame, hmoves, -⟩ := hmoved.after h.mem
  obtain ⟨hclaimed, hrunning, hcarries⟩ :=
    hstep attempt' hsame (hmoves (h.active hactive))
  refine ⟨attempt', hattempt', hclaimed, hrunning, ?_, hcarries, ?_⟩
  · rw [hsame.attemptNumber, h.latest, hcount]
  · intro other' hother' hotherActive
    obtain ⟨other, hother, hotherSame, -, hstays⟩ := hmoved.before hother'
    have hwas : other.status.IsActive := by
      by_contra hinactive
      rw [hstays hinactive] at hotherActive
      exact hinactive hotherActive
    rw [hotherSame.id, hsame.id, h.only other hother hwas]

variable {calls calls' : List ToolInvocationRecord}

theorem CallsMove.frozen {attempts : List JobAttemptRecord} (h : CallsMove attempts calls calls')
    (hdistinct : (attempts.map (·.id)).Nodup) (hattempt : attempt ∈ attempts)
    (hinactive : ¬ attempt.status.IsActive) {call' : ToolInvocationRecord} (hcall' : call' ∈ calls')
    (howner : call'.attemptId = attempt.id) : call' ∈ calls := by
  obtain ⟨call, hcall, hsame, rfl | ⟨-, active, hactiveMem, hid, hactive⟩⟩ :=
    exists_before h hcall'
  · exact hcall
  · have heq : active = attempt := by
      apply eq_of_id hdistinct hactiveMem hattempt
      rw [hid, ← hsame.attemptId, howner]
    rw [heq] at hactive
    exact absurd hactive hinactive

theorem ReplaySafe.frozen (h : ReplaySafe calls attempt)
    (hcalls : ∀ call' ∈ calls', call'.attemptId = attempt.id → call' ∈ calls) :
    ReplaySafe calls' attempt := by
  refine h.imp_right fun ⟨hfailed, hcode, hdisposition, hundispatched⟩ =>
    ⟨hfailed, hcode, hdisposition, ?_⟩
  intro call' hcall' howner
  exact hundispatched call' (hcalls call' hcall' howner) howner

section

variable (h : Step rules now o o')

include h

theorem Step.attempts :
    (AttemptsMove (fun _ _ => True) o.attempts o'.attempts ∧
      o'.job.attemptCount = o.job.attemptCount) ∨
    ∃ attempt, FreshClaim o attempt ∧ o'.attempts = o.attempts ++ [attempt] ∧
      o'.job.attemptCount = o.job.attemptCount + 1 ∧ rules.polled := by
  cases h with
  | claim polled source fresh sameJob status counted carries told =>
    exact Or.inr ⟨_, fresh, rfl, counted, polled⟩
  | start source sameJob status counted worker token lease sameRun executing moved told =>
    exact Or.inl ⟨moved.mono fun _ _ _ => trivial, counted⟩
  | renew source live sameJob status counted worker token renewed moved =>
    exact Or.inl ⟨moved.mono fun _ _ _ => trivial, counted⟩
  | work source moved called requests ordinary told =>
    exact Or.inl ⟨moved.mono fun _ _ _ => trivial, rfl⟩
  | retry source budget undispatched sameJob status counted claimless moved tidy told =>
    exact Or.inl ⟨moved.mono fun _ _ _ => trivial, counted⟩
  | requeue source budget unstarted sameJob status counted claimless moved told =>
    exact Or.inl ⟨moved.mono fun _ _ _ => trivial, counted⟩
  | close source sameJob closed counted claimless sameRun agrees moved called tidy ordinary
      closing told =>
      exact Or.inl ⟨moved.mono fun _ _ _ => trivial, counted⟩
  | note quiet ordinary told =>
    exact Or.inl ⟨(AttemptsMove.refl _).mono fun _ _ _ => trivial, rfl⟩

theorem Step.sameJob : SameJob o.job o'.job := by
  cases h with
  | work | note => exact SameJob.refl _
  | claim | start | renew | retry | requeue | close => assumption

theorem Step.sameRun : SameRun o.run o'.run := by
  cases h with
  | claim | renew | work | retry | requeue | note => exact SameRun.refl _
  | start | close => assumption

theorem Step.owned (hsound : o.Sound) :
    ∀ attempt' ∈ o'.attempts, attempt'.jobId = o'.job.id := by
  rw [h.sameJob.id]
  intro attempt' hattempt'
  rcases h.attempts with ⟨hmoved, -⟩ | ⟨fresh, hfresh, hattempts, -⟩
  · obtain ⟨attempt, hattempt, hsame, -⟩ := hmoved.before hattempt'
    rw [hsame.jobId, hsound.owned attempt hattempt]
  · rw [hattempts, List.mem_append, List.mem_singleton] at hattempt'
    rcases hattempt' with hold | rfl
    · exact hsound.owned attempt' hold
    · exact hfresh.owned

theorem Step.distinct (hsound : o.Sound) :
    (o'.attempts.map (·.id)).Nodup := by
  rcases h.attempts with ⟨hmoved, -⟩ | ⟨fresh, hfresh, hattempts, -⟩
  · rw [hmoved.column fun _ _ hsame => hsame.id]
    exact hsound.distinct
  · rw [hattempts, List.map_append, List.map_singleton]
    exact List.nodup_append.mpr ⟨hsound.distinct, List.nodup_singleton _,
      fun old hold new hnew heq =>
        hfresh.unseen (List.mem_singleton.mp hnew ▸ heq ▸ hold)⟩

theorem Step.numbered (hsound : o.Sound) :
    Numbered (o'.attempts.map (·.attemptNumber)) o'.job.attemptCount := by
  rcases h.attempts with ⟨hmoved, hcount⟩ | ⟨fresh, hfresh, hattempts, hcount, -⟩
  · rw [hmoved.column fun _ _ hsame => hsame.attemptNumber, hcount]
    exact hsound.numbered
  · rw [hattempts, hcount, List.map_append, List.map_singleton, hfresh.number]
    exact hsound.numbered.concat

theorem Step.dated (hsound : o.Sound) :
    o'.run.createdAt = o'.job.createdAt ∧
      ∀ attempt' ∈ o'.attempts, o'.job.createdAt ≤ attempt'.claimedAt := by
  rw [h.sameJob.createdAt, h.sameRun.createdAt]
  refine ⟨hsound.dated.1, ?_⟩
  intro attempt' hattempt'
  rcases h.attempts with ⟨hmoved, -⟩ | ⟨fresh, hfresh, hattempts, -⟩
  · obtain ⟨attempt, hattempt, hsame, -⟩ := hmoved.before hattempt'
    rw [hsame.claimedAt]
    exact hsound.dated.2 attempt hattempt
  · rw [hattempts, List.mem_append, List.mem_singleton] at hattempt'
    rcases hattempt' with hold | rfl
    · exact hsound.dated.2 attempt' hold
    · exact hfresh.dated

theorem Step.budget (hsound : o.Sound) :
    o'.job.attemptCount ≤ o'.job.maxAttempts := by
  rw [h.sameJob.maxAttempts]
  rcases h.attempts with ⟨-, hcount⟩ | ⟨fresh, hfresh, -, hcount, -⟩
  · rw [hcount]
    exact hsound.budget
  · rw [hcount]
    exact hfresh.budget

end

theorem run_open {job : JobRecord} {run : RunRecord} (hopen : ¬ job.status.IsTerminal)
    (hagrees : run.status ∈ job.status.runStatuses) :
    ¬ run.status.IsTerminal ∧ run.status.closing = [] := by
  cases hjob : job.status with
  | succeeded | failed | cancelled =>
    rw [hjob] at hopen
    exact absurd trivial hopen
  | queued | claimed =>
    rw [hjob] at hagrees
    simp only [JobStatus.runStatuses, List.mem_cons, List.not_mem_nil, or_false] at hagrees
    rcases hagrees with hrun | hrun <;> rw [hrun] <;> exact ⟨id, rfl⟩
  | running | retryWait =>
    rw [hjob] at hagrees
    rw [List.mem_singleton.mp hagrees]
    exact ⟨id, rfl⟩

theorem job_open {job : JobRecord} {run : RunRecord} (hopen : ¬ run.status.IsTerminal)
    (hagrees : run.status ∈ job.status.runStatuses) : ¬ job.status.IsTerminal := by
  intro hterminal
  apply hopen
  cases hjob : job.status with
  | queued | claimed | running | retryWait =>
    rw [hjob] at hterminal
    exact hterminal.elim
  | succeeded | failed | cancelled =>
    rw [hjob] at hagrees
    rw [List.mem_singleton.mp hagrees]
    trivial

section

variable (h : Step rules now o o') (hsound : o.Sound)

include h hsound

theorem Step.waiting :
    o'.job.status = .queued ∨ o'.job.status = .retryWait →
      o'.job.attemptCount < o'.job.maxAttempts := by
  intro hwaiting
  cases h with
  | claim polled source fresh sameJob status =>
    rw [status] at hwaiting
    simp at hwaiting
  | start source sameJob status | renew source live sameJob status =>
    rw [status] at hwaiting
    simp at hwaiting
  | close source sameJob closed =>
    rcases hwaiting with hstatus | hstatus <;> rw [hstatus] at closed <;> exact closed.elim
  | retry source budget undispatched sameJob status counted =>
    rw [counted, sameJob.maxAttempts]
    exact budget
  | requeue source budget unstarted sameJob status counted =>
    rw [counted, sameJob.maxAttempts]
    exact budget
  | work | note => exact hsound.waiting hwaiting

theorem Step.agrees :
    o'.run.status ∈ o'.job.status.runStatuses := by
  have hagrees := hsound.agrees
  cases h with
  | claim polled source fresh sameJob status =>
    rw [status]
    rcases source with ⟨-, hrun⟩ | ⟨-, hrun⟩ <;> rw [hrun] <;>
      simp [JobStatus.runStatuses]
  | start source sameJob status counted worker token lease sameRun executing =>
    rw [status, executing]
    simp [JobStatus.runStatuses]
  | renew source live sameJob status | retry source budget undispatched sameJob status =>
    rw [source] at hagrees
    rw [status]
    exact hagrees
  | requeue source budget unstarted sameJob status =>
    rw [source] at hagrees
    rw [status]
    exact hagrees
  | close source sameJob closed counted claimless sameRun agrees => exact agrees
  | work | note => exact hagrees

theorem Step.idle :
    ¬ o'.job.status.IsActive →
      o'.job.Claimless ∧ ∀ attempt' ∈ o'.attempts, ¬ attempt'.status.IsActive := by
  intro hidle
  cases h with
  | claim polled source fresh sameJob status =>
    rw [status] at hidle
    exact absurd trivial hidle
  | start source sameJob status | renew source live sameJob status =>
    rw [status] at hidle
    exact absurd trivial hidle
  | work source =>
    simp only [source] at hidle
    exact absurd trivial hidle
  | retry source budget undispatched sameJob status counted claimless moved =>
    refine ⟨claimless, moved.idle fun attempt attempt' hmove => ?_⟩
    rw [hmove.1]
    exact id
  | requeue source budget unstarted sameJob status counted claimless moved =>
    refine ⟨claimless, moved.idle fun attempt attempt' hmove => ?_⟩
    rw [hmove.1]
    exact id
  | close source sameJob closed counted claimless sameRun agrees moved =>
    exact ⟨claimless, moved.idle fun attempt attempt' hmove => hmove.1⟩
  | note => exact hsound.idle hidle

theorem Step.executing :
    o'.job.status.IsActive → ∃ attempt', o'.Executes attempt' := by
  intro hactive
  cases h with
  | @claim job' fresh timeline' polled source hfresh sameJob status counted carries =>
    have hidle : ¬ o.job.status.IsActive := by
      rcases source with ⟨hjob, -⟩ | ⟨hjob, -⟩ <;> rw [hjob] <;> exact id
    refine ⟨fresh, List.mem_append_right _ (List.mem_singleton_self _),
      fun _ => hfresh.claimed, fun hrunning => ?_, ?_, carries, ?_⟩
    · rw [status] at hrunning
      cases hrunning
    · rw [hfresh.number, counted]
    · intro other hother hotherActive
      rcases List.mem_append.mp hother with hold | hnew
      · exact absurd hotherActive ((hsound.idle hidle).2 other hold)
      · rw [List.mem_singleton.mp hnew]
  | start source sameJob status counted worker token lease sameRun executing moved =>
    have hwas : o.job.status.IsActive := by rw [source]; trivial
    obtain ⟨attempt, hexecutes⟩ := hsound.executing hwas
    refine hexecutes.move hwas moved counted
      fun attempt' hsame ⟨hrunning, _, hlease⟩ => ⟨fun hclaimed => ?_, fun _ => hrunning, ?_⟩
    · rw [status] at hclaimed
      cases hclaimed
    · exact ⟨by rw [worker, hexecutes.carries.worker, hsame.workerId],
        by rw [token, hexecutes.carries.token, hsame.claimToken],
        by rw [lease, hexecutes.carries.lease, hlease]⟩
  | renew source live sameJob status counted worker token renewed moved =>
    have hwas : o.job.status.IsActive := by rw [source]; trivial
    obtain ⟨attempt, hexecutes⟩ := hsound.executing hwas
    refine hexecutes.move hwas moved counted
      fun attempt' hsame ⟨hstatus, _, hlease⟩ => ⟨fun hclaimed => ?_, fun _ => ?_, ?_⟩
    · rw [status] at hclaimed
      cases hclaimed
    · rw [hstatus, hexecutes.running source]
    · exact ⟨by rw [worker, hexecutes.carries.worker, hsame.workerId],
        by rw [token, hexecutes.carries.token, hsame.claimToken], by rw [renewed, hlease]⟩
  | work source moved =>
    obtain ⟨attempt, hexecutes⟩ := hsound.executing hactive
    refine hexecutes.move hactive moved rfl
      fun attempt' hsame ⟨hstatus, _, hlease⟩ => ⟨fun hclaimed => ?_, fun hrunning => ?_, ?_⟩
    · rw [hstatus, hexecutes.claimed hclaimed]
    · rw [hstatus, hexecutes.running hrunning]
    · exact ⟨by rw [hexecutes.carries.worker, hsame.workerId],
        by rw [hexecutes.carries.token, hsame.claimToken],
        by rw [hexecutes.carries.lease, hlease]⟩
  | retry source budget undispatched sameJob status =>
    rw [status] at hactive
    exact hactive.elim
  | requeue source budget unstarted sameJob status =>
    rw [status] at hactive
    exact hactive.elim
  | @close job' run' attempts' calls' types last timeline' source sameJob closed =>
    cases hstatus : job'.status <;> simp_all [JobStatus.IsTerminal, JobStatus.IsActive]
  | note =>
    obtain ⟨attempt, hexecutes⟩ := hsound.executing hactive
    exact ⟨attempt, hexecutes.mem, hexecutes.claimed, hexecutes.running, hexecutes.latest,
      hexecutes.carries, hexecutes.only⟩

theorem Step.frozen (hattempt : attempt ∈ o.attempts) (hinactive : ¬ attempt.status.IsActive) :
    attempt ∈ o'.attempts ∧
      ∀ call' ∈ o'.calls, call'.attemptId = attempt.id → call' ∈ o.calls := by
  have hstays : ∀ {P attempts'}, AttemptsMove P o.attempts attempts' →
      attempt ∈ attempts' := by
    intro P attempts' hmoved
    obtain ⟨attempt', hattempt', -, -, heq⟩ := hmoved.after hattempt
    rwa [← heq hinactive]
  cases h with
  | claim => exact ⟨List.mem_append_left _ hattempt, fun _ hcall' _ => hcall'⟩
  | note => exact ⟨hattempt, fun _ hcall' _ => hcall'⟩
  | start _ _ _ _ _ _ _ _ _ moved => exact ⟨hstays moved, fun _ hcall' _ => hcall'⟩
  | renew _ _ _ _ _ _ _ _ moved => exact ⟨hstays moved, fun _ hcall' _ => hcall'⟩
  | retry _ _ _ _ _ _ _ moved => exact ⟨hstays moved, fun _ hcall' _ => hcall'⟩
  | requeue _ _ _ _ _ _ _ moved => exact ⟨hstays moved, fun _ hcall' _ => hcall'⟩
  | close _ _ _ _ _ _ _ moved called =>
    exact ⟨hstays moved, fun call' hcall' howner =>
      called.frozen hsound.distinct hattempt hinactive hcall' howner⟩
  | work source moved called requests =>
    refine ⟨hstays moved, fun call' hcall' howner => ?_⟩
    rcases List.mem_append.mp hcall' with hcall' | hnew
    · exact called.frozen hsound.distinct hattempt hinactive hcall' howner
    · obtain ⟨-, -, active, hactiveMem, hid, hactive, -⟩ := requests call' hnew
      have heq := eq_of_id hsound.distinct hactiveMem hattempt (hid.trans howner)
      rw [heq] at hactive
      exact absurd hactive hinactive

end

theorem Step.source (h : Step rules now o o') :
    o'.job = o.job ∨ ¬ o.job.status.IsTerminal := by
  cases h with
  | claim polled source =>
    rcases source with ⟨hjob, -⟩ | ⟨hjob, -⟩ <;> rw [hjob] <;> exact Or.inr id
  | start source | renew source | retry source | requeue source =>
    rw [source]
    exact Or.inr id
  | close source => exact Or.inr source
  | work | note => exact Or.inl rfl

theorem Step.closes (h : Step rules now o o') {attempt' : JobAttemptRecord}
    (hattempt' : attempt' ∈ o'.attempts) (hinactive : ¬ attempt'.status.IsActive) :
    attempt' ∈ o.attempts ∨
      ∃ attempt ∈ o.attempts, SameAttempt attempt attempt' ∧ attempt.status.IsActive ∧
        (o'.job.status.IsTerminal ∧ o'.job.attemptCount = o.job.attemptCount ∨
          ReplaySafe o'.calls attempt') := by
  cases h with
  | claim polled source fresh =>
    rcases List.mem_append.mp hattempt' with hold | hnew
    · exact Or.inl hold
    · rw [List.mem_singleton.mp hnew, fresh.claimed] at hinactive
      exact absurd trivial hinactive
  | note => exact Or.inl hattempt'
  | start _ _ _ _ _ _ _ _ _ moved =>
    obtain ⟨attempt, hattempt, -, hmoves, hstays⟩ := moved.before hattempt'
    by_cases hactive : attempt.status.IsActive
    · rw [(hmoves hactive).1] at hinactive
      exact absurd trivial hinactive
    · exact Or.inl (hstays hactive ▸ hattempt)
  | renew _ _ _ _ _ _ _ _ moved | work _ moved =>
    obtain ⟨attempt, hattempt, -, hmoves, hstays⟩ := moved.before hattempt'
    by_cases hactive : attempt.status.IsActive
    · rw [(hmoves hactive).1] at hinactive
      exact absurd hactive hinactive
    · exact Or.inl (hstays hactive ▸ hattempt)
  | retry source budget undispatched sameJob status counted claimless moved =>
    obtain ⟨attempt, hattempt, hsame, hmoves, hstays⟩ := moved.before hattempt'
    by_cases hactive : attempt.status.IsActive
    · obtain ⟨hfailed, hcode, hdisposition, -⟩ := hmoves hactive
      refine Or.inr ⟨attempt, hattempt, hsame, hactive, Or.inr (Or.inr
        ⟨hfailed, hcode, hdisposition, fun call hcall howner => ?_⟩)⟩
      exact undispatched call hcall
        ⟨attempt, hattempt, hsame.id.symm.trans howner.symm, hactive⟩
    · exact Or.inl (hstays hactive ▸ hattempt)
  | requeue source budget unstarted sameJob status counted claimless moved =>
    obtain ⟨attempt, hattempt, hsame, hmoves, hstays⟩ := moved.before hattempt'
    by_cases hactive : attempt.status.IsActive
    · obtain ⟨hexpired, -, hunstarted⟩ := hmoves hactive
      exact Or.inr ⟨attempt, hattempt, hsame, hactive,
        Or.inr (Or.inl ⟨hexpired, hunstarted⟩)⟩
    · exact Or.inl (hstays hactive ▸ hattempt)
  | close source sameJob closed counted claimless sameRun agrees moved =>
    obtain ⟨attempt, hattempt, hsame, -, hstays⟩ := moved.before hattempt'
    by_cases hactive : attempt.status.IsActive
    · exact Or.inr ⟨attempt, hattempt, hsame, hactive, Or.inl ⟨closed, counted⟩⟩
    · exact Or.inl (hstays hactive ▸ hattempt)

theorem Obligation.Sound.only (hsound : o.Sound) (hleft : left ∈ o.attempts)
    (hleftActive : left.status.IsActive) (hright : right ∈ o.attempts)
    (hrightActive : right.status.IsActive) : left = right := by
  have hjob : o.job.status.IsActive := by
    by_contra hidle
    exact (hsound.idle hidle).2 left hleft hleftActive
  obtain ⟨executing, hexecutes⟩ := hsound.executing hjob
  apply eq_of_id hsound.distinct hleft hright
  rw [hexecutes.only left hleft hleftActive, hexecutes.only right hright hrightActive]

section

variable (hsound : o.Sound) (hattempt : attempt ∈ o.attempts) (hactive : attempt.status.IsActive)

include hsound hattempt hactive

theorem settled_of_unstarted (hunstarted : attempt.executionStartedAt = none) :
    Settled o.attempts o.calls := by
  rintro call hcall ⟨other, hother, hid, hotherActive⟩
  obtain ⟨owner, howner, hownerId, hstarted⟩ := hsound.called call hcall
  rw [eq_of_id hsound.distinct howner hother (hownerId.trans hid.symm),
    hsound.only hother hotherActive hattempt hactive] at hstarted
  exact absurd hunstarted hstarted

theorem Obligation.Sound.latest :
    attempt.attemptNumber = o.job.attemptCount := by
  have hjob : o.job.status.IsActive := by
    by_contra hidle
    exact (hsound.idle hidle).2 attempt hattempt hactive
  obtain ⟨executing, hexecutes⟩ := hsound.executing hjob
  rw [hsound.only hattempt hactive hexecutes.mem (hexecutes.active hjob), hexecutes.latest]

end

theorem Step.replay (h : Step rules now o o') (hsound : o.Sound) :
    ∀ attempt' ∈ o'.attempts, ¬ attempt'.status.IsActive →
      ¬ o'.job.status.IsTerminal ∨ attempt'.attemptNumber < o'.job.attemptCount →
      ReplaySafe o'.calls attempt' := by
  intro attempt' hattempt' hinactive hsuccessor
  rcases h.closes hattempt' hinactive with hold | ⟨attempt, hattempt, hsame, hactive, hclosed⟩
  · have hwas : ¬ o.job.status.IsTerminal ∨ attempt'.attemptNumber < o.job.attemptCount := by
      rcases h.source with hjob | hopen
      · rwa [← hjob]
      · exact Or.inl hopen
    exact (hsound.replay attempt' hold hinactive hwas).frozen
      (h.frozen hsound hold hinactive).2
  · rcases hclosed with ⟨hterminal, hcount⟩ | hsafe
    · have hlatest := hsound.latest hattempt hactive
      rcases hsuccessor with hopen | hlt
      · exact absurd hterminal hopen
      · rw [hsame.attemptNumber, hlatest, hcount] at hlt
        exact absurd hlt (Nat.lt_irrefl _)
    · exact hsafe

theorem started_after {attempts attempts' : List JobAttemptRecord}
    (hmoved : AttemptsMove P attempts attempts')
    (hkeep : ∀ attempt attempt', P attempt attempt' → attempt.executionStartedAt ≠ none →
      attempt'.executionStartedAt ≠ none) {id : Nat}
    (hstarted : ∃ attempt ∈ attempts, attempt.id = id ∧ attempt.executionStartedAt ≠ none) :
    ∃ attempt' ∈ attempts', attempt'.id = id ∧ attempt'.executionStartedAt ≠ none := by
  obtain ⟨attempt, hattempt, hid, hstarted⟩ := hstarted
  obtain ⟨attempt', hattempt', hsame, hmoves, hstays⟩ := hmoved.after hattempt
  refine ⟨attempt', hattempt', hsame.id.trans hid, ?_⟩
  by_cases hactive : attempt.status.IsActive
  · exact hkeep attempt attempt' (hmoves hactive) hstarted
  · rwa [hstays hactive]

section

variable (h : Step rules now o o') (hsound : o.Sound)

include h hsound

theorem Step.called :
    ∀ call' ∈ o'.calls, ∃ attempt' ∈ o'.attempts,
      attempt'.id = call'.attemptId ∧ attempt'.executionStartedAt ≠ none := by
  intro call' hcall'
  cases h with
  | claim =>
    obtain ⟨attempt, hattempt, howns⟩ := hsound.called call' hcall'
    exact ⟨attempt, List.mem_append_left _ hattempt, howns⟩
  | note => exact hsound.called call' hcall'
  | start _ _ _ _ _ _ _ _ _ moved =>
    refine started_after moved (fun _ attempt' hmove _ => ?_) (hsound.called call' hcall')
    rw [hmove.2.1]
    exact Option.some_ne_none now
  | renew _ _ _ _ _ _ _ _ moved =>
    refine started_after moved (fun _ attempt' hmove hstarted => ?_)
      (hsound.called call' hcall')
    rwa [hmove.2.1]
  | retry _ _ _ _ _ _ _ moved =>
    refine started_after moved (fun _ attempt' hmove hstarted => ?_)
      (hsound.called call' hcall')
    rwa [hmove.2.2.2]
  | requeue _ _ _ _ _ _ _ moved =>
    exact started_after moved (fun _ _ hmove hstarted => absurd hmove.2.1 hstarted)
      (hsound.called call' hcall')
  | close _ _ _ _ _ _ _ moved called =>
    obtain ⟨call, hcall, hsame, -⟩ := exists_before called hcall'
    rw [hsame.attemptId]
    refine started_after moved (fun _ attempt' hmove hstarted => ?_)
      (hsound.called call hcall)
    rwa [hmove.2]
  | work source moved called requests =>
    have hkeep : ∀ {id}, (∃ attempt ∈ o.attempts,
        attempt.id = id ∧ attempt.executionStartedAt ≠ none) → _ :=
      started_after moved fun _ attempt' hmove hstarted => by rwa [hmove.2.1]
    rcases List.mem_append.mp hcall' with hcall' | hnew
    · obtain ⟨call, hcall, hsame, -⟩ := exists_before called hcall'
      rw [hsame.attemptId]
      exact hkeep (hsound.called call hcall)
    · obtain ⟨-, -, attempt, hattempt, hid, -, hstarted⟩ := requests call' hnew
      exact hkeep ⟨attempt, hattempt, hid, hstarted⟩

theorem Step.reported :
    ∀ call' ∈ o'.calls, call'.runId = o'.job.runId := by
  intro call' hcall'
  rw [h.sameJob.runId]
  have hmoved : ∀ {calls'}, CallsMove o.attempts o.calls calls' →
      call' ∈ calls' → call'.runId = o.job.runId := by
    intro calls' hmoves hmem
    obtain ⟨call, hcall, hsame, -⟩ := exists_before hmoves hmem
    rw [hsame.runId, hsound.reported call hcall]
  cases h with
  | claim | start | renew | retry | requeue | note => exact hsound.reported call' hcall'
  | close _ _ _ _ _ _ _ _ called => exact hmoved called hcall'
  | work _ _ called requests =>
    rcases List.mem_append.mp hcall' with hold | hnew
    · exact hmoved called hold
    · exact (requests call' hnew).2.1

theorem Step.told :
    Timeline o'.run.status o'.timeline := by
  have hopen : ¬ o.job.status.IsTerminal → o.run.status.closing = [] :=
    fun hjob => (run_open hjob hsound.agrees).2
  cases h with
  | claim _ _ _ _ _ _ _ told => exact hsound.told.append rfl (by decide) told
  | renew => exact hsound.told
  | retry _ _ _ _ _ _ _ _ _ told | requeue _ _ _ _ _ _ _ _ told =>
    exact hsound.told.append rfl (by decide) told
  | work _ _ _ _ ordinary told | note _ ordinary told => exact hsound.told.append rfl ordinary told
  | start source _ _ _ _ _ _ _ executing _ told =>
    refine hsound.told.append ?_ (by decide) told
    rw [executing, hopen (by rw [source]; exact id)]
    rfl
  | close source _ _ _ _ _ _ _ _ _ ordinary closing told =>
    exact hsound.told.close (hopen source) closing ordinary told

theorem Step.sound : o'.Sound where
  owned := h.owned hsound
  distinct := h.distinct hsound
  numbered := h.numbered hsound
  budget := h.budget hsound
  waiting := h.waiting hsound
  agrees := h.agrees hsound
  idle := h.idle hsound
  executing := h.executing hsound
  replay := h.replay hsound
  called := h.called hsound
  reported := h.reported hsound
  dated := h.dated hsound
  told := h.told hsound

end

theorem Evolves.sound {before after : Option Obligation} (h : Evolves rules now before after)
    (hsound : ∀ o ∈ before, o.Sound) : ∀ o ∈ after, o.Sound := by
  intro o' ho'
  cases h with
  | absent => cases ho'
  | submitted hsubmitted =>
    obtain rfl := Option.mem_some_iff.mp ho'
    exact hsubmitted.sound
  | @moves o last steps =>
    obtain rfl := Option.mem_some_iff.mp ho'
    induction steps with
    | refl => exact hsound _ rfl
    | tail _ step ih => exact step.sound (ih rfl)

end NervOS
