/-
The concurrency ceilings: how many live leases any instant sees, under a clock that
never goes back.
-/
import NervOS.Engine.Invariant

namespace NervOS

open Relational

section Moves

variable {rules : Discipline} {now t : Instant} {o o' : Obligation}

theorem JobRecord.Live.earlier {job : JobRecord} (h : job.Live t) (ht : now ≤ t) :
    job.Live now := by
  obtain ⟨hactive, lease, hlease, hlater⟩ := h
  exact ⟨hactive, lease, hlease, lt_of_le_of_lt ht hlater⟩

theorem Step.live (h : Step rules now o o') (hpolled : ¬ rules.polled)
    (hlive : o'.job.Live now) : o.job.Live now := by
  obtain ⟨hactive, lease, hlease, hlater⟩ := hlive
  cases h with
  | claim polled => exact absurd polled hpolled
  | start source _ _ _ _ _ samelease =>
    rw [samelease] at hlease
    exact ⟨by rw [source]; trivial, lease, hlease, hlater⟩
  | renew source live => exact ⟨by rw [source]; trivial, live⟩
  | work | note => exact ⟨hactive, lease, hlease, hlater⟩
  | retry _ _ _ _ _ _ claimless | requeue _ _ _ _ _ _ claimless
  | close _ _ _ _ claimless =>
    rw [claimless.2.2.1] at hlease
    cases hlease

theorem Evolves.live {before after : Option Obligation} (h : Evolves rules now before after)
    (hpolled : ¬ rules.polled) (ho' : o' ∈ after) (hlive : o'.job.Live now) :
    ∃ o ∈ before, o.job.Live now ∧ SameJob o.job o'.job := by
  cases h with
  | absent => cases ho'
  | submitted hnew =>
    obtain rfl := Option.mem_some_iff.mp ho'
    have hactive := hlive.1
    rw [hnew.job] at hactive
    exact hactive.elim
  | @moves o last steps =>
    obtain rfl := Option.mem_some_iff.mp ho'
    refine ⟨o, rfl, ?_⟩
    induction steps with
    | refl => exact ⟨hlive, SameJob.refl _⟩
    | tail _ step ih =>
      obtain ⟨hwas, hsame⟩ := ih (step.live hpolled hlive) rfl
      exact ⟨hwas, hsame.trans step.sameJob⟩

end Moves

structure Ceilings (policy : QueuePolicy) (db : Tables) (t : Instant) : Prop where
  global : db.active t (fun _ => True) ≤ policy.globalActiveLimit
  agent : ∀ agentInstanceId,
    db.active t (·.agentInstanceId = agentInstanceId) ≤ policy.perAgentActiveLimit
  provider : ∀ modelProvider,
    db.active t (·.modelProvider = modelProvider) ≤ policy.perProviderActiveLimit

section Counts

variable {policy : QueuePolicy} {system : System} {t : Instant}
  {p : JobRecord → Prop} [DecidablePred p]

theorem live_before (hsound : system.Sound) {op : Op} (ht : op.now ≤ t) {id : Nat}
    (hpolled : ¬ (system.discipline policy op id).polled) {job' : JobRecord}
    (hfind : (system.exec policy op).db.1.jobs.find id = some job') (hlive : job'.Live t) :
    ∃ job, system.db.1.jobs.find id = some job ∧ job.Live op.now ∧ SameJob job job' := by
  obtain ⟨hrow, hid⟩ := Table.find_eq_some.mp hfind
  obtain ⟨o', ho', rfl⟩ := exists_obligation hrow
  rw [show o'.job.id = id from hid] at ho'
  have hevolves := exec_refines policy hsound op id
  obtain ⟨o, ho, hwas, hsame⟩ := hevolves.live hpolled ho' (hlive.earlier ht)
  exact ⟨o.job, obligation_job ho, hwas, hsame⟩

variable (policy) in
theorem active_le (hsound : system.Sound) {op : Op} (ht : op.now ≤ t)
    (hkeep : ∀ job job', SameJob job job' → p job' → p job) :
    (system.exec policy op).db.1.active t p ≤ system.db.1.active op.now p ∨
      ∃ request, op = .claimNext request ∧
        ∃ job ∈ claimCandidate system.db.1 policy request, p job ∧
          (system.exec policy op).db.1.active t p ≤ system.db.1.active op.now p + 1 := by
  by_cases hclaims : ∃ request, op = .claimNext request ∧
      ∃ job ∈ claimCandidate system.db.1 policy request, p job
  · obtain ⟨request, rfl, job, hjob, hp⟩ := hclaims
    refine Or.inr ⟨request, rfl, job, hjob, hp, ?_⟩
    refine Table.countP_le_succ_of_find job.id fun id job' hfind hcounts => ?_
    refine or_iff_not_imp_left.mpr fun hne => ?_
    have hpolled : ¬ (system.discipline policy (.claimNext request) id).polled := by
      rintro ⟨other, heq, candidate, hcandidate, hid⟩
      cases heq
      exact hne (hid.symm.trans (congrArg JobRecord.id
        (Option.some.inj (hcandidate.symm.trans hjob))))
    obtain ⟨old, hold, hwas, hsame⟩ := live_before hsound ht hpolled hfind hcounts.1
    exact ⟨old, hold, hwas, hkeep old job' hsame hcounts.2⟩
  · refine Or.inl (Table.countP_le_of_find fun id job' hfind hcounts => ?_)
    have hpolled : ¬ (system.discipline policy op id).polled := by
      rintro ⟨request, rfl, candidate, hcandidate, hid⟩
      refine hclaims ⟨request, rfl, candidate, hcandidate, ?_⟩
      obtain ⟨-, hhead, -⟩ := claimCandidate_eq_some hcandidate
      obtain ⟨o, ho, rfl⟩ := exists_obligation (mem_eligibleHeads.mp hhead).1
      obtain ⟨o', ho', hlater⟩ :=
        exec_history policy hsound (.claimNext request) ho
      have hjob' := obligation_job ho'
      rw [hid, hfind] at hjob'
      obtain rfl := Option.some.inj hjob'
      exact hkeep o.job o'.job hlater.job hcounts.2
    obtain ⟨old, hold, hwas, hsame⟩ := live_before hsound ht hpolled hfind hcounts.1
    exact ⟨old, hold, hwas, hkeep old job' hsame hcounts.2⟩

theorem exec_ceilings (hsound : system.Sound) (op : Op)
    (hbefore : Ceilings policy system.db.1 op.now) (ht : op.now ≤ t) :
    Ceilings policy (system.exec policy op).db.1 t where
  global := by
    rcases active_le policy (p := fun _ => True) hsound ht
      (fun _ _ _ => id) with hle | ⟨request, rfl, job, hjob, -, hle⟩
    · exact hle.trans hbefore.global
    · have hroom := (claimCandidate_eq_some hjob).1
      have hlimit := lt_of_lt_of_le hroom (min_le_left _ _)
      exact hle.trans (Int.ofNat_lt.mp hlimit)
  agent agentInstanceId := by
    rcases active_le policy (p := (·.agentInstanceId = agentInstanceId)) hsound ht
      (fun _ _ hsame hagent => hsame.agentInstanceId.symm.trans hagent) with hle |
      ⟨request, rfl, job, hjob, rfl, hle⟩
    · exact hle.trans (hbefore.agent agentInstanceId)
    · obtain ⟨-, hhead, -⟩ := claimCandidate_eq_some hjob
      exact hle.trans (mem_eligibleHeads.mp hhead).2.2.1
  provider modelProvider := by
    rcases active_le policy (p := (·.modelProvider = modelProvider)) hsound ht
      (fun _ _ hsame hprovider => hsame.modelProvider.symm.trans hprovider) with hle |
      ⟨request, rfl, job, hjob, rfl, hle⟩
    · exact hle.trans (hbefore.provider modelProvider)
    · obtain ⟨-, hhead, -⟩ := claimCandidate_eq_some hjob
      exact hle.trans (mem_eligibleHeads.mp hhead).2.2.2

end Counts

variable {policy : QueuePolicy} {system : System} {t : Instant}

theorem run_ceilings (hsound : system.Sound) {ops : List Op} {start : Instant}
    (hclock : (start :: ops.map Op.now).Pairwise (· ≤ ·))
    (hbefore : ∀ t, start ≤ t → Ceilings policy system.db.1 t)
    (hstart : start ≤ t) (ht : ∀ op ∈ ops, op.now ≤ t) :
    Ceilings policy ((engine policy).run ops system).db.1 t := by
  induction ops generalizing system start with
  | nil => exact hbefore t hstart
  | cons op rest ih =>
    rw [List.map_cons, List.pairwise_cons] at hclock
    have hnow := hclock.1 op.now List.mem_cons_self
    refine ih (exec_sound policy hsound op) hclock.2
      (fun later hlater => exec_ceilings hsound op (hbefore op.now hnow) hlater)
      (ht op List.mem_cons_self) fun other hother => ht other (List.mem_cons_of_mem op hother)

theorem init_ceilings (t : Instant) : Ceilings policy (engine policy).init.db.1 t :=
  ⟨Nat.zero_le _, fun _ => Nat.zero_le _, fun _ => Nat.zero_le _⟩

/-- Under a clock that never goes back, the ceilings hold after every run, at every
instant from its last operation on. -/
theorem ceilings_hold {ops : List Op} (hclock : (ops.map Op.now).Pairwise (· ≤ ·))
    (ht : ∀ op ∈ ops, op.now ≤ t) :
    Ceilings policy ((engine policy).run ops (engine policy).init).db.1 t := by
  cases ops with
  | nil => exact init_ceilings t
  | cons op rest =>
    exact run_ceilings (exec_sound policy init_sound op) hclock
      (fun later hlater => exec_ceilings init_sound op (init_ceilings op.now) hlater)
      (ht op List.mem_cons_self) fun other hother => ht other (List.mem_cons_of_mem op hother)

/-- One lease at a time. -/
def singlePolicy : QueuePolicy :=
  { productionQueuePolicy with
    globalActiveLimit := 1
    globalBounds := by decide }

/-- Two Jobs, of which the second is claimed when the first claim has lapsed. -/
def overlappingClaims : List Op :=
  [.configure sampleConfiguration 0, .submit "hello" (sampleSubmission 3),
    .submit "hello" (sampleSubmission 3), .claimNext (samplePoll 1 0),
    .claimNext (samplePoll 2 (seconds 60))]

theorem ceilings_overlappingClaims :
    Ceilings singlePolicy
      ((engine singlePolicy).run overlappingClaims (engine singlePolicy).init).db.1
      (seconds 60) :=
  ceilings_hold (by decide) (by decide)

/-- An instant before the second claim sees both leases. -/
theorem ceilings_exceeded_in_the_past :
    (overlappingClaims.map Op.now).Pairwise (· ≤ ·) ∧
      ¬ Ceilings singlePolicy
        ((engine singlePolicy).run overlappingClaims (engine singlePolicy).init).db.1 0 := by
  have htwo : ((engine singlePolicy).run overlappingClaims
      (engine singlePolicy).init).db.1.active 0 (fun _ => True) = 2 := by
    decide +kernel
  refine ⟨by decide, fun hceilings => ?_⟩
  have hglobal := hceilings.global
  rw [htwo] at hglobal
  exact absurd hglobal (by decide)

end NervOS
