/-
Admission capacity: when every submitter counts against the same caps, the Jobs that wait or
execute stay within them, however submissions, triggers, claims and settlements interleave.
-/
import NervOS.Refinement.TriggerEngine

namespace NervOS

open Relational

structure WithinCaps (caps : PendingCaps) (db : Tables) : Prop where
  pending : db.pending (fun _ => True) ≤ caps.capacity
  agent : ∀ agentInstanceId,
    db.pending (·.agentInstanceId = agentInstanceId) ≤ caps.agentCapacity
  provider : ∀ provider, db.pending (·.modelProvider = provider) ≤ caps.providerCapacity

variable {caps : PendingCaps} {policy : QueuePolicy} {rules : Nat → Discipline} {now : Instant}
  {db db' : Database}

/-- No Job begins to occupy the queue. -/
def NoNewcomer (db db' : Tables) : Prop :=
  ∀ job' ∈ db'.jobs.rows, job'.Occupying → ∃ job ∈ db.jobs.rows, SameJob job job' ∧ job.Occupying

theorem NoNewcomer.pending_le (h : NoNewcomer db.1 db'.1) {p : JobRecord → Prop} [DecidablePred p]
    (hp : ∀ job job', SameJob job job' → p job' → p job) : db'.1.pending p ≤ db.1.pending p := by
  have htotal : ∀ job' ∈ db'.1.jobs.rows, job'.Occupying ∧ p job' →
      ∃ job ∈ db.1.jobs.rows, (job.Occupying ∧ p job) ∧ job'.id = job.id := by
    rintro job' hjob' ⟨hoccupying, hpjob⟩
    obtain ⟨job, hjob, hsame, hwas⟩ := h job' hjob' hoccupying
    exact ⟨job, hjob, ⟨hwas, hp job job' hsame hpjob⟩, hsame.id⟩
  refine Table.countP_le_of_related htotal ?_
  intro left hleft right hright job hid hid'
  exact Table.eq_of_key_eq hleft hright (hid.trans hid'.symm)

theorem WithinCaps.noNewcomer (hwithin : WithinCaps caps db.1) (h : NoNewcomer db.1 db'.1) :
    WithinCaps caps db'.1 where
  pending := (h.pending_le fun _ _ _ => id).trans hwithin.pending
  agent id := (h.pending_le fun _ _ hsame hid => hsame.agentInstanceId ▸ hid).trans
    (hwithin.agent id)
  provider name := (h.pending_le fun _ _ hsame hname => hsame.modelProvider ▸ hname).trans
    (hwithin.provider name)

theorem steps_occupying {discipline : Discipline} {o o' : Obligation}
    (h : Relation.ReflTransGen (Step discipline now) o o') (hoccupying : o'.job.Occupying) :
    o.job.Occupying := by
  induction h with
  | refl => exact hoccupying
  | tail _ step ih =>
    apply ih
    rcases step.source with hsame | hopen
    · rwa [← hsame]
    · exact hopen

theorem noNewcomer_of_runs {system : System} (hsound : system.Sound)
    (hrefines : Refines rules now system.db db')
    (hruns : ∀ run ∈ db'.1.runs.rows, ∃ old ∈ system.db.1.runs.rows, old.id = run.id) :
    NoNewcomer system.db.1 db'.1 := by
  intro job' hjob' hoccupying
  obtain ⟨o', ho', rfl⟩ := exists_obligation hjob'
  have hevolves := hrefines o'.job.id
  rw [ho'] at hevolves
  cases ho : system.db.1.obligation o'.job.id with
  | some o =>
    rw [ho] at hevolves
    cases hevolves with
    | moves steps =>
      exact ⟨o.job, (Table.find_eq_some.mp (obligation_job ho)).1,
        (steps_history steps (hsound.obligations _ o ho)).2.job, steps_occupying steps hoccupying⟩
  | none =>
    -- The Run of a new Job was there before, and another Job is behind it.
    obtain ⟨hrun, hid⟩ := Table.find_eq_some.mp (obligation_run ho')
    obtain ⟨old, hold, hrunId⟩ := hruns o'.run hrun
    obtain ⟨job, hjob, hbehind⟩ := hsound.rooted old hold
    obtain ⟨o, ho₁, rfl⟩ := exists_obligation hjob
    obtain ⟨o₁, ho₂, hlater⟩ := (hrefines o.job.id).history ho₁ (hsound.obligations _ o ho₁)
    have hmem := (Table.find_eq_some.mp (obligation_job ho₂)).1
    have hsame : o₁.job = o'.job :=
      eq_of_runId hmem hjob' (hlater.job.runId.trans (hbehind.trans (hrunId.trans hid)))
    rw [← hsame, hlater.job.id, ho₁] at ho
    cases ho

variable {submission : Submission} {runId : Nat}

theorem commits_admitted (h : (insertRunAndJobOnConnection submission).Commits db runId db')
    (hunder : submission.Under caps) :
    ∃ job : JobRecord, db'.1.jobs.rows = db.1.jobs.rows ++ [job] ∧
      db.1.pending (fun _ => True) < caps.capacity ∧
      db.1.pending (·.agentInstanceId = job.agentInstanceId) < caps.agentCapacity ∧
      db.1.pending (·.modelProvider = job.modelProvider) < caps.providerCapacity := by
  simp only [insertRunAndJobOnConnection, Tx.commits_bind, Tx.commits_query,
    Tx.commits_ofExcept, Tx.commits_require, Tx.commits_insert, Tx.commits_pure,
    commits_appendEvent, hunder.1, hunder.2.1, hunder.2.2] at h
  obtain ⟨named, _, ⟨-, rfl⟩, instanceRow, _, ⟨-, rfl⟩, _, _, ⟨rfl, rfl⟩, _, _, ⟨hall, rfl⟩,
    _, _, ⟨rfl, rfl⟩, _, _, ⟨hagent, rfl⟩, _, middle, ⟨rfl, rfl⟩, _, _, ⟨hprovider, rfl⟩,
    cutoff, _, ⟨-, rfl⟩, inputText, _, ⟨-, rfl⟩, _, db₁, ⟨rfl, t₁, -, hdb₁⟩, _, db₂, ⟨rfl, hjob⟩,
    -, db₃, ⟨-, t₃, -, hdb₃⟩, -, _, ⟨-, t₄, -, hdb₄⟩, rfl, rfl⟩ := h
  rename_i before
  have hrows := hjob.rows
  obtain ⟨t₂, -, hdb₂⟩ := hjob
  have hjobs : db'.1.jobs = db₂.1.jobs := by rw [hdb₄, hdb₃]; rfl
  have hbefore : db₁.1.jobs = before.1.jobs := by rw [hdb₁]; rfl
  simp only [table_job, hbefore] at hrows
  exact ⟨_, hjobs ▸ hrows, hall, hagent, hprovider⟩

theorem pending_append {db db' : Tables} {job : JobRecord} {cap : Nat}
    (hrows : db'.jobs.rows = db.jobs.rows ++ [job]) {p : JobRecord → Prop} [DecidablePred p]
    (hwithin : db.pending p ≤ cap) (hroom : p job → db.pending p < cap) :
    db'.pending p ≤ cap := by
  rw [Tables.pending] at hwithin hroom ⊢
  rw [hrows, List.countP_append, List.countP_singleton]
  split
  · rename_i hnew
    exact hroom (of_decide_eq_true hnew).2
  · exact hwithin

theorem insertion_withinCaps (h : (insertRunAndJobOnConnection submission).Commits db runId db')
    (hunder : submission.Under caps) (hwithin : WithinCaps caps db.1) : WithinCaps caps db'.1 := by
  obtain ⟨job, hrows, hall, hagent, hprovider⟩ := commits_admitted h hunder
  constructor
  · exact pending_append hrows hwithin.pending fun _ => hall
  · exact fun id => pending_append hrows (hwithin.agent id) fun hid => by rwa [← hid]
  · exact fun name => pending_append hrows (hwithin.provider name) fun hname => by rwa [← hname]

def Op.Under (caps : PendingCaps) : Op → Prop
  | .submit _ submission | .insertRunAndJob submission => submission.Under caps
  | _ => True

variable {system : System}

theorem exec_noNewcomer {op : Op} (hsound : system.Sound) (hinserts : ¬ op.Inserts) :
    NoNewcomer system.db.1 (System.exec policy op system).db.1 := by
  have hadvances := exec_advances policy hsound hinserts
  refine noNewcomer_of_runs hsound hadvances.refines fun run hrun => ?_
  exact List.mem_map.mp (hadvances.kept.runIds ▸ List.mem_map_of_mem hrun)

theorem claim_noNewcomer {request : ClaimRequest} (hsound : system.Sound) :
    NoNewcomer system.db.1 (System.exec policy (.claimNext request) system).db.1 := by
  refine noNewcomer_of_runs hsound (exec_refines policy hsound _) fun run hrun => ⟨run, ?_, rfl⟩
  rcases commit_cases (claimNext policy request) system.db with ⟨_, hcommits⟩ | hsame
  · rwa [← claim_runs hcommits]
  · rwa [← hsame]

theorem exec_withinCaps {op : Op} (hsound : system.Sound) (hunder : op.Under caps)
    (hwithin : WithinCaps caps system.db.1) :
    WithinCaps caps (System.exec policy op system).db.1 := by
  have hcommit : ∀ {x : Connection Nat}, (∀ {runId db'}, x.Commits system.db runId db' →
      WithinCaps caps db'.1) → WithinCaps caps (commit x system.db).1 := by
    intro x h
    rcases commit_cases x system.db with ⟨runId, hcommits⟩ | hsame
    · exact h hcommits
    · rwa [hsame]
  cases op with
  | submit inputText submission =>
    exact hcommit fun h => insertion_withinCaps (commits_submit h) hunder hwithin
  | insertRunAndJob submission =>
    exact hcommit fun h => insertion_withinCaps h hunder hwithin
  | claimNext request => exact hwithin.noNewcomer (claim_noNewcomer hsound)
  | worker | reclaim | cancelRun | approval | closeLegacy | configure =>
    exact hwithin.noNewcomer (exec_noNewcomer hsound id)

/-- Whoever submits counts against these caps. -/
def TriggerOp.Under (caps : PendingCaps) : TriggerOp → Prop
  | .engine op => op.Under caps
  | .resolveNext _ _ _ environment | .materialize _ environment | .publishNext _ _ environment =>
    environment.caps = caps
  | _ => True

theorem Records.withinCaps {db db' : TriggerDatabase} {trigger : TriggerDefinitionRecord}
    {facts : OccurrenceFacts} {result : OccurrenceResult}
    (h : Records caps trigger facts result db db') (hwithin : WithinCaps caps db.1.core) :
    WithinCaps caps db'.1.core := by
  obtain ⟨db₁, hsubmitted, _, -, hdb'⟩ := h.submitted
  rw [hdb']
  cases hsubmitted with
  | skipped reason => exact hwithin
  | created under inserted own => exact insertion_withinCaps inserted under hwithin

theorem step_withinCaps {system : TriggerSystem} {op : TriggerOp} (hsound : system.core.Sound)
    (hunder : op.Under caps) (hwithin : WithinCaps caps system.db.1.core) :
    WithinCaps caps (system.step policy op).db.1.core := by
  have heffect := TriggerSystem.step_effect policy system op
  generalize (system.step policy op).db = db' at heffect ⊢
  cases heffect with
  | idle => exact hwithin
  | engine own core =>
    change WithinCaps caps db'.core.1
    rw [core]
    exact exec_withinCaps hsound hunder hwithin
  | created computed defines | provisioned defines => rwa [defines.core]
  | updated held named edited amends | enabled held named unfinished amends | disabled amends
  | rotated kind amends => rwa [amends.core]
  | removed removes => rwa [removes.core]
  | scheduled considered decided fresh records amends =>
    rw [amends.core]
    exact Records.withinCaps (hunder ▸ records) hwithin
  | delivered held fresh records | published considered named enveloped fresh records =>
    exact Records.withinCaps (hunder ▸ records) hwithin

/-- As long as all submitters count against the same caps, the Jobs that are not terminal stay
within them: all together, those of each Agent Instance, and those of each model provider. -/
theorem admission_capacity {system : TriggerSystem}
    (h : (triggerEngine policy).ReachableAlong (fun _ op => op.Under caps) system) :
    WithinCaps caps system.db.1.core := by
  apply And.right
  apply h.invariant (I := fun system => system.core.Sound ∧ WithinCaps caps system.db.1.core)
  · exact ⟨@init_sound policy, Nat.zero_le _, fun _ => Nat.zero_le _, fun _ => Nat.zero_le _⟩
  · rintro system op ⟨hsound, hwithin⟩ hunder
    exact ⟨TriggerSystem.exec_sound hsound op, step_withinCaps hsound hunder hwithin⟩

theorem admission_capacity_sampleFiring :
    (sampleTriggerRun sampleFiring).db.1.core.pending (fun _ => True) = 1 ∧
      WithinCaps sampleCaps (sampleTriggerRun sampleFiring).db.1.core :=
  ⟨by decide +kernel,
    admission_capacity ⟨sampleFiring, ⟨trivial, trivial, trivial, rfl, trivial⟩, rfl⟩⟩

end NervOS
