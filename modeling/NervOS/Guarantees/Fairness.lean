/-
Fair service of the queue partitions: a partition with an eligible head waits for at
most one claim of every other partition.
-/
import NervOS.Engine.Invariant

namespace NervOS

open Relational

section Markers

theorem find_serve (agentInstanceId attemptId other : Nat)
    (partitions : List QueuePartitionRecord) :
    ((serve agentInstanceId attemptId partitions).find? (·.agentInstanceId = other)).bind
        (·.lastServedAttemptId) =
      if other = agentInstanceId then some attemptId
      else (partitions.find? (·.agentInstanceId = other)).bind (·.lastServedAttemptId) := by
  unfold serve
  split
  · rename_i hany
    have hkeep : ((fun row : QueuePartitionRecord => decide (row.agentInstanceId = other)) ∘
        fun row => if row.agentInstanceId = agentInstanceId then
          { row with lastServedAttemptId := some attemptId } else row) =
        fun row => decide (row.agentInstanceId = other) := by
      funext row
      simp only [Function.comp_apply]
      split <;> rfl
    rw [List.find?_map, hkeep]
    cases hfind : partitions.find? (·.agentInstanceId = other) with
    | none =>
      split
      · rename_i heq
        obtain ⟨row, hrow, hagent⟩ := List.any_eq_true.mp hany
        have hnone := List.find?_eq_none.mp hfind row hrow
        rw [heq] at hnone
        exact absurd hagent hnone
      · rfl
    | some row =>
      have hagent : row.agentInstanceId = other := by
        simpa using List.find?_some hfind
      by_cases heq : other = agentInstanceId
      · simp [heq, hagent.trans heq]
      · simp [heq, hagent]
  · rename_i hany
    rw [List.find?_append]
    by_cases heq : other = agentInstanceId
    · have hnone : partitions.find? (·.agentInstanceId = other) = none := by
        rw [List.find?_eq_none]
        intro row hrow hagent
        exact hany (List.any_eq_true.mpr ⟨row, hrow, heq ▸ hagent⟩)
      rw [hnone]
      simp [heq]
    · cases partitions.find? (·.agentInstanceId = other) <;> simp [heq, Ne.symm heq]

variable {db db' : Tables}

theorem lastServed_serve {agentInstanceId attemptId : Nat}
    (h : db'.queuePartitions = serve agentInstanceId attemptId db.queuePartitions)
    (other : Nat) :
    db'.lastServed other =
      if other = agentInstanceId then WithBot.some attemptId else db.lastServed other := by
  simp only [Tables.lastServed, h]
  exact find_serve agentInstanceId attemptId other db.queuePartitions

theorem lastServed_congr (h : db'.queuePartitions = db.queuePartitions) (other : Nat) :
    db'.lastServed other = db.lastServed other := by
  rw [Tables.lastServed, Tables.lastServed, h]

end Markers

/-- The partition that an operation serves: that of the Job it claims. -/
def System.served (policy : QueuePolicy) (system : System) : Op → Option Nat
  | .claimNext request =>
    (claimedHandle ((claimNext policy request).run system.db).1).head?.bind fun claim =>
      (system.db.1.jobs.find claim.jobId).map (·.agentInstanceId)
  | _ => none

variable {policy : QueuePolicy} {system : System}

variable (policy system) in
theorem poll_cases (request : ClaimRequest) :
    (system.served policy (.claimNext request) = none ∧
      (system.exec policy (.claimNext request)).db = system.db) ∨
    ∃ job db₁ db₂ db₃, claimCandidate system.db.1 policy request = some job ∧
      system.served policy (.claimNext request) = some job.agentInstanceId ∧
      Claims request job system.db db₁ db₂ db₃
        (system.exec policy (.claimNext request)).db := by
  rcases Tx.run_cases (claimNext policy request) system.db with
    ⟨outcome, db', hcommits, hrun⟩ | ⟨abort, hrun⟩
  · have hdb : (system.exec policy (.claimNext request)).db = db' := by
      simp only [System.exec, commit, hrun]
    rcases commits_claimNext hcommits with ⟨rfl, rfl⟩ | ⟨job, db₁, db₂, db₃, hcandidate, rfl,
      hclaims⟩
    · exact Or.inl ⟨by simp [System.served, hrun, claimedHandle], hdb⟩
    · refine Or.inr ⟨job, db₁, db₂, db₃, hcandidate, ?_, hdb ▸ hclaims⟩
      obtain ⟨-, hhead, -⟩ := claimCandidate_eq_some hcandidate
      have hfind : system.db.1.jobs.find job.id = some job :=
        Table.find_key (mem_eligibleHeads.mp hhead).1
      simp [System.served, hrun, claimedHandle, ClaimRequest.handle, hfind]
  · refine Or.inl ⟨by simp [System.served, hrun, claimedHandle], ?_⟩
    simp only [System.exec, commit, hrun]

theorem Claims.marks {request : ClaimRequest} {job : JobRecord} {db db₁ db₂ db₃ db' : Database}
    (h : Claims request job db db₁ db₂ db₃ db') :
    db'.1.queuePartitions =
        serve job.agentInstanceId db.1.jobAttempts.next db.1.queuePartitions ∧
      db'.1.jobAttempts.next = db.1.jobAttempts.next + 1 := by
  have hnext := h.inserted.next
  obtain ⟨t₁, -, hdb₁⟩ := h.updated
  obtain ⟨t₂, -, hdb₂⟩ := h.inserted
  obtain ⟨t₄, -, hdb'⟩ := h.told
  have hfirst : db₁.1.jobAttempts.next = db.1.jobAttempts.next := by rw [hdb₁]; rfl
  have hparts : db₂.1.queuePartitions = db.1.queuePartitions := by rw [hdb₂, hdb₁]; rfl
  simp only [table_jobAttempt, hfirst] at hnext
  constructor
  · rw [hdb', setTable_runEvent, h.served, hfirst, hparts]
  · rw [hdb', setTable_runEvent, h.served, hnext]

variable (policy) in
theorem exec_marks (hsound : system.Sound) (op : Op) :
    ((system.served policy op = none ∧
        (system.exec policy op).db.1.queuePartitions = system.db.1.queuePartitions ∧
        (system.exec policy op).db.1.jobAttempts.next = system.db.1.jobAttempts.next) ∨
      ∃ agentInstanceId, system.served policy op = some agentInstanceId ∧
        (system.exec policy op).db.1.queuePartitions =
          serve agentInstanceId system.db.1.jobAttempts.next system.db.1.queuePartitions ∧
        (system.exec policy op).db.1.jobAttempts.next =
          system.db.1.jobAttempts.next + 1) := by
  have hsubmit : ∀ {submission : Submission} {x : Connection Nat},
      (∀ {runId db'}, x.Commits system.db runId db' →
        (insertRunAndJobOnConnection submission).Commits system.db runId db') →
      (commit x system.db).1.queuePartitions = system.db.1.queuePartitions ∧
        (commit x system.db).1.jobAttempts.next = system.db.1.jobAttempts.next := by
    intro submission x hx
    rcases commit_cases x system.db with ⟨runId, hcommits⟩ | hsame
    · have hkept := submission_kept (hx hcommits)
      exact ⟨hkept.1, hkept.2.1⟩
    · rw [hsame]
      exact ⟨rfl, rfl⟩
  by_cases hop : op.Inserts
  · cases op with
    | submit inputText submission => exact Or.inl ⟨rfl, hsubmit commits_submit⟩
    | insertRunAndJob submission => exact Or.inl ⟨rfl, hsubmit id⟩
    | claimNext request =>
      rcases poll_cases policy system request with ⟨hnone, hsame⟩ |
        ⟨job, db₁, db₂, db₃, -, hserved, hclaims⟩
      · rw [hsame]
        exact Or.inl ⟨hnone, rfl, rfl⟩
      · exact Or.inr ⟨job.agentInstanceId, hserved, hclaims.marks⟩
    | worker | reclaim | cancelRun | approval | closeLegacy | configure => exact hop.elim
  · have hkept := (exec_advances policy hsound hop).kept
    have hnone : system.served policy op = none := by
      cases op with
      | claimNext request => exact absurd trivial hop
      | _ => rfl
    exact Or.inl ⟨hnone, hkept.partitions, hkept.nextAttempt⟩

def MarkersBound (db : Tables) : Prop :=
  ∀ agentInstanceId, db.lastServed agentInstanceId < WithBot.some db.jobAttempts.next

theorem exec_markersBound (hsound : system.Sound) (op : Op)
    (hbound : MarkersBound system.db.1) : MarkersBound (system.exec policy op).db.1 := by
  intro other
  rcases exec_marks policy hsound op with ⟨-, hparts, hnext⟩ |
    ⟨agentInstanceId, -, hparts, hnext⟩
  · rw [lastServed_congr hparts, hnext]
    exact hbound other
  · have hlt : WithBot.some system.db.1.jobAttempts.next <
        WithBot.some (system.db.1.jobAttempts.next + 1) :=
      WithBot.coe_lt_coe.mpr (Nat.lt_succ_self _)
    rw [lastServed_serve hparts, hnext]
    split
    · exact hlt
    · exact lt_trans (hbound other) hlt

theorem init_markersBound : MarkersBound (engine policy).init.db.1 :=
  fun _ => WithBot.bot_lt_coe _

theorem reachable_markersBound (h : (engine policy).Reachable system) :
    MarkersBound system.db.1 := by
  have hboth : system.Sound ∧ MarkersBound system.db.1 :=
    h.invariant (I := fun system => system.Sound ∧ MarkersBound system.db.1)
      ⟨init_sound, init_markersBound⟩
      fun _ op hinv => ⟨exec_sound policy hinv.1 op, exec_markersBound hinv.1 op hinv.2⟩
  exact hboth.2

/-- A partition that was served at `attemptId` or later, from then on. -/
def ServedSince (attemptId agentInstanceId : Nat) (system : System) : Prop :=
  system.Sound ∧ attemptId ≤ system.db.1.jobAttempts.next ∧
    WithBot.some attemptId ≤ system.db.1.lastServed agentInstanceId

theorem ServedSince.exec {attemptId agentInstanceId : Nat}
    (h : ServedSince attemptId agentInstanceId system) (op : Op) :
    ServedSince attemptId agentInstanceId (system.exec policy op) := by
  obtain ⟨hsound, hnext, hmarker⟩ := h
  refine ⟨exec_sound policy hsound op, ?_⟩
  rcases exec_marks policy hsound op with ⟨-, hparts, hsame⟩ |
    ⟨other, -, hparts, hsucc⟩
  · rw [hsame, lastServed_congr hparts]
    exact ⟨hnext, hmarker⟩
  · rw [hsucc, lastServed_serve hparts]
    refine ⟨Nat.le_succ_of_le hnext, ?_⟩
    split
    · exact WithBot.coe_le_coe.mpr hnext
    · exact hmarker

theorem run_unserved (hsound : system.Sound) {agentInstanceId : Nat} {ops : List Op}
    (hunserved : (engine policy).Along
      (fun system op => system.served policy op ≠ some agentInstanceId) ops system) :
    ((engine policy).run ops system).db.1.lastServed agentInstanceId =
      system.db.1.lastServed agentInstanceId := by
  have hboth := hunserved.invariant (I := fun later => later.Sound ∧
    later.db.1.lastServed agentInstanceId = system.db.1.lastServed agentInstanceId)
    ?_ ⟨hsound, rfl⟩
  · exact hboth.2
  · rintro later op ⟨hlater, hmarker⟩ hother
    refine ⟨exec_sound policy hlater op, ?_⟩
    rw [← hmarker]
    rcases exec_marks policy hlater op with ⟨-, hparts, -⟩ |
      ⟨other, hserved, hparts, -⟩
    · exact lastServed_congr hparts agentInstanceId
    · have hne : agentInstanceId ≠ other := by
        rintro rfl
        exact hother hserved
      exact (lastServed_serve hparts agentInstanceId).trans (if_neg hne)

theorem turn_of_served {request : ClaimRequest} {agentInstanceId : Nat}
    (hserved : system.served policy (.claimNext request) = some agentInstanceId) :
    ∀ head ∈ eligibleHeads system.db.1 policy request,
      system.db.1.lastServed agentInstanceId ≤
        system.db.1.lastServed head.agentInstanceId := by
  intro head hhead
  rcases poll_cases policy system request with ⟨hnone, -⟩ |
    ⟨job, db₁, db₂, db₃, hcandidate, hjob, -⟩
  · rw [hnone] at hserved
    cases hserved
  · obtain rfl := Option.some.inj (hjob.symm.trans hserved)
    have hturn := (claimCandidate_eq_some hcandidate).2.2 head hhead
    rcases Prod.Lex.toLex_le_toLex.mp hturn with hlt | ⟨heq, -⟩
    · exact le_of_lt hlt
    · exact le_of_eq heq

/-- No partition is served twice, from any reachable state, while another one has an
eligible head at the second claim, unless that one was served in between; and a poll
that serves nobody changes nothing. -/
theorem fair_service (h : (engine policy).Reachable system) :
    (∀ {first : Op} {ops : List Op} {request : ClaimRequest} {served waiting : Nat},
      system.served policy first = some served →
      ((engine policy).run ops ((engine policy).exec first system)).served policy
        (.claimNext request) = some served →
      (∃ head ∈ eligibleHeads
          ((engine policy).run ops ((engine policy).exec first system)).db.1 policy request,
        head.agentInstanceId = waiting) →
      waiting ≠ served →
      ∃ before op after, ops = before ++ op :: after ∧
        ((engine policy).run before ((engine policy).exec first system)).served policy op =
          some waiting) ∧
    ∀ request, system.served policy (.claimNext request) = none →
      ((engine policy).exec (.claimNext request) system).db = system.db := by
  have hsound := reachable_sound h
  constructor
  · intro first ops request served waiting hfirst hsecond hhead hne
    obtain ⟨head, hhead, hagent⟩ := hhead
    by_contra hnever
    have hunserved : (engine policy).Along
        (fun system op => system.served policy op ≠ some waiting) ops
        ((engine policy).exec first system) := by
      by_contra hbroken
      obtain ⟨before, op, after, hsplit, hserves⟩ := Machine.exists_of_not_along _ hbroken
      exact hnever ⟨before, op, after, hsplit, not_not.mp hserves⟩
    have hsound₁ := exec_sound policy hsound first
    rcases exec_marks policy hsound first with ⟨hnone, -⟩ |
      ⟨agentInstanceId, hserved, hparts, hnext⟩
    · rw [hnone] at hfirst
      cases hfirst
    · obtain rfl := Option.some.inj (hserved.symm.trans hfirst)
      have hmarked : ServedSince system.db.1.jobAttempts.next agentInstanceId
          (system.exec policy first) := by
        refine ⟨hsound₁, by rw [hnext]; exact Nat.le_succ _, ?_⟩
        rw [lastServed_serve hparts, if_pos rfl]
      have hsince := Machine.run_invariant (M := engine policy)
        (I := ServedSince system.db.1.jobAttempts.next agentInstanceId)
        (fun _ op hkept => hkept.exec op) hmarked ops
      have hwaiting :
          ((engine policy).run ops ((engine policy).exec first system)).db.1.lastServed waiting =
            system.db.1.lastServed waiting :=
        (run_unserved hsound₁ hunserved).trans
          ((lastServed_serve hparts waiting).trans (if_neg hne))
      have hturn := turn_of_served hsecond head hhead
      rw [hagent, hwaiting] at hturn
      exact absurd (lt_of_le_of_lt (hsince.2.2.trans hturn) (reachable_markersBound h waiting))
        (lt_irrefl _)
  · intro request hnone
    rcases poll_cases policy system request with ⟨-, hsame⟩ |
      ⟨job, db₁, db₂, db₃, -, hserved, -⟩
    · exact hsame
    · rw [hnone] at hserved
      cases hserved

def sharedConfiguration : Configuration :=
  { sampleConfiguration with
    agentInstances := sampleConfiguration.agentInstances.flatMap fun row =>
      [row, { row with id := 2 }] }

def sharedSubmission (agentInstanceId : Nat) : Submission :=
  { sampleSubmission 3 with agentInstanceId := agentInstanceId }

def sharedPoll (number : Nat) : ClaimRequest :=
  { samplePoll number 0 with maxActive := 4 }

/-- Two Jobs of each Agent Instance. -/
def sharedQueue : List Op :=
  [.configure sharedConfiguration 0, .submit "hello" (sharedSubmission 1),
    .submit "hello" (sharedSubmission 1), .submit "hello" (sharedSubmission 2),
    .submit "hello" (sharedSubmission 2)]

/-- Between the two claims of the first instance, the second one is served. -/
theorem fair_service_sharedQueue :
    ∃ before op after, [Op.claimNext (sharedPoll 2)] = before ++ op :: after ∧
      ((engine productionQueuePolicy).run before ((engine productionQueuePolicy).exec
        (.claimNext (sharedPoll 1)) (sampleRun sharedQueue))).served
          productionQueuePolicy op = some 2 := by
  have hfirst : (sampleRun sharedQueue).served productionQueuePolicy
      (.claimNext (sharedPoll 1)) = some 1 := by
    decide +kernel
  have hsecond : ((engine productionQueuePolicy).run [.claimNext (sharedPoll 2)]
      ((engine productionQueuePolicy).exec (.claimNext (sharedPoll 1))
        (sampleRun sharedQueue))).served productionQueuePolicy
          (.claimNext (sharedPoll 3)) = some 1 := by
    decide +kernel
  have hhead : ∃ head ∈ eligibleHeads ((engine productionQueuePolicy).run
      [.claimNext (sharedPoll 2)] ((engine productionQueuePolicy).exec
        (.claimNext (sharedPoll 1)) (sampleRun sharedQueue))).db.1 productionQueuePolicy
          (sharedPoll 3), head.agentInstanceId = 2 := by
    decide +kernel
  exact (fair_service (sampleRun_reachable sharedQueue)).1 hfirst hsecond hhead (by decide)

end NervOS
