/-
The scan cursor of a scheduler: which ticks move it, and how soon a schedule that stays due is
examined again.
-/
import NervOS.TriggerEngine
import NervOS.Relational.Keyset

namespace NervOS

open Relational

/-- The scan order as an order of positions. -/
def DueScheduleCandidate.key (candidate : DueScheduleCandidate) : Instant ×ₗ Nat :=
  toLex candidate.position

theorem scanBefore_iff {left right : Instant × Nat} :
    ScanBefore left right ↔ toLex left < toLex right := by
  rw [Prod.Lex.lt_iff, ScanBefore]
  rfl

/-- The rows that a scan selects, before it orders and limits them. -/
def TriggerStore.due (db : TriggerStore) (now : Instant) : List DueScheduleCandidate :=
  db.own.triggerDefinitions.rows.filterMap (db.dueCandidate now)

theorem insertionSort_congr {α : Type} {r s : α → α → Prop} [DecidableRel r] [DecidableRel s]
    (h : ∀ left right, r left right ↔ s left right) (rows : List α) :
    rows.insertionSort r = rows.insertionSort s := by
  obtain rfl : r = s := funext₂ fun left right => propext (h left right)
  congr

theorem dueScheduleCandidates_eq (db : TriggerStore) (now : Instant) (limit : Nat)
    (after : Option (Instant × Nat)) :
    dueScheduleCandidates db now limit after =
      Keyset.page DueScheduleCandidate.key limit (after.map toLex) (db.due now) := by
  have hfilter : (db.due now).filter (fun candidate =>
        decide (∀ cursor ∈ after, ScanBefore cursor candidate.position)) =
      Keyset.beyond DueScheduleCandidate.key (after.map toLex) (db.due now) := by
    rw [Keyset.beyond]
    refine List.filter_congr fun candidate _ => ?_
    cases after with
    | none => simp
    | some cursor =>
      rw [Option.map_some, Option.all_some, decide_eq_decide]
      simp [scanBefore_iff, DueScheduleCandidate.key]
  have horder (left right : DueScheduleCandidate) :
      ¬ ScanBefore right.position left.position ↔ left.key ≤ right.key := by
    rw [scanBefore_iff, not_lt]
    rfl
  rw [dueScheduleCandidates, Keyset.page, Keyset.ordered, insertionSort_congr horder]
  exact congrArg _ (congrArg _ hfilter)

theorem dueCandidate_id {db : TriggerStore} {now : Instant} {trigger : TriggerDefinitionRecord}
    {candidate : DueScheduleCandidate} (hdue : db.dueCandidate now trigger = some candidate) :
    candidate.row.trigger.id = trigger.id := by
  rw [TriggerStore.dueCandidate, Option.bind_eq_bind, Option.bind_eq_some_iff] at hdue
  obtain ⟨next, -, hdue⟩ := hdue
  rw [Option.bind_eq_bind, Option.bind_eq_some_iff] at hdue
  obtain ⟨row, hrow, hdue⟩ := hdue
  split_ifs at hdue
  obtain rfl := Option.some.inj hdue
  rw [TriggerStore.joined, Option.map_eq_some_iff] at hrow
  obtain ⟨instanceRow, -, rfl⟩ := hrow
  rfl

theorem due_keys (db : TriggerStore) (now : Instant) :
    ((db.due now).map DueScheduleCandidate.key).Nodup := by
  have hascending : db.own.triggerDefinitions.rows.Pairwise fun left right => left.id < right.id :=
    db.own.triggerDefinitions.lawful.ascending
  rw [List.Nodup, List.pairwise_map, TriggerStore.due, List.pairwise_filterMap]
  refine hascending.imp fun {left right} hlt => ?_
  intro first hfirst second hsecond heq
  have hids : first.row.trigger.id = second.row.trigger.id :=
      congrArg (fun key => (ofLex key).2) heq
  rw [dueCandidate_id hfirst, dueCandidate_id hsecond] at hids
  exact absurd hids hlt.ne

namespace SchedulerService

variable {service : SchedulerService} {input : TickInput} {target : Instant ×ₗ Nat}

theorem pass_items : (service.pass input).items =
    Keyset.page DueScheduleCandidate.key service.batch (service.cursor.map toLex)
      (input.store.due input.now) := by
  rw [pass, Sweep.items_through, dueScheduleCandidates_eq]

def LeavesCursor (service : SchedulerService) (input : TickInput) : Prop :=
  (service.pass input).Aborted ∨
    (service.pass input).examined < (service.pass input).items.length

theorem tick_of_leaves (hleaves : service.LeavesCursor input) : service.tick input = service := by
  have hcursor : service.cursorAfter (service.pass input) = service.cursor := by
    rw [cursorAfter]
    cases hending : (service.pass input).ending with
    | raised error => rfl
    | running | stopped =>
      refine if_pos (hleaves.resolve_left ?_)
      rintro ⟨error, herror⟩
      rw [hending] at herror
      cases herror
  rw [tick, hcursor]

theorem tick_of_advances (hadvances : ¬ service.LeavesCursor input) :
    (service.tick input).cursor.map toLex =
      Keyset.advance DueScheduleCandidate.key service.batch (service.cursor.map toLex)
        (input.store.due input.now) := by
  obtain ⟨hraised, hexamined⟩ := not_or.mp hadvances
  have hcursor : (service.tick input).cursor =
      service.advanceCursor (service.pass input).items (service.pass input).examined := by
    rw [tick, cursorAfter]
    cases hending : (service.pass input).ending with
    | raised error => exact absurd ⟨error, hending⟩ hraised
    | running | stopped => rfl
  rw [hcursor, advanceCursor, if_neg hexamined, Keyset.advance, pass_items]
  split_ifs with hfull
  · rw [Option.map_map]
    rfl
  · rfl

theorem advances_of_running (hrunning : (service.pass input).ending = .running) :
    ¬ service.LeavesCursor input := by
  rintro (⟨error, herror⟩ | hexamined)
  · rw [hrunning] at herror
    cases herror
  · have hall := Sweep.examined_through hrunning
    rw [pass, Sweep.items_through] at hexamined
    rw [← pass] at hall hexamined
    omega

section Progress

def duePositions (inputs : List TickInput) : Finset (Instant ×ₗ Nat) :=
  (inputs.flatMap fun input =>
    (input.store.due input.now).map DueScheduleCandidate.key).toFinset

def Examines (target : Instant ×ₗ Nat)
    (pass : Sweep DueScheduleCandidate ScheduleOutcome Unclassified) : Prop :=
  ∃ candidate ∈ pass.items.take pass.examined, candidate.key = target

/-- The ticks that nothing ended early. -/
def completed (passes : List (Sweep DueScheduleCandidate ScheduleOutcome Unclassified)) : Nat :=
  passes.countP fun pass => decide (pass.ending = .running)

variable {inputs : List TickInput}

theorem completed_le_cost {positions : Finset (Instant ×ₗ Nat)}
    (hpositions : ∀ input ∈ inputs, ∀ candidate ∈ input.store.due input.now,
      candidate.key ∈ positions)
    (hdue : ∀ input ∈ inputs, ∃ candidate ∈ input.store.due input.now, candidate.key = target)
    (hnever : ∀ pass ∈ service.passes inputs, ¬ Examines target pass) :
    completed (service.passes inputs) * service.batch ≤
      Keyset.cost service.batch positions target (service.cursor.map toLex) := by
  induction inputs generalizing service with
  | nil => exact (Nat.zero_mul _).le.trans (Nat.zero_le _)
  | cons input rest ih =>
    rw [List.forall_mem_cons] at hpositions hdue
    rw [passes, List.forall_mem_cons] at hnever
    have hrest := ih hpositions.2 hdue.2 hnever.2
    rw [passes, completed, List.countP_cons]
    by_cases hleaves : service.LeavesCursor input
    · have hended : (service.pass input).ending ≠ .running := fun hrunning =>
        advances_of_running hrunning hleaves
      rw [tick_of_leaves hleaves] at hrest ⊢
      rw [if_neg (by simpa using hended), Nat.add_zero]
      exact hrest
    · obtain ⟨row, hrow, rfl⟩ := hdue.1
      have hout : row ∉ Keyset.page DueScheduleCandidate.key service.batch
          (service.cursor.map toLex) (input.store.due input.now) := by
        intro hpage
        refine hnever.1 ⟨row, ?_, rfl⟩
        rw [List.take_of_length_le (not_lt.mp (not_or.mp hleaves).2), pass_items]
        exact hpage
      have hstep := Keyset.cost_advance service.positive (due_keys _ _) hpositions.1 hrow hout
      rw [← tick_of_advances hleaves] at hstep
      have hbatch : (service.tick input).batch = service.batch := rfl
      rw [hbatch, completed] at hrest
      rw [Nat.add_mul]
      split_ifs <;> omega

theorem examined_of_completed
    (hdue : ∀ input ∈ inputs, ∃ candidate ∈ input.store.due input.now, candidate.key = target)
    (hlong : (duePositions inputs).card / service.batch + 2 ≤ completed (service.passes inputs)) :
    ∃ pass ∈ service.passes inputs, Examines target pass := by
  by_contra hnever
  push Not at hnever
  have hpositions : ∀ input ∈ inputs, ∀ candidate ∈ input.store.due input.now,
      candidate.key ∈ duePositions inputs := by
    intro input hinput candidate hcandidate
    rw [duePositions, List.mem_toFinset, List.mem_flatMap]
    exact ⟨input, hinput, List.mem_map_of_mem hcandidate⟩
  have hcost := completed_le_cost hpositions hdue hnever
  have hbound := Keyset.cost_le (duePositions inputs) target service.batch
    (service.cursor.map toLex)
  have hdiv := Nat.lt_mul_div_succ (duePositions inputs).card service.positive
  have hmul := Nat.mul_le_mul_right service.batch hlong
  rw [Nat.mul_comm] at hdiv
  rw [Nat.add_mul] at hdiv hmul
  omega

end Progress

section Scan

variable (service)

/-- A tick that ends on contention before the last candidate of its page leaves the cursor where it
was, and the page is read again.  A schedule that stays due is examined in one of so many ticks
that nothing ended early, whatever ticks stand between them. -/
theorem scan_cursor_progress :
    (∀ input, (service.pass input).ending = .stopped →
        (service.pass input).examined < (service.pass input).items.length →
          service.tick input = service) ∧
      ∀ (inputs : List TickInput) (target : Instant ×ₗ Nat),
        (∀ input ∈ inputs, ∃ candidate ∈ input.store.due input.now, candidate.key = target) →
        (duePositions inputs).card / service.batch + 2 ≤ completed (service.passes inputs) →
          ∃ pass ∈ service.passes inputs, Examines target pass :=
  ⟨fun _ _ hbefore => tick_of_leaves (.inr hbefore), fun _ _ => examined_of_completed⟩

end Scan

def oneTimeRow (id : Nat) (runAt : Instant) : TriggerDefinitionRecord where
  id := id
  ownerUserId := 1
  agentInstanceId := 1
  kind := .oneTime
  displayName := (sampleOneTime 0 true).displayName
  enabled := true
  inputText := (sampleOneTime 0 true).inputText
  configRevision := 1
  nextFireAt := some runAt
  runAt := some runAt
  intervalSeconds := none
  cronExpression := none
  timezone := none
  publicId := none
  secretDigest := none
  secretCreatedAt := none
  eventType := none
  createdAt := 0
  updatedAt := 0

theorem lawful_oneTimeRows (count : Nat) :
    Lawful [oneTimeRow 1 0, oneTimeRow (count + 2) (count + 1)] (count + 3) where
  ascending := by
    simp [key, oneTimeRow]
  fresh := by
    simp [key, oneTimeRow]
  checked := by
    have hkind : TriggerKind.oneTime.IsSchedule := by decide
    have hcheck (id : Nat) (runAt : Instant) : (oneTimeRow id runAt).Check :=
      ⟨Nat.one_pos, rfl, ⟨fun _ => ⟨hkind, rfl⟩, fun _ => rfl⟩, le_refl 0⟩
    simp [Check, hcheck]
  unique := by
    simp [Clash, oneTimeRow]

/-- One trigger that stays due, and one that became due since the tick before. -/
def arrivalStore (count : Nat) : TriggerStore where
  core := { configuration := sampleConfiguration }
  own := { triggerDefinitions := ⟨_, count + 3, lawful_oneTimeRows count⟩ }

def arrival (verdict : ScheduleVerdict) (count : Nat) : TickInput where
  store := arrivalStore count
  now := count + 1
  verdict _ := verdict

def scheduler (batch : Nat) (positive : 0 < batch) (cursor : Option (Instant × Nat)) :
    SchedulerService :=
  ⟨batch, positive, cursor⟩

def oneTimeCandidate (id : Nat) (runAt : Instant) : DueScheduleCandidate where
  row := ⟨oneTimeRow id runAt, ⟨"assistant", "1"⟩⟩
  expectedConfigRevision := 1
  expectedNextFireAt := runAt

theorem due_arrival (verdict : ScheduleVerdict) (count : Nat) :
    (arrival verdict count).store.due (arrival verdict count).now =
      [oneTimeCandidate 1 0, oneTimeCandidate (count + 2) (count + 1)] := by
  have hkind : TriggerKind.oneTime.IsSchedule := by decide
  have hdue (id : Nat) (runAt : Instant) (hnow : runAt ≤ count + 1) :
      (arrivalStore count).dueCandidate (count + 1) (oneTimeRow id runAt) =
        some (oneTimeCandidate id runAt) := by
    have hjoined : (arrivalStore count).joined (oneTimeRow id runAt) =
        some ⟨oneTimeRow id runAt, ⟨"assistant", "1"⟩⟩ := rfl
    rw [TriggerStore.dueCandidate, hjoined]
    exact if_pos ⟨rfl, hnow, hkind⟩
  change List.filterMap ((arrivalStore count).dueCandidate (count + 1))
    [oneTimeRow 1 0, oneTimeRow (count + 2) (count + 1)] = _
  have hstart : (0 : Int) ≤ count + 1 := by omega
  rw [List.filterMap_cons_some (hdue 1 0 hstart),
    List.filterMap_cons_some (hdue (count + 2) (count + 1) le_rfl), List.filterMap_nil]

theorem key_lt_key {left right : Nat} {before after : Instant} (hlt : before < after) :
    (oneTimeCandidate left before).key < (oneTimeCandidate right after).key :=
  Prod.Lex.toLex_lt_toLex.mpr (.inl hlt)

theorem page_arrival_start (limit count : Nat) :
    Keyset.page DueScheduleCandidate.key limit none
        [oneTimeCandidate 1 0, oneTimeCandidate (count + 2) (count + 1)] =
      [oneTimeCandidate 1 0, oneTimeCandidate (count + 2) (count + 1)].take limit := by
  have hstart : (0 : Int) < count + 1 := by omega
  have hlt : (oneTimeCandidate 1 0).key < (oneTimeCandidate (count + 2) (count + 1)).key :=
    key_lt_key hstart
  rw [Keyset.page, Keyset.beyond_none, Keyset.ordered_eq (.refl _)]
  simpa using hlt

theorem page_arrival_behind (count : Nat) :
    Keyset.page DueScheduleCandidate.key 1 (some (oneTimeCandidate (count + 1) count).key)
        [oneTimeCandidate 1 0, oneTimeCandidate (count + 2) (count + 1)] =
      [oneTimeCandidate (count + 2) (count + 1)] := by
  have hfirst : ¬ (oneTimeCandidate (count + 1) count).key < (oneTimeCandidate 1 0).key := by
    have hstart : (0 : Int) < count ∨ (0 : Int) = count ∧ 1 ≤ count + 1 := by omega
    rw [not_lt]
    exact Prod.Lex.toLex_le_toLex.mpr hstart
  have hnext : (count : Int) < count + 1 := by omega
  have hsecond : (oneTimeCandidate (count + 1) count).key <
      (oneTimeCandidate (count + 2) (count + 1)).key := key_lt_key hnext
  have hbeyond : Keyset.beyond DueScheduleCandidate.key
        (some (oneTimeCandidate (count + 1) count).key)
        [oneTimeCandidate 1 0, oneTimeCandidate (count + 2) (count + 1)] =
      [oneTimeCandidate (count + 2) (count + 1)] := by
    simp [Keyset.beyond, hfirst, hsecond]
  rw [Keyset.page, hbeyond]
  rfl

theorem contended_last :
    ((scheduler 1 Nat.one_pos none).pass (arrival .stopped 0)).ending = .stopped ∧
      ((scheduler 1 Nat.one_pos none).tick (arrival .stopped 0)).cursor = some (0, 1) := by
  have hitems : dueScheduleCandidates (arrivalStore 0) 1 1 none = [oneTimeCandidate 1 0] := by
    have hdue := due_arrival .stopped 0
    rw [dueScheduleCandidates_eq]
    exact (congrArg _ hdue).trans (page_arrival_start 1 0)
  have hpass : (scheduler 1 Nat.one_pos none).pass (arrival .stopped 0) =
      ⟨[oneTimeCandidate 1 0], [], .stopped⟩ := congrArg (Sweep.through _) hitems
  rw [tick, cursorAfter, hpass]
  exact ⟨rfl, rfl⟩

theorem contended_first (length : Nat) :
    ∀ pass ∈ (scheduler 2 Nat.two_pos none).passes
        (List.replicate length (arrival .stopped 0)),
      ¬ Examines (oneTimeCandidate 2 1).key pass := by
  have hitems : dueScheduleCandidates (arrivalStore 0) 1 2 none =
      [oneTimeCandidate 1 0, oneTimeCandidate 2 1] := by
    have hdue := due_arrival .stopped 0
    rw [dueScheduleCandidates_eq]
    exact (congrArg _ hdue).trans (page_arrival_start 2 0)
  have hpass : (scheduler 2 Nat.two_pos none).pass (arrival .stopped 0) =
      ⟨[oneTimeCandidate 1 0, oneTimeCandidate 2 1], [], .stopped⟩ :=
    congrArg (Sweep.through _) hitems
  have htick : (scheduler 2 Nat.two_pos none).tick (arrival .stopped 0) =
      scheduler 2 Nat.two_pos none := by
    refine tick_of_leaves (.inr ?_)
    rw [hpass]
    decide
  induction length with
  | zero => intro pass hpass; cases hpass
  | succ length ih =>
    rw [List.replicate_succ, passes, htick]
    rw [List.forall_mem_cons]
    refine ⟨?_, ih⟩
    rw [hpass]
    rintro ⟨candidate, hcandidate, hkey⟩
    obtain rfl := List.mem_singleton.mp hcandidate
    exact absurd hkey (key_lt_key (by decide)).ne

theorem passes_arrivals (length count : Nat) :
    ∀ pass ∈ (scheduler 1 Nat.one_pos (some (count, count + 1))).passes
        ((List.range' count length).map (arrival (.settled .deferredCapacity))),
      pass.ending = .running ∧ ¬ Examines (oneTimeCandidate 1 0).key pass := by
  induction length generalizing count with
  | zero => intro pass hpass; cases hpass
  | succ length ih =>
    have hitems : dueScheduleCandidates (arrivalStore count) (count + 1) 1
        (some (count, count + 1)) = [oneTimeCandidate (count + 2) (count + 1)] := by
      have hdue := due_arrival .stopped count
      rw [dueScheduleCandidates_eq]
      exact (congrArg _ hdue).trans (page_arrival_behind count)
    have hpass : (scheduler 1 Nat.one_pos (some (count, count + 1))).pass
          (arrival (.settled .deferredCapacity) count) =
        ⟨[oneTimeCandidate (count + 2) (count + 1)], [.deferredCapacity], .running⟩ :=
      congrArg (Sweep.through _) hitems
    have htick : (scheduler 1 Nat.one_pos (some (count, count + 1))).tick
          (arrival (.settled .deferredCapacity) count) =
        scheduler 1 Nat.one_pos (some (((count + 1 : Nat) : Instant), count + 1 + 1)) := by
      rw [tick, cursorAfter, hpass]
      rfl
    rw [List.range'_succ, List.map_cons, passes, htick, List.forall_mem_cons]
    refine ⟨?_, ih (count + 1)⟩
    rw [hpass]
    refine ⟨rfl, ?_⟩
    rintro ⟨candidate, hcandidate, hkey⟩
    obtain rfl := List.mem_singleton.mp hcandidate
    have hstart : (0 : Int) < count + 1 := by omega
    exact absurd hkey (key_lt_key hstart).ne'

/-- The scan steps over work: contention on the last candidate of a full page moves the cursor; a
schedule behind a candidate that meets contention again and again is not examined; nor is one that
stays due while as many others as a page holds become due before each tick. -/
theorem scan_steps_over :
    (((scheduler 1 Nat.one_pos none).pass (arrival .stopped 0)).ending = .stopped ∧
        ((scheduler 1 Nat.one_pos none).tick (arrival .stopped 0)).cursor ≠ none) ∧
      (∀ length, ∀ pass ∈ (scheduler 2 Nat.two_pos none).passes
          (List.replicate length (arrival .stopped 0)),
        ¬ Examines (oneTimeCandidate 2 1).key pass) ∧
      ∀ length,
        (∀ input ∈ (List.range' 0 length).map (arrival (.settled .deferredCapacity)),
          (input.store.due input.now).length = 2 ∧
            oneTimeCandidate 1 0 ∈ input.store.due input.now) ∧
          ∀ pass ∈ (scheduler 1 Nat.one_pos (some (0, 1))).passes
              ((List.range' 0 length).map (arrival (.settled .deferredCapacity))),
            pass.ending = .running ∧ ¬ Examines (oneTimeCandidate 1 0).key pass := by
  refine ⟨⟨contended_last.1, ?_⟩, contended_first, fun length => ⟨?_, passes_arrivals length 0⟩⟩
  · rw [contended_last.2]
    exact Option.some_ne_none _
  · intro input hinput
    obtain ⟨count, -, rfl⟩ := List.mem_map.mp hinput
    rw [due_arrival]
    exact ⟨rfl, List.mem_cons_self⟩

end SchedulerService

end NervOS
