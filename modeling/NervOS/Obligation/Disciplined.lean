/-
What holds of an obligation only while every move meets a condition of the
discipline, and the rule that carries such a property over whole runs.
-/
import NervOS.Obligation.Sound

namespace NervOS

open Relational

def Obligation.Unstranded (o : Obligation) : Prop :=
  o.job.status = .queued → o.run.status = .created

def Obligation.Tidy (o : Obligation) : Prop :=
  ∀ call ∈ o.calls, call.status.IsOpen → OfActive o.attempts call

def Obligation.Quiet (o : Obligation) : Prop :=
  ∀ closing ∈ o.timeline, closing.eventType.IsTerminal →
    ∀ event ∈ o.timeline, event.sequence ≤ closing.sequence

section Rule

variable {rules : Discipline} {now : Instant} {Q : Obligation → Prop}

theorem Evolves.keeps (hsubmitted : ∀ o, Submitted o → Q o)
    (hstep : ∀ {o o'}, Step rules now o o' → o.Sound → Q o → Q o')
    {before after : Option Obligation} (h : Evolves rules now before after)
    (hbefore : ∀ o ∈ before, o.Sound ∧ Q o) : ∀ o ∈ after, Q o := by
  intro o' ho'
  cases h with
  | absent => cases ho'
  | submitted hnew =>
    obtain rfl := Option.mem_some_iff.mp ho'
    exact hsubmitted _ hnew
  | @moves o last steps =>
    obtain rfl := Option.mem_some_iff.mp ho'
    have hboth : last.Sound ∧ Q last := by
      induction steps with
      | refl => exact hbefore _ rfl
      | tail _ step ih => exact ⟨step.sound (ih rfl).1, hstep step (ih rfl).1 (ih rfl).2⟩
    exact hboth.2

end Rule

variable {rules : Discipline} {now : Instant} {o o' : Obligation}

theorem Submitted.unstranded (h : Submitted o) : o.Unstranded :=
  fun _ => h.run

theorem Step.unstranded (h : Step rules now o o') (hrule : rules.unstarted)
    (hkept : o.Unstranded) : o'.Unstranded := by
  intro hqueued
  cases h with
  | requeue source budget unstarted => exact unstarted hrule
  | work | note => exact hkept hqueued
  | claim _ _ _ _ status | start _ _ status | renew _ _ _ status | retry _ _ _ _ status =>
    rw [status] at hqueued
    cases hqueued
  | close _ _ closed =>
    rw [hqueued] at closed
    exact closed.elim

theorem Submitted.tidy (h : Submitted o) : o.Tidy := by
  intro call hcall
  rw [h.calls] at hcall
  cases hcall

theorem OfActive.mono {P : JobAttemptRecord → JobAttemptRecord → Prop}
    {attempts attempts' : List JobAttemptRecord} (hmoved : AttemptsMove P attempts attempts')
    (hkeep : ∀ attempt attempt', P attempt attempt' → attempt.status.IsActive →
      attempt'.status.IsActive)
    {call : ToolInvocationRecord} (h : OfActive attempts call) : OfActive attempts' call := by
  obtain ⟨attempt, hattempt, hid, hactive⟩ := h
  obtain ⟨attempt', hattempt', hsame, hmoves, -⟩ := hmoved.after hattempt
  exact ⟨attempt', hattempt', hsame.id.trans hid,
    hkeep attempt attempt' (hmoves hactive) hactive⟩

theorem Obligation.Tidy.ofActive (h : o.Tidy) {calls' : List ToolInvocationRecord}
    (hcalled : CallsMove o.attempts o.calls calls') {call' : ToolInvocationRecord}
    (hcall' : call' ∈ calls') (hopen : call'.status.IsOpen) : OfActive o.attempts call' := by
  obtain ⟨call, hcall, hsame, hmoved⟩ := exists_before hcalled hcall'
  rcases hmoved with rfl | ⟨-, attempt, hattempt, hid, hactive⟩
  · exact h call' hcall hopen
  · exact ⟨attempt, hattempt, hid.trans hsame.attemptId.symm, hactive⟩

theorem Step.tidied (h : Step rules now o o') (hrule : rules.tidy) (hsound : o.Sound)
    (hkept : o.Tidy) : o'.Tidy := by
  intro call' hcall' hopen
  cases h with
  | claim =>
    obtain ⟨attempt, hattempt, howns⟩ := hkept call' hcall' hopen
    exact ⟨attempt, List.mem_append_left _ hattempt, howns⟩
  | note => exact hkept call' hcall' hopen
  | start _ _ _ _ _ _ _ _ _ moved =>
    refine (hkept call' hcall' hopen).mono moved fun attempt attempt' hmove _ => ?_
    rw [hmove.1]
    trivial
  | renew _ _ _ _ _ _ _ _ moved =>
    refine (hkept call' hcall' hopen).mono moved fun attempt attempt' hmove hactive => ?_
    rwa [hmove.1]
  | work _ moved called requests =>
    have hactive : OfActive o.attempts call' := by
      rcases List.mem_append.mp hcall' with hold | hnew
      · exact hkept.ofActive called hold hopen
      · obtain ⟨-, -, attempt, hattempt, hid, hactive, -⟩ := requests call' hnew
        exact ⟨attempt, hattempt, hid, hactive⟩
    refine hactive.mono moved fun attempt attempt' hmove hactive => ?_
    rwa [hmove.1]
  | retry _ _ _ _ _ _ _ _ tidy =>
    exact absurd hopen (tidy hrule call' hcall' (hkept call' hcall' hopen))
  | close _ _ _ _ _ _ _ _ called tidy =>
    exact absurd hopen (tidy hrule call' hcall' (hkept.ofActive called hcall' hopen))
  | requeue _ _ _ _ _ _ _ moved =>
    have hactive := hkept call' hcall' hopen
    obtain ⟨attempt, hattempt, hid, hwas⟩ := hactive
    obtain ⟨_, -, -, hmoves, -⟩ := moved.after hattempt
    exact absurd hopen
      (settled_of_unstarted hsound hattempt hwas (hmoves hwas).2.1 call' hcall'
        ⟨attempt, hattempt, hid, hwas⟩)

theorem Timeline.unclosed {status : RunStatus} {events : List RunEventRecord}
    (h : Timeline status events) (hopen : status.closing = []) :
    ∀ event ∈ events, ¬ event.eventType.IsTerminal := by
  intro event hevent hterminal
  have hnone := h.closing
  rw [hopen, List.filter_eq_nil_iff] at hnone
  exact hnone event.eventType (List.mem_map_of_mem hevent) (decide_eq_true hterminal)

variable {types : List RunEventType} {timeline timeline' : List RunEventRecord}

theorem Appends.quiet (h : Appends types timeline timeline')
    (hordinary : ∀ type ∈ types, ¬ type.IsTerminal)
    (hnone : ∀ event ∈ timeline, ¬ event.eventType.IsTerminal) :
    ∀ event ∈ timeline', ¬ event.eventType.IsTerminal := by
  obtain ⟨events, rfl, rfl, -⟩ := h
  intro event hevent
  rcases List.mem_append.mp hevent with hold | hnew
  · exact hnone event hold
  · exact hordinary event.eventType (List.mem_map_of_mem hnew)

theorem Appends.closeout {last : RunEventType} (h : Appends (types ++ [last]) timeline timeline')
    (hordinary : ∀ type ∈ types, ¬ type.IsTerminal)
    (hnone : ∀ event ∈ timeline, ¬ event.eventType.IsTerminal)
    (hnumbered : Numbered (timeline.map (·.sequence)) timeline.length) :
    ∀ closing ∈ timeline', closing.eventType.IsTerminal →
      ∀ event ∈ timeline', event.sequence ≤ closing.sequence := by
  have hall := h.numbered hnumbered
  obtain ⟨events, rfl, htypes, hsequences⟩ := h
  obtain ⟨before, rest, rfl, hbefore, hrest⟩ := List.map_eq_append_iff.mp htypes
  obtain ⟨final, rfl, -⟩ := List.map_eq_singleton_iff.mp hrest
  intro closing hclosing hterminal event hevent
  have hfinal : closing = final := by
    simp only [List.mem_append, List.mem_singleton] at hclosing
    rcases hclosing with hold | hnew | rfl
    · exact absurd hterminal (hnone closing hold)
    · exact absurd hterminal
        (hordinary closing.eventType (hbefore ▸ List.mem_map_of_mem hnew))
    · rfl
  have hlast : final.sequence = (timeline ++ (before ++ [final])).length := by
    have hsplit : Numbered ((timeline ++ before).map (·.sequence) ++ [final.sequence])
        (timeline ++ (before ++ [final])).length := by
      rwa [← List.append_assoc, List.map_append, List.map_singleton, List.append_assoc] at hall
    exact hsplit.last
  rw [hfinal, hlast]
  exact (hall.mem.mp (List.mem_map_of_mem hevent)).2

theorem Submitted.quiet (h : Submitted o) : o.Quiet := by
  intro closing hclosing hterminal
  have hnone := h.told.quiet (by decide) (List.forall_mem_nil _)
  exact absurd hterminal (hnone closing hclosing)

theorem Step.quieted (h : Step rules now o o') (hrule : rules.quiet) (hsound : o.Sound)
    (hkept : o.Quiet) : o'.Quiet := by
  have hnone : ¬ o.job.status.IsTerminal →
      ∀ event ∈ o.timeline, ¬ event.eventType.IsTerminal := fun hopen =>
    hsound.told.unclosed (run_open hopen hsound.agrees).2
  have hopen : ∀ {types timeline'}, ¬ o.job.status.IsTerminal →
      (∀ type ∈ types, ¬ type.IsTerminal) → Appends types o.timeline timeline' →
      ∀ closing ∈ timeline', closing.eventType.IsTerminal →
        ∀ event ∈ timeline', event.sequence ≤ closing.sequence :=
    fun hjob hordinary told closing hclosing hterminal =>
      absurd hterminal (told.quiet hordinary (hnone hjob) closing hclosing)
  cases h with
  | claim polled source fresh sameJob status counted carries told =>
    refine hopen ?_ (by decide) told
    rcases source with ⟨hjob, -⟩ | ⟨hjob, -⟩ <;> rw [hjob] <;> exact id
  | renew => exact hkept
  | start source _ _ _ _ _ _ _ _ _ told | retry source _ _ _ _ _ _ _ _ told =>
    exact hopen (by rw [source]; exact id) (by decide) told
  | requeue source _ _ _ _ _ _ _ told =>
    exact hopen (by rw [source]; exact id) (by decide) told
  | work source _ _ _ ordinary told => exact hopen (by rw [source]; exact id) ordinary told
  | note quiet ordinary told =>
    exact hopen (job_open (quiet hrule) hsound.agrees) ordinary told
  | close source _ _ _ _ _ _ _ _ _ ordinary closing told =>
    exact told.closeout ordinary (hnone source) hsound.told.numbered

end NervOS
