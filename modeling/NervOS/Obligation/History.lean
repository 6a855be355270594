/-
What no run can undo: the identity of a Job and of its Attempts, the Attempts
that are closed, and the calls of those.
-/
import NervOS.Obligation.Sound

namespace NervOS

/-- The second obligation is a later one of the first. -/
structure History (o o' : Obligation) : Prop where
  job : SameJob o.job o'.job
  attempts : ∀ attempt ∈ o.attempts, ∃ attempt' ∈ o'.attempts,
    SameAttempt attempt attempt' ∧ (¬ attempt.status.IsActive → attempt' = attempt)
  calls : ∀ attempt ∈ o.attempts, ¬ attempt.status.IsActive →
    ∀ call' ∈ o'.calls, call'.attemptId = attempt.id → call' ∈ o.calls

variable {rules : Discipline} {now : Instant} {o o' : Obligation}

theorem History.refl (o : Obligation) : History o o where
  job := SameJob.refl o.job
  attempts attempt hattempt := ⟨attempt, hattempt, SameAttempt.refl attempt, fun _ => rfl⟩
  calls _ _ _ _ hcall _ := hcall

theorem History.frozen (h : History o o') {attempt : JobAttemptRecord}
    (hattempt : attempt ∈ o.attempts) (hinactive : ¬ attempt.status.IsActive) :
    attempt ∈ o'.attempts := by
  obtain ⟨attempt', hattempt', -, hstays⟩ := h.attempts attempt hattempt
  rwa [← hstays hinactive]

theorem History.trans {a b c : Obligation} (hab : History a b) (hbc : History b c) :
    History a c where
  job := hab.job.trans hbc.job
  attempts attempt hattempt := by
    obtain ⟨attempt₁, hattempt₁, hsame₁, hstays₁⟩ := hab.attempts attempt hattempt
    obtain ⟨attempt₂, hattempt₂, hsame₂, hstays₂⟩ := hbc.attempts attempt₁ hattempt₁
    refine ⟨attempt₂, hattempt₂, hsame₁.trans hsame₂, fun hinactive => ?_⟩
    have heq := hstays₁ hinactive
    rw [heq] at hstays₂
    exact hstays₂ hinactive
  calls attempt hattempt hinactive call hcall howner :=
    hab.calls attempt hattempt hinactive call
      (hbc.calls attempt (hab.frozen hattempt hinactive) hinactive call hcall howner) howner

theorem Step.history (h : Step rules now o o') (hsound : o.Sound) : History o o' where
  job := h.sameJob
  attempts attempt hattempt := by
    rcases h.attempts with ⟨hmoved, -⟩ | ⟨fresh, -, hattempts, -⟩
    · obtain ⟨attempt', hattempt', hsame, -, hstays⟩ := hmoved.after hattempt
      exact ⟨attempt', hattempt', hsame, hstays⟩
    · rw [hattempts]
      exact ⟨attempt, List.mem_append_left _ hattempt, SameAttempt.refl attempt, fun _ => rfl⟩
  calls attempt hattempt hinactive := (h.frozen hsound hattempt hinactive).2

theorem steps_history (h : Relation.ReflTransGen (Step rules now) o o') (hsound : o.Sound) :
    o'.Sound ∧ History o o' := by
  induction h with
  | refl => exact ⟨hsound, History.refl o⟩
  | tail _ hstep ih => exact ⟨hstep.sound ih.1, ih.2.trans (hstep.history ih.1)⟩

variable {before after : Option Obligation}

theorem Evolves.attempts (h : Evolves rules now before after) (hpolled : ¬ rules.polled)
    (ho' : o' ∈ after) {attempt' : JobAttemptRecord} (hattempt' : attempt' ∈ o'.attempts) :
    ∃ o ∈ before, ∃ attempt ∈ o.attempts, attempt.id = attempt'.id := by
  cases h with
  | absent => cases ho'
  | submitted hnew =>
    obtain rfl := Option.mem_some_iff.mp ho'
    rw [hnew.attempts] at hattempt'
    cases hattempt'
  | @moves o last steps =>
    obtain rfl := Option.mem_some_iff.mp ho'
    refine ⟨o, rfl, ?_⟩
    induction steps generalizing attempt' with
    | refl => exact ⟨attempt', hattempt', rfl⟩
    | tail _ step ih =>
      rcases step.attempts with ⟨hmoved, -⟩ | ⟨-, -, -, -, hrule⟩
      · obtain ⟨middle, hmiddle, hsame, -⟩ := hmoved.before hattempt'
        obtain ⟨attempt, hattempt, hid⟩ := ih hmiddle rfl
        exact ⟨attempt, hattempt, hid.trans hsame.id.symm⟩
      · exact absurd hrule hpolled

theorem Evolves.history (h : Evolves rules now before after) (ho : o ∈ before) (hsound : o.Sound) :
    ∃ o' ∈ after, History o o' := by
  cases h with
  | absent | submitted => cases ho
  | moves steps =>
    obtain rfl := Option.mem_some_iff.mp ho
    exact ⟨_, rfl, (steps_history steps hsound).2⟩

end NervOS
