/-
The contract for local readings in a tabulated zone: the first of the instants that read
as it, the transition when there is none, and in the order of the readings.
-/
import NervOS.Refinement.LocalTime

namespace NervOS

/-- A transition with the offsets on its two sides. -/
structure Jump where
  instant : Int
  before : Int
  after : Int
deriving DecidableEq

def jumpsFrom (before : Int) : List (Int × Int) → List Jump
  | [] => []
  | (instant, after) :: rest => ⟨instant, before, after⟩ :: jumpsFrom after rest

def Zone.jumps (zone : Zone) : List Jump :=
  jumpsFrom zone.initial zone.transitions

/-- A jump at a whole second between whole offsets, of at most one day. -/
structure Jump.WithinDay (jump : Jump) : Prop where
  instant : ∃ count, jump.instant = seconds count
  after : ∃ count, jump.after = seconds count
  forward : jump.after - jump.before ≤ seconds 86400
  back : jump.before - jump.after ≤ seconds 86400

def Jump.Apart (jump next : Jump) : Prop :=
  jump.instant ≤ next.instant ∧
    jump.instant + max jump.before jump.after ≤ next.instant + min next.before next.after

def Jump.GapFits (jump next : Jump) : Prop :=
  jump.instant + (next.after - next.before) ≤ next.instant

/-- Whole seconds, jumps of at most one day, and no overlap of their readings. -/
structure Zone.Tabulated (zone : Zone) : Prop where
  initial : ∃ count, zone.initial = seconds count
  withinDay : ∀ jump ∈ zone.jumps, jump.WithinDay
  apart : zone.jumps.IsChain Jump.Apart

theorem separated_of_chain {before next after : Int} {rest : List (Int × Int)}
    (hapart : (jumpsFrom before ((next, after) :: rest)).IsChain Jump.Apart)
    (hgaps : (jumpsFrom before ((next, after) :: rest)).IsChain Jump.GapFits) :
    Separated next (next + max before after) after rest := by
  induction rest generalizing before next after with
  | nil => trivial
  | cons transition rest ih =>
    obtain ⟨second, later⟩ := transition
    simp only [jumpsFrom, List.isChain_cons_cons] at hapart hgaps
    obtain ⟨⟨hordered, hreadings⟩, hapart'⟩ := hapart
    obtain ⟨hfits, hgaps'⟩ := hgaps
    exact ⟨hordered, hfits, hreadings, ih hapart' hgaps'⟩

theorem Zone.Tabulated.separated {zone : Zone} (hzone : zone.Tabulated)
    (hgaps : zone.jumps.IsChain Jump.GapFits) :
    ∃ start floor, Separated start floor zone.initial zone.transitions := by
  obtain ⟨initial, transitions⟩ := zone
  cases transitions with
  | nil => exact ⟨0, 0, trivial⟩
  | cons transition rest =>
    obtain ⟨next, after⟩ := transition
    refine ⟨next - max 0 (after - initial), next + min initial after, ?_, ?_, le_refl _, ?_⟩
    · omega
    · dsimp only
      omega
    · exact separated_of_chain hzone.apart hgaps

theorem wholeJumps_of_withinDay {before : Int} {transitions : List (Int × Int)}
    (hbefore : ∃ count, before = seconds count)
    (hjumps : ∀ jump ∈ jumpsFrom before transitions, jump.WithinDay) :
    WholeJumps before transitions := by
  induction transitions generalizing before with
  | nil => exact hbefore
  | cons transition rest ih =>
    obtain ⟨instant, after⟩ := transition
    have hjump := hjumps ⟨instant, before, after⟩ List.mem_cons_self
    refine ⟨hbefore, hjump.instant, ?_, ?_⟩
    · have hday := hjump.forward
      simp only [seconds] at hday ⊢
      omega
    · apply ih hjump.after
      intro other hother
      exact hjumps other (List.mem_cons_of_mem _ hother)

/-- The search for the end of the gap that a reading falls into. -/
def gapWindow (zone : Zone) (wall : Int) : Int × Int :=
  bisectWindow zone (zone.offset (zone.utc true wall)) gapSearchLimit (zone.utc true wall)
    (zone.utc false wall)

structure ResolvesByContract (zone : Zone) (wall instant : Int) : Prop where
  resolved : resolveLocal wall zone = .ok instant
  exact : (∃ other, zone.reading other = wall) →
    IsLeast {other : Int | zone.reading other = wall} instant
  skipped : (¬ ∃ other, zone.reading other = wall) →
    zone.Skips wall instant ∧ (gapWindow zone wall).2 = instant ∧
      ((gapWindow zone wall).2 - (gapWindow zone wall).1).tdiv (seconds 1) ≤ 1

theorem resolveLocal_of_missed {zone : Zone} {wall instant : Int}
    (hresolved : resolveLocal wall zone = .ok instant)
    (hmissed : zone.reading (zone.utc false wall) ≠ wall) : (gapWindow zone wall).2 = instant := by
  simp only [resolveLocal, if_neg hmissed, gapEnd] at hresolved
  by_cases hordered : zone.utc false wall < zone.utc true wall
  · rw [if_pos hordered] at hresolved
    cases hresolved
  · rw [if_neg hordered] at hresolved
    rw [gapWindow, bisectWindow_upper]
    exact Except.ok.inj hresolved

theorem contract_of_means {zone : Zone} {wall instant : Int}
    (hresolved : resolveLocal wall zone = .ok instant) (hmeans : zone.Means wall instant) :
    ResolvesByContract zone wall instant := by
  constructor
  · exact hresolved
  · rintro ⟨other, hother⟩
    cases hmeans with
    | inl hexact =>
      refine ⟨hexact.1, ?_⟩
      intro earlier hearlier
      by_contra hbefore
      have hread := hexact.2 earlier (not_le.mp hbefore)
      exact absurd hearlier hread.ne
    | inr hskipped =>
      exfalso
      by_cases hbefore : other < instant
      · exact absurd hother (hskipped.1.earlier other hbefore).ne
      · exact absurd hother (hskipped.1.later other (not_lt.mp hbefore)).ne'
  · intro hnone
    cases hmeans with
    | inl hexact => exact absurd ⟨instant, hexact.1⟩ hnone
    | inr hskipped =>
      obtain ⟨hskips, hmissed, width, hwidth, -, hdays⟩ := hskipped
      refine ⟨hskips, resolveLocal_of_missed hresolved hmissed, ?_⟩
      apply bisectWindow_ends hwidth
      exact hdays.trans (by decide)

/-- In a tabulated zone whose gaps fit between the jumps, every whole reading resolves by
the contract, and resolution keeps the order of the readings. -/
theorem resolve_local_contract (zone : Zone) (hzone : zone.Tabulated)
    (hgaps : zone.jumps.IsChain Jump.GapFits) :
    (∀ count, ∃ instant, ResolvesByContract zone (seconds count) instant) ∧
      ∀ count later instant instant', count ≤ later →
        resolveLocal (seconds count) zone = .ok instant →
          resolveLocal (seconds later) zone = .ok instant' → instant ≤ instant' := by
  obtain ⟨start, floor, hseparated⟩ := hzone.separated hgaps
  have hwhole := wholeJumps_of_withinDay hzone.initial hzone.withinDay
  have hmeans : ∀ count, ∃ instant : Int, resolveLocal (seconds count) zone = .ok instant ∧
      zone.Means (seconds count) instant := fun count =>
    resolveLocal_means hseparated hwhole rfl
  constructor
  · intro count
    obtain ⟨instant, hresolved, hmeant⟩ := hmeans count
    exact ⟨instant, contract_of_means hresolved hmeant⟩
  · intro count later instant instant' hle hinstant hinstant'
    obtain ⟨first, hfirst, hmeant⟩ := hmeans count
    obtain ⟨first', hfirst', hmeant'⟩ := hmeans later
    obtain rfl := Except.ok.inj (hinstant.symm.trans hfirst)
    obtain rfl := Except.ok.inj (hinstant'.symm.trans hfirst')
    apply hmeant.isLeast.2
    have hreadings : seconds count ≤ seconds later := by
      change (count * 1000000 : Int) ≤ later * 1000000
      omega
    exact hreadings.trans hmeant'.isLeast.1

/-- One hour forward, and after half a year back. -/
def summerZone : Zone where
  initial := 0
  transitions := [(seconds 1000000, seconds 3600), (seconds 16000000, 0)]

theorem summerZone_tabulated : summerZone.Tabulated where
  initial := ⟨0, rfl⟩
  withinDay := by
    intro jump hjump
    simp only [Zone.jumps, jumpsFrom, summerZone, List.mem_cons, List.not_mem_nil,
      or_false] at hjump
    cases hjump with
    | inl hforward =>
      subst hforward
      exact ⟨⟨_, rfl⟩, ⟨_, rfl⟩, by decide, by decide⟩
    | inr hback =>
      subst hback
      exact ⟨⟨_, rfl⟩, ⟨0, rfl⟩, by decide, by decide⟩
  apart := by
    simp only [Zone.jumps, jumpsFrom, summerZone, List.isChain_cons_cons]
    exact ⟨⟨by decide, by decide⟩, List.IsChain.singleton _⟩

theorem resolve_local_contract_summer :
    (∀ count, ∃ instant, ResolvesByContract summerZone (seconds count) instant) ∧
      ∀ count later instant instant', count ≤ later →
        resolveLocal (seconds count) summerZone = .ok instant →
          resolveLocal (seconds later) summerZone = .ok instant' → instant ≤ instant' := by
  apply resolve_local_contract summerZone summerZone_tabulated
  simp only [Zone.jumps, jumpsFrom, summerZone, List.isChain_cons_cons]
  refine ⟨?_, List.IsChain.singleton _⟩
  rw [Jump.GapFits]
  decide

/-- A gap of ten hours, two hours after a gap of one. -/
def crowdedZone : Zone where
  initial := 0
  transitions := [(0, seconds 3600), (seconds 7200, seconds 39600)]

theorem crowdedZone_tabulated : crowdedZone.Tabulated where
  initial := ⟨0, rfl⟩
  withinDay := by
    intro jump hjump
    simp only [Zone.jumps, jumpsFrom, crowdedZone, List.mem_cons, List.not_mem_nil,
      or_false] at hjump
    cases hjump with
    | inl hfirst =>
      subst hfirst
      exact ⟨⟨0, rfl⟩, ⟨_, rfl⟩, by decide, by decide⟩
    | inr hsecond =>
      subst hsecond
      exact ⟨⟨_, rfl⟩, ⟨_, rfl⟩, by decide, by decide⟩
  apart := by
    simp only [Zone.jumps, jumpsFrom, crowdedZone, List.isChain_cons_cons]
    exact ⟨⟨by decide, by decide⟩, List.IsChain.singleton _⟩

/-- The bisection of the second gap begins before the first one and ends there. -/
theorem resolve_local_crowded :
    ¬ ∀ zone : Zone, zone.Tabulated →
      ∀ count, ∃ instant, ResolvesByContract zone (seconds count) instant := by
  intro hcontract
  obtain ⟨instant, hresolved⟩ := hcontract crowdedZone crowdedZone_tabulated 14400
  have hzero : resolveLocal (seconds 14400) crowdedZone = .ok 0 := by decide +kernel
  obtain rfl := Except.ok.inj (hresolved.resolved.symm.trans hzero)
  by_cases hread : ∃ other, crowdedZone.reading other = seconds 14400
  · have hexact := (hresolved.exact hread).1
    exact absurd hexact (by decide +kernel)
  · have hlater := (hresolved.skipped hread).1.later 0 (le_refl 0)
    exact absurd hlater (by decide +kernel)

end NervOS
