/-
What a local reading resolves to: the first instant whose own reading is not before it, in every
zone whose transitions are far enough apart.
-/
import NervOS.Domain.Scheduling
import Mathlib.Order.Bounds.Basic

namespace NervOS

section Stepped

variable {β : Type}

def stepped (initial : β) (table : List (Int × β)) (point : Int) : β :=
  ((table.filter fun entry => entry.1 ≤ point).getLast?.map (·.2)).getD initial

@[simp] theorem stepped_nil (initial : β) (point : Int) : stepped initial [] point = initial :=
  rfl

theorem stepped_cons_of_le {initial value : β} {start point : Int} {rest : List (Int × β)}
    (h : start ≤ point) :
    stepped initial ((start, value) :: rest) point = stepped value rest point := by
  unfold stepped
  rw [List.filter_cons_of_pos (by simpa using h), List.getLast?_cons]
  cases (rest.filter fun entry => entry.1 ≤ point).getLast? <;> rfl

theorem stepped_of_lt {initial : β} {table : List (Int × β)} {point : Int}
    (h : ∀ entry ∈ table, point < entry.1) : stepped initial table point = initial := by
  have hnone : table.filter (fun entry => decide (entry.1 ≤ point)) = [] := by
    rw [List.filter_eq_nil_iff]
    intro entry hentry
    have := h entry hentry
    simp
    omega
  rw [stepped, hnone]
  rfl

end Stepped

section Separated

/-- The transitions from a start on, none of whose readings is below a floor: a gap is shorter
than the time since the transition before it, and no two repeated or skipped readings overlap. -/
def Separated (start floor before : Int) :
    List (Int × Int) → Prop
  | [] => True
  | (instant, after) :: rest =>
    start ≤ instant ∧ start + (after - before) ≤ instant ∧
      floor ≤ instant + min before after ∧
        Separated instant (instant + max before after) after rest

variable {transitions : List (Int × Int)}

theorem Separated.mono {start floor floor' before : Int}
    (h : Separated start floor before transitions) (hfloor : floor' ≤ floor) :
    Separated start floor' before transitions := by
  cases transitions with
  | nil => trivial
  | cons transition rest => exact ⟨h.1, h.2.1, hfloor.trans h.2.2.1, h.2.2.2⟩

variable {start floor before : Int}

theorem Separated.start_le (h : Separated start floor before transitions) :
    ∀ transition ∈ transitions, start ≤ transition.1 := by
  induction transitions generalizing start floor before with
  | nil => simp
  | cons transition rest ih =>
    intro other hother
    rcases List.mem_cons.mp hother with rfl | hmem
    · exact h.1
    · exact h.1.trans (ih h.2.2.2 other hmem)

theorem Separated.floor_le {fold : Bool} (h : Separated start floor before transitions) :
    ∀ entry ∈ Zone.wallTransitions fold before transitions, floor ≤ entry.1 := by
  induction transitions generalizing start floor before with
  | nil => simp [Zone.wallTransitions]
  | cons transition rest ih =>
    obtain ⟨instant, after⟩ := transition
    obtain ⟨-, -, hfloor, hrest⟩ := h
    intro entry hentry
    rw [Zone.wallTransitions] at hentry
    rcases List.mem_cons.mp hentry with rfl | hmem
    · cases fold <;> simp <;> omega
    · have := ih hrest entry hmem
      omega

variable {start floor before : Int}
  {transitions : List (Int × Int)}

theorem Separated.floor_le_reading (h : Separated start floor before transitions)
    (hstart : floor ≤ start + before) {instant : Int} (hinstant : start ≤ instant) :
    floor ≤ instant + stepped before transitions instant := by
  induction transitions generalizing start floor before with
  | nil =>
    rw [stepped_nil]
    omega
  | cons transition rest ih =>
    obtain ⟨next, after⟩ := transition
    obtain ⟨hnext, hgap, hfloor, hrest⟩ := h
    by_cases hafter : next ≤ instant
    · rw [stepped_cons_of_le hafter]
      exact ih (hrest.mono (by omega)) (by omega) hafter
    · rw [stepped_of_lt]
      · omega
      · intro entry hentry
        rcases List.mem_cons.mp hentry with rfl | hmem
        · simpa using hafter
        · have := hrest.start_le entry hmem
          omega

theorem Separated.start_le_utc (h : Separated start floor before transitions)
    (hfloor : start + before ≤ floor) (fold : Bool) {wall : Int} (hwall : floor ≤ wall) :
    start ≤ wall - stepped before (Zone.wallTransitions fold before transitions) wall := by
  induction transitions generalizing start floor before with
  | nil =>
    rw [Zone.wallTransitions, stepped_nil]
    omega
  | cons transition rest ih =>
    obtain ⟨next, after⟩ := transition
    obtain ⟨hnext, hgap, hmin, hrest⟩ := h
    rw [Zone.wallTransitions]
    by_cases hpast : next + max before after ≤ wall
    · rw [stepped_cons_of_le]
      · have := ih hrest (by omega) hpast
        omega
      · cases fold <;> simp <;> omega
    · have hlater : ∀ entry ∈ Zone.wallTransitions fold after rest, wall < entry.1 := by
        intro entry hentry
        have := hrest.floor_le entry hentry
        omega
      by_cases hinside : next + (if fold then min before after else max before after) ≤ wall
      · rw [stepped_cons_of_le hinside, stepped_of_lt hlater]
        cases fold <;> simp at hinside <;> omega
      · rw [stepped_of_lt]
        · omega
        · intro entry hentry
          rcases List.mem_cons.mp hentry with rfl | hmem
          · simpa using hinside
          · exact hlater entry hmem

end Separated

section Bisection

variable {zone other : Zone} {offset : Int} {fuel : Nat}

theorem bisectGap_congr {low high : Int}
    (h : ∀ instant : Int, low ≤ instant → zone.offset instant = other.offset instant) :
    bisectGap zone offset fuel low high = bisectGap other offset fuel low high := by
  induction fuel generalizing low high with
  | zero => rfl
  | succ fuel ih =>
    simp only [bisectGap]
    by_cases hdone : (high - low).tdiv (seconds 1) ≤ 1
    · rw [if_pos hdone, if_pos hdone]
    · have hmiddle : low ≤ low + seconds ((high - low).tdiv (seconds 1) / 2) := by
        simp only [seconds] at hdone ⊢
        omega
      rw [if_neg hdone, if_neg hdone, h _ hmiddle]
      by_cases hsame : other.offset (low + seconds ((high - low).tdiv (seconds 1) / 2)) = offset
      · rw [if_pos hsame, if_pos hsame]
        exact ih fun instant hinstant => h instant (hmiddle.trans hinstant)
      · rw [if_neg hsame, if_neg hsame]
        exact ih h

theorem tdiv_seconds (count : Int) : (seconds count).tdiv (seconds 1) = count := by
  rw [seconds, seconds, one_mul]
  exact Int.mul_tdiv_cancel count (by decide)

theorem bisectGap_eq {low high transition : Int} (hlow : low < transition)
    (hhigh : transition ≤ high) (hwindow : high - low ≤ 2 ^ fuel)
    (h : ∀ count, low ≤ count → count ≤ high →
      (zone.offset (seconds count) = offset ↔ count < transition)) :
    bisectGap zone offset fuel (seconds low) (seconds high) = seconds transition := by
  induction fuel generalizing low high with
  | zero =>
    have hone : high = transition := by omega
    rw [bisectGap, hone]
  | succ fuel ih =>
    have hremaining : (seconds high - seconds low).tdiv (seconds 1) = high - low := by
      rw [seconds, seconds, ← Int.sub_mul]
      exact tdiv_seconds (high - low)
    have hmiddle : seconds low + seconds ((high - low) / 2) =
        seconds (low + (high - low) / 2) := by
      rw [seconds, seconds, seconds, Int.add_mul]
    simp only [bisectGap, hremaining, hmiddle]
    by_cases hdone : high - low ≤ 1
    · have hone : high = transition := by omega
      rw [if_pos hdone, hone]
    · rw [if_neg hdone]
      have hpow : (2 : Int) ^ (fuel + 1) = 2 * 2 ^ fuel := by
        rw [Int.pow_succ, Int.mul_comm]
      by_cases hbelow : low + (high - low) / 2 < transition
      · rw [if_pos ((h _ (by omega) (by omega)).mpr hbelow)]
        exact ih hbelow hhigh (by omega) fun count hcount => h count (by omega)
      · rw [if_neg (fun hsame => hbelow ((h _ (by omega) (by omega)).mp hsame))]
        exact ih hlow (by omega) (by omega) fun count hcount hupper => h count hcount (by omega)

/-- The bisection with both ends of the window that it stops with. -/
def bisectWindow (zone : Zone) (preTransition : Int) : Nat → Int → Int → Int × Int
  | 0, low, high => (low, high)
  | fuel + 1, low, high =>
    let remaining := (high - low).tdiv (seconds 1)
    if remaining ≤ 1 then (low, high)
    else
      let middle := low + seconds (remaining / 2)
      if zone.offset middle = preTransition then bisectWindow zone preTransition fuel middle high
      else bisectWindow zone preTransition fuel low middle

theorem bisectWindow_upper (low high : Int) :
    (bisectWindow zone offset fuel low high).2 = bisectGap zone offset fuel low high := by
  induction fuel generalizing low high with
  | zero => rfl
  | succ fuel ih =>
    simp only [bisectWindow, bisectGap]
    by_cases hdone : (high - low).tdiv (seconds 1) ≤ 1
    · rw [if_pos hdone, if_pos hdone]
    · rw [if_neg hdone, if_neg hdone]
      by_cases hsame : zone.offset (low + seconds ((high - low).tdiv (seconds 1) / 2)) = offset
      · rw [if_pos hsame, if_pos hsame]
        exact ih _ _
      · rw [if_neg hsame, if_neg hsame]
        exact ih _ _

theorem bisectWindow_ends {low high width : Int} (hwidth : high - low = seconds width)
    (hlimit : width ≤ 2 ^ fuel) :
    ((bisectWindow zone offset fuel low high).2 -
      (bisectWindow zone offset fuel low high).1).tdiv (seconds 1) ≤ 1 := by
  induction fuel generalizing low high width with
  | zero =>
    simp only [bisectWindow]
    rw [hwidth, tdiv_seconds]
    exact hlimit
  | succ fuel ih =>
    have hremaining : (high - low).tdiv (seconds 1) = width := by
      rw [hwidth, tdiv_seconds]
    have hpow : (2 : Int) ^ (fuel + 1) = 2 * 2 ^ fuel := by
      rw [Int.pow_succ, Int.mul_comm]
    simp only [bisectWindow, hremaining]
    by_cases hdone : width ≤ 1
    · rw [if_pos hdone]
      dsimp only
      rwa [hremaining]
    · rw [if_neg hdone]
      simp only [seconds] at hwidth
      by_cases hsame : zone.offset (low + seconds (width / 2)) = offset
      · rw [if_pos hsame]
        apply @ih (low + seconds (width / 2)) high (width - width / 2)
        · simp only [seconds]
          omega
        · omega
      · rw [if_neg hsame]
        apply @ih low (low + seconds (width / 2)) (width / 2)
        · simp only [seconds]
          omega
        · omega

end Bisection

def WholeSeconds (before : Int) (transitions : List (Int × Int)) : Prop :=
  (∃ count, before = seconds count ∧ -86400 < count ∧ count < 86400) ∧
    ∀ transition ∈ transitions, (∃ count, transition.1 = seconds count) ∧
      ∃ count, transition.2 = seconds count ∧ -86400 < count ∧ count < 86400

variable {before : Int}

theorem WholeSeconds.tail {transition : Int × Int} {rest : List (Int × Int)}
    (h : WholeSeconds before (transition :: rest)) : WholeSeconds transition.2 rest :=
  ⟨(h.2 transition List.mem_cons_self).2, fun other hother =>
    h.2 other (List.mem_cons_of_mem transition hother)⟩

def WholeJumps (before : Int) : List (Int × Int) → Prop
  | [] => ∃ count, before = seconds count
  | (instant, after) :: rest =>
    (∃ count, before = seconds count) ∧ (∃ count, instant = seconds count) ∧
      after - before ≤ seconds 172800 ∧ WholeJumps after rest

variable {transitions : List (Int × Int)}

theorem WholeJumps.initial (h : WholeJumps before transitions) :
    ∃ count, before = seconds count := by
  cases transitions with
  | nil => exact h
  | cons transition rest => exact h.1

theorem WholeSeconds.jumps (h : WholeSeconds before transitions) :
    WholeJumps before transitions := by
  induction transitions generalizing before with
  | nil =>
    obtain ⟨count, hcount, -⟩ := h.1
    exact ⟨count, hcount⟩
  | cons transition rest ih =>
    obtain ⟨count, hcount, hlower, hupper⟩ := h.1
    obtain ⟨hinstant, count', hcount', hlower', hupper'⟩ := h.2 transition List.mem_cons_self
    refine ⟨⟨count, hcount⟩, hinstant, ?_, ih h.tail⟩
    simp only [seconds] at hcount hcount' ⊢
    omega

variable {start floor before next after : Int} {rest : List (Int × Int)} {instant : Int}

theorem offset_of_lt (h : Separated start floor before ((next, after) :: rest))
    (hinstant : instant < next) : Zone.offset ⟨before, (next, after) :: rest⟩ instant = before := by
  apply stepped_of_lt
  intro entry hentry
  rcases List.mem_cons.mp hentry with rfl | hmem
  · exact hinstant
  · have := h.2.2.2.start_le entry hmem
    omega

theorem offset_of_le (hinstant : next ≤ instant) :
    Zone.offset ⟨before, (next, after) :: rest⟩ instant = Zone.offset ⟨after, rest⟩ instant :=
  stepped_cons_of_le hinstant

variable {wall : Int}

theorem utc_cons (fold : Bool) (hwall : next + max before after ≤ wall) :
    Zone.utc ⟨before, (next, after) :: rest⟩ fold wall = Zone.utc ⟨after, rest⟩ fold wall := by
  change wall - stepped before (Zone.wallTransitions fold before ((next, after) :: rest)) wall =
    wall - stepped after (Zone.wallTransitions fold after rest) wall
  rw [Zone.wallTransitions, stepped_cons_of_le]
  cases fold <;> simp <;> omega

section

variable (h : Separated start floor before ((next, after) :: rest))

include h

theorem resolveLocal_cons (hwall : next + max before after ≤ wall) :
    resolveLocal wall ⟨before, (next, after) :: rest⟩ = resolveLocal wall ⟨after, rest⟩ := by
  have hutc : ∀ fold, Zone.utc ⟨before, (next, after) :: rest⟩ fold wall =
      Zone.utc ⟨after, rest⟩ fold wall := fun fold => utc_cons fold hwall
  have hlater : ∀ fold, next ≤ Zone.utc ⟨after, rest⟩ fold wall := fun fold =>
    h.2.2.2.start_le_utc (by omega) fold hwall
  have hreading : Zone.reading ⟨before, (next, after) :: rest⟩ (Zone.utc ⟨after, rest⟩ false wall) =
      Zone.reading ⟨after, rest⟩ (Zone.utc ⟨after, rest⟩ false wall) := by
    rw [Zone.reading, Zone.reading, offset_of_le (hlater false)]
  rw [resolveLocal, resolveLocal, gapEnd, gapEnd]
  simp only [hutc, hreading]
  rw [offset_of_le (hlater true),
    bisectGap_congr fun instant hinstant => offset_of_le ((hlater true).trans hinstant)]

theorem utc_gap (hbelow : next + before ≤ wall) (habove : wall < next + after) :
    Zone.utc ⟨before, (next, after) :: rest⟩ false wall = wall - before ∧
      Zone.utc ⟨before, (next, after) :: rest⟩ true wall = wall - after := by
  obtain ⟨hstart, hgap, hfloor, hrest⟩ := h
  have hlater : ∀ fold, ∀ entry ∈ Zone.wallTransitions fold after rest,
      wall < entry.1 := by
    intro fold entry hentry
    have := hrest.floor_le entry hentry
    omega
  constructor
  · change wall - stepped before
      (Zone.wallTransitions false before ((next, after) :: rest)) wall = _
    rw [Zone.wallTransitions, stepped_of_lt]
    intro entry hentry
    rcases List.mem_cons.mp hentry with rfl | hmem
    · simp
      omega
    · exact hlater false entry hmem
  · change wall - stepped before
      (Zone.wallTransitions true before ((next, after) :: rest)) wall = _
    rw [Zone.wallTransitions, stepped_cons_of_le, stepped_of_lt (hlater true)]
    simp
    omega

theorem floor_le_reading_gap (hgap : before ≤ after) (hinstant : next ≤ instant) :
    next + after ≤ instant + Zone.offset ⟨before, (next, after) :: rest⟩ instant := by
  rw [offset_of_le hinstant]
  exact (h.2.2.2.mono (by omega)).floor_le_reading (by omega) hinstant

end

variable {count wall : Int}

theorem resolveLocal_gap (h : Separated start floor before ((next, after) :: rest))
    (hwhole : WholeJumps before ((next, after) :: rest)) (hcount : wall = seconds count)
    (hbelow : next + before ≤ wall) (habove : wall < next + after) :
    resolveLocal wall ⟨before, (next, after) :: rest⟩ = .ok next := by
  obtain ⟨hutc, hutc'⟩ := utc_gap h hbelow habove
  have hfrom : ∀ instant : Int, next ≤ instant → next + after ≤
      instant + Zone.offset ⟨before, (next, after) :: rest⟩ instant :=
    fun instant hinstant => floor_le_reading_gap h (by omega) hinstant
  have hreading : wall - before + Zone.offset ⟨before, (next, after) :: rest⟩ (wall - before) ≠
      wall := by
    have := hfrom (wall - before) (by omega)
    omega
  have hoffset : Zone.offset ⟨before, (next, after) :: rest⟩ (wall - after) = before :=
    have hfirst := h.2.1
    offset_of_lt h (by omega)
  obtain ⟨⟨low, hlow⟩, ⟨transition, htransition⟩, hjump, hrest⟩ := hwhole
  obtain ⟨high, hhigh⟩ := hrest.initial
  have hwindow : wall - after = seconds (count - high) ∧ wall - before = seconds (count - low) := by
    simp only [seconds] at hcount hlow hhigh ⊢
    omega
  have hbisected : bisectGap ⟨before, (next, after) :: rest⟩ before gapSearchLimit (wall - after)
      (wall - before) = next := by
    rw [hwindow.1, hwindow.2]
    refine Eq.trans (bisectGap_eq ?_ ?_ ?_ ?_) htransition.symm
    · simp only [seconds] at *
      omega
    · simp only [seconds] at *
      omega
    · simp only [seconds, gapSearchLimit] at *
      omega
    · intro instant hfirst hlast
      simp only [seconds] at *
      constructor
      · intro hsame
        by_contra hpast
        have hlate := hfrom (instant * 1000000) (by omega)
        rw [hsame] at hlate
        omega
      · intro hearly
        exact offset_of_lt h (by omega)
  have hordered : ¬ wall - before < wall - after := by omega
  rw [resolveLocal]
  simp only [hutc]
  rw [if_neg (show ¬ Zone.reading _ (wall - before) = wall from hreading), gapEnd]
  simp only [hutc, hutc', hoffset]
  rw [if_neg hordered, hbisected]

variable {wall instant : Int}

theorem isLeast_reading {zone : Zone} (hreached : wall ≤ zone.reading instant)
    (hfirst : ∀ earlier : Int, earlier < instant → zone.reading earlier < wall) :
    IsLeast {instant : Int | wall ≤ zone.reading instant} instant := by
  refine ⟨hreached, ?_⟩
  intro other hother
  by_contra hearlier
  exact absurd (hfirst other (not_le.mp hearlier)) (not_lt.mpr hother)

theorem reading_of_lt (h : Separated start floor before ((next, after) :: rest))
    (hinstant : instant < next) :
    Zone.reading ⟨before, (next, after) :: rest⟩ instant = instant + before := by
  rw [Zone.reading, offset_of_lt h hinstant]

theorem reading_of_le (hinstant : next ≤ instant) :
    Zone.reading ⟨before, (next, after) :: rest⟩ instant =
      Zone.reading ⟨after, rest⟩ instant := by
  rw [Zone.reading, Zone.reading, offset_of_le hinstant]

structure Zone.Skips (zone : Zone) (wall transition : Int) : Prop where
  tabulated : ∃ after, (transition, after) ∈ zone.transitions
  earlier : ∀ instant < transition, zone.reading instant < wall
  later : ∀ instant, transition ≤ instant → wall < zone.reading instant

/-- What a reading means: the first instant that reads as it, or the transition that
skips it, with the two folds at most two days apart. -/
def Zone.Means (zone : Zone) (wall instant : Int) : Prop :=
  (zone.reading instant = wall ∧ ∀ earlier < instant, zone.reading earlier < wall) ∨
    zone.Skips wall instant ∧ zone.reading (zone.utc false wall) ≠ wall ∧
      ∃ width, zone.utc false wall - zone.utc true wall = seconds width ∧
        0 ≤ width ∧ width ≤ 172800

theorem Zone.Means.isLeast {zone : Zone} (h : zone.Means wall instant) :
    IsLeast {instant : Int | wall ≤ zone.reading instant} instant := by
  cases h with
  | inl hexact => exact isLeast_reading hexact.1.ge hexact.2
  | inr hskipped =>
    exact isLeast_reading (hskipped.1.later instant (le_refl instant)).le hskipped.1.earlier

theorem means_cons (h : Separated start floor before ((next, after) :: rest))
    (hpast : next + max before after ≤ wall) (hmeans : Zone.Means ⟨after, rest⟩ wall instant) :
    Zone.Means ⟨before, (next, after) :: rest⟩ wall instant := by
  have hearly : ∀ earlier : Int, earlier < next →
      Zone.reading ⟨before, (next, after) :: rest⟩ earlier < wall := by
    intro earlier hearlier
    rw [reading_of_lt h hearlier]
    have : earlier + before < wall := by omega
    exact this
  have hlater : next ≤ instant := by
    by_contra hearlier
    have hoffset : Zone.offset ⟨after, rest⟩ instant = after := by
      apply stepped_of_lt
      intro entry hentry
      have := h.2.2.2.start_le entry hentry
      omega
    have hbefore : wall ≤ instant + after := by
      simpa only [Set.mem_ofPred_eq, Zone.reading, hoffset] using hmeans.isLeast.1
    omega
  have hcarried : ∀ {first : Int}, next ≤ first →
      (∀ earlier < first, Zone.reading ⟨after, rest⟩ earlier < wall) →
      ∀ earlier < first, Zone.reading ⟨before, (next, after) :: rest⟩ earlier < wall := by
    intro first _ hrest earlier hearlier
    by_cases hnext : next ≤ earlier
    · rw [reading_of_le hnext]
      exact hrest earlier hearlier
    · exact hearly earlier (not_le.mp hnext)
  cases hmeans with
  | inl hexact =>
    apply Or.inl
    constructor
    · rw [reading_of_le hlater]
      exact hexact.1
    · exact hcarried hlater hexact.2
  | inr hskipped =>
    obtain ⟨hskips, hmissed, hwindow⟩ := hskipped
    have hfold : next ≤ Zone.utc ⟨after, rest⟩ false wall :=
      h.2.2.2.start_le_utc (by omega) false hpast
    apply Or.inr
    rw [utc_cons false hpast, utc_cons true hpast, reading_of_le hfold]
    refine ⟨⟨?_, hcarried hlater hskips.earlier, ?_⟩, hmissed, hwindow⟩
    · obtain ⟨after', hmem⟩ := hskips.tabulated
      exact ⟨after', List.mem_cons_of_mem _ hmem⟩
    · intro other hother
      rw [reading_of_le (hlater.trans hother)]
      exact hskips.later other hother

theorem means_gap (h : Separated start floor before ((next, after) :: rest))
    (hwhole : WholeJumps before ((next, after) :: rest)) (hbelow : next + before ≤ wall)
    (habove : wall < next + after) :
    Zone.Means ⟨before, (next, after) :: rest⟩ wall next := by
  obtain ⟨hutc, hutc'⟩ := utc_gap h hbelow habove
  have hfrom : ∀ instant : Int, next ≤ instant →
      wall < Zone.reading ⟨before, (next, after) :: rest⟩ instant := by
    intro instant hinstant
    exact habove.trans_le (floor_le_reading_gap h (by omega) hinstant)
  apply Or.inr
  rw [hutc, hutc']
  refine ⟨⟨⟨after, List.mem_cons_self⟩, ?_, hfrom⟩, ?_, ?_⟩
  · intro earlier hearlier
    rw [reading_of_lt h hearlier]
    have : earlier + before < wall := by omega
    exact this
  · exact (hfrom _ (by omega)).ne'
  · obtain ⟨⟨low, hlow⟩, -, hjump, hrest⟩ := hwhole
    obtain ⟨high, hhigh⟩ := hrest.initial
    refine ⟨high - low, ?_, ?_, ?_⟩
    · simp only [seconds] at hlow hhigh
      change (wall - before - (wall - after) : Int) = (high - low) * 1000000
      omega
    · simp only [seconds] at hlow hhigh
      omega
    · simp only [seconds] at hlow hhigh hjump
      omega

theorem resolveLocal_means (h : Separated start floor before transitions)
    (hwhole : WholeJumps before transitions) (hcount : wall = seconds count) :
    ∃ instant : Int, resolveLocal wall ⟨before, transitions⟩ = .ok instant ∧
      Zone.Means ⟨before, transitions⟩ wall instant := by
  induction transitions generalizing start floor before with
  | nil =>
    have hutc : Zone.utc ⟨before, []⟩ false wall = wall - before := rfl
    have hreading : Zone.reading ⟨before, []⟩ (wall - before) = wall := sub_add_cancel wall before
    refine ⟨wall - before, ?_, Or.inl ⟨hreading, ?_⟩⟩
    · rw [resolveLocal]
      simp only [hutc]
      rw [if_pos hreading]
    · intro earlier hearlier
      have : earlier + before < wall := by omega
      exact this
  | cons transition rest ih =>
    obtain ⟨next, after⟩ := transition
    by_cases hpast : next + max before after ≤ wall
    · obtain ⟨instant, hresolved, hmeans⟩ := ih h.2.2.2 hwhole.2.2.2
      exact ⟨instant, (resolveLocal_cons h hpast).trans hresolved, means_cons h hpast hmeans⟩
    · by_cases hgap : next + before ≤ wall
      · have habove : wall < next + after := by omega
        exact ⟨next, resolveLocal_gap h hwhole hcount hgap habove,
          means_gap h hwhole hgap habove⟩
      · have hutc : Zone.utc ⟨before, (next, after) :: rest⟩ false wall = wall - before := by
          change wall - stepped before
            (Zone.wallTransitions false before ((next, after) :: rest)) wall = _
          rw [stepped_of_lt]
          intro entry hentry
          rw [Zone.wallTransitions] at hentry
          rcases List.mem_cons.mp hentry with rfl | hmem
          · simp only [Bool.false_eq_true, if_false]
            omega
          · have := h.2.2.2.floor_le entry hmem
            omega
        have hreading : Zone.reading ⟨before, (next, after) :: rest⟩ (wall - before) = wall := by
          rw [reading_of_lt h (by omega)]
          exact sub_add_cancel wall before
        refine ⟨wall - before, ?_, Or.inl ⟨hreading, ?_⟩⟩
        · rw [resolveLocal]
          simp only [hutc]
          rw [if_pos hreading]
        · intro earlier hearlier
          rw [reading_of_lt h (by omega)]
          have : earlier + before < wall := by omega
          exact this

theorem resolveLocal_isLeast (h : Separated start floor before transitions)
    (hwhole : WholeSeconds before transitions) (hcount : wall = seconds count) :
    ∃ instant : Int, resolveLocal wall ⟨before, transitions⟩ = .ok instant ∧
      IsLeast {instant : Int | wall ≤ Zone.reading ⟨before, transitions⟩ instant} instant := by
  obtain ⟨instant, hresolved, hmeans⟩ := resolveLocal_means h hwhole.jumps hcount
  exact ⟨instant, hresolved, hmeans.isLeast⟩

end NervOS
