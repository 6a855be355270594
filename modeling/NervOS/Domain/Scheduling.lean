/-
Schedule calculation: which instant a due schedule is due for, and when it is due next.
Missed occurrences are coalesced into the latest one, and every reading of a local clock
is turned into an instant here.
-/
import NervOS.Application.Execution
import NervOS.Domain.Triggers

namespace NervOS

section Zones

/-- A naive local reading, in microseconds. -/
abbrev Wall := Int

/-- The UTC offsets of one zone: the first one, and each later one with the instant it
starts at, in ascending order. -/
structure Zone where
  initial : Duration
  transitions : List (Instant × Duration)
deriving DecidableEq

namespace Zone

/-- The offset in force at an instant: `utcoffset()`. -/
def offset (zone : Zone) (instant : Instant) : Duration :=
  ((zone.transitions.filter fun transition => transition.1 ≤ instant).getLast?.map (·.2)).getD
    zone.initial

/-- `instant.astimezone(zone).replace(tzinfo=None)` -/
def reading (zone : Zone) (instant : Instant) : Wall :=
  instant + zone.offset instant

/-- The transitions as local readings: an ambiguous or nonexistent reading belongs to
the offset before its transition unless `fold` is set. -/
def wallTransitions (fold : Bool) (before : Duration) :
    List (Instant × Duration) → List (Wall × Duration)
  | [] => []
  | (instant, after) :: rest =>
    (instant + (if fold then min before after else max before after), after) ::
      wallTransitions fold after rest

/-- `wall.replace(tzinfo=zone, fold=fold).astimezone(UTC)` -/
def utc (zone : Zone) (fold : Bool) (wall : Wall) : Instant :=
  wall - ((((wallTransitions fold zone.initial zone.transitions).filter fun transition =>
    transition.1 ≤ wall).getLast?.map (·.2)).getD zone.initial)

end Zone

/-- What the schedule calculation takes from the host: its timezone database, and the
library that iterates a cron expression over naive readings. -/
structure Calendar where
  zoneInfo : String → Option Zone
  nextAfter : String → Wall → Except Unit (Option Wall)
  previousBefore : String → Wall → Except Unit (Option Wall)

inductive ScheduleFailure where
  | timezone
  | invalid
deriving DecidableEq, Repr

/-- A schedule that cannot be evaluated, or a question that breaks the contract. -/
inductive ScheduleError where
  | calculation (failure : ScheduleFailure)
  | invalidTrigger
deriving DecidableEq, Repr

def maxScheduleHorizon : Instant := 253402300799 * 1000000

def gapSearchLimit : Nat := 64

variable (calendar : Calendar)

/-- Resolve a zone name, at every evaluation again. -/
def zoneFor (timezone : String) : Except ScheduleError Zone :=
  (calendar.zoneInfo timezone).elim (.error (.calculation .timezone)) .ok

/-- The latest match at or before the reading: the reverse iteration is strict, so it
starts one second later. -/
def atOrBefore (expression : String) (wall : Wall) : Except ScheduleError (Option Wall) :=
  (calendar.previousBefore expression (wall + seconds 1)).mapError fun _ =>
    .calculation .invalid

/-- The first match strictly after the reading. -/
def nextAfter (expression : String) (wall : Wall) : Except ScheduleError (Option Wall) :=
  (calendar.nextAfter expression wall).mapError fun _ => .calculation .invalid

def bisectGap (zone : Zone) (preTransition : Duration) :
    Nat → Instant → Instant → Instant
  | 0, _, high => high
  | fuel + 1, low, high =>
    let remaining := (high - low).tdiv (seconds 1)
    if remaining ≤ 1 then high
    else
      let middle := low + seconds (remaining / 2)
      if zone.offset middle = preTransition then bisectGap zone preTransition fuel middle high
      else bisectGap zone preTransition fuel low middle

/-- The end of the gap that a nonexistent reading falls inside. -/
def gapEnd (zone : Zone) (wall : Wall) : Except ScheduleError Instant :=
  let beforeGap := zone.utc true wall
  let afterGap := zone.utc false wall
  if afterGap < beforeGap then .error (.calculation .invalid)
  else .ok (bisectGap zone (zone.offset beforeGap) gapSearchLimit beforeGap afterGap)

def resolveLocal (wall : Wall) (zone : Zone) : Except ScheduleError Instant :=
  let candidate := zone.utc false wall
  if zone.reading candidate = wall then .ok candidate else gapEnd zone wall

end Zones

structure ScheduleDecision where
  nominalAt : Instant
  nextFireAt : Option Instant
  following : ∀ next ∈ nextFireAt, nominalAt < next
deriving DecidableEq

namespace ScheduleDecision

def terminal (nominalAt : Instant) : ScheduleDecision :=
  ⟨nominalAt, none, fun _ hnext => absurd hnext (Option.not_mem_none _)⟩

def recurring (nominalAt next : Instant) : Except ScheduleError ScheduleDecision :=
  if hnext : nominalAt < next then
    .ok ⟨nominalAt, some next, fun _ hmem => Option.mem_some.mp hmem ▸ hnext⟩
  else .error .invalidTrigger

end ScheduleDecision

def requireDue (nextFireAt now : Instant) : Except ScheduleError Instant :=
  if nextFireAt ≤ now then .ok nextFireAt else .error .invalidTrigger

def calculateOneTime (nextFireAt now : Instant) : Except ScheduleError ScheduleDecision := do
  let instant ← requireDue nextFireAt now
  pure (.terminal instant)

/-- Fixed-rate scheduling from the stored instant, in one division. -/
def calculateInterval (nextFireAt : Instant) (intervalSeconds : IntervalSeconds) (now : Instant) :
    Except ScheduleError ScheduleDecision := do
  let anchor ← requireDue nextFireAt now
  let steps := (now - anchor).tdiv (seconds 1) / intervalSeconds.1
  let elapsed := steps * intervalSeconds.1
  let budget := (maxScheduleHorizon - anchor).tdiv (seconds 1)
  if budget < elapsed ∨ budget < elapsed + intervalSeconds.1 then
    .error (.calculation .invalid)
  else
    ScheduleDecision.recurring (anchor + seconds elapsed)
      (anchor + seconds elapsed + seconds intervalSeconds.1)

variable (calendar : Calendar)

/-- A cron decision, once both neighbouring matches are known. -/
def cronDecision (zone : Zone) (anchor now : Instant) (latest following : Wall) :
    Except ScheduleError ScheduleDecision := do
  let nominal ← resolveLocal latest zone
  let next ← resolveLocal following zone
  if anchor < nominal ∧ now < nominal then .error (.calculation .invalid)
  else if next ≤ now then .error (.calculation .invalid)
  else ScheduleDecision.recurring nominal next

def calculateCron (nextFireAt : Instant) (expression timezone : String) (now : Instant) :
    Except ScheduleError ScheduleDecision := do
  let zone ← zoneFor calendar timezone
  let anchor ← requireDue nextFireAt now
  let latest ← atOrBefore calendar expression (zone.reading now)
  let following ← nextAfter calendar expression (zone.reading now)
  match latest, following with
  | some latest, some following => cronDecision zone anchor now latest following
  | _, _ => .error (.calculation .invalid)

def decideDue (schedule : ScheduleSpec) (currentNextFireAt now : Instant) :
    Except ScheduleError ScheduleDecision :=
  match schedule with
  | .oneTime _ => calculateOneTime currentNextFireAt now
  | .interval count => calculateInterval currentNextFireAt count now
  | .cron expression timezone =>
    calculateCron calendar currentNextFireAt expression.1 timezone.1 now

def initialNextFire (schedule : ScheduleSpec) (now : Instant) : Except ScheduleError Instant :=
  match schedule with
  | .oneTime runAt => .ok runAt
  | .interval count =>
    if maxScheduleHorizon < now + seconds count.1 then .error (.calculation .invalid)
    else .ok (now + seconds count.1)
  | .cron expression timezone => do
    let zone ← zoneFor calendar timezone.1
    let following ← nextAfter calendar expression.1 (zone.reading now)
    match following with
    | some wall => resolveLocal wall zone
    | none => .error (.calculation .invalid)

end NervOS
