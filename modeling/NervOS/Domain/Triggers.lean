/-
Trigger values: the five kinds, the schedule that a clock-driven trigger carries, and
the validated texts of a trigger's configuration.
-/
import NervOS.Domain.Jobs
import NervOS.Domain.Runs
import NervOS.Text.Split

namespace NervOS

inductive TriggerKind where
  | oneTime
  | interval
  | cron
  | webhook
  | event
deriving DecidableEq, Repr

/-- The kinds that carry a next fire time; the others are driven by delivery. -/
def TriggerKind.IsSchedule : TriggerKind → Prop
  | .oneTime | .interval | .cron => True
  | .webhook | .event => False

instance : DecidablePred TriggerKind.IsSchedule
  | .oneTime | .interval | .cron => isTrue trivial
  | .webhook | .event => isFalse id

inductive OccurrenceStatus where
  | runCreated
  | skipped
deriving DecidableEq, Repr

/-- Why a recognised occurrence produced no Run. -/
inductive SkipReason where
  | agentDisabled
  | agentUnavailable
  | inputTooLarge
  | scheduleInvalid
  | scheduleTimezoneInvalid
  | triggerSubmissionFailed
deriving DecidableEq, Repr

def SkipReason.code : SkipReason → String
  | .agentDisabled => "agent_disabled"
  | .agentUnavailable => "agent_unavailable"
  | .inputTooLarge => "input_too_large"
  | .scheduleInvalid => "schedule_invalid"
  | .scheduleTimezoneInvalid => "schedule_timezone_invalid"
  | .triggerSubmissionFailed => "trigger_submission_failed"

def skipMessages : SkipReason → String
  | .agentDisabled | .agentUnavailable => "The agent instance is not eligible to create new runs."
  | .inputTooLarge => "The automation's input is too large for this agent."
  | .scheduleInvalid => "This automation's schedule could not be evaluated."
  | .scheduleTimezoneInvalid => "This automation's timezone is no longer available."
  | .triggerSubmissionFailed => "The automation could not create a run."

def isPythonSpace (character : Char) : Bool :=
  isBlankCharacter character ||
    (0x1C ≤ character.toNat && character.toNat ≤ 0x1F)

def ValidDisplayName (value : String) : Prop :=
  value.toList.all isPythonSpace = false ∧ value.toList.length ≤ 400 ∧
    utf8Length value ≤ 1600 ∧ hasNul value = false

instance : DecidablePred ValidDisplayName := fun _ => inferInstanceAs (Decidable (_ ∧ _ ∧ _ ∧ _))

abbrev DisplayName := { value : String // ValidDisplayName value }

abbrev TriggerInput := { value : String // validateInputText value stageBLimits = true }

def isLowercaseLetter (character : Char) : Bool :=
  'a' ≤ character && character ≤ 'z'

def isAsciiDigit (character : Char) : Bool :=
  '0' ≤ character && character ≤ '9'

def isUrlSafe (character : Char) : Bool :=
  isLowercaseLetter character || ('A' ≤ character && character ≤ 'Z') ||
    isAsciiDigit character || character == '_' || character == '-'

/-- `[a-z][a-z0-9_]*` -/
def isEventSegment : List Char → Bool
  | [] => false
  | first :: rest =>
    isLowercaseLetter first &&
      rest.all fun character =>
        isLowercaseLetter character || isAsciiDigit character || character == '_'

def reservedEventTypePrefix : String := "nervos."

/-- Lowercase dotted names outside the reserved namespace. -/
def ValidEventType (value : String) : Prop :=
  value.toList.length ≤ 64 ∧ (value.toList.splitOn '.').all isEventSegment = true ∧
    reservedEventTypePrefix.toList.isPrefixOf value.toList = false

instance : DecidablePred ValidEventType := fun _ => inferInstanceAs (Decidable (_ ∧ _ ∧ _))

abbrev EventType := { value : String // ValidEventType value }

/-- A webhook locator: it is unguessable, and it authenticates nothing. -/
def ValidPublicId (value : String) : Prop :=
  value.toList.length = 22 ∧ value.toList.all isUrlSafe = true

instance : DecidablePred ValidPublicId := fun _ => inferInstanceAs (Decidable (_ ∧ _))

abbrev PublicId := { value : String // ValidPublicId value }

/-- A name whose ends are not blank: `value.strip() == value`. -/
def IsStripped (value : List Char) : Prop :=
  value.head?.all (! isPythonSpace ·) = true ∧ value.getLast?.all (! isPythonSpace ·) = true

instance : DecidablePred IsStripped := fun _ => inferInstanceAs (Decidable (_ ∧ _))

/-- A timezone name is checked for its shape only: it may stop resolving later. -/
def ValidTimezoneName (value : String) : Prop :=
  1 ≤ value.toList.length ∧ value.toList.length ≤ 64 ∧ hasNul value = false ∧
    IsStripped value.toList

instance : DecidablePred ValidTimezoneName := fun _ =>
  inferInstanceAs (Decidable (_ ∧ _ ∧ _ ∧ _))

abbrev TimezoneName := { value : String // ValidTimezoneName value }

/-- `\d+`, read by `int`. -/
def cronNumber (token : List Char) : Option Nat :=
  if token.isEmpty then none
  else (token.mapM Text.decimalDigit).map (·.foldl (fun value digit => 10 * value + digit) 0)

/-- `[A-Za-z]{3}`, in capitals. -/
def cronName (token : List Char) : Option (List Char) :=
  if token.length = 3 ∧ token.all (fun character => isLowercaseLetter character.toLower) = true then
    some (token.map Char.toUpper)
  else none

abbrev CronNames := List (String × Nat)

def monthNames : CronNames :=
  [("JAN", 1), ("FEB", 2), ("MAR", 3), ("APR", 4), ("MAY", 5), ("JUN", 6), ("JUL", 7),
    ("AUG", 8), ("SEP", 9), ("OCT", 10), ("NOV", 11), ("DEC", 12)]

def weekdayNames : CronNames :=
  [("SUN", 0), ("MON", 1), ("TUE", 2), ("WED", 3), ("THU", 4), ("FRI", 5), ("SAT", 6)]

structure CronField where
  low : Nat
  high : Nat
  names : Option CronNames

def cronFields : List CronField :=
  [⟨0, 59, none⟩, ⟨0, 23, none⟩, ⟨1, 31, none⟩, ⟨1, 12, some monthNames⟩, ⟨0, 7, some weekdayNames⟩]

/-- The numeric conditions on an item; a name that is not in the table has no number. -/
def CronField.admits (field : CronField) (start stop step : Option Nat) : Bool :=
  match start with
  | none => false
  | some first =>
    (field.low ≤ first && first ≤ field.high) &&
      stop.all (fun last => field.low ≤ last && last ≤ field.high && first ≤ last) &&
      step.all fun count => 1 ≤ count && count ≤ field.high

def CronField.lookup (names : CronNames) (token : List Char) : Option Nat :=
  (names.find? fun entry => entry.1.toList == token).map (·.2)

/-- `(\d+)(?:-(\d+))?(?:/(\d+))?` -/
def CronField.numeric (field : CronField) (start : List Char) (stop step : Option (List Char)) :
    Option Bool := do
  let first ← cronNumber start
  let last ← stop.mapM cronNumber
  let count ← step.mapM cronNumber
  pure (field.admits first last count)

/-- `([A-Za-z]{3})(?:-([A-Za-z]{3}))?(?:/(\d+))?`; a step after a name is refused. -/
def CronField.named (field : CronField) (start : List Char) (stop step : Option (List Char)) :
    Option Bool := do
  let first ← cronName start
  let last ← stop.mapM cronName
  let _ ← step.mapM cronNumber
  match field.names with
  | none => pure false
  | some names =>
    pure (step.isNone &&
      field.admits (CronField.lookup names first) (last.bind (CronField.lookup names)) none)

def CronField.itemIsValid (field : CronField) (item : List Char) : Bool :=
  if item = ['*'] then true
  else if ['*', '/'].isPrefixOf item then
    (cronNumber (item.drop 2)).any fun step => 1 ≤ step && step ≤ field.high
  else
    let (range, step) :=
      match item.splitOn '/' with
      | [range] => (range, none)
      | [range, step] => (range, some step)
      | _ => ([], none)
    match range.splitOn '-' with
    | [start] => ((field.numeric start none step).or (field.named start none step)).getD false
    | [start, stop] =>
      ((field.numeric start (some stop) step).or (field.named start (some stop) step)).getD false
    | _ => false

/-- `str.split()`: the maximal runs of characters that are not blank. -/
def splitBlank (text : List Char) : List (List Char) :=
  (text.splitOnP isPythonSpace).filter (! ·.isEmpty)

/-- The frozen five-field dialect. -/
def ValidCronExpression (value : String) : Prop :=
  1 ≤ value.toList.length ∧ value.toList.length ≤ 128 ∧ hasNul value = false ∧
    IsStripped value.toList ∧ (splitBlank value.toList).length = cronFields.length ∧
    (List.zipWith (fun text field => (text.splitOn ',').all (CronField.itemIsValid field))
      (splitBlank value.toList) cronFields).all id = true

instance : DecidablePred ValidCronExpression := fun _ =>
  inferInstanceAs (Decidable (_ ∧ _ ∧ _ ∧ _ ∧ _ ∧ _))

/-- The user's exact text, which is never rewritten. -/
abbrev CronExpression := { value : String // ValidCronExpression value }

def intervalMinSeconds : Nat := 60
def intervalMaxSeconds : Nat := 31536000

abbrev IntervalSeconds :=
  { count : Nat // intervalMinSeconds ≤ count ∧ count ≤ intervalMaxSeconds }

/-- The schedule of one trigger: a kind never carries another kind's fields. -/
inductive ScheduleSpec where
  | oneTime (runAt : Instant)
  | interval (intervalSeconds : IntervalSeconds)
  | cron (cronExpression : CronExpression) (timezone : TimezoneName)
deriving DecidableEq

namespace ScheduleSpec

def runAt : ScheduleSpec → Option Instant
  | oneTime runAt => some runAt
  | interval _ | cron _ _ => none

def intervalSeconds : ScheduleSpec → Option IntervalSeconds
  | interval count => some count
  | oneTime _ | cron _ _ => none

def cronExpression : ScheduleSpec → Option CronExpression
  | cron expression _ => some expression
  | oneTime _ | interval _ => none

def timezone : ScheduleSpec → Option TimezoneName
  | cron _ timezone => some timezone
  | oneTime _ | interval _ => none

end ScheduleSpec

end NervOS
