/-
The constructor of a cron expression with each of its outcomes, and the grammar that the
dialect documents, on the tokens of an item.
-/
import NervOS.Domain.Triggers

namespace NervOS

/-- The tokens of an item: `start`, `start-stop`, `start/step` or `start-stop/step`. -/
structure CronRange where
  start : List Char
  stop : Option (List Char)
  step : Option (List Char)

def CronRange.text (range : CronRange) : List Char :=
  range.start ++ (range.stop.elim [] fun stop => '-' :: stop) ++
    (range.step.elim [] fun step => '/' :: step)

/-- No token holds the mark that ends it. -/
structure CronRange.Plain (range : CronRange) : Prop where
  start : '-' ∉ range.start ∧ '/' ∉ range.start
  stop : ∀ stop ∈ range.stop, '-' ∉ stop ∧ '/' ∉ stop
  step : ∀ step ∈ range.step, '/' ∉ step

def cronStop? (text : List Char) (step : Option (List Char)) : Option CronRange :=
  match text.splitOn '-' with
  | [start] => some ⟨start, none, step⟩
  | [start, stop] => some ⟨start, some stop, step⟩
  | _ => none

def cronRange? (item : List Char) : Option CronRange :=
  match item.splitOn '/' with
  | [range] => cronStop? range none
  | [range, step] => cronStop? range (some step)
  | _ => none

theorem cronStop?_eq_some_iff {text : List Char} {step : Option (List Char)}
    {range : CronRange} : cronStop? text step = some range ↔
      text = range.start ++ (range.stop.elim [] fun stop => '-' :: stop) ∧
        '-' ∉ range.start ∧ (∀ stop ∈ range.stop, '-' ∉ stop) ∧ range.step = step := by
  constructor
  · intro h
    unfold cronStop? at h
    split at h
    · rename_i start hparts
      obtain rfl := Option.some.inj h
      obtain ⟨rfl, hstart⟩ := Text.splitOn_eq_singleton_iff.1 hparts
      simp [hstart]
    · rename_i start stop hparts
      obtain rfl := Option.some.inj h
      obtain ⟨rfl, hstart, hstop⟩ := Text.splitOn_eq_pair_iff.1 hparts
      simp [hstart, hstop]
    · cases h
  · rintro ⟨rfl, hstart, hstop, rfl⟩
    obtain ⟨start, stop, step⟩ := range
    cases stop with
    | none =>
      have hparts := Text.splitOn_eq_singleton_iff.2 ⟨rfl, hstart⟩
      simp only [cronStop?, Option.elim_none, List.append_nil, hparts]
    | some stop =>
      have hparts := Text.splitOn_eq_pair_iff.2 ⟨rfl, hstart, hstop stop rfl⟩
      simp only [cronStop?, Option.elim_some, hparts]

theorem cronRange?_eq_some_iff {item : List Char} {range : CronRange} :
    cronRange? item = some range ↔ item = range.text ∧ range.Plain := by
  constructor
  · intro h
    unfold cronRange? at h
    split at h
    · rename_i text hparts
      obtain ⟨rfl, hslash⟩ := Text.splitOn_eq_singleton_iff.1 hparts
      obtain ⟨htext, hstart, hstop, hstep⟩ := cronStop?_eq_some_iff.1 h
      rw [htext] at hslash
      simp only [List.mem_append, not_or] at hslash
      refine ⟨by simp [CronRange.text, hstep, htext], ⟨hstart, hslash.1⟩, ?_, ?_⟩
      · intro stop hmem
        have hrest := hslash.2
        rw [hmem, Option.elim_some, List.mem_cons, not_or] at hrest
        exact ⟨hstop stop hmem, hrest.2⟩
      · simp [hstep]
    · rename_i text step hparts
      obtain ⟨rfl, hslash, hslash'⟩ := Text.splitOn_eq_pair_iff.1 hparts
      obtain ⟨htext, hstart, hstop, hstep⟩ := cronStop?_eq_some_iff.1 h
      rw [htext] at hslash
      simp only [List.mem_append, not_or] at hslash
      refine ⟨by simp [CronRange.text, hstep, htext], ⟨hstart, hslash.1⟩, ?_, ?_⟩
      · intro stop hmem
        have hrest := hslash.2
        rw [hmem, Option.elim_some, List.mem_cons, not_or] at hrest
        exact ⟨hstop stop hmem, hrest.2⟩
      · intro other hmem
        rw [hstep] at hmem
        cases hmem
        exact hslash'
    · cases h
  · rintro ⟨rfl, hplain⟩
    have hslash : '/' ∉ range.start ++ (range.stop.elim [] fun stop => '-' :: stop) := by
      rw [List.mem_append, not_or]
      refine ⟨hplain.start.2, ?_⟩
      cases hstop : range.stop with
      | none => exact List.not_mem_nil
      | some stop =>
        rw [Option.elim_some, List.mem_cons, not_or]
        exact ⟨by decide, (hplain.stop stop hstop).2⟩
    have hfound : ∀ {step}, range.step = step →
        cronStop? (range.start ++ (range.stop.elim [] fun stop => '-' :: stop)) step =
          some range := fun hstep =>
      cronStop?_eq_some_iff.2
        ⟨rfl, hplain.start.1, fun stop hmem => (hplain.stop stop hmem).1, hstep⟩
    cases hstep : range.step with
    | none =>
      have hparts := Text.splitOn_eq_singleton_iff.2 ⟨rfl, hslash⟩
      simp only [cronRange?, CronRange.text, hstep, Option.elim_none, List.append_nil, hparts]
      exact hfound hstep
    | some step =>
      have hparts := Text.splitOn_eq_pair_iff.2 ⟨rfl, hslash, hplain.step step hstep⟩
      simp only [cronRange?, CronRange.text, hstep, Option.elim_some, hparts]
      exact hfound hstep

theorem CronRange.Plain.eq_of_text {range other : CronRange} (hrange : range.Plain)
    (hother : other.Plain) (h : range.text = other.text) : range = other := by
  have hfirst := cronRange?_eq_some_iff.2 ⟨rfl, hrange⟩
  rw [h, cronRange?_eq_some_iff.2 ⟨rfl, hother⟩] at hfirst
  exact (Option.some.inj hfirst).symm

/-- What constructing a cron expression comes to. -/
inductive CronOutcome where
  | accepted
  | invalidTrigger
  | valueError
deriving DecidableEq

/-- The characters with a digit value that are no decimal digits, as first and last. -/
def digitForms : List (Nat × Nat) :=
  [(0xB2, 0xB3), (0xB9, 0xB9), (0x1369, 0x1371), (0x19DA, 0x19DA), (0x2070, 0x2070),
    (0x2074, 0x2079), (0x2080, 0x2089), (0x2460, 0x2468), (0x2474, 0x247C), (0x2488, 0x2490),
    (0x24EA, 0x24EA), (0x24F5, 0x24FD), (0x24FF, 0x24FF), (0x2776, 0x277E), (0x2780, 0x2788),
    (0x278A, 0x2792), (0x10A40, 0x10A43), (0x10E60, 0x10E68), (0x11052, 0x1105A),
    (0x1F100, 0x1F10A)]

def isDigitForm (character : Char) : Bool :=
  digitForms.any fun form => form.1 ≤ character.toNat && character.toNat ≤ form.2

/-- `str.isdigit()` -/
def isDigitText (token : List Char) : Bool :=
  !token.isEmpty &&
    token.all fun character => (Text.decimalDigit character).isSome || isDigitForm character

/-- The tokens of an item within the bounds of the field: numbers first, then names. -/
def CronField.rangeIsValid (field : CronField) (range : CronRange) : Bool :=
  ((field.numeric range.start range.stop range.step).or
    (field.named range.start range.stop range.step)).getD false

/-- One comma-separated item of one field; `int` raises on a digit that is not decimal. -/
def CronField.check (field : CronField) (item : List Char) : CronOutcome :=
  if item = ['*'] then .accepted
  else if ['*', '/'].isPrefixOf item then
    if isDigitText (item.drop 2) then
      match cronNumber (item.drop 2) with
      | none => .valueError
      | some step =>
        if 1 ≤ step ∧ step ≤ field.high then .accepted else .invalidTrigger
    else .invalidTrigger
  else if (cronRange? item).any field.rangeIsValid then .accepted else .invalidTrigger

structure CronShaped (value : String) : Prop where
  nonempty : 1 ≤ value.toList.length
  length : value.toList.length ≤ 128
  nul : hasNul value = false
  stripped : IsStripped value.toList
  fields : (splitBlank value.toList).length = cronFields.length

instance (value : String) : Decidable (CronShaped value) :=
  decidable_of_iff (_ ∧ _ ∧ _ ∧ _ ∧ _) ⟨fun h => ⟨h.1, h.2.1, h.2.2.1, h.2.2.2.1, h.2.2.2.2⟩,
    fun h => ⟨h.1, h.2, h.3, h.4, h.5⟩⟩

def cronItems (value : String) : List (CronField × List Char) :=
  (List.zipWith (fun text field => (text.splitOn ',').map fun item => (field, item))
    (splitBlank value.toList) cronFields).flatten

def checkItems : List (CronField × List Char) → CronOutcome
  | [] => .accepted
  | entry :: rest =>
    match entry.1.check entry.2 with
    | .accepted => checkItems rest
    | outcome => outcome

/-- `CronExpression.__post_init__`. -/
def constructCron (value : String) : CronOutcome :=
  if CronShaped value then checkItems (cronItems value) else .invalidTrigger

def CronField.Within (field : CronField) (value : Nat) : Prop :=
  field.low ≤ value ∧ value ≤ field.high

def CronField.Steps (field : CronField) (token : List Char) : Prop :=
  ∃ count, cronNumber token = some count ∧ 1 ≤ count ∧ count ≤ field.high

def CronField.nameNumber (field : CronField) (token : List Char) : Option Nat :=
  field.names.bind fun names => (cronName token).bind (CronField.lookup names)

def CronField.Counts (field : CronField) (read : List Char → Option Nat) (range : CronRange) :
    Prop :=
  ∃ first, read range.start = some first ∧ field.Within first ∧
    (∀ stop ∈ range.stop, ∃ last, read stop = some last ∧ field.Within last ∧ first ≤ last) ∧
      ∀ step ∈ range.step, field.Steps step

/-- No digit or letter outside ASCII. -/
def IsAscii (item : List Char) : Prop :=
  ∀ character ∈ item, character.toNat < 128

/-- The documented items: `*`, `*/n`, `v`, `v-v` and `v-v/n`, of numbers or of names. -/
def CronField.Documented (field : CronField) (item : List Char) : Prop :=
  item = ['*'] ∨ (∃ token, item = '*' :: '/' :: token ∧ IsAscii token ∧ field.Steps token) ∨
    ∃ range : CronRange, item = range.text ∧ IsAscii item ∧
      (range.step ≠ none → range.stop ≠ none) ∧
        (field.Counts cronNumber range ∨ field.Counts field.nameNumber range)

def DocumentedCron (value : String) : Prop :=
  CronShaped value ∧ ∀ entry ∈ cronItems value, entry.1.Documented entry.2

def CronField.CountsOpen (field : CronField) (range : CronRange) : Prop :=
  range.step = none ∧ ∃ first, field.nameNumber range.start = some first ∧
    field.Within first ∧ ∀ stop ∈ range.stop, (cronName stop).isSome ∧
      ∀ last, field.nameNumber stop = some last → field.Within last ∧ first ≤ last

def CronField.Taken (field : CronField) (item : List Char) : Prop :=
  item = ['*'] ∨ (∃ token, item = '*' :: '/' :: token ∧ field.Steps token) ∨
    ∃ range : CronRange, item = range.text ∧
      (field.Counts cronNumber range ∨ field.CountsOpen range)

end NervOS
