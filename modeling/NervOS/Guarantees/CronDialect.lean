/-
The cron dialect against its documentation: which items are taken, which are documented,
and the expressions on which the two differ or the constructor raises something else.
-/
import Mathlib
import NervOS.Domain.CronDialect

namespace NervOS

section Tokens

structure IsToken (token : List Char) : Prop where
  nonempty : token ≠ []
  marks : ∀ character ∈ token, character ≠ '*' ∧ character ≠ '-' ∧ character ≠ '/'

theorem mapM_isSome {α β : Type} {f : α → Option β} {items : List α} :
    (items.mapM f).isSome = true ↔ ∀ item ∈ items, (f item).isSome = true := by
  induction items with
  | nil => simp
  | cons item rest ih =>
    rw [List.forall_mem_cons, ← ih, List.mapM_cons]
    cases f item with
    | none => simp
    | some value =>
      cases rest.mapM f with
      | none | some => simp

variable {token : List Char} {value : Nat}

theorem decimal_of_cronNumber (h : cronNumber token = some value) :
    token ≠ [] ∧ ∀ character ∈ token, (Text.decimalDigit character).isSome = true := by
  unfold cronNumber at h
  by_cases hempty : token.isEmpty = true
  · rw [if_pos hempty] at h
    cases h
  · rw [if_neg hempty] at h
    refine ⟨by simpa using hempty, ?_⟩
    rw [← mapM_isSome]
    cases hdigits : token.mapM Text.decimalDigit with
    | none =>
      rw [hdigits] at h
      cases h
    | some digits => rfl

theorem isToken_of_cronNumber (h : cronNumber token = some value) : IsToken token := by
  obtain ⟨hnonempty, hdecimal⟩ := decimal_of_cronNumber h
  refine ⟨hnonempty, ?_⟩
  intro character hcharacter
  have hsome := hdecimal character hcharacter
  refine ⟨?_, ?_, ?_⟩
  · rintro rfl
    exact absurd hsome (by decide)
  · rintro rfl
    exact absurd hsome (by decide)
  · rintro rfl
    exact absurd hsome (by decide)

variable {token letters : List Char}

theorem letters_of_cronName (h : cronName token = some letters) :
    token.length = 3 ∧
      ∀ character ∈ token, isLowercaseLetter character.toLower = true := by
  unfold cronName at h
  split_ifs at h with hletters
  exact ⟨hletters.1, List.all_eq_true.1 hletters.2⟩

theorem isToken_of_cronName (h : cronName token = some letters) :
    IsToken token := by
  obtain ⟨hlength, hletters⟩ := letters_of_cronName h
  constructor
  · rintro rfl
    cases hlength
  · intro character hcharacter
    have hletter := hletters character hcharacter
    refine ⟨?_, ?_, ?_⟩
    · rintro rfl
      exact absurd hletter (by decide)
    · rintro rfl
      exact absurd hletter (by decide)
    · rintro rfl
      exact absurd hletter (by decide)

theorem decimalDigit_of_letter {character : Char}
    (h : isLowercaseLetter character.toLower = true) : Text.decimalDigit character = none := by
  have hbounds : 65 ≤ character.toNat ∧ character.toNat ≤ 122 := by
    unfold isLowercaseLetter Char.toLower at h
    by_cases hupper : character.val ≥ 'A'.val ∧ character.val ≤ 'Z'.val
    · have hlast : character.toNat ≤ 90 := hupper.2
      exact ⟨hupper.1, by omega⟩
    · rw [dif_neg hupper] at h
      simp only [Bool.and_eq_true, decide_eq_true_eq] at h
      have hlower : 97 ≤ character.toNat := h.1
      have hupper' : character.toNat ≤ 122 := h.2
      omega
  have hblocks : ∀ first ∈ Text.decimalZeros, first + 10 ≤ 65 ∨ 122 < first := by decide
  unfold Text.decimalDigit
  rw [Option.map_eq_none_iff, List.find?_eq_none]
  intro first hfirst
  have hblock := hblocks first hfirst
  simp only [decide_eq_true_eq]
  omega

theorem cronName_of_cronNumber (h : cronNumber token = some value) : cronName token = none := by
  obtain ⟨hnonempty, hdecimal⟩ := decimal_of_cronNumber h
  cases hname : cronName token with
  | none => rfl
  | some letters =>
    obtain ⟨character, hcharacter⟩ := List.exists_mem_of_ne_nil token hnonempty
    have hletter := (letters_of_cronName hname).2 character hcharacter
    have hsome := hdecimal character hcharacter
    rw [decimalDigit_of_letter hletter] at hsome
    cases hsome

variable {field : CronField} {range other : CronRange}

section

variable (h : field.nameNumber token = some value)

include h

theorem cronName_of_nameNumber :
    ∃ letters, cronName token = some letters := by
  unfold CronField.nameNumber at h
  cases hnames : field.names with
  | none =>
    rw [hnames] at h
    cases h
  | some names =>
    rw [hnames, Option.bind_some] at h
    cases hname : cronName token with
    | none =>
      rw [hname] at h
      cases h
    | some letters => exact ⟨letters, rfl⟩

theorem isToken_of_nameNumber : IsToken token := by
  obtain ⟨letters, hname⟩ := cronName_of_nameNumber h
  exact isToken_of_cronName hname

theorem cronNumber_of_nameNumber :
    cronNumber token = none := by
  obtain ⟨letters, hname⟩ := cronName_of_nameNumber h
  cases hnumber : cronNumber token with
  | none => rfl
  | some number =>
    rw [cronName_of_cronNumber hnumber] at hname
    cases hname

end

structure CronRange.Tokens (range : CronRange) : Prop where
  start : IsToken range.start
  stop : ∀ stop ∈ range.stop, IsToken stop
  step : ∀ step ∈ range.step, IsToken step

theorem CronRange.Tokens.plain (h : range.Tokens) : range.Plain where
  start := ⟨fun hmem => (h.start.marks _ hmem).2.1 rfl,
    fun hmem => (h.start.marks _ hmem).2.2 rfl⟩
  stop stop hstop := ⟨fun hmem => ((h.stop stop hstop).marks _ hmem).2.1 rfl,
    fun hmem => ((h.stop stop hstop).marks _ hmem).2.2 rfl⟩
  step step hstep := fun hmem => ((h.step step hstep).marks _ hmem).2.2 rfl

theorem CronRange.Tokens.text_ne (h : range.Tokens) (rest : List Char) :
    range.text ≠ '*' :: rest := by
  intro htext
  cases hstart : range.start with
  | nil => exact h.start.nonempty hstart
  | cons first tail =>
    rw [CronRange.text, hstart] at htext
    have hfirst : first = '*' := by
      simp only [List.cons_append, List.cons.injEq] at htext
      exact htext.1
    have hmarks := h.start.marks first (by rw [hstart]; exact List.mem_cons_self)
    exact hmarks.1 hfirst

theorem CronRange.Tokens.eq_of_text (h : range.Tokens) (hother : other.Tokens)
    (htext : range.text = other.text) : range = other :=
  h.plain.eq_of_text hother.plain htext

theorem tokens_of_counts {read : List Char → Option Nat}
    (hread : ∀ {token value}, read token = some value → IsToken token)
    (h : field.Counts read range) : range.Tokens := by
  obtain ⟨first, hfirst, -, hstop, hstep⟩ := h
  refine ⟨hread hfirst, ?_, ?_⟩
  · intro stop hmem
    obtain ⟨last, hlast, -⟩ := hstop stop hmem
    exact hread hlast
  · intro step hmem
    obtain ⟨count, hcount, -⟩ := hstep step hmem
    exact isToken_of_cronNumber hcount

theorem tokens_of_countsOpen (h : field.CountsOpen range) : range.Tokens := by
  obtain ⟨hnone, first, hfirst, -, hstop⟩ := h
  refine ⟨isToken_of_nameNumber hfirst, ?_, ?_⟩
  · intro stop hmem
    obtain ⟨letters, hname⟩ := Option.isSome_iff_exists.1 (hstop stop hmem).1
    exact isToken_of_cronName hname
  · rw [hnone]
    intro step hmem
    cases hmem

end Tokens

section Checks

variable {field : CronField} {range : CronRange} {item : List Char}

theorem numeric_iff (range : CronRange) :
    field.numeric range.start range.stop range.step = some true ↔
      field.Counts cronNumber range := by
  obtain ⟨start, stop, step⟩ := range
  unfold CronField.numeric CronField.Counts CronField.Steps CronField.Within
  cases hstart : cronNumber start with
  | none => simp
  | some first =>
    cases stop with
    | none =>
      cases step with
      | none => simp [CronField.admits]
      | some step =>
        cases hstep : cronNumber step with
        | none => simp [hstep]
        | some count => simp [CronField.admits, hstep, and_assoc]
    | some stop =>
      cases hstop : cronNumber stop with
      | none => simp [hstop]
      | some last =>
        cases step with
        | none => simp [CronField.admits, hstop, and_assoc]
        | some step =>
          cases hstep : cronNumber step with
          | none => simp [hstop, hstep]
          | some count => simp [CronField.admits, hstop, hstep, and_assoc]

theorem named_iff (range : CronRange) :
    field.named range.start range.stop range.step = some true ↔
      field.CountsOpen range := by
  obtain ⟨start, stop, step⟩ := range
  unfold CronField.named CronField.CountsOpen CronField.nameNumber CronField.Within
  cases hnames : field.names with
  | none =>
    cases hstart : cronName start with
    | none => simp
    | some letters =>
      cases hstop : stop.mapM cronName with
      | none => simp
      | some last =>
        cases hstep : step.mapM cronNumber with
        | none | some => simp
  | some names =>
    cases hstart : cronName start with
    | none => simp
    | some letters =>
      cases hfirst : CronField.lookup names letters with
      | none =>
        cases hstop : stop.mapM cronName with
        | none => simp [hfirst]
        | some last =>
          cases hstep : step.mapM cronNumber with
          | none => simp [hfirst]
          | some count => simp [CronField.admits, hfirst]
      | some first =>
        cases step with
        | some step =>
          cases hstop : stop.mapM cronName with
          | none => simp
          | some last =>
            cases hstep : cronNumber step with
            | none | some => simp [hstep]
        | none =>
          cases stop with
          | none => simp [CronField.admits, hfirst]
          | some stop =>
            cases hstop : cronName stop with
            | none => simp [hstop]
            | some letters' =>
              cases hlast : CronField.lookup names letters' with
              | none => simp [CronField.admits, hfirst, hstop, hlast]
              | some last =>
                simp [CronField.admits, hfirst, hstop, hlast, and_assoc]

theorem rangeIsValid_iff : field.rangeIsValid range = true ↔
    field.Counts cronNumber range ∨ field.CountsOpen range := by
  unfold CronField.rangeIsValid
  rw [← numeric_iff, ← named_iff]
  cases hnumeric : field.numeric range.start range.stop range.step with
  | none => cases field.named range.start range.stop range.step <;> simp
  | some valid =>
    have hnamed : field.named range.start range.stop range.step = none := by
      cases hstart : cronNumber range.start with
      | none =>
        simp [CronField.numeric, hstart] at hnumeric
      | some first => simp [CronField.named, cronName_of_cronNumber hstart]
    simp [hnamed]

theorem isDigitText_of_number {token : List Char} {value : Nat}
    (h : cronNumber token = some value) : isDigitText token = true := by
  obtain ⟨hnonempty, hdecimal⟩ := decimal_of_cronNumber h
  unfold isDigitText
  rw [Bool.and_eq_true, List.all_eq_true]
  constructor
  · simpa using hnonempty
  · intro character hcharacter
    rw [hdecimal character hcharacter]
    rfl

/-- The digits of a step that `int` does not read. -/
def RaisesStep (item : List Char) : Prop :=
  ∃ token, item = '*' :: '/' :: token ∧ isDigitText token = true ∧ cronNumber token = none

theorem check_star : field.check ['*'] = .accepted :=
  if_pos rfl

theorem check_step (token : List Char) :
    (field.check ('*' :: '/' :: token) = .accepted ↔ field.Steps token) ∧
      (field.check ('*' :: '/' :: token) = .valueError ↔
        isDigitText token = true ∧ cronNumber token = none) := by
  have hstar : '*' :: '/' :: token ≠ ['*'] := by simp
  have hprefix : ['*', '/'].isPrefixOf ('*' :: '/' :: token) = true := by simp [List.isPrefixOf]
  have hdrop : ('*' :: '/' :: token).drop 2 = token := rfl
  rw [CronField.check, if_neg hstar, if_pos hprefix, hdrop]
  unfold CronField.Steps
  by_cases hdigits : isDigitText token = true
  · rw [if_pos hdigits]
    cases hnumber : cronNumber token with
    | none => simp [hdigits]
    | some count =>
      by_cases hbounds : 1 ≤ count ∧ count ≤ field.high
      · simp [hbounds]
      · simp [hbounds]
  · rw [if_neg hdigits]
    cases hnumber : cronNumber token with
    | none => simp [hdigits]
    | some count => exact absurd (isDigitText_of_number hnumber) hdigits

theorem check_range (hstar : item ≠ ['*']) (hstep : ∀ token, item ≠ '*' :: '/' :: token) :
    field.check item =
      if (cronRange? item).any field.rangeIsValid then .accepted else .invalidTrigger := by
  have hprefix : ¬ ['*', '/'].isPrefixOf item = true := by
    intro hprefix
    obtain ⟨token, htoken⟩ := List.isPrefixOf_iff_prefix.1 hprefix
    exact hstep token htoken.symm
  rw [CronField.check, if_neg hstar, if_neg hprefix]

theorem any_range_iff : (cronRange? item).any field.rangeIsValid = true ↔
    ∃ range : CronRange, item = range.text ∧
      (field.Counts cronNumber range ∨ field.CountsOpen range) := by
  constructor
  · intro h
    obtain ⟨range, hrange, hvalid⟩ := (Option.any_eq_true _ _).1 h
    exact ⟨range, (cronRange?_eq_some_iff.1 hrange).1, rangeIsValid_iff.1 hvalid⟩
  · rintro ⟨range, htext, hvalid⟩
    have htokens : range.Tokens := by
      cases hvalid with
      | inl hcounts => exact tokens_of_counts isToken_of_cronNumber hcounts
      | inr hopen => exact tokens_of_countsOpen hopen
    rw [cronRange?_eq_some_iff.2 ⟨htext, htokens.plain⟩]
    exact rangeIsValid_iff.2 hvalid

theorem tokens_of_valid (h : field.Counts cronNumber range ∨ field.CountsOpen range) :
    range.Tokens := by
  cases h with
  | inl hcounts => exact tokens_of_counts isToken_of_cronNumber hcounts
  | inr hopen => exact tokens_of_countsOpen hopen

theorem check_eq_accepted_iff : field.check item = .accepted ↔ field.Taken item := by
  by_cases hstar : item = ['*']
  · rw [hstar]
    exact ⟨fun _ => Or.inl rfl, fun _ => check_star⟩
  · by_cases hstep : ∃ token, item = '*' :: '/' :: token
    · obtain ⟨token, rfl⟩ := hstep
      rw [(check_step token).1]
      constructor
      · intro hsteps
        exact Or.inr (Or.inl ⟨token, rfl, hsteps⟩)
      · intro htaken
        rcases htaken with hitem | ⟨other, hother, hsteps⟩ | ⟨range, htext, hvalid⟩
        · exact absurd hitem hstar
        · cases hother
          exact hsteps
        · exact absurd htext.symm ((tokens_of_valid hvalid).text_ne _)
    · rw [check_range hstar fun token htoken => hstep ⟨token, htoken⟩]
      by_cases hvalid : (cronRange? item).any field.rangeIsValid = true
      · rw [if_pos hvalid]
        exact ⟨fun _ => Or.inr (Or.inr (any_range_iff.1 hvalid)), fun _ => rfl⟩
      · rw [if_neg hvalid]
        constructor
        · intro h
          cases h
        · intro htaken
          rcases htaken with hitem | hsteps | hrange
          · exact absurd hitem hstar
          · obtain ⟨token, htoken, -⟩ := hsteps
            exact absurd ⟨token, htoken⟩ hstep
          · exact absurd (any_range_iff.2 hrange) hvalid

theorem check_eq_valueError_iff : field.check item = .valueError ↔ RaisesStep item := by
  by_cases hstep : ∃ token, item = '*' :: '/' :: token
  · obtain ⟨token, rfl⟩ := hstep
    rw [(check_step token).2]
    constructor
    · intro h
      exact ⟨token, rfl, h⟩
    · rintro ⟨other, hother, h⟩
      cases hother
      exact h
  · constructor
    · intro h
      by_cases hstar : item = ['*']
      · rw [hstar, check_star] at h
        cases h
      · rw [check_range hstar fun token htoken => hstep ⟨token, htoken⟩] at h
        split_ifs at h
    · rintro ⟨token, htoken, -⟩
      exact absurd ⟨token, htoken⟩ hstep

end Checks

section Differences

variable {field : CronField} {item : List Char}

def CronField.BareStep (field : CronField) (item : List Char) : Prop :=
  ∃ range : CronRange, item = range.text ∧ range.stop = none ∧ range.step ≠ none ∧
    field.Counts cronNumber range

def CronField.OpenEnd (field : CronField) (item : List Char) : Prop :=
  ∃ range : CronRange, item = range.text ∧ field.CountsOpen range ∧
    ∃ stop ∈ range.stop, field.nameNumber stop = none

def CronField.SteppedNames (field : CronField) (item : List Char) : Prop :=
  ∃ range : CronRange, item = range.text ∧ range.step ≠ none ∧
    field.Counts field.nameNumber range

/-- An item that is taken and not documented. -/
def CronField.Surplus (field : CronField) (item : List Char) : Prop :=
  field.BareStep item ∨ field.OpenEnd item ∨ ¬ IsAscii item

theorem isAscii_of_documented (h : field.Documented item) : IsAscii item := by
  rcases h with rfl | ⟨token, rfl, hascii, -⟩ | ⟨range, -, hascii, -⟩
  · intro character hmem
    rw [List.mem_singleton] at hmem
    rw [hmem]
    decide
  · intro character hmem
    rcases List.mem_cons.1 hmem with rfl | hrest
    · decide
    · rcases List.mem_cons.1 hrest with rfl | htoken
      · decide
      · exact hascii character htoken
  · exact hascii

variable {range : CronRange}

theorem range_of_documented (htokens : range.Tokens) (h : field.Documented range.text) :
    (range.step ≠ none → range.stop ≠ none) ∧
      (field.Counts cronNumber range ∨ field.Counts field.nameNumber range) := by
  rcases h with hstar | ⟨token, hstep, -⟩ | ⟨other, htext, -, hstops, hcounts⟩
  · exact absurd hstar (htokens.text_ne _)
  · exact absurd hstep (htokens.text_ne _)
  · have hother : other.Tokens := by
      cases hcounts with
      | inl hnumbers => exact tokens_of_counts isToken_of_cronNumber hnumbers
      | inr hnames => exact tokens_of_counts isToken_of_nameNumber hnames
    obtain rfl := htokens.eq_of_text hother htext
    exact ⟨hstops, hcounts⟩

theorem range_of_taken (htokens : range.Tokens) (h : field.Taken range.text) :
    field.Counts cronNumber range ∨ field.CountsOpen range := by
  rcases h with hstar | ⟨token, hstep, -⟩ | ⟨other, htext, hcounts⟩
  · exact absurd hstar (htokens.text_ne _)
  · exact absurd hstep (htokens.text_ne _)
  · obtain rfl := htokens.eq_of_text (tokens_of_valid hcounts) htext
    exact hcounts

theorem not_numbers_of_name {read : List Char → Option Nat} {value : Nat}
    (hname : field.nameNumber range.start = some value) (hread : read = cronNumber) :
    ¬ field.Counts read range := by
  rintro ⟨first, hfirst, -⟩
  rw [hread, cronNumber_of_nameNumber hname] at hfirst
  cases hfirst

theorem documented_iff_of_taken (htaken : field.Taken item) :
    field.Documented item ↔ ¬ field.Surplus item := by
  constructor
  · intro hdocumented hsurplus
    rcases hsurplus with ⟨range, rfl, hstop, hstep, hcounts⟩ |
      ⟨range, rfl, hopen, stop, hmem, hunknown⟩ | hascii
    · have htokens := tokens_of_counts isToken_of_cronNumber hcounts
      exact (range_of_documented htokens hdocumented).1 hstep hstop
    · have hcounts := (range_of_documented (tokens_of_countsOpen hopen) hdocumented).2
      obtain ⟨first, hfirst, -⟩ := hopen.2
      cases hcounts with
      | inl hnumbers => exact not_numbers_of_name hfirst rfl hnumbers
      | inr hnames =>
        obtain ⟨_, _, _, hstops, _⟩ := hnames
        obtain ⟨last, hlast, -⟩ := hstops stop hmem
        rw [hunknown] at hlast
        cases hlast
    · exact hascii (isAscii_of_documented hdocumented)
  · intro hregular
    simp only [CronField.Surplus, not_or, not_not] at hregular
    obtain ⟨hbare, hopenEnd, hascii⟩ := hregular
    rcases htaken with rfl | ⟨token, rfl, hsteps⟩ | ⟨range, htext, hvalid⟩
    · exact Or.inl rfl
    · refine Or.inr (Or.inl ⟨token, rfl, ?_, hsteps⟩)
      intro character hmem
      exact hascii character (List.mem_cons_of_mem _ (List.mem_cons_of_mem _ hmem))
    · refine Or.inr (Or.inr ⟨range, htext, hascii, ?_, ?_⟩)
      · intro hstep hstop
        cases hvalid with
        | inl hcounts => exact hbare ⟨range, htext, hstop, hstep, hcounts⟩
        | inr hopen => exact hstep hopen.1
      · cases hvalid with
        | inl hcounts => exact Or.inl hcounts
        | inr hopen =>
          obtain ⟨hnone, first, hfirst, hwithin, hstops⟩ := id hopen
          refine Or.inr ⟨first, hfirst, hwithin, ?_, ?_⟩
          · intro stop hmem
            cases hlast : field.nameNumber stop with
            | none => exact absurd ⟨range, htext, hopen, stop, hmem, hlast⟩ hopenEnd
            | some last => exact ⟨last, rfl, (hstops stop hmem).2 last hlast⟩
          · rw [hnone]
            intro step hmem
            cases hmem

theorem taken_iff_of_documented (hdocumented : field.Documented item) :
    field.Taken item ↔ ¬ field.SteppedNames item := by
  constructor
  · rintro htaken ⟨range, rfl, hstep, hnames⟩
    have htokens := tokens_of_counts isToken_of_nameNumber hnames
    obtain ⟨first, hfirst, -⟩ := hnames
    cases range_of_taken htokens htaken with
    | inl hnumbers => exact not_numbers_of_name hfirst rfl hnumbers
    | inr hopen => exact hstep hopen.1
  · intro hregular
    rcases hdocumented with rfl | ⟨token, rfl, -, hsteps⟩ | ⟨range, htext, -, -, hcounts⟩
    · exact Or.inl rfl
    · exact Or.inr (Or.inl ⟨token, rfl, hsteps⟩)
    · refine Or.inr (Or.inr ⟨range, htext, ?_⟩)
      cases hcounts with
      | inl hnumbers => exact Or.inl hnumbers
      | inr hnames =>
        have hnone : range.step = none := by
          by_contra hstep
          exact hregular ⟨range, htext, hstep, hnames⟩
        obtain ⟨first, hfirst, hwithin, hstops, -⟩ := hnames
        refine Or.inr ⟨hnone, first, hfirst, hwithin, ?_⟩
        intro stop hmem
        obtain ⟨last, hlast, hlast'⟩ := hstops stop hmem
        obtain ⟨letters, hletters⟩ := cronName_of_nameNumber hlast
        refine ⟨by rw [hletters]; rfl, ?_⟩
        intro other hother
        rw [hlast] at hother
        cases hother
        exact hlast'

end Differences

def RaisesFirst (items : List (CronField × List Char)) : Prop :=
  ∃ before entry after, items = before ++ entry :: after ∧
    (∀ earlier ∈ before, earlier.1.Taken earlier.2) ∧ RaisesStep entry.2

theorem checkItems_eq_accepted_iff (items : List (CronField × List Char)) :
    checkItems items = .accepted ↔ ∀ entry ∈ items, entry.1.Taken entry.2 := by
  induction items with
  | nil => simp [checkItems]
  | cons entry rest ih =>
    rw [List.forall_mem_cons, ← check_eq_accepted_iff, ← ih, checkItems]
    cases entry.1.check entry.2 with
    | accepted | invalidTrigger | valueError => simp

theorem checkItems_eq_valueError_iff (items : List (CronField × List Char)) :
    checkItems items = .valueError ↔ RaisesFirst items := by
  induction items with
  | nil =>
    constructor
    · intro h
      cases h
    · rintro ⟨before, entry, after, hitems, -⟩
      simp at hitems
  | cons entry rest ih =>
    rw [checkItems]
    by_cases htaken : entry.1.Taken entry.2
    · rw [check_eq_accepted_iff.2 htaken, ih]
      constructor
      · rintro ⟨before, other, after, rfl, hbefore, hraises⟩
        refine ⟨entry :: before, other, after, rfl, ?_, hraises⟩
        rw [List.forall_mem_cons]
        exact ⟨htaken, hbefore⟩
      · rintro ⟨before, other, after, hitems, hbefore, hraises⟩
        cases before with
        | nil =>
          obtain ⟨rfl, -⟩ := List.cons.inj hitems
          rw [← check_eq_accepted_iff, check_eq_valueError_iff.2 hraises] at htaken
          cases htaken
        | cons first before =>
          obtain ⟨rfl, hrest⟩ := List.cons.inj hitems
          exact ⟨before, other, after, hrest,
            fun earlier hmem => hbefore earlier (List.mem_cons_of_mem _ hmem), hraises⟩
    · have hfirst : RaisesFirst (entry :: rest) ↔ RaisesStep entry.2 := by
        constructor
        · rintro ⟨before, other, after, hitems, hbefore, hraises⟩
          cases before with
          | nil =>
            obtain ⟨rfl, -⟩ := List.cons.inj hitems
            exact hraises
          | cons first before =>
            obtain ⟨rfl, -⟩ := List.cons.inj hitems
            exact absurd (hbefore entry List.mem_cons_self) htaken
        · intro hraises
          exact ⟨[], entry, rest, rfl, List.forall_mem_nil _, hraises⟩
      rw [hfirst, ← check_eq_valueError_iff]
      rw [← check_eq_accepted_iff] at htaken
      cases hcheck : entry.1.check entry.2 with
      | accepted => exact absurd hcheck htaken
      | invalidTrigger | valueError => simp

/-- The gate accepts exactly the documented expressions and raises nothing else. -/
structure CronConforms (value : String) : Prop where
  grammar : constructCron value = .accepted ↔ DocumentedCron value
  raises : constructCron value ≠ .valueError

/-- The expressions on which the gate and its documentation differ. -/
def CronDeviates (value : String) : Prop :=
  CronShaped value ∧
    (((∀ entry ∈ cronItems value, entry.1.Taken entry.2) ∧
        ∃ entry ∈ cronItems value, entry.1.Surplus entry.2) ∨
      ((∀ entry ∈ cronItems value, entry.1.Documented entry.2) ∧
        ∃ entry ∈ cronItems value, entry.1.SteppedNames entry.2) ∨
      RaisesFirst (cronItems value))

theorem constructCron_eq_accepted_iff (value : String) :
    constructCron value = .accepted ↔
      CronShaped value ∧ ∀ entry ∈ cronItems value, entry.1.Taken entry.2 := by
  rw [constructCron]
  by_cases hshaped : CronShaped value
  · rw [if_pos hshaped, checkItems_eq_accepted_iff]
    simp [hshaped]
  · rw [if_neg hshaped]
    simp [hshaped]

/-- The gate conforms to its grammar except on the listed expressions. -/
theorem cron_gate_conforms (value : String) : CronConforms value ↔ ¬ CronDeviates value := by
  by_cases hshaped : CronShaped value
  · have hraises : constructCron value = .valueError ↔ RaisesFirst (cronItems value) := by
      rw [constructCron, if_pos hshaped, checkItems_eq_valueError_iff]
    constructor
    · intro hconforms hdeviates
      rcases hdeviates.2 with ⟨htaken, entry, hmem, hsurplus⟩ |
        ⟨hdocumented, entry, hmem, hstepped⟩ | hfirst
      · have haccepted := (constructCron_eq_accepted_iff value).2 ⟨hshaped, htaken⟩
        have hentry := (hconforms.grammar.1 haccepted).2 entry hmem
        exact (documented_iff_of_taken (htaken entry hmem)).1 hentry hsurplus
      · have haccepted := hconforms.grammar.2 ⟨hshaped, hdocumented⟩
        have hentry := ((constructCron_eq_accepted_iff value).1 haccepted).2 entry hmem
        exact (taken_iff_of_documented (hdocumented entry hmem)).1 hentry hstepped
      · exact hconforms.raises (hraises.2 hfirst)
    · intro hregular
      constructor
      · rw [constructCron_eq_accepted_iff]
        constructor
        · rintro ⟨-, htaken⟩
          refine ⟨hshaped, fun entry hmem => ?_⟩
          rw [documented_iff_of_taken (htaken entry hmem)]
          intro hsurplus
          exact hregular ⟨hshaped, Or.inl ⟨htaken, entry, hmem, hsurplus⟩⟩
        · rintro ⟨-, hdocumented⟩
          refine ⟨hshaped, fun entry hmem => ?_⟩
          rw [taken_iff_of_documented (hdocumented entry hmem)]
          intro hstepped
          exact hregular ⟨hshaped, Or.inr (Or.inl ⟨hdocumented, entry, hmem, hstepped⟩)⟩
      · intro hvalue
        exact hregular ⟨hshaped, Or.inr (Or.inr (hraises.1 hvalue))⟩
  · have hrefused : constructCron value = .invalidTrigger := if_neg hshaped
    constructor
    · intro _ hdeviates
      exact hshaped hdeviates.1
    · intro _
      constructor
      · rw [hrefused]
        constructor
        · intro h
          cases h
        · intro hdocumented
          exact absurd hdocumented.1 hshaped
      · rw [hrefused]
        intro h
        cases h

/-- A superscript two is a digit to `isdigit` and none to `int`. -/
theorem cron_gate_raises : ¬ ∀ value, CronConforms value := by
  intro hconforms
  have hraises := (hconforms "*/\u00b2 * * * *").raises
  exact hraises (by decide +kernel)

end NervOS
