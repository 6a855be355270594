/-
Which texts are package versions, how they are ordered, and when the two checks of a declared
range agree.
-/
import NervOS.Domain.PackageVersions

namespace NervOS

namespace Packages

open Python Semver

def IsSemver (value : Text) : Prop :=
  ∃ parts : Parts, value = parts.text.map Sum.inl ∧ specification.admits parts = true

def Accepts (value : Text) : Prop :=
  ∃ version, PackageVersion.construct value = .ok version

def IsZeroLed (identifier : List Char) : Prop :=
  identifier.head? = some '0' ∧ numericIdentifier identifier = false

def HasZeroLed (value : Text) : Prop :=
  ∃ parts : Parts, value = parts.text.map Sum.inl ∧ specification.admits parts = true ∧
    ∃ identifier ∈ parts.prerelease.getD [], IsZeroLed identifier

/-- A semantic version, without such an identifier, but for decimal digits of another script among
those that follow the first of a release number. -/
def HasForeignDigits (value : Text) : Prop :=
  ∃ parts : Parts, value = parts.text.map Sum.inl ∧
    (∀ number ∈ [parts.major, parts.minor, parts.patch], matchesNumber isDecimal number = true) ∧
    (∃ number ∈ [parts.major, parts.minor, parts.patch], ∃ letter ∈ number,
      letter.isDigit = false) ∧
    Grammar.listAdmits prereleaseIdentifier parts.prerelease = true ∧
    (∀ identifier ∈ parts.prerelease.getD [], ¬ IsZeroLed identifier) ∧
    Grammar.listAdmits buildIdentifier parts.build = true

structure BoundsSpellCurrent (minVersion maxVersion current : PackageVersion) : Prop where
  lower : minVersion.rank = current.rank → minVersion.value = current.value
  upper : current.rank = maxVersion.rank → current.value = maxVersion.value

section Grammars

variable {text : List Char}

theorem matchesNumber_of_numeric (h : numericIdentifier text = true) :
    matchesNumber isDecimal text = true := by
  have hdigits := digits_of_numericIdentifier h
  rw [numericIdentifier, Bool.and_eq_true, Bool.or_eq_true] at h
  rw [matchesNumber, Bool.or_eq_true]
  refine h.2.imp_right fun hhead => ?_
  cases text with
  | nil => cases h.1
  | cons first rest =>
    rw [List.forall_mem_cons] at hdigits
    have hfirst : first ≠ '0' := by simpa using hhead
    rw [Bool.and_eq_true, List.tail_cons, List.all_eq_true]
    refine ⟨?_, fun letter hletter => isDecimal_of_isDigit letter (hdigits.2 letter hletter)⟩
    simp [isPositiveDigit, hdigits.1, hfirst]

theorem numeric_of_matchesNumber (h : matchesNumber isDecimal text = true)
    (hdigits : ∀ letter ∈ text, letter.isDigit = true) : numericIdentifier text = true := by
  rw [matchesNumber, Bool.or_eq_true, beq_iff_eq] at h
  rcases h with rfl | h
  · decide
  · cases text with
    | nil => cases h
    | cons first rest =>
      rw [Bool.and_eq_true, List.head?_cons, Option.any_some, isPositiveDigit,
        Bool.and_eq_true, bne_iff_ne] at h
      rw [numericIdentifier, List.all_eq_true.mpr hdigits]
      simp [h.1.2]

theorem matchesPrerelease_iff :
    matchesPrerelease text = true ↔ prereleaseIdentifier text = true ∧ ¬ IsZeroLed text := by
  rw [matchesPrerelease, prereleaseIdentifier, IsZeroLed]
  cases text with
  | nil => simp [numericIdentifier, alphanumericIdentifier]
  | cons first rest =>
    by_cases hzero : first = '0'
    · subst hzero
      by_cases hnil : rest = []
      · subst hnil
        decide
      · simp [numericIdentifier, hnil]
    · have hletter : isIdentifierLetter = isLetter := rfl
      have hsplit : (isLetter first = true ∧ ∀ letter ∈ rest, isLetter letter = true) ↔
          numericIdentifier (first :: rest) = true ∨
            alphanumericIdentifier (first :: rest) = true := by
        constructor
        · intro h
          have hall : ∀ letter ∈ first :: rest, isLetter letter = true :=
            List.forall_mem_cons.mpr h
          by_cases hdigits : ∀ letter ∈ first :: rest, letter.isDigit = true
          · left
            rw [numericIdentifier, List.all_eq_true.mpr hdigits]
            simp [hzero]
          · right
            push Not at hdigits
            obtain ⟨letter, hmem, hdigit⟩ := hdigits
            rw [alphanumericIdentifier, List.all_eq_true.mpr hall, Bool.true_and,
              List.any_eq_true]
            exact ⟨letter, hmem, by simpa using hdigit⟩
        · intro h
          have hidentifier : prereleaseIdentifier (first :: rest) = true := by
            rw [prereleaseIdentifier, Bool.or_eq_true]
            exact h
          exact List.forall_mem_cons.mp (letters_of_prereleaseIdentifier hidentifier)
      simpa [hzero, hletter] using hsplit

theorem listAdmits_prerelease_iff {identifiers : Option (List (List Char))} :
    Grammar.listAdmits matchesPrerelease identifiers = true ↔
      Grammar.listAdmits prereleaseIdentifier identifiers = true ∧
        ∀ identifier ∈ identifiers.getD [], ¬ IsZeroLed identifier := by
  cases identifiers with
  | none => simp [Grammar.listAdmits]
  | some identifiers =>
    rw [Grammar.listAdmits_some, Grammar.listAdmits_some, Option.getD_some]
    simp only [matchesPrerelease_iff]
    constructor
    · rintro ⟨hne, hall⟩
      exact ⟨⟨hne, fun part hpart => (hall part hpart).1⟩, fun part hpart => (hall part hpart).2⟩
    · rintro ⟨⟨hne, hall⟩, hled⟩
      exact ⟨hne, fun part hpart => ⟨hall part hpart, hled part hpart⟩⟩

end Grammars

section Acceptance

variable {value : Text}

theorem listAdmits_getD {identifier : List Char → Bool} {identifiers : Option (List (List Char))}
    (h : Grammar.listAdmits identifier identifiers = true) :
    ∀ part ∈ identifiers.getD [], identifier part = true := by
  cases identifiers with
  | none => exact List.forall_mem_nil _
  | some identifiers => exact (Grammar.listAdmits_some.mp h).2

theorem not_hasLeadingZero {identifier : List Char} (h : matchesPrerelease identifier = true) :
    hasLeadingZero identifier = false := by
  rw [matchesPrerelease, Bool.or_eq_true, beq_iff_eq] at h
  rcases h with rfl | h
  · decide
  · rw [hasLeadingZero]
    cases identifier with
    | nil => rfl
    | cons first rest =>
      have hfirst : first ≠ '0' := by
        rw [Bool.and_eq_true, List.head?_cons, Option.any_some, Bool.and_eq_true,
          bne_iff_ne] at h
        exact h.1.2
      simp [hfirst]

theorem accepts_iff : Accepts value ↔
    value.length ≤ 64 ∧ ∃ parts : Parts, value = parts.text.map Sum.inl ∧
      semverPattern.admits parts = true := by
  constructor
  · rintro ⟨version, hversion⟩
    rw [PackageVersion.construct] at hversion
    split_ifs at hversion with hlong
    split at hversion
    · cases hversion
    rename_i letters hletters
    split at hversion
    · cases hversion
    rename_i parts hmatched
    obtain ⟨htext, hadmits⟩ := Grammar.fullmatch_eq_some.mp hmatched
    refine ⟨not_lt.mp hlong, parts, ?_, hadmits⟩
    rw [← htext]
    exact (mapM_getLeft?_eq_some value letters).mp hletters
  · rintro ⟨hlength, parts, hvalue, hadmits⟩
    have hletters : value.mapM Sum.getLeft? = some parts.text :=
      (mapM_getLeft?_eq_some value parts.text).mpr hvalue
    have hmatched : semverPattern.fullmatch parts.text = some parts :=
      Grammar.fullmatch_eq_some.mpr ⟨rfl, hadmits⟩
    have hidentifiers := listAdmits_getD (Grammar.admits_iff.mp hadmits).2.1
    have hzeros : ¬ (parts.prerelease.getD []).any hasLeadingZero = true := by
      rw [List.any_eq_true]
      rintro ⟨identifier, hmem, hzero⟩
      rw [not_hasLeadingZero (hidentifiers identifier hmem)] at hzero
      cases hzero
    refine ⟨⟨parts.text, parts, (length_letters hletters).trans_le hlength, hmatched⟩, ?_⟩
    rw [PackageVersion.construct, dif_neg (not_lt.mpr hlength)]
    split
    · rename_i hnone
      rw [hletters] at hnone
      cases hnone
    rename_i letters hread
    obtain rfl := Option.some.inj (hletters.symm.trans hread)
    split
    · rename_i hnone
      rw [hmatched] at hnone
      cases hnone
    rename_i read hreadParts
    obtain rfl := Option.some.inj (hmatched.symm.trans hreadParts)
    rw [if_neg hzeros]

theorem text_injective_map {left right : Parts}
    (h : left.text.map (Sum.inl : Char → Char ⊕ Fin 2048) = right.text.map Sum.inl) :
    left.text = right.text :=
  List.map_injective_iff.mpr Sum.inl_injective h

theorem forall_numbers {p : List Char → Bool} {parts : Parts} :
    (∀ number ∈ [parts.major, parts.minor, parts.patch], p number = true) ↔
      p parts.major = true ∧ p parts.minor = true ∧ p parts.patch = true := by
  simp

theorem accepts_iff_isSemver (hlength : value.length ≤ 64) :
    (Accepts value ↔ IsSemver value) ↔ ¬ HasZeroLed value ∧ ¬ HasForeignDigits value := by
  constructor
  · intro hiff
    constructor
    · rintro ⟨parts, hvalue, hadmits, identifier, hmem, hled⟩
      obtain ⟨-, other, hother, hpattern⟩ := accepts_iff.mp (hiff.mpr ⟨parts, hvalue, hadmits⟩)
      have htext := text_injective_map (hvalue.symm.trans hother)
      obtain rfl := Grammar.parts_unique hadmits hpattern htext
      have hmatches := listAdmits_getD (Grammar.admits_iff.mp hpattern).2.1 identifier hmem
      exact (matchesPrerelease_iff.mp hmatches).2 hled
    · rintro ⟨parts, hvalue, hnumbers, ⟨number, hnumber, letter, hletter, hforeign⟩, hprerelease,
        hled, hbuild⟩
      have hpattern : semverPattern.admits parts = true := by
        rw [Grammar.admits_iff]
        exact ⟨forall_numbers.mp hnumbers, listAdmits_prerelease_iff.mpr ⟨hprerelease, hled⟩,
            hbuild⟩
      obtain ⟨other, hother, hadmits⟩ :=
        hiff.mp (accepts_iff.mpr ⟨hlength, parts, hvalue, hpattern⟩)
      have htext := text_injective_map (hvalue.symm.trans hother)
      obtain rfl := Grammar.parts_unique hpattern hadmits htext
      obtain ⟨hmajor, hminor, hpatch⟩ := (Grammar.admits_iff.mp hadmits).1
      have hnumeric : numericIdentifier number = true := by
        exact (forall_numbers (p := numericIdentifier)).mpr ⟨hmajor, hminor, hpatch⟩ number hnumber
      rw [digits_of_numericIdentifier hnumeric letter hletter] at hforeign
      cases hforeign
  · rintro ⟨hzero, hforeign⟩
    constructor
    · intro haccepts
      obtain ⟨-, parts, hvalue, hpattern⟩ := accepts_iff.mp haccepts
      obtain ⟨hnumbers, hprerelease, hbuild⟩ := Grammar.admits_iff.mp hpattern
      obtain ⟨hlist, hled⟩ := listAdmits_prerelease_iff.mp hprerelease
      have hnumbersAll : ∀ number ∈ [parts.major, parts.minor, parts.patch],
          matchesNumber isDecimal number = true := forall_numbers.mpr hnumbers
      have hdigits : ∀ number ∈ [parts.major, parts.minor, parts.patch], ∀ letter ∈ number,
          letter.isDigit = true := by
        intro number hnumber letter hletter
        by_contra hnone
        exact hforeign ⟨parts, hvalue, hnumbersAll,
          ⟨number, hnumber, letter, hletter, by simpa using hnone⟩, hlist, hled, hbuild⟩
      refine ⟨parts, hvalue, Grammar.admits_iff.mpr ⟨?_, hlist, hbuild⟩⟩
      exact forall_numbers.mp fun number hnumber =>
        numeric_of_matchesNumber (hnumbersAll number hnumber) (hdigits number hnumber)
    · rintro ⟨parts, hvalue, hadmits⟩
      obtain ⟨⟨hmajor, hminor, hpatch⟩, hprerelease, hbuild⟩ := Grammar.admits_iff.mp hadmits
      refine accepts_iff.mpr ⟨hlength, parts, hvalue, Grammar.admits_iff.mpr
        ⟨⟨matchesNumber_of_numeric hmajor, matchesNumber_of_numeric hminor,
          matchesNumber_of_numeric hpatch⟩, ?_, hbuild⟩⟩
      refine listAdmits_prerelease_iff.mpr ⟨hprerelease, fun identifier hmem hled => ?_⟩
      exact hzero ⟨parts, hvalue, hadmits, identifier, hmem, hled⟩

end Acceptance

section Ranges

variable {minVersion maxVersion current : PackageVersion}

theorem compatibility_iff : compatibility minVersion maxVersion current = .ok () ↔
    minVersion.rank ≤ current.rank ∧ current.rank ≤ maxVersion.rank := by
  rw [compatibility]
  have hmin : current.lt minVersion = true ↔ current.rank < minVersion.rank :=
    PackageVersion.lt_iff_rank
  have hmax : maxVersion.lt current = true ↔ maxVersion.rank < current.rank :=
    PackageVersion.lt_iff_rank
  have hrange : maxVersion.lt minVersion = true ↔ maxVersion.rank < minVersion.rank :=
    PackageVersion.lt_iff_rank
  constructor
  · intro h
    split_ifs at h with hempty hout
    rw [Bool.or_eq_true, hmin, hmax] at hout
    exact ⟨not_lt.mp fun hlt => hout (.inl hlt), not_lt.mp fun hlt => hout (.inr hlt)⟩
  · rintro ⟨hlower, hupper⟩
    rw [if_neg (mt hrange.mp (not_lt.mpr (hlower.trans hupper))), if_neg]
    rw [Bool.or_eq_true, hmin, hmax]
    exact fun hout => hout.elim (not_lt.mpr hlower) (not_lt.mpr hupper)

variable {left right : PackageVersion}

theorem le_iff_rank : left.le right = true ↔
    left.rank < right.rank ∨ left.value = right.value := by
  rw [PackageVersion.le, Bool.or_eq_true, PackageVersion.lt_iff_rank, beq_iff_eq]

theorem rank_of_value (h : left.value = right.value) :
    left.rank = right.rank :=
  congrArg PackageVersion.rank (PackageVersion.ext h)

theorem ranges_agree_iff :
    (compatibility minVersion maxVersion current = .ok () ↔
        isCompatible minVersion maxVersion current = true) ↔
      (minVersion.rank ≤ current.rank ∧ current.rank ≤ maxVersion.rank →
        BoundsSpellCurrent minVersion maxVersion current) := by
  rw [compatibility_iff, isCompatible, Bool.and_eq_true, le_iff_rank, le_iff_rank]
  constructor
  · intro hiff hrange
    obtain ⟨hlower, hupper⟩ := hiff.mp hrange
    exact ⟨fun heq => hlower.resolve_left heq.not_lt, fun heq => hupper.resolve_left heq.not_lt⟩
  · intro hspell
    constructor
    · intro hrange
      obtain ⟨hlower, hupper⟩ := hspell hrange
      exact ⟨hrange.1.lt_or_eq.imp_right hlower, hrange.2.lt_or_eq.imp_right hupper⟩
    · rintro ⟨hlower, hupper⟩
      exact ⟨hlower.elim le_of_lt fun heq => (rank_of_value heq).le,
        hupper.elim le_of_lt fun heq => (rank_of_value heq).le⟩

end Ranges

/-- A text of at most 64 characters is accepted if and only if it is a semantic version, except
where an alphanumeric prerelease identifier starts with a zero or a release number has digits of
another script; `<` is the precedence, a strict weak order; and the two checks of a range agree,
except where a bound has the precedence of the current version but another text. -/
theorem package_versions (value : Text) (first second third : PackageVersion) :
    (value.length ≤ 64 →
        ((Accepts value ↔ IsSemver value) ↔ ¬ HasZeroLed value ∧ ¬ HasForeignDigits value)) ∧
      ((first.lt second = true ↔ first.rank < second.rank) ∧ first.lt first = false ∧
        (first.lt second = true → second.lt third = true → first.lt third = true) ∧
        (first.lt third = true → first.lt second = true ∨ second.lt third = true)) ∧
      ((compatibility first third second = .ok () ↔ isCompatible first third second = true) ↔
        (first.rank ≤ second.rank ∧ second.rank ≤ third.rank →
          BoundsSpellCurrent first third second)) := by
  refine ⟨accepts_iff_isSemver, ⟨PackageVersion.lt_iff_rank, ?_, ?_, ?_⟩, ranges_agree_iff⟩
  · rw [← Bool.not_eq_true, PackageVersion.lt_iff_rank]
    exact lt_irrefl _
  · simp only [PackageVersion.lt_iff_rank]
    exact lt_trans
  · simp only [PackageVersion.lt_iff_rank]
    intro hlt
    exact (lt_or_ge first.rank second.rank).imp_right fun hle => hle.trans_lt hlt

/-- `1.0.0-0a` -/
def zeroLedParts : Parts :=
  ⟨['1'], ['0'], ['0'], some [['0', 'a']], none⟩

/-- A release number with an Arabic digit: `1٣.0.0`. -/
def foreignParts : Parts :=
  ⟨['1', '٣'], ['0'], ['0'], none, none⟩

theorem zeroLed_refused :
    IsSemver (zeroLedParts.text.map Sum.inl) ∧ ¬ Accepts (zeroLedParts.text.map Sum.inl) := by
  have hadmits : specification.admits zeroLedParts = true := by decide
  refine ⟨⟨zeroLedParts, rfl, hadmits⟩, fun haccepts => ?_⟩
  obtain ⟨-, parts, hvalue, hpattern⟩ := accepts_iff.mp haccepts
  obtain rfl := Grammar.parts_unique hadmits hpattern (text_injective_map hvalue)
  exact absurd hpattern (by decide)

theorem foreign_accepted :
    Accepts (foreignParts.text.map Sum.inl) ∧ ¬ IsSemver (foreignParts.text.map Sum.inl) := by
  have hpattern : semverPattern.admits foreignParts = true := by decide
  refine ⟨accepts_iff.mpr ⟨by decide, foreignParts, rfl, hpattern⟩, ?_⟩
  rintro ⟨parts, hvalue, hadmits⟩
  obtain rfl := Grammar.parts_unique hpattern hadmits (text_injective_map hvalue)
  exact absurd hadmits (by decide)

/-- `0.1.0`, with build metadata where a text is given. -/
def currentParts (build : Option (List (List Char))) : Parts :=
  ⟨['0'], ['1'], ['0'], none, build⟩

theorem currentParts_matched (build : Option (List (List Char)))
    (hadmits : semverPattern.admits (currentParts build) = true) :
    semverPattern.fullmatch (currentParts build).text = some (currentParts build) :=
  Grammar.fullmatch_eq_some.mpr ⟨rfl, hadmits⟩

/-- The constructor refuses a semantic version and accepts a text that is none, and a range that it
accepts is shown as incompatible because its lower bound has build metadata. -/
theorem package_versions_differ :
    (IsSemver (zeroLedParts.text.map Sum.inl) ∧ ¬ Accepts (zeroLedParts.text.map Sum.inl)) ∧
      (Accepts (foreignParts.text.map Sum.inl) ∧ ¬ IsSemver (foreignParts.text.map Sum.inl)) ∧
      ∃ minVersion maxVersion current : PackageVersion,
        minVersion.parts = currentParts (some [['b']]) ∧ maxVersion.parts = currentParts none ∧
          current.parts = currentParts none ∧
            compatibility minVersion maxVersion current = .ok () ∧
              isCompatible minVersion maxVersion current = false := by
  refine ⟨zeroLed_refused, foreign_accepted,
    ⟨(currentParts (some [['b']])).text, _, by decide, currentParts_matched _ (by decide)⟩,
    ⟨(currentParts none).text, _, by decide, currentParts_matched _ (by decide)⟩,
    ⟨(currentParts none).text, _, by decide, currentParts_matched _ (by decide)⟩,
    rfl, rfl, rfl, ?_, ?_⟩
  · rw [compatibility_iff]
    exact ⟨le_refl _, le_refl _⟩
  · rfl

end Packages

end NervOS
