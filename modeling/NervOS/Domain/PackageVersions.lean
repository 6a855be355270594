/-
Package versions: which texts are accepted, how two of them are compared, and the range of node
versions that a manifest declares.
-/
import NervOS.Python.Value
import NervOS.Text.Numerals
import NervOS.Text.Semver

namespace NervOS

namespace Packages

open Python

structure InvalidPackageVersion where
  message : String
deriving DecidableEq, Repr

section Pattern

/-- `[0-9A-Za-z-]` -/
def isIdentifierLetter (letter : Char) : Bool :=
  letter.isAlphanum || letter == '-'

/-- `\d` of a text pattern: any decimal digit of Unicode. -/
def isDecimal (letter : Char) : Bool :=
  (Text.decimalDigit letter).isSome

def isPositiveDigit (letter : Char) : Bool :=
  letter.isDigit && letter != '0'

/-- `0|[1-9]\d*` -/
def matchesNumber (digit : Char → Bool) (text : List Char) : Bool :=
  text == ['0'] || text.head?.any isPositiveDigit && text.tail.all digit

/-- `0|[1-9A-Za-z-][0-9A-Za-z-]*` -/
def matchesPrerelease (text : List Char) : Bool :=
  text == ['0'] || text.head?.any (fun first => isIdentifierLetter first && first != '0') &&
    text.tail.all isIdentifierLetter

/-- `[0-9A-Za-z-]+` -/
def matchesBuild (text : List Char) : Bool :=
  ! text.isEmpty && text.all isIdentifierLetter

variable {text : List Char}

theorem matchesNumber_all {digit : Char → Bool}
    (hdigit : ∀ letter, letter.isDigit = true → digit letter = true)
    (h : matchesNumber digit text = true) : ∀ letter ∈ text, digit letter = true := by
  rw [matchesNumber, Bool.or_eq_true, beq_iff_eq] at h
  rcases h with rfl | h
  · simpa using hdigit '0' (by decide)
  · cases text with
    | nil => exact List.forall_mem_nil _
    | cons first rest =>
      rw [Bool.and_eq_true, List.head?_cons, Option.any_some, isPositiveDigit, Bool.and_eq_true,
        List.tail_cons, List.all_eq_true] at h
      exact List.forall_mem_cons.mpr ⟨hdigit first h.1.1, h.2⟩

theorem matchesPrerelease_all (h : matchesPrerelease text = true) :
    ∀ letter ∈ text, isIdentifierLetter letter = true := by
  rw [matchesPrerelease, Bool.or_eq_true, beq_iff_eq] at h
  rcases h with rfl | h
  · intro letter hletter
    rw [List.mem_singleton.mp hletter]
    rfl
  · cases text with
    | nil => exact List.forall_mem_nil _
    | cons first rest =>
      rw [Bool.and_eq_true, List.head?_cons, Option.any_some, Bool.and_eq_true, List.tail_cons,
        List.all_eq_true] at h
      exact List.forall_mem_cons.mpr ⟨h.1.1, h.2⟩

theorem matchesBuild_all (h : matchesBuild text = true) :
    ∀ letter ∈ text, isIdentifierLetter letter = true := by
  rw [matchesBuild, Bool.and_eq_true, List.all_eq_true] at h
  exact h.2

theorem isDecimal_of_isDigit (letter : Char) (h : letter.isDigit = true) :
    isDecimal letter = true := by
  have hbounds := Text.digit_bounds h
  have hfound : (Text.decimalZeros.find? fun first =>
      decide (first ≤ letter.toNat ∧ letter.toNat < first + 10)).isSome = true := by
    rw [List.find?_isSome]
    exact ⟨48, by decide, decide_eq_true ⟨hbounds.1, by omega⟩⟩
  rw [isDecimal, Text.decimalDigit, Option.isSome_map]
  exact hfound

/-- `SEMVER_PATTERN` -/
def semverPattern : Semver.Grammar where
  number := matchesNumber isDecimal
  prerelease := matchesPrerelease
  build := matchesBuild
  numberMarks _ h :=
    have hall := matchesNumber_all isDecimal_of_isDigit h
    ⟨Semver.not_mem_of_all hall rfl, Semver.not_mem_of_all hall rfl, Semver.not_mem_of_all hall rfl⟩
  prereleaseMarks _ h :=
    have hall := matchesPrerelease_all h
    ⟨Semver.not_mem_of_all hall rfl, Semver.not_mem_of_all hall rfl⟩
  buildMarks _ h := Semver.not_mem_of_all (matchesBuild_all h) rfl

end Pattern

/-- `isdigit` of an identifier, whose letters are ASCII. -/
def isNumeric (identifier : List Char) : Bool :=
  ! identifier.isEmpty && identifier.all Char.isDigit

/-- `int`, which reads any decimal digits. -/
def int (digits : List Char) : Nat :=
  digits.foldl (fun value digit => 10 * value + (Text.decimalDigit digit).getD 0) 0

def hasLeadingZero (identifier : List Char) : Bool :=
  isNumeric identifier && identifier.head? == some '0' && identifier != ['0']

/-- A version that was accepted, with the groups of its match. -/
structure PackageVersion where
  value : List Char
  parts : Semver.Parts
  bounded : value.length ≤ 64
  matched : semverPattern.fullmatch value = some parts

theorem length_letters {value : Text} {letters : List Char}
    (h : value.mapM Sum.getLeft? = some letters) : letters.length = value.length := by
  rw [(mapM_getLeft?_eq_some value letters).mp h, List.length_map]

/-- `PackageVersion(value)`; no lone surrogate matches the pattern. -/
def PackageVersion.construct (value : Text) : Except InvalidPackageVersion PackageVersion :=
  if hlong : 64 < value.length then .error ⟨"package_version is too long"⟩
  else
    match hletters : value.mapM Sum.getLeft? with
    | none => .error ⟨"package_version must be strict SemVer 2.0.0"⟩
    | some letters =>
      match hmatched : semverPattern.fullmatch letters with
      | none => .error ⟨"package_version must be strict SemVer 2.0.0"⟩
      | some parts =>
        if (parts.prerelease.getD []).any hasLeadingZero then
          .error ⟨"numeric prerelease identifiers must not have leading zeroes"⟩
        else
          .ok ⟨letters, parts, (length_letters hletters).trans_le (not_lt.mp hlong), hmatched⟩

namespace PackageVersion

variable (version left right : PackageVersion)

def major : Nat := int version.parts.major
def minor : Nat := int version.parts.minor
def patch : Nat := int version.parts.patch
def prerelease : List (List Char) := version.parts.prerelease.getD []

/-- What one pair of identifiers says about the order of their lists. -/
def differs (left right : List Char) : Option Bool :=
  if left = right then none
  else if isNumeric left && isNumeric right then some (decide (int left < int right))
  else if isNumeric left != isNumeric right then some (isNumeric left)
  else some (decide (left < right))

/-- `_prerelease_precedes` -/
def prereleasePrecedes (left right : List (List Char)) : Bool :=
  if left.isEmpty && right.isEmpty then false
  else if left.isEmpty then false
  else if right.isEmpty then true
  else (Semver.firstDifference differs left right).getD (decide (left.length < right.length))

def release : Nat ×ₗ Nat ×ₗ Nat :=
  toLex (version.major, toLex (version.minor, version.patch))

/-- `left < right` -/
def lt : Bool :=
  if left.release ≠ right.release then decide (left.release < right.release)
  else prereleasePrecedes left.prerelease right.prerelease

/-- `left <= right`, as `total_ordering` completes it: less, or the same text. -/
def le : Bool :=
  left.lt right || left.value == right.value

def identify (identifier : List Char) : Semver.Identifier :=
  if isNumeric identifier then toLex (.inl (int identifier)) else toLex (.inr identifier)

def prereleaseRank (identifiers : List (List Char)) : WithTop (List Semver.Identifier) :=
  if identifiers = [] then ⊤ else ((identifiers.map identify : List Semver.Identifier) : WithTop _)

def rank : Semver.Rank :=
  Semver.rank version.major version.minor version.patch (prereleaseRank version.prerelease)

theorem int_eq_numeralValue {digits : List Char} (h : Text.IsNumeral digits) :
    int digits = Text.numeralValue digits := by
  have hdigit (digit : Char) (hdigit : digit.isDigit = true) :
      (Text.decimalDigit digit).getD 0 = digit.toNat - '0'.toNat := by
    have hbounds := Text.digit_bounds hdigit
    have hfirst : Text.decimalZeros.find? (fun first =>
        decide (first ≤ digit.toNat ∧ digit.toNat < first + 10)) = some 48 :=
      List.find?_cons_of_pos (decide_eq_true ⟨hbounds.1, by omega⟩)
    rw [Text.decimalDigit, hfirst]
    rfl
  rw [int, Text.numeralValue, Nat.ofDigitChars_eq_foldl]
  refine List.foldl_ext _ _ 0 fun value digit hmem => ?_
  rw [hdigit digit (h digit hmem)]

theorem isNumeral_of_isNumeric {identifier : List Char} (h : isNumeric identifier = true) :
    Text.IsNumeral identifier := by
  rw [isNumeric, Bool.and_eq_true, List.all_eq_true] at h
  exact h.2

theorem canonical_of_matches {identifier : List Char}
    (hmatches : matchesPrerelease identifier = true) (hnumeric : isNumeric identifier = true) :
    Text.IsCanonical identifier := by
  rw [matchesPrerelease, Bool.or_eq_true, beq_iff_eq] at hmatches
  refine hmatches.imp_right fun h => ⟨isNumeral_of_isNumeric hnumeric, ?_, ?_⟩
  · rintro rfl
    cases hnumeric
  · intro hhead
    rw [hhead] at h
    cases h

theorem differs_decides {left right : List Char} (hleft : matchesPrerelease left = true)
    (hright : matchesPrerelease right = true) : Semver.Decides differs identify left right := by
  rw [Semver.Decides, differs]
  by_cases hsame : left = right
  · rw [if_pos hsame]
    exact .inl ⟨rfl, congrArg identify hsame⟩
  rw [if_neg hsame]
  right
  cases hl : isNumeric left <;> cases hr : isNumeric right
  · exact ⟨_, rfl, by simpa [identify, hl, hr] using hsame, by simp [identify, hl, hr]⟩
  · exact ⟨_, rfl, by simp [identify, hl, hr], by simp [identify, hl, hr]⟩
  · exact ⟨_, rfl, by simp [identify, hl, hr], by simp [identify, hl, hr]⟩
  · refine ⟨_, rfl, ?_, by simp [identify, hl, hr]⟩
    intro heq
    have hvalue : int left = int right := by simpa [identify, hl, hr] using heq
    rw [int_eq_numeralValue (isNumeral_of_isNumeric hl),
      int_eq_numeralValue (isNumeral_of_isNumeric hr)] at hvalue
    exact hsame (Text.eq_of_canonical (canonical_of_matches hleft hl)
      (canonical_of_matches hright hr) hvalue)

theorem prereleasePrecedes_iff {left right : List (List Char)}
    (hleft : ∀ identifier ∈ left, matchesPrerelease identifier = true)
    (hright : ∀ identifier ∈ right, matchesPrerelease identifier = true) :
    prereleasePrecedes left right = true ↔ prereleaseRank left < prereleaseRank right := by
  have hloop := Semver.firstDifference_lt fun first hfirst second hsecond =>
    differs_decides (hleft first hfirst) (hright second hsecond)
  cases left with
  | nil => cases right <;> simp [prereleasePrecedes, prereleaseRank]
  | cons first left =>
    cases right with
    | nil => simp [prereleasePrecedes, prereleaseRank]
    | cons second right =>
      rw [prereleaseRank, if_neg (List.cons_ne_nil _ _), prereleaseRank,
        if_neg (List.cons_ne_nil _ _), WithTop.coe_lt_coe]
      exact hloop

variable {version left right}

theorem admitted : semverPattern.admits version.parts = true :=
  (Semver.Grammar.fullmatch_eq_some.mp version.matched).2

theorem text_eq : version.value = version.parts.text :=
  (Semver.Grammar.fullmatch_eq_some.mp version.matched).1

theorem matches_of_mem_prerelease :
    ∀ identifier ∈ version.prerelease, matchesPrerelease identifier = true := by
  have hlist := (Semver.Grammar.admits_iff.mp version.admitted).2.1
  rw [prerelease]
  cases hprerelease : version.parts.prerelease with
  | none => exact List.forall_mem_nil _
  | some identifiers =>
    rw [hprerelease, Semver.Grammar.listAdmits_some] at hlist
    exact hlist.2

theorem rank_lt : left.rank < right.rank ↔
    left.release < right.release ∨ left.release = right.release ∧
      prereleaseRank left.prerelease < prereleaseRank right.prerelease := by
  simp only [rank, Semver.rank, release, Prod.Lex.toLex_lt_toLex, toLex_inj, Prod.mk.injEq]
  tauto

theorem lt_iff_rank : left.lt right = true ↔ left.rank < right.rank := by
  rw [lt, rank_lt]
  split_ifs with hrelease
  · rw [decide_eq_true_eq]
    exact ⟨.inl, fun h => h.resolve_right fun heq => hrelease heq.1⟩
  · rw [not_not] at hrelease
    rw [prereleasePrecedes_iff matches_of_mem_prerelease matches_of_mem_prerelease, hrelease]
    simp

theorem ext (h : left.value = right.value) : left = right := by
  cases left with
  | mk value parts bounded matched =>
    cases right with
    | mk other otherParts otherBounded otherMatched =>
      obtain rfl : value = other := h
      obtain rfl := Option.some.inj (matched.symm.trans otherMatched)
      rfl

end PackageVersion

/-- `PackageCompatibility`: whether a range is accepted on a node of the current version. -/
def compatibility (minVersion maxVersion current : PackageVersion) : Except String Unit :=
  if maxVersion.lt minVersion then .error "nervos.min_version must be <= nervos.max_version"
  else if current.lt minVersion || maxVersion.lt current then
    .error "manifest is not compatible with this NervOS version"
  else .ok ()

/-- `is_compatible` of the package detail. -/
def isCompatible (minVersion maxVersion current : PackageVersion) : Bool :=
  minVersion.le current && current.le maxVersion

end Packages

end NervOS
