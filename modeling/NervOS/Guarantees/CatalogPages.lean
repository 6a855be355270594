/-
The key of a version embeds the order of precedence, and so the pages of a package's versions
show every release once, in the order of precedence.
-/
import Mathlib
import NervOS.Marketplace.Catalog

namespace NervOS

namespace Packages

open Relational Semver

section Letters

/-- A letter that is written as one byte, greater than the terminator. -/
def IsAscii (letter : Char) : Prop :=
  0 < letter.toNat ∧ letter.toNat < 128

variable {letter : Char}

theorem toNat_ascii (h : IsAscii letter) : (ascii letter).toNat = letter.toNat :=
  UInt8.toNat_ofNat_of_lt' (by have hlt := h.2; simp only [UInt8.size]; omega)

theorem ascii_lt_ascii {left right : Char} (hleft : IsAscii left) (hright : IsAscii right)
    (h : left < right) : ascii left < ascii right := by
  rw [UInt8.lt_iff_toNat_lt, toNat_ascii hleft, toNat_ascii hright]
  exact h

theorem zero_lt_ascii (h : IsAscii letter) : 0 < ascii letter := by
  rw [UInt8.lt_iff_toNat_lt, toNat_ascii h]
  exact h.1

theorem isAscii_of_isDigit (h : letter.isDigit = true) : IsAscii letter := by
  have hbounds := Text.digit_bounds h
  exact ⟨by omega, by omega⟩

theorem isAscii_of_isLetter (h : isIdentifierLetter letter = true) :
    IsAscii letter := by
  rw [isIdentifierLetter, Bool.or_eq_true, beq_iff_eq] at h
  rcases h with h | rfl
  · rw [Char.isAlphanum, Char.isAlpha, Char.isUpper, Char.isLower, Bool.or_eq_true,
      Bool.or_eq_true] at h
    rcases h with (h | h) | h
    · rw [decide_eq_true_eq] at h
      have hbounds : 65 ≤ letter.toNat ∧ letter.toNat ≤ 90 := h
      exact ⟨by omega, by omega⟩
    · rw [Bool.and_eq_true, decide_eq_true_eq, decide_eq_true_eq] at h
      have hbounds : 97 ≤ letter.toNat ∧ letter.toNat ≤ 122 := h
      exact ⟨by omega, by omega⟩
    · exact isAscii_of_isDigit h
  · exact ⟨by decide, by decide⟩

theorem map_ascii_lt {left right : List Char} (hleft : ∀ letter ∈ left, IsAscii letter)
    (hright : ∀ letter ∈ right, IsAscii letter) (h : left < right) :
    left.map ascii < right.map ascii := by
  induction left generalizing right with
  | nil =>
    cases right with
    | nil => exact absurd h (lt_irrefl _)
    | cons first right => exact List.nil_lt_cons _ _
  | cons first left ih =>
    cases right with
    | nil => exact absurd h (List.not_lt_nil _)
    | cons second right =>
      rw [List.forall_mem_cons] at hleft hright
      rw [List.cons_lt_cons_iff] at h
      rw [List.map_cons, List.map_cons, List.cons_lt_cons_iff]
      rcases h with h | ⟨rfl, h⟩
      · exact .inl (ascii_lt_ascii hleft.1 hright.1 h)
      · exact .inr ⟨rfl, ih hleft.2 hright.2 h⟩

end Letters

/-- A number of at most sixty-four digits. -/
def Fits (number : Nat) : Prop :=
  number < 10 ^ 64

theorem length_numberKey {number : Nat} (h : Fits number) : (numberKey number).length = 64 := by
  rw [numberKey, List.length_map]
  exact Text.length_zfill ((Nat.length_toDigits_le_iff (by decide) (by decide)).mpr h)

theorem numberKey_ordered : Text.OrderedCode Fits numberKey := by
  refine Text.OrderedCode.of_length (fun _ => length_numberKey) ?_
  intro before after hbefore hafter hlt
  have hletters (number : Nat) : ∀ letter ∈ Text.zfill 64 (Nat.toDigits 10 number),
      IsAscii letter := fun letter hletter =>
    isAscii_of_isDigit (Text.isNumeral_zfill (Text.isNumeral_toDigits number) letter hletter)
  exact map_ascii_lt (hletters before) (hletters after)
    (Text.zfill_lt_zfill hbefore hafter (by decide) hlt)

def identifierCode (identifier : Identifier) : List UInt8 :=
  Sum.elim (fun number => 1 :: (numberKey number ++ [0])) (fun part => 2 :: (part.map ascii ++ [0]))
    (ofLex identifier)

theorem identifierKey_eq (part : List Char) :
    identifierKey part = identifierCode (PackageVersion.identify part) := by
  rw [identifierKey, PackageVersion.identify]
  split_ifs <;> rfl

def IdentifierFits (identifier : Identifier) : Prop :=
  Sum.elim Fits (fun part => ∀ letter ∈ part, IsAscii letter) (ofLex identifier)

theorem identifierCode_ordered : Text.OrderedCode IdentifierFits identifierCode := by
  intro left right hleft hright hlt rest other
  cases left using Lex.rec with
  | _ left =>
  cases right using Lex.rec with
  | _ right =>
  cases left with
  | inl before =>
    cases right with
    | inl after =>
      have hvalue : before < after := by simpa using hlt
      have hcode := numberKey_ordered before after hleft hright hvalue
        ([0] ++ rest) ([0] ++ other)
      simpa [identifierCode, List.cons_lt_cons_iff] using hcode
    | inr part =>
      have hmark : (1 : UInt8) < 2 := by decide
      simp [identifierCode, List.cons_lt_cons_iff, hmark]
  | inr part =>
    cases right with
    | inl after => exact absurd hlt (by simp)
    | inr text =>
      have htext : part < text := by simpa using hlt
      have hcode := Text.terminated_lt (fun _ => zero_lt_ascii)
        (fun _ _ => ascii_lt_ascii) hleft hright htext rest other
      simpa [identifierCode, List.cons_lt_cons_iff] using hcode

theorem identifierCode_ne_nil (identifier : Identifier) : identifierCode identifier ≠ [] := by
  cases identifier using Lex.rec with
  | _ identifier => cases identifier <;> simp [identifierCode]

section Keys

variable {left right version : PackageVersion}

theorem int_lt (digits : List Char) : int digits < 10 ^ digits.length := by
  have hdigit (digit : Char) : (Text.decimalDigit digit).getD 0 < 10 := by
    rw [Text.decimalDigit]
    cases hfirst : Text.decimalZeros.find? fun first =>
        decide (first ≤ digit.toNat ∧ digit.toNat < first + 10) with
    | none =>
      rw [Option.map_none, Option.getD_none]
      decide
    | some first =>
      have hblock : first ≤ digit.toNat ∧ digit.toNat < first + 10 := by
        simpa using List.find?_some hfirst
      rw [Option.map_some, Option.getD_some]
      omega
  induction digits using List.reverseRecOn with
  | nil => exact Nat.one_pos
  | append_singleton digits digit ih =>
    have hlast := hdigit digit
    rw [int, List.foldl_append, List.foldl_cons, List.foldl_nil, List.length_append,
      List.length_singleton, Nat.pow_succ]
    rw [int] at ih
    omega

theorem length_le_dotted {part : List Char} {identifiers : List (List Char)}
    (h : part ∈ identifiers) : part.length ≤ (dotted identifiers).length := by
  induction identifiers with
  | nil => cases h
  | cons first rest ih =>
    cases rest with
    | nil =>
      rw [List.mem_singleton.mp h]
      simp [dotted]
    | cons second rest =>
      rw [dotted, List.intercalate_cons_cons, List.length_append, List.length_append]
      rcases List.mem_cons.mp h with rfl | h
      · omega
      · have hrest := ih h
        rw [dotted] at hrest
        omega

theorem fits_of_length {digits : List Char} (h : digits.length ≤ version.value.length) :
    Fits (int digits) :=
  (int_lt digits).trans_le (Nat.pow_le_pow_right (by decide) (h.trans version.bounded))

theorem release_fits :
    Fits version.major ∧ Fits version.minor ∧ Fits version.patch := by
  have hcore (number : List Char)
      (hnumber : number ∈ [version.parts.major, version.parts.minor, version.parts.patch]) :
      number.length ≤ version.value.length := by
    refine (length_le_dotted hnumber).trans ?_
    rw [version.text_eq, Parts.text, List.length_append, List.length_append, Parts.core]
    omega
  exact ⟨fits_of_length (hcore _ (by simp)), fits_of_length (hcore _ (by simp)),
    fits_of_length (hcore _ (by simp))⟩

theorem identifiers_fit :
    ∀ identifier ∈ version.prerelease.map PackageVersion.identify, IdentifierFits identifier := by
  intro identifier hidentifier
  obtain ⟨part, hpart, rfl⟩ := List.mem_map.mp hidentifier
  have hmatches := version.matches_of_mem_prerelease part hpart
  rw [PackageVersion.identify]
  split_ifs
  · have hlength : part.length ≤ version.value.length := by
      rw [PackageVersion.prerelease] at hpart
      rw [version.text_eq, Parts.text, List.length_append, List.length_append]
      cases hlist : version.parts.prerelease with
      | none =>
        rw [hlist] at hpart
        cases hpart
      | some identifiers =>
        rw [hlist] at hpart
        have hdotted : part.length ≤ (dotted identifiers).length := length_le_dotted hpart
        rw [marked, Option.elim_some, List.length_cons]
        omega
    exact fits_of_length hlength
  · exact fun letter hletter => isAscii_of_isLetter (matchesPrerelease_all hmatches letter hletter)

def prereleaseKey (identifiers : List (List Char)) : List UInt8 :=
  if identifiers.isEmpty then [1] else 0 :: identifiers.flatMap identifierKey

theorem precedenceKey_eq : precedenceKey version =
    numberKey version.major ++ (numberKey version.minor ++ (numberKey version.patch ++
      prereleaseKey version.prerelease)) := by
  rw [precedenceKey, prereleaseKey, List.append_assoc, List.append_assoc]

theorem flatMap_identifierKey (identifiers : List (List Char)) :
    identifiers.flatMap identifierKey =
      (identifiers.map PackageVersion.identify).flatMap identifierCode := by
  rw [List.flatMap_map]
  exact List.flatMap_congr fun part _ => identifierKey_eq part

theorem prereleaseKey_lt (h : PackageVersion.prereleaseRank left.prerelease <
      PackageVersion.prereleaseRank right.prerelease) :
    prereleaseKey left.prerelease < prereleaseKey right.prerelease := by
  have hleft := @identifiers_fit left
  have hright := @identifiers_fit right
  generalize left.prerelease = lefts at *
  generalize right.prerelease = rights at *
  cases lefts with
  | nil => exact absurd h not_top_lt
  | cons first lefts =>
    cases rights with
    | nil =>
      have hmark : (0 : UInt8) < 1 := by decide
      simp [prereleaseKey, List.cons_lt_cons_iff, hmark]
    | cons second rights =>
      rw [PackageVersion.prereleaseRank, if_neg (List.cons_ne_nil _ _),
        PackageVersion.prereleaseRank, if_neg (List.cons_ne_nil _ _),
        WithTop.coe_lt_coe] at h
      have hlist := identifierCode_ordered.flatMap identifierCode_ne_nil hleft hright h
      rw [← flatMap_identifierKey, ← flatMap_identifierKey] at hlist
      simpa [prereleaseKey, List.cons_lt_cons_iff] using hlist

theorem prereleaseKey_congr (h : PackageVersion.prereleaseRank left.prerelease =
      PackageVersion.prereleaseRank right.prerelease) :
    prereleaseKey left.prerelease = prereleaseKey right.prerelease := by
  generalize left.prerelease = lefts at *
  generalize right.prerelease = rights at *
  cases lefts with
  | nil =>
    cases rights with
    | nil => rfl
    | cons second rights => simp [PackageVersion.prereleaseRank] at h
  | cons first lefts =>
    cases rights with
    | nil => simp [PackageVersion.prereleaseRank] at h
    | cons second rights =>
      rw [PackageVersion.prereleaseRank, if_neg (List.cons_ne_nil _ _),
        PackageVersion.prereleaseRank, if_neg (List.cons_ne_nil _ _),
        WithTop.coe_inj] at h
      rw [prereleaseKey, prereleaseKey, flatMap_identifierKey, flatMap_identifierKey, h]
      rfl

theorem precedenceKey_lt (h : left.rank < right.rank) :
    precedenceKey left < precedenceKey right := by
  obtain ⟨hmajorLeft, hminorLeft, hpatchLeft⟩ := @release_fits left
  obtain ⟨hmajorRight, hminorRight, hpatchRight⟩ := @release_fits right
  rw [precedenceKey_eq, precedenceKey_eq]
  refine numberKey_ordered.append hmajorLeft hmajorRight ?_
  have hmajor : left.major < right.major ∨ left.major = right.major ∧
      (left.minor < right.minor ∨ left.minor = right.minor ∧
        (left.patch < right.patch ∨ left.patch = right.patch ∧
          PackageVersion.prereleaseRank left.prerelease <
            PackageVersion.prereleaseRank right.prerelease)) := by
    simpa only [PackageVersion.rank, Semver.rank, Prod.Lex.toLex_lt_toLex] using h
  refine hmajor.imp_right fun hminor => ⟨hminor.1, ?_⟩
  refine numberKey_ordered.append hminorLeft hminorRight ?_
  refine hminor.2.imp_right fun hpatch => ⟨hpatch.1, ?_⟩
  refine numberKey_ordered.append hpatchLeft hpatchRight ?_
  exact hpatch.2.imp_right fun hprerelease => ⟨hprerelease.1, prereleaseKey_lt hprerelease.2⟩

theorem precedenceKey_congr (h : left.rank = right.rank) :
    precedenceKey left = precedenceKey right := by
  have hparts : left.major = right.major ∧ left.minor = right.minor ∧ left.patch = right.patch ∧
      PackageVersion.prereleaseRank left.prerelease =
        PackageVersion.prereleaseRank right.prerelease := by
    simpa only [PackageVersion.rank, Semver.rank, toLex_inj, Prod.mk.injEq] using h
  obtain ⟨hmajor, hminor, hpatch, hprerelease⟩ := hparts
  rw [precedenceKey_eq, precedenceKey_eq, hmajor, hminor, hpatch, prereleaseKey_congr hprerelease]

theorem precedenceKey_lt_iff :
    precedenceKey left < precedenceKey right ↔ left.rank < right.rank := by
  refine ⟨fun h => ?_, precedenceKey_lt⟩
  rcases lt_trichotomy left.rank right.rank with hlt | heq | hgt
  · exact hlt
  · exact absurd h (by rw [precedenceKey_congr heq]; exact lt_irrefl _)
  · exact absurd h (lt_asymm (precedenceKey_lt hgt))

theorem precedenceKey_eq_iff :
    precedenceKey left = precedenceKey right ↔ left.rank = right.rank := by
  refine ⟨fun h => ?_, precedenceKey_congr⟩
  rcases lt_trichotomy left.rank right.rank with hlt | heq | hgt
  · exact absurd h (precedenceKey_lt hlt).ne
  · exact heq
  · exact absurd h (precedenceKey_lt hgt).ne'

end Keys

namespace Catalog

variable {catalog : Catalog} {packageId : String} {filter : VersionFilter} {limit : Nat}

theorem position_eq (release : PackageRelease) :
    release.position = cursorPosition release.exactVersion := by
  rw [PackageRelease.position, cursorPosition, release.keyed]

theorem bytes_injective {left right : PackageVersion} (h : left.bytes = right.bytes) :
    left.value = right.value :=
  Text.utf8_prefixCode.flatMap_injective h

theorem positions_nodup :
    ((catalog.matching packageId filter).map PackageRelease.position).Nodup := by
  have hrows : (catalog.matching packageId filter).Nodup :=
    (List.Nodup.of_map _ catalog.unique).sublist List.filter_sublist
  refine hrows.map_on fun left hleft right hright hsame => ?_
  have hbytes : left.exactVersion.bytes = right.exactVersion.bytes :=
    congrArg (fun position => (ofLex position).2) hsame
  obtain ⟨hleftRow, hleftMatches⟩ := List.mem_filter.mp hleft
  obtain ⟨hrightRow, hrightMatches⟩ := List.mem_filter.mp hright
  have hleftId := (of_decide_eq_true hleftMatches).1
  have hrightId := (of_decide_eq_true hrightMatches).1
  refine List.inj_on_of_nodup_map catalog.unique hleftRow hrightRow ?_
  rw [hleftId, hrightId, bytes_injective hbytes]

section

variable
    (hpublished : ∃ release ∈ catalog.releases, release.packageId = packageId ∧
        release.publicationState = .published)

include hpublished

theorem versions_eq (after : Option PackageVersion) :
    catalog.versions packageId filter limit after =
      .ok (Keyset.page PackageRelease.position limit (after.map cursorPosition)
        (catalog.matching packageId filter)) :=
  if_pos hpublished

theorem followVersions_eq (requests : Nat) (after : Option PackageVersion) :
    catalog.followVersions packageId filter limit requests after =
      .ok (Keyset.follow PackageRelease.position limit (catalog.matching packageId filter) requests
        (after.map cursorPosition)) := by
  induction requests generalizing after with
  | zero => rfl
  | succ requests ih =>
    rw [followVersions, versions_eq hpublished, Keyset.follow]
    simp only [bind, Except.bind, pure, Except.pure]
    generalize Keyset.page PackageRelease.position (limit + 1) (after.map cursorPosition)
      (catalog.matching packageId filter) = rows
    split_ifs
    · have hcursor : ((rows.take limit).getLast?.map (·.exactVersion)).map cursorPosition =
          (rows.take limit).getLast?.map PackageRelease.position := by
        rw [Option.map_map]
        exact Option.map_congr fun release _ => (position_eq release).symm
      rw [ih, hcursor]
    · rfl

end

theorem position_lt_iff {left right : PackageRelease} : left.position < right.position ↔
    right.exactVersion.lt left.exactVersion = true ∨
      (right.exactVersion.lt left.exactVersion = false ∧
        left.exactVersion.lt right.exactVersion = false) ∧
        left.exactVersion.bytes < right.exactVersion.bytes := by
  rw [position_eq, position_eq, cursorPosition, cursorPosition, Prod.Lex.toLex_lt_toLex]
  simp only [OrderDual.toDual_lt_toDual, OrderDual.toDual_inj]
  rw [precedenceKey_lt_iff, precedenceKey_eq_iff, PackageVersion.lt_iff_rank,
    ← Bool.not_eq_true, ← Bool.not_eq_true, PackageVersion.lt_iff_rank,
    PackageVersion.lt_iff_rank]
  have hties : left.exactVersion.rank = right.exactVersion.rank ↔
      ¬ right.exactVersion.rank < left.exactVersion.rank ∧
        ¬ left.exactVersion.rank < right.exactVersion.rank := by
    constructor
    · intro heq
      rw [heq]
      exact ⟨lt_irrefl _, lt_irrefl _⟩
    · rintro ⟨hnot, hnone⟩
      exact le_antisymm (not_lt.mp hnot) (not_lt.mp hnone)
  rw [hties]

theorem latestStable_eq : catalog.latestStable packageId =
    ((Keyset.ordered PackageRelease.position (catalog.matching packageId filter)).find?
      fun release => IsStable release).map (·.exactVersion) := by
  have hstable : (catalog.matching packageId filter).filter (fun release => IsStable release) =
      catalog.releases.filter fun release => release.packageId = packageId ∧
        release.publicationState = .published ∧ IsStable release := by
    rw [matching, List.filter_filter]
    refine List.filter_congr fun release _ => ?_
    rw [← Bool.decide_and, decide_eq_decide, Matches, IsStable]
    tauto
  have hordered : Keyset.ordered PackageRelease.position
        ((catalog.matching packageId filter).filter fun release => IsStable release) =
      (Keyset.ordered PackageRelease.position (catalog.matching packageId filter)).filter
        fun release => IsStable release :=
    Keyset.ordered_eq (Keyset.perm_ordered.filter _)
      ((Keyset.strict_ordered positions_nodup).sublist List.filter_sublist)
  rw [latestStable, ← hstable, hordered, List.head?_filter]

end Catalog

/-- The key of a version is less exactly when the version is lower, and so the cursors of a
package's versions show every matching release once, in descending precedence and ascending bytes
where it ties; the latest stable version is the first one of that order that is available and no
prerelease. -/
theorem catalog_order :
    (∀ left right : PackageVersion,
        (precedenceKey left < precedenceKey right ↔ left.lt right = true) ∧
          (precedenceKey left = precedenceKey right ↔
            left.lt right = false ∧ right.lt left = false)) ∧
      ∀ (catalog : Catalog) (packageId : String) (filter : VersionFilter) (limit requests : Nat),
        0 < limit →
        (∃ release ∈ catalog.releases, release.packageId = packageId ∧
          release.publicationState = .published) →
        (catalog.matching packageId filter).length ≤ requests * limit →
          ∃ shown, catalog.followVersions packageId filter limit requests none = .ok shown ∧
            shown.Perm (catalog.matching packageId filter) ∧
            (shown.Pairwise fun left right =>
              right.exactVersion.lt left.exactVersion = true ∨
                (right.exactVersion.lt left.exactVersion = false ∧
                  left.exactVersion.lt right.exactVersion = false) ∧
                  left.exactVersion.bytes < right.exactVersion.bytes) ∧
            catalog.latestStable packageId =
              (shown.find? fun release => Catalog.IsStable release).map (·.exactVersion) := by
  constructor
  · intro left right
    have hless : left.lt right = true ↔ left.rank < right.rank := PackageVersion.lt_iff_rank
    have hmore : right.lt left = true ↔ right.rank < left.rank := PackageVersion.lt_iff_rank
    rw [precedenceKey_lt_iff, precedenceKey_eq_iff, ← Bool.not_eq_true, ← Bool.not_eq_true, hless,
      hmore]
    refine ⟨Iff.rfl, fun heq => ?_, fun h => le_antisymm (not_lt.mp h.2) (not_lt.mp h.1)⟩
    rw [heq]
    exact ⟨lt_irrefl _, lt_irrefl _⟩
  · intro catalog packageId filter limit requests hlimit hpublished henough
    have hfollow : Keyset.follow PackageRelease.position limit (catalog.matching packageId filter)
          requests none =
        Keyset.ordered PackageRelease.position (catalog.matching packageId filter) := by
      rw [Keyset.follow_eq hlimit Catalog.positions_nodup (by rwa [Keyset.beyond_none]),
        Keyset.beyond_none]
    refine ⟨_, Catalog.followVersions_eq hpublished requests none, ?_, ?_, ?_⟩
    · rw [Option.map_none, hfollow]
      exact Keyset.perm_ordered
    · rw [Option.map_none, hfollow]
      exact (Keyset.strict_ordered Catalog.positions_nodup).imp fun h =>
        Catalog.position_lt_iff.mp h
    · rw [Option.map_none, hfollow]
      exact Catalog.latestStable_eq

end Packages

end NervOS
