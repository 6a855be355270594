/-
Semantic versions: the five parts of a version text, grammars that say which parts are admitted,
the order of precedence, and the comparison loop that decides it.
-/
import Mathlib.Data.Char
import Mathlib.Data.List.Lex
import Mathlib.Data.Prod.Lex
import Mathlib.Data.Sum.Order
import Mathlib.Order.WithBot
import NervOS.Text.Split

namespace Semver

/-- The parts of a version text.  A list that is present is never empty. -/
structure Parts where
  major : List Char
  minor : List Char
  patch : List Char
  prerelease : Option (List (List Char))
  build : Option (List (List Char))
deriving DecidableEq

def dotted (identifiers : List (List Char)) : List Char :=
  ['.'].intercalate identifiers

/-- A marker and what follows it, where it is there. -/
def marked (marker : Char) (identifiers : Option (List (List Char))) : List Char :=
  identifiers.elim [] fun identifiers => marker :: dotted identifiers

def Parts.core (parts : Parts) : List Char :=
  dotted [parts.major, parts.minor, parts.patch]

def Parts.text (parts : Parts) : List Char :=
  parts.core ++ marked '-' parts.prerelease ++ marked '+' parts.build

section Splitting

variable {marker : Char} {front back text : List Char}

/-- What stands before the first marker, and what stands behind it. -/
def partition (marker : Char) (text : List Char) : List Char × Option (List Char) :=
  (text.takeWhile (· ≠ marker), (text.dropWhile (· ≠ marker)).tail?)

theorem partition_of_marked (hfront : marker ∉ front) :
    partition marker (front ++ marker :: back) = (front, some back) := by
  have hall : ∀ letter ∈ front, decide (letter ≠ marker) = true := fun letter hletter =>
    decide_eq_true fun heq => hfront (heq ▸ hletter)
  rw [partition, List.takeWhile_append_of_pos hall, List.dropWhile_append_of_pos hall]
  simp

theorem partition_of_unmarked (hfront : marker ∉ front) :
    partition marker front = (front, none) := by
  have hall : ∀ letter ∈ front, decide (letter ≠ marker) = true := fun letter hletter =>
    decide_eq_true fun heq => hfront (heq ▸ hletter)
  rw [partition, List.takeWhile_eq_self_iff.mpr hall, List.dropWhile_eq_nil_iff.mpr hall]
  rfl

theorem partition_spec (marker : Char) (text : List Char) :
    text = (partition marker text).1 ++
        ((partition marker text).2.elim [] fun back => marker :: back) ∧
      marker ∉ (partition marker text).1 := by
  have hnone : marker ∉ text.takeWhile (· ≠ marker) := fun hmem => by
    simpa using List.mem_takeWhile_imp hmem
  refine ⟨?_, hnone⟩
  rw [partition]
  cases hdrop : text.dropWhile (· ≠ marker) with
  | nil =>
    have hwhole := List.takeWhile_append_dropWhile (p := (· ≠ marker)) (l := text)
    rw [hdrop] at hwhole
    simpa using hwhole.symm
  | cons first rest =>
    have hfirst : first = marker := by
      have hhead := List.head?_dropWhile_not (· ≠ marker) text
      rw [hdrop] at hhead
      simpa using hhead
    have hwhole := List.takeWhile_append_dropWhile (p := (· ≠ marker)) (l := text)
    rw [hdrop, hfirst] at hwhole
    exact hwhole.symm

end Splitting

def split? (text : List Char) : Option Parts :=
  let sides := partition '+' text
  let halves := partition '-' sides.1
  match halves.1.splitOn '.' with
  | [major, minor, patch] =>
    some ⟨major, minor, patch, halves.2.map (·.splitOn '.'), sides.2.map (·.splitOn '.')⟩
  | _ => none

/-- Which parts a version may have; what is admitted holds no mark that would end it. -/
structure Grammar where
  number : List Char → Bool
  prerelease : List Char → Bool
  build : List Char → Bool
  numberMarks : ∀ text, number text = true → '.' ∉ text ∧ '-' ∉ text ∧ '+' ∉ text
  prereleaseMarks : ∀ text, prerelease text = true → '.' ∉ text ∧ '+' ∉ text
  buildMarks : ∀ text, build text = true → '.' ∉ text

namespace Grammar

variable (grammar : Grammar) {parts : Parts} {text : List Char}

def listAdmits (identifier : List Char → Bool) (identifiers : Option (List (List Char))) : Bool :=
  identifiers.all fun identifiers => ! identifiers.isEmpty && identifiers.all identifier

def admits (parts : Parts) : Bool :=
  grammar.number parts.major && grammar.number parts.minor && grammar.number parts.patch &&
    listAdmits grammar.prerelease parts.prerelease && listAdmits grammar.build parts.build

def fullmatch (text : List Char) : Option Parts :=
  (split? text).filter grammar.admits

variable {identifiers : List (List Char)}

theorem listAdmits_some {identifier : List Char → Bool} :
    listAdmits identifier (some identifiers) = true ↔
      identifiers ≠ [] ∧ ∀ part ∈ identifiers, identifier part = true := by
  cases identifiers <;> simp [listAdmits]

variable {grammar}

theorem admits_iff : grammar.admits parts = true ↔
    (grammar.number parts.major = true ∧ grammar.number parts.minor = true ∧
        grammar.number parts.patch = true) ∧
      listAdmits grammar.prerelease parts.prerelease = true ∧
        listAdmits grammar.build parts.build = true := by
  simp only [admits, Bool.and_eq_true]
  tauto

theorem splitOn_dotted (hne : identifiers ≠ []) (hmarks : ∀ part ∈ identifiers, '.' ∉ part) :
    (dotted identifiers).splitOn '.' = identifiers :=
  List.splitOn_intercalate '.' hmarks hne

theorem not_mem_dotted {mark : Char} (hmark : mark ≠ '.')
    (hmarks : ∀ part ∈ identifiers, mark ∉ part) : mark ∉ dotted identifiers := by
  induction identifiers with
  | nil => exact List.not_mem_nil
  | cons first rest ih =>
    rw [List.forall_mem_cons] at hmarks
    cases rest with
    | nil => simpa [dotted] using hmarks.1
    | cons second rest =>
      have hrest := ih hmarks.2
      rw [dotted, List.intercalate_cons_cons, List.mem_append, List.mem_append]
      rintro ((hfirst | hdot) | htail)
      · exact hmarks.1 hfirst
      · exact hmark (List.mem_singleton.mp hdot)
      · exact hrest htail

theorem text_of_split (h : split? text = some parts) : text = parts.text := by
  obtain ⟨htext, -⟩ := partition_spec '+' text
  obtain ⟨hfront, -⟩ := partition_spec '-' (partition '+' text).1
  rw [split?] at h
  simp only at h
  split at h
  · rename_i major minor patch hcore
    obtain rfl := Option.some.inj h
    have hjoined : ['.'].intercalate [major, minor, patch] =
        (partition '-' (partition '+' text).1).1 := by
      rw [← hcore]
      exact List.intercalate_splitOn '.'
    have hrejoin (marker : Char) (rest : Option (List Char)) :
        (rest.elim [] fun back => marker :: back) = marked marker (rest.map (·.splitOn '.')) := by
      cases rest with
      | none => rfl
      | some back => exact congrArg (marker :: ·) (List.intercalate_splitOn '.').symm
    rw [Parts.text, ← hrejoin, ← hrejoin, Parts.core, dotted, hjoined, ← hfront, ← htext]
  · cases h

theorem split_text (hadmits : grammar.admits parts = true) : split? parts.text = some parts := by
  obtain ⟨⟨hmajor, hminor, hpatch⟩, hprerelease, hbuild⟩ := admits_iff.mp hadmits
  have hmajorMarks := grammar.numberMarks _ hmajor
  have hminorMarks := grammar.numberMarks _ hminor
  have hpatchMarks := grammar.numberMarks _ hpatch
  have hcoreMark (mark : Char) (hmark : mark ≠ '.')
      (hnone : mark ∉ parts.major ∧ mark ∉ parts.minor ∧ mark ∉ parts.patch) :
      mark ∉ parts.core := by
    refine not_mem_dotted hmark ?_
    simpa using hnone
  have hplus : '+' ∉ parts.core ++ marked '-' parts.prerelease := by
    rw [List.mem_append]
    rintro (hcore | hmarked)
    · exact hcoreMark '+' (by decide) ⟨hmajorMarks.2.2, hminorMarks.2.2, hpatchMarks.2.2⟩ hcore
    · cases hlist : parts.prerelease with
      | none =>
        rw [hlist] at hmarked
        cases hmarked
      | some identifiers =>
        rw [hlist, listAdmits_some] at hprerelease
        rw [hlist] at hmarked
        rcases List.mem_cons.mp hmarked with hhead | htail
        · exact absurd hhead (by decide)
        · exact not_mem_dotted (by decide)
            (fun part hpart => (grammar.prereleaseMarks part (hprerelease.2 part hpart)).2) htail
  have hminus : '-' ∉ parts.core :=
    hcoreMark '-' (by decide) ⟨hmajorMarks.2.1, hminorMarks.2.1, hpatchMarks.2.1⟩
  have hpartition (marker : Char) (front : List Char) (hfront : marker ∉ front)
      (identifiers : Option (List (List Char))) :
      partition marker (front ++ marked marker identifiers) = (front, identifiers.map dotted) := by
    cases identifiers with
    | none =>
      rw [marked, Option.elim_none, List.append_nil]
      exact partition_of_unmarked hfront
    | some identifiers => exact partition_of_marked hfront
  have hcoreSplit : parts.core.splitOn '.' = [parts.major, parts.minor, parts.patch] := by
    refine splitOn_dotted (by simp) ?_
    simpa using ⟨hmajorMarks.1, hminorMarks.1, hpatchMarks.1⟩
  have hlist (identifier : List Char → Bool)
      (hdots : ∀ part, identifier part = true → '.' ∉ part)
      (identifiers : Option (List (List Char))) (hlist : listAdmits identifier identifiers = true) :
      (identifiers.map dotted).map (·.splitOn '.') = identifiers := by
    cases identifiers with
    | none => rfl
    | some identifiers =>
      obtain ⟨hne, hall⟩ := listAdmits_some.mp hlist
      exact congrArg some (splitOn_dotted hne fun part hpart => hdots part (hall part hpart))
  rw [split?, Parts.text, hpartition '+' _ hplus]
  simp only
  rw [hpartition '-' _ hminus]
  simp only
  rw [hcoreSplit]
  simp only
  rw [hlist _ (fun part h => (grammar.prereleaseMarks part h).1) _ hprerelease,
    hlist _ grammar.buildMarks _ hbuild]

theorem fullmatch_eq_some :
    grammar.fullmatch text = some parts ↔ text = parts.text ∧ grammar.admits parts = true := by
  rw [fullmatch, Option.filter_eq_some_iff]
  constructor
  · rintro ⟨hsplit, hadmits⟩
    exact ⟨text_of_split hsplit, hadmits⟩
  · rintro ⟨rfl, hadmits⟩
    exact ⟨split_text hadmits, hadmits⟩

theorem parts_unique {other : Grammar} {otherParts : Parts} (hadmits : grammar.admits parts = true)
    (hother : other.admits otherParts = true) (htext : parts.text = otherParts.text) :
    parts = otherParts := by
  have hsplit := split_text hadmits
  rw [htext, split_text hother] at hsplit
  exact (Option.some.inj hsplit).symm

end Grammar

section Specification

/-- `[0-9A-Za-z-]` -/
def isLetter (letter : Char) : Bool :=
  letter.isAlphanum || letter == '-'

/-- Digits, without a leading zero. -/
def numericIdentifier (text : List Char) : Bool :=
  ! text.isEmpty && text.all Char.isDigit && (text == ['0'] || text.head? != some '0')

def alphanumericIdentifier (text : List Char) : Bool :=
  text.all isLetter && text.any fun letter => ! letter.isDigit

def prereleaseIdentifier (text : List Char) : Bool :=
  numericIdentifier text || alphanumericIdentifier text

def buildIdentifier (text : List Char) : Bool :=
  ! text.isEmpty && text.all isLetter

theorem isLetter_of_isDigit {letter : Char} (h : letter.isDigit = true) :
    isLetter letter = true := by
  rw [isLetter, Char.isAlphanum, h, Bool.or_true, Bool.true_or]

variable {text : List Char}

theorem digits_of_numericIdentifier (h : numericIdentifier text = true) :
    ∀ letter ∈ text, letter.isDigit = true := by
  rw [numericIdentifier, Bool.and_eq_true, Bool.and_eq_true, List.all_eq_true] at h
  exact h.1.2

theorem letters_of_prereleaseIdentifier (h : prereleaseIdentifier text = true) :
    ∀ letter ∈ text, isLetter letter = true := by
  rw [prereleaseIdentifier, Bool.or_eq_true] at h
  rcases h with h | h
  · exact fun letter hletter => isLetter_of_isDigit (digits_of_numericIdentifier h letter hletter)
  · rw [alphanumericIdentifier, Bool.and_eq_true, List.all_eq_true] at h
    exact h.1

theorem not_mem_of_all {letters : Char → Bool} {mark : Char}
    (hall : ∀ letter ∈ text, letters letter = true) (hmark : letters mark = false) :
    mark ∉ text := fun hmem => by
  rw [hall mark hmem] at hmark
  cases hmark

/-- Semantic Versioning 2.0.0. -/
def specification : Grammar where
  number := numericIdentifier
  prerelease := prereleaseIdentifier
  build := buildIdentifier
  numberMarks _ h :=
    have hall := digits_of_numericIdentifier h
    ⟨not_mem_of_all hall rfl, not_mem_of_all hall rfl, not_mem_of_all hall rfl⟩
  prereleaseMarks _ h :=
    have hall := letters_of_prereleaseIdentifier h
    ⟨not_mem_of_all hall rfl, not_mem_of_all hall rfl⟩
  buildMarks _ h := by
    rw [buildIdentifier, Bool.and_eq_true, List.all_eq_true] at h
    exact not_mem_of_all h.2 rfl

end Specification

/-- An identifier as it is compared: by its value, or by its letters. -/
abbrev Identifier : Type := ℕ ⊕ₗ List Char

/-- What decides the precedence of a version; a version without prerelease comes last. -/
abbrev Rank : Type := ℕ ×ₗ ℕ ×ₗ ℕ ×ₗ WithTop (List Identifier)

def rank (major minor patch : ℕ) (prerelease : WithTop (List Identifier)) : Rank :=
  toLex (major, toLex (minor, toLex (patch, prerelease)))

def firstDifference {α : Type} (differs : α → α → Option Bool) : List α → List α → Option Bool
  | left :: lefts, right :: rights => (differs left right).or (firstDifference differs lefts rights)
  | _, _ => none

variable {α β : Type} [LinearOrder β]

/-- What a comparison of two identifiers says about their readings. -/
def Decides (differs : α → α → Option Bool) (read : α → β) (left right : α) : Prop :=
  (differs left right = none ∧ read left = read right) ∨
    ∃ verdict, differs left right = some verdict ∧ read left ≠ read right ∧
      (verdict = true ↔ read left < read right)

variable {differs : α → α → Option Bool} {read : α → β}

theorem firstDifference_lt {lefts rights : List α}
    (hdecides : ∀ left ∈ lefts, ∀ right ∈ rights, Decides differs read left right) :
    (firstDifference differs lefts rights).getD (decide (lefts.length < rights.length)) = true ↔
      lefts.map read < rights.map read := by
  induction lefts generalizing rights with
  | nil => cases rights <;> simp [firstDifference]
  | cons left lefts ih =>
    cases rights with
    | nil => simp [firstDifference]
    | cons right rights =>
      have htail := ih fun left hleft right hright =>
        hdecides left (List.mem_cons_of_mem _ hleft) right (List.mem_cons_of_mem _ hright)
      rw [firstDifference, List.map_cons, List.map_cons, List.cons_lt_cons_iff]
      rcases hdecides left List.mem_cons_self right List.mem_cons_self with
        ⟨hnone, hsame⟩ | ⟨verdict, hsome, hdistinct, hverdict⟩
      · rw [hnone, Option.none_or, List.length_cons, List.length_cons, ← htail]
        simp [hsame]
      · rw [hsome, Option.some_or, Option.getD_some, hverdict]
        simp [hdistinct]

end Semver
