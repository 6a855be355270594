/-
Splitting a text at a doubled separator, trimming its ends, joining parts again, and the decimal
digits of Unicode.
-/
import Mathlib.Data.List.DropRight
import Mathlib.Tactic.Common

namespace Text

variable {α : Type} [DecidableEq α]

def splitPairs (separator : α) : List α → List (List α)
  | [] => [[]]
  | [last] => [[last]]
  | first :: second :: rest =>
    if first = separator ∧ second = separator then [] :: splitPairs separator rest
    else
      match splitPairs separator (second :: rest) with
      | [] => [[first]]
      | part :: parts => (first :: part) :: parts

def joinPairs (separator : α) : List (List α) → List α
  | [] => []
  | [part] => part
  | part :: parts => part ++ separator :: separator :: joinPairs separator parts

/-- Drop what `blank` accepts from both ends. -/
def trim (blank : α → Bool) (text : List α) : List α :=
  (text.dropWhile blank).rdropWhile blank

theorem not_mem_of_mem_splitOn {separator : α} {text part : List α}
    (h : part ∈ text.splitOn separator) : separator ∉ part := by
  induction text generalizing part with
  | nil =>
    rw [List.splitOn_nil, List.mem_singleton] at h
    rw [h]
    exact List.not_mem_nil
  | cons first rest ih =>
    rw [List.splitOn_cons_eq_if_modifyHead] at h
    by_cases hfirst : (first == separator) = true
    · rw [if_pos hfirst] at h
      cases h with
      | head => exact List.not_mem_nil
      | tail _ hmem => exact ih hmem
    · rw [if_neg hfirst] at h
      cases hparts : rest.splitOn separator with
      | nil => exact absurd hparts (List.splitOn_ne_nil separator rest)
      | cons head tail =>
        rw [hparts, List.modifyHead_cons] at h
        cases h with
        | head =>
          have hhead := ih (hparts ▸ List.mem_cons_self)
          intro hmem
          cases hmem with
          | head => exact hfirst (beq_self_eq_true _)
          | tail _ hmem => exact hhead hmem
        | tail _ hmem => exact ih (hparts ▸ List.mem_cons_of_mem head hmem)

theorem splitOn_eq_singleton_iff {separator : α} {text part : List α} :
    text.splitOn separator = [part] ↔ text = part ∧ separator ∉ part := by
  constructor
  · intro h
    have hpart : separator ∉ part := not_mem_of_mem_splitOn (h ▸ List.mem_cons_self)
    have htext : [separator].intercalate (text.splitOn separator) = text :=
      List.intercalate_splitOn separator
    rw [h] at htext
    exact ⟨by simpa using htext.symm, hpart⟩
  · rintro ⟨rfl, hnone⟩
    exact List.splitOn_eq_singleton hnone

theorem splitOn_eq_pair_iff {separator : α} {text first second : List α} :
    text.splitOn separator = [first, second] ↔
      text = first ++ separator :: second ∧ separator ∉ first ∧ separator ∉ second := by
  constructor
  · intro h
    have hfirst : separator ∉ first := not_mem_of_mem_splitOn (h ▸ List.mem_cons_self)
    have hsecond : separator ∉ second :=
      not_mem_of_mem_splitOn (h ▸ List.mem_cons_of_mem first List.mem_cons_self)
    have htext : [separator].intercalate (text.splitOn separator) = text :=
      List.intercalate_splitOn separator
    rw [h] at htext
    exact ⟨by simpa using htext.symm, hfirst, hsecond⟩
  · rintro ⟨rfl, hfirst, hsecond⟩
    rw [List.splitOn_append_cons_self_of_not_mem hfirst, List.splitOn_eq_singleton hsecond]

/-- The zeros of the decimal digit blocks of Unicode 15, each followed by nine digits. -/
def decimalZeros : List Nat :=
  [0x0030, 0x0660, 0x06F0, 0x07C0, 0x0966, 0x09E6, 0x0A66, 0x0AE6, 0x0B66, 0x0BE6, 0x0C66,
    0x0CE6, 0x0D66, 0x0DE6, 0x0E50, 0x0ED0, 0x0F20, 0x1040, 0x1090, 0x17E0, 0x1810, 0x1946,
    0x19D0, 0x1A80, 0x1A90, 0x1B50, 0x1BB0, 0x1C40, 0x1C50, 0xA620, 0xA8D0, 0xA900, 0xA9D0,
    0xA9F0, 0xAA50, 0xABF0, 0xFF10, 0x104A0, 0x10D30, 0x11066, 0x110F0, 0x11136, 0x111D0,
    0x112F0, 0x11450, 0x114D0, 0x11650, 0x116C0, 0x11730, 0x118E0, 0x11950, 0x11C50, 0x11D50,
    0x11DA0, 0x11F50, 0x16A60, 0x16AC0, 0x16B50, 0x1D7CE, 0x1D7D8, 0x1D7E2, 0x1D7EC, 0x1D7F6,
    0x1E140, 0x1E2F0, 0x1E4F0, 0x1E950, 0x1FBF0]

def decimalDigit (character : Char) : Option Nat :=
  (decimalZeros.find? fun first => first ≤ character.toNat ∧ character.toNat < first + 10).map
    (character.toNat - ·)

end Text
