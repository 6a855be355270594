/-
Decimal numerals: their values, padding to a width, and the order of numerals of one width.
-/
import Mathlib.Data.Char
import Mathlib.Data.List.Lex
import Mathlib.Tactic.Ring
import NervOS.Text.Split

namespace Text

def numeralValue (numeral : List Char) : Nat :=
  Nat.ofDigitChars 10 numeral 0

def IsNumeral (numeral : List Char) : Prop :=
  ∀ digit ∈ numeral, digit.isDigit = true

def zfill (width : Nat) (numeral : List Char) : List Char :=
  List.replicate (width - numeral.length) '0' ++ numeral

variable {left right numeral : List Char} {width : Nat}

theorem digit_bounds {digit : Char} (h : digit.isDigit = true) :
    48 ≤ digit.toNat ∧ digit.toNat ≤ 57 := by
  rw [Char.isDigit, Bool.and_eq_true, decide_eq_true_eq, decide_eq_true_eq] at h
  exact ⟨h.1, h.2⟩

theorem numeralValue_cons (digit : Char) (rest : List Char) :
    numeralValue (digit :: rest) = 10 ^ rest.length * (digit.toNat - 48) + numeralValue rest := by
  rw [numeralValue, Nat.ofDigitChars_cons, Nat.ofDigitChars_eq_ofDigitChars_zero, Nat.mul_zero,
    Nat.zero_add]
  rfl

theorem numeralValue_lt (h : IsNumeral numeral) : numeralValue numeral < 10 ^ numeral.length := by
  induction numeral with
  | nil => exact Nat.one_pos
  | cons digit rest ih =>
    rw [IsNumeral, List.forall_mem_cons] at h
    have hdigit := digit_bounds h.1
    have hrest := ih h.2
    have hmul : 10 ^ rest.length * (digit.toNat - 48) ≤ 10 ^ rest.length * 9 :=
      Nat.mul_le_mul_left _ (by omega)
    rw [numeralValue_cons, List.length_cons, Nat.pow_succ]
    omega

theorem toNat_lt_toNat {left right : Char} : left < right ↔ left.toNat < right.toNat :=
  Iff.rfl

section

variable (hlength : left.length = right.length) (hleft : IsNumeral left) (hright : IsNumeral right)

include hlength hleft hright

theorem lt_of_numeralValue_lt (h : numeralValue left < numeralValue right) : left < right := by
  induction left generalizing right with
  | nil =>
    rw [List.length_nil, eq_comm, List.length_eq_zero_iff] at hlength
    rw [hlength] at h
    exact absurd h (Nat.lt_irrefl _)
  | cons digit rest ih =>
    cases right with
    | nil => exact absurd hlength (Nat.succ_ne_zero _)
    | cons other tail =>
      rw [IsNumeral, List.forall_mem_cons] at hleft hright
      rw [List.length_cons, List.length_cons, Nat.add_right_cancel_iff] at hlength
      rw [numeralValue_cons, numeralValue_cons, hlength] at h
      rw [List.cons_lt_cons_iff]
      rcases lt_trichotomy digit other with hlt | rfl | hgt
      · exact .inl hlt
      · exact .inr ⟨rfl, ih hlength hleft.2 hright.2 (by omega)⟩
      · have htail := numeralValue_lt hright.2
        have hdigit := digit_bounds hright.1
        have hmul : 10 ^ tail.length * (other.toNat - 48 + 1) ≤
            10 ^ tail.length * (digit.toNat - 48) := by
          have hgt' := toNat_lt_toNat.mp hgt
          exact Nat.mul_le_mul_left _ (by omega)
        rw [Nat.mul_add, Nat.mul_one] at hmul
        omega

theorem eq_of_numeralValue_eq (h : numeralValue left = numeralValue right) : left = right := by
  induction left generalizing right with
  | nil => exact (List.length_eq_zero_iff.mp hlength.symm).symm
  | cons digit rest ih =>
    cases right with
    | nil => exact absurd hlength (Nat.succ_ne_zero _)
    | cons other tail =>
      rw [IsNumeral, List.forall_mem_cons] at hleft hright
      rw [List.length_cons, List.length_cons, Nat.add_right_cancel_iff] at hlength
      rw [numeralValue_cons, numeralValue_cons, hlength] at h
      have hrest := numeralValue_lt hleft.2
      have htail := numeralValue_lt hright.2
      rw [hlength] at hrest
      have hdigit : digit.toNat - 48 = other.toNat - 48 := by
        have hquotient := congrArg (· / 10 ^ tail.length) h
        rwa [Nat.mul_add_div (Nat.pow_pos (by decide)), Nat.mul_add_div
          (Nat.pow_pos (by decide)), Nat.div_eq_of_lt hrest, Nat.div_eq_of_lt htail] at hquotient
      rw [hdigit, Nat.add_left_cancel_iff] at h
      have hbounds := digit_bounds hleft.1
      have hother := digit_bounds hright.1
      have hsame : digit = other := Char.toNat_inj.mp (by omega)
      rw [hsame, ih hlength hleft.2 hright.2 h]

end

theorem pow_le_numeralValue {digit : Char} {rest : List Char} (hdigit : digit.isDigit = true)
    (hzero : digit ≠ '0') : 10 ^ rest.length ≤ numeralValue (digit :: rest) := by
  have hbounds := digit_bounds hdigit
  have hpos : 48 < digit.toNat := by
    refine lt_of_le_of_ne hbounds.1 fun heq => hzero ?_
    exact Char.toNat_inj.mp heq.symm
  rw [numeralValue_cons]
  calc 10 ^ rest.length = 10 ^ rest.length * 1 := (Nat.mul_one _).symm
    _ ≤ 10 ^ rest.length * (digit.toNat - 48) := Nat.mul_le_mul_left _ (by omega)
    _ ≤ _ := Nat.le_add_right _ _

/-- The zero, or digits without a leading zero. -/
def IsCanonical (numeral : List Char) : Prop :=
  numeral = ['0'] ∨ IsNumeral numeral ∧ numeral ≠ [] ∧ numeral.head? ≠ some '0'

theorem IsCanonical.isNumeral (h : IsCanonical numeral) : IsNumeral numeral := by
  rcases h with rfl | h
  · exact fun digit hdigit => by
      rw [List.mem_singleton.mp hdigit]
      rfl
  · exact h.1

theorem IsCanonical.pow_le (h : IsCanonical numeral) (hvalue : numeralValue numeral ≠ 0) :
    10 ^ (numeral.length - 1) ≤ numeralValue numeral := by
  rcases h with rfl | ⟨hdigits, hne, hhead⟩
  · exact absurd rfl hvalue
  · cases numeral with
    | nil => exact absurd rfl hne
    | cons digit rest =>
      refine pow_le_numeralValue (hdigits digit List.mem_cons_self) fun hzero => hhead ?_
      rw [hzero]
      rfl

theorem IsCanonical.eq_zero (h : IsCanonical numeral) (hvalue : numeralValue numeral = 0) :
    numeral = ['0'] := by
  refine h.resolve_right ?_
  rintro ⟨hdigits, hne, hhead⟩
  cases numeral with
  | nil => exact hne rfl
  | cons digit rest =>
    have hpow : 10 ^ rest.length ≤ numeralValue (digit :: rest) :=
      pow_le_numeralValue (hdigits digit List.mem_cons_self) fun hzero => hhead (by
        rw [hzero]
        rfl)
    rw [hvalue] at hpow
    exact absurd hpow (Nat.not_le.mpr (Nat.pow_pos (by decide)))

theorem eq_of_canonical (hleft : IsCanonical left) (hright : IsCanonical right)
    (h : numeralValue left = numeralValue right) : left = right := by
  by_cases hzero : numeralValue left = 0
  · rw [hleft.eq_zero hzero, hright.eq_zero (h ▸ hzero)]
  · have hshort := hleft.pow_le hzero
    have hother := hright.pow_le (h ▸ hzero)
    have hlong := numeralValue_lt hleft.isNumeral
    have hotherLong := numeralValue_lt hright.isNumeral
    have hbelow := (Nat.pow_lt_pow_iff_right (by decide : 1 < 10)).mp
      (hshort.trans_lt (h ▸ hotherLong))
    have habove := (Nat.pow_lt_pow_iff_right (by decide : 1 < 10)).mp
      (hother.trans_lt (h ▸ hlong))
    exact eq_of_numeralValue_eq (by omega) hleft.isNumeral hright.isNumeral h

theorem isNumeral_toDigits (value : Nat) : IsNumeral (Nat.toDigits 10 value) := fun _ hdigit =>
  Nat.isDigit_of_mem_toDigits (by decide) (by decide) hdigit

theorem numeralValue_toDigits (value : Nat) : numeralValue (Nat.toDigits 10 value) = value :=
  Nat.ofDigitChars_ten_toDigits

theorem isNumeral_zfill (h : IsNumeral numeral) : IsNumeral (zfill width numeral) := by
  intro digit hdigit
  rcases List.mem_append.mp hdigit with hzero | hnumeral
  · rw [(List.mem_replicate.mp hzero).2]
    rfl
  · exact h digit hnumeral

theorem length_zfill (h : numeral.length ≤ width) : (zfill width numeral).length = width := by
  rw [zfill, List.length_append, List.length_replicate]
  omega

theorem numeralValue_zfill : numeralValue (zfill width numeral) = numeralValue numeral := by
  rw [numeralValue, zfill, Nat.ofDigitChars_append, Nat.ofDigitChars_replicate_zero, Nat.mul_zero]
  rfl

theorem zfill_lt_zfill {before after : Nat} (hbefore : before < 10 ^ width)
    (hafter : after < 10 ^ width) (hwidth : 0 < width) (h : before < after) :
    zfill width (Nat.toDigits 10 before) < zfill width (Nat.toDigits 10 after) := by
  have hlength (value : Nat) (hvalue : value < 10 ^ width) :
      (zfill width (Nat.toDigits 10 value)).length = width :=
    length_zfill ((Nat.length_toDigits_le_iff (by decide) hwidth).mpr hvalue)
  refine lt_of_numeralValue_lt ((hlength before hbefore).trans (hlength after hafter).symm)
    (isNumeral_zfill (isNumeral_toDigits before)) (isNumeral_zfill (isNumeral_toDigits after)) ?_
  rwa [numeralValue_zfill, numeralValue_zfill, numeralValue_toDigits, numeralValue_toDigits]

end Text
