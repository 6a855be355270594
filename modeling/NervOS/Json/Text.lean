/-
The canonical text of a JSON value, and its reader.  The text has sorted keys, no
insignificant white space, and escapes only what it must; the reader inverts it.
-/
import Mathlib.Data.List.TakeWhile
import NervOS.Json.Value

namespace Json

/-- Quotes, backslashes and control characters are escaped, nothing else. -/
def escape (character : Char) : List Char :=
  if character = '\x22' then ['\x5c', '\x22']
  else if character = '\x5c' then ['\x5c', '\x5c']
  else if character = '\x08' then ['\x5c', 'b']
  else if character = '\x0c' then ['\x5c', 'f']
  else if character = '\n' then ['\x5c', 'n']
  else if character = '\r' then ['\x5c', 'r']
  else if character = '\t' then ['\x5c', 't']
  else if character.toNat < 0x20 then
    ['\x5c', 'u', '0', '0', Nat.digitChar (character.toNat / 16),
      Nat.digitChar (character.toNat % 16)]
  else [character]

/-- The text of a string after its opening quote. -/
def stringTail (characters : List Char) : List Char :=
  characters.flatMap escape ++ ['\x22']

def intText (value : Int) : List Char :=
  if value < 0 then '-' :: Nat.toDigits 10 value.natAbs else Nat.toDigits 10 value.natAbs

mutual

def text : Value → List Char
  | .null => ['n', 'u', 'l', 'l']
  | .bool true => ['t', 'r', 'u', 'e']
  | .bool false => ['f', 'a', 'l', 's', 'e']
  | .int value => intText value
  | .float value => value.text
  | .str value => '\x22' :: stringTail value.toList
  | .arr items => '[' :: textItems items
  | .obj members => '\x7b' :: textMembers members

/-- The items of an array up to its closing bracket. -/
def textItems : List Value → List Char
  | [] => [']']
  | item :: rest => text item ++ textItemsTail rest

def textItemsTail : List Value → List Char
  | [] => [']']
  | item :: rest => ',' :: (text item ++ textItemsTail rest)

/-- The members of an object up to its closing brace. -/
def textMembers : List (String × Value) → List Char
  | [] => ['\x7d']
  | (key, value) :: rest =>
    '\x22' :: (stringTail key.toList ++ ':' :: (text value ++ textMembersTail rest))

def textMembersTail : List (String × Value) → List Char
  | [] => ['\x7d']
  | (key, value) :: rest =>
    ',' :: '\x22' :: (stringTail key.toList ++ ':' :: (text value ++ textMembersTail rest))

end

def canonicalText (value : Value) : String :=
  String.ofList (text value)

def hexValue (character : Char) : Option Nat :=
  if '0' ≤ character ∧ character ≤ '9' then some (character.toNat - '0'.toNat)
  else if 'a' ≤ character ∧ character ≤ 'f' then some (character.toNat - 'a'.toNat + 10)
  else none

/-- The character that a backslash and this letter stand for. -/
def unescape (character : Char) : Option Char :=
  if character = '\x22' ∨ character = '\x5c' ∨ character = '/' then some character
  else if character = 'b' then some '\x08'
  else if character = 'f' then some '\x0c'
  else if character = 'n' then some '\n'
  else if character = 'r' then some '\r'
  else if character = 't' then some '\t'
  else none

/-- The characters of a string after its opening quote, and what follows the closing
one. -/
def readString : List Char → Option (List Char × List Char)
  | '\x22' :: rest => some ([], rest)
  | '\x5c' :: 'u' :: '0' :: '0' :: high :: low :: rest => do
    let high ← hexValue high
    let low ← hexValue low
    let (characters, rest) ← readString rest
    some (Char.ofNat (16 * high + low) :: characters, rest)
  | '\x5c' :: letter :: rest => do
    let character ← unescape letter
    let (characters, rest) ← readString rest
    some (character :: characters, rest)
  | character :: rest =>
    if character.toNat < 0x20 then none
    else do
      let (characters, rest) ← readString rest
      some (character :: characters, rest)
  | [] => none

def isNumberCharacter (character : Char) : Bool :=
  character.isDigit || character == '-' || character == '+' || character == '.' ||
    character == 'e'

def readInt : List Char → Option Int
  | '-' :: digits =>
    if digits ≠ [] ∧ digits.all Char.isDigit then some (-(Nat.ofDigitChars 10 digits 0 : Int))
    else none
  | digits =>
    if digits ≠ [] ∧ digits.all Char.isDigit then some (Nat.ofDigitChars 10 digits 0 : Int)
    else none

/-- A number with a fraction or an exponent is a float, any other an integer. -/
def readNumber (number : List Char) : Option Value :=
  if hshape : isFloatText number = true then some (.float ⟨number, hshape⟩)
  else (readInt number).map .int

mutual

def readValue : Nat → List Char → Option (Value × List Char)
  | 0, _ => none
  | _ + 1, 'n' :: 'u' :: 'l' :: 'l' :: rest => some (.null, rest)
  | _ + 1, 't' :: 'r' :: 'u' :: 'e' :: rest => some (.bool true, rest)
  | _ + 1, 'f' :: 'a' :: 'l' :: 's' :: 'e' :: rest => some (.bool false, rest)
  | _ + 1, '\x22' :: rest => do
    let (characters, rest) ← readString rest
    some (.str (String.ofList characters), rest)
  | _ + 1, '[' :: ']' :: rest => some (.arr [], rest)
  | fuel + 1, '[' :: rest => do
    let (items, rest) ← readItems fuel rest
    some (.arr items, rest)
  | _ + 1, '\x7b' :: '\x7d' :: rest => some (.obj [], rest)
  | fuel + 1, '\x7b' :: '\x22' :: rest => do
    let (members, rest) ← readMembers fuel rest
    some (.obj (Value.ofMembers members), rest)
  | _ + 1, rest => do
    let value ← readNumber (rest.takeWhile isNumberCharacter)
    some (value, rest.dropWhile isNumberCharacter)

/-- The items of an array that has one, and what follows its bracket. -/
def readItems : Nat → List Char → Option (List Value × List Char)
  | 0, _ => none
  | fuel + 1, rest => do
    let (item, rest) ← readValue fuel rest
    match rest with
    | ']' :: rest => some ([item], rest)
    | ',' :: rest => do
      let (items, rest) ← readItems fuel rest
      some (item :: items, rest)
    | _ => none

/-- The members of an object after the opening quote of the first key. -/
def readMembers : Nat → List Char → Option (List (String × Value) × List Char)
  | 0, _ => none
  | fuel + 1, rest => do
    let (key, rest) ← readString rest
    match rest with
    | ':' :: rest => do
      let (value, rest) ← readValue fuel rest
      match rest with
      | '\x7d' :: rest => some ([(String.ofList key, value)], rest)
      | ',' :: '\x22' :: rest => do
        let (members, rest) ← readMembers fuel rest
        some ((String.ofList key, value) :: members, rest)
      | _ => none
    | _ => none

end

def loads (source : String) : Option Value :=
  match readValue (source.toList.length + 1) source.toList with
  | some (value, []) => some value
  | _ => none

theorem hexValue_digitChar : ∀ digit < 16, hexValue (Nat.digitChar digit) = some digit := by
  decide

variable (rest : List Char)

theorem readString_plain {character : Char} (hquote : character ≠ '\x22')
    (hbackslash : character ≠ '\x5c') (hcontrol : ¬ character.toNat < 0x20) :
    readString (character :: rest) =
      (readString rest).map fun result => (character :: result.1, result.2) := by
  rw [readString.eq_def]
  split
  · simp_all
  · simp_all
  · simp_all
  · rename_i other rest' _ _ heq
    obtain ⟨rfl, rfl⟩ := List.cons.inj heq
    rw [if_neg hcontrol]
    cases readString rest <;> rfl
  · simp_all

theorem readString_letter {letter character : Char} (hletter : letter ≠ 'u')
    (hcharacter : unescape letter = some character) :
    readString ('\x5c' :: letter :: rest) =
      (readString rest).map fun result => (character :: result.1, result.2) := by
  rw [readString.eq_def]
  split
  · simp_all
  · simp_all
  · rename_i other rest' _ heq
    obtain ⟨rfl, rfl⟩ := List.cons.inj (List.cons.inj heq).2
    rw [hcharacter]
    cases readString rest <;> rfl
  · rename_i hletters heq
    obtain ⟨rfl, rfl⟩ := List.cons.inj heq
    exact absurd rfl (hletters letter rest rfl)
  · simp_all

theorem readString_control {character : Char} (hcontrol : character.toNat < 0x20) :
    readString ('\x5c' :: 'u' :: '0' :: '0' :: Nat.digitChar (character.toNat / 16) ::
        Nat.digitChar (character.toNat % 16) :: rest) =
      (readString rest).map fun result => (character :: result.1, result.2) := by
  have hhigh := hexValue_digitChar (character.toNat / 16) (by omega)
  have hlow := hexValue_digitChar (character.toNat % 16) (by omega)
  have hvalue : 16 * (character.toNat / 16) + character.toNat % 16 = character.toNat := by
    omega
  rw [readString, hhigh, hlow]
  simp only [Option.bind_eq_bind, Option.bind_some, hvalue, Char.ofNat_toNat]
  cases readString rest <;> rfl

theorem readString_escape (character : Char) (rest : List Char) :
    readString (escape character ++ rest) =
      (readString rest).map fun result => (character :: result.1, result.2) := by
  unfold escape
  split
  · subst character
    exact readString_letter rest (by decide) (by decide)
  split
  · subst character
    exact readString_letter rest (by decide) (by decide)
  split
  · subst character
    exact readString_letter rest (by decide) (by decide)
  split
  · subst character
    exact readString_letter rest (by decide) (by decide)
  split
  · subst character
    exact readString_letter rest (by decide) (by decide)
  split
  · subst character
    exact readString_letter rest (by decide) (by decide)
  split
  · subst character
    exact readString_letter rest (by decide) (by decide)
  split
  · rename_i hcontrol
    exact readString_control rest hcontrol
  · rename_i hquote hbackslash _ _ _ _ _ hcontrol
    exact readString_plain rest hquote hbackslash hcontrol

theorem readString_stringTail (characters rest : List Char) :
    readString (stringTail characters ++ rest) = some (characters, rest) := by
  induction characters with
  | nil => simp [stringTail, readString]
  | cons character characters ih =>
    have hsplit : stringTail (character :: characters) ++ rest =
        escape character ++ (stringTail characters ++ rest) := by
      simp only [stringTail, List.flatMap_cons, List.append_assoc]
    rw [hsplit, readString_escape, ih]
    rfl

/-! ### Numbers -/

/-- What is left after a value is no part of a number. -/
def Delimited (rest : List Char) : Prop :=
  ∀ character ∈ rest.head?, isNumberCharacter character = false

variable {number rest : List Char}

theorem span_number (hnumber : number.all isNumberCharacter = true) (hrest : Delimited rest) :
    (number ++ rest).takeWhile isNumberCharacter = number ∧
      (number ++ rest).dropWhile isNumberCharacter = rest := by
  induction number with
  | nil =>
    cases rest with
    | nil => exact ⟨rfl, rfl⟩
    | cons character rest =>
      have hno := hrest character rfl
      simp [hno]
  | cons character number ih =>
    rw [List.all_cons, Bool.and_eq_true] at hnumber
    obtain ⟨htake, hdrop⟩ := ih hnumber.2
    simp [hnumber.1, htake, hdrop]

theorem toDigits_all (value : Nat) : (Nat.toDigits 10 value).all Char.isDigit = true := by
  rw [List.all_eq_true]
  intro character hcharacter
  exact Nat.isDigit_of_mem_toDigits (by decide) (by decide) hcharacter

variable {digits : List Char}

theorem isNumberCharacter_of_digits (hdigits : digits.all Char.isDigit = true) :
    digits.all isNumberCharacter = true := by
  rw [List.all_eq_true] at hdigits ⊢
  intro character hcharacter
  simp [isNumberCharacter, hdigits character hcharacter]

theorem takeWhile_all (p : Char → Bool) (characters : List Char) :
    (characters.takeWhile p).all p = true := by
  rw [List.all_eq_true]
  intro character hcharacter
  exact List.mem_takeWhile_imp hcharacter

theorem isUnsignedFloat_of_digits (hdigits : digits.all Char.isDigit = true) :
    isUnsignedFloat digits = false := by
  have hdrop : digits.dropWhile Char.isDigit = [] := by
    rw [List.dropWhile_eq_nil_iff]
    exact List.all_eq_true.mp hdigits
  rw [isUnsignedFloat, hdrop]
  exact Bool.and_false _

def BeginsNumber (number : List Char) : Prop :=
  ∃ first rest, number = first :: rest ∧ (first = '-' ∨ first.isDigit = true)

theorem beginsNumber_of_digits (hne : digits ≠ []) (hdigits : digits.all Char.isDigit = true) :
    BeginsNumber digits := by
  cases digits with
  | nil => exact absurd rfl hne
  | cons first rest =>
    rw [List.all_cons, Bool.and_eq_true] at hdigits
    exact ⟨first, rest, rfl, Or.inr hdigits.1⟩

theorem isFloatText_of_digit {first : Char} {rest : List Char} (hfirst : first.isDigit = true) :
    isFloatText (first :: rest) = isUnsignedFloat (first :: rest) := by
  rw [isFloatText.eq_def]
  split
  · rename_i heq
    obtain ⟨rfl, -⟩ := List.cons.inj heq
    cases hfirst
  · rfl

theorem readInt_of_digit {first : Char} {rest : List Char} (hfirst : first.isDigit = true)
    (hrest : rest.all Char.isDigit = true) :
    readInt (first :: rest) = some (Nat.ofDigitChars 10 (first :: rest) 0 : Int) := by
  rw [readInt.eq_def]
  split
  · rename_i heq
    obtain ⟨rfl, -⟩ := List.cons.inj heq
    cases hfirst
  · rw [if_pos]
    simp [hfirst, hrest]

theorem readNumber_intText (value : Int) :
    (intText value).all isNumberCharacter = true ∧ BeginsNumber (intText value) ∧
      readNumber (intText value) = some (.int value) := by
  have hall := toDigits_all value.natAbs
  have hne : Nat.toDigits 10 value.natAbs ≠ [] := Nat.toDigits_ne_nil
  unfold intText
  split
  · rename_i hnegative
    refine ⟨?_, ⟨'-', _, rfl, Or.inl rfl⟩, ?_⟩
    · rw [List.all_cons, isNumberCharacter_of_digits hall]
      rfl
    · rw [readNumber, dif_neg]
      · rw [readInt, if_pos ⟨hne, hall⟩, Nat.ofDigitChars_ten_toDigits, Option.map_some]
        congr 2
        omega
      · rw [isFloatText, isUnsignedFloat_of_digits hall]
        exact Bool.false_ne_true
  · rename_i hnonnegative
    refine ⟨isNumberCharacter_of_digits hall, beginsNumber_of_digits hne hall, ?_⟩
    cases hdigits : Nat.toDigits 10 value.natAbs with
    | nil => exact absurd hdigits hne
    | cons first rest =>
      rw [hdigits, List.all_cons, Bool.and_eq_true] at hall
      rw [readNumber, dif_neg]
      · rw [readInt_of_digit hall.1 hall.2, ← hdigits, Nat.ofDigitChars_ten_toDigits,
          Option.map_some]
        congr 2
        omega
      · rw [isFloatText_of_digit hall.1, isUnsignedFloat_of_digits]
        · exact Bool.false_ne_true
        · rw [List.all_cons, hall.1, hall.2]
          rfl

theorem isExponent_characters {text : List Char} (h : isExponent text = true) :
    text.all isNumberCharacter = true := by
  unfold isExponent at h
  split at h
  · rw [Bool.and_eq_true] at h
    rw [List.all_cons, isNumberCharacter_of_digits h.2]
    rfl
  · rw [Bool.and_eq_true] at h
    rw [List.all_cons, isNumberCharacter_of_digits h.2]
    rfl
  · cases h

theorem isFractional_characters {text : List Char} (h : isFractional text = true) :
    text.all isNumberCharacter = true := by
  unfold isFractional at h
  split at h
  · rename_i rest
    rw [Bool.and_eq_true] at h
    have hfraction := isNumberCharacter_of_digits (takeWhile_all Char.isDigit rest)
    have hexponent : (rest.dropWhile Char.isDigit).all isNumberCharacter = true := by
      have hrest := h.2
      split at hrest
      · rename_i heq
        rw [heq]
        rfl
      · rename_i digits heq
        rw [heq, List.all_cons, isExponent_characters hrest]
        rfl
      · cases hrest
    rw [List.all_cons, ← List.takeWhile_append_dropWhile (p := Char.isDigit) (l := rest),
      List.all_append, hfraction, hexponent]
    rfl
  · rename_i digits
    rw [List.all_cons, isExponent_characters h]
    rfl
  · cases h

theorem isUnsignedFloat_characters {text : List Char} (h : isUnsignedFloat text = true) :
    text.all isNumberCharacter = true ∧ BeginsNumber text := by
  rw [isUnsignedFloat, Bool.and_eq_true] at h
  have hwhole := takeWhile_all Char.isDigit text
  constructor
  · rw [← List.takeWhile_append_dropWhile (p := Char.isDigit) (l := text), List.all_append,
      isNumberCharacter_of_digits hwhole, isFractional_characters h.2]
    rfl
  · cases text with
    | nil => cases h.1
    | cons first rest =>
      refine ⟨first, rest, rfl, Or.inr ?_⟩
      by_contra hfirst
      rw [List.takeWhile_cons_of_neg hfirst] at h
      cases h.1

theorem FloatText.characters (value : FloatText) :
    value.text.all isNumberCharacter = true ∧ BeginsNumber value.text := by
  have hshape := value.shape
  unfold isFloatText at hshape
  split at hshape
  · rename_i text heq
    rw [heq, List.all_cons, (isUnsignedFloat_characters hshape).1]
    exact ⟨rfl, '-', text, rfl, Or.inl rfl⟩
  · exact isUnsignedFloat_characters hshape

theorem readNumber_floatText (value : FloatText) :
    readNumber value.text = some (.float value) := by
  rw [readNumber, dif_pos value.shape]

theorem readValue_number {value : Value} (fuel : Nat) (hbegins : BeginsNumber number)
    (hnumber : number.all isNumberCharacter = true) (hrest : Delimited rest)
    (hread : readNumber number = some value) :
    readValue (fuel + 1) (number ++ rest) = some (value, rest) := by
  obtain ⟨htake, hdrop⟩ := span_number hnumber hrest
  obtain ⟨first, tail, rfl, hfirst⟩ := hbegins
  have hnone : first ≠ 'n' ∧ first ≠ 't' ∧ first ≠ 'f' ∧ first ≠ '\x22' ∧ first ≠ '[' ∧
      first ≠ '\x7b' := by
    rcases hfirst with rfl | hdigit
    · decide
    · refine ⟨?_, ?_, ?_, ?_, ?_, ?_⟩ <;> (rintro rfl; revert hdigit; decide)
  rw [readValue.eq_def]
  split
  case h_10 heq =>
    rw [htake, hdrop, hread]
    rfl
  all_goals simp_all

/-! ### Values -/

theorem text_head (value : Value) : ∃ first rest, text value = first :: rest ∧ first ≠ ']' := by
  have hnumber : ∀ number, BeginsNumber number →
      ∃ first rest, number = first :: rest ∧ first ≠ ']' := by
    rintro number ⟨first, rest, rfl, hfirst⟩
    refine ⟨first, rest, rfl, ?_⟩
    rintro rfl
    revert hfirst
    decide
  cases value with
  | null => exact ⟨'n', _, by rw [text], by decide⟩
  | bool value =>
    cases value with
    | true => exact ⟨'t', _, by rw [text], by decide⟩
    | false => exact ⟨'f', _, by rw [text], by decide⟩
  | int value =>
    rw [text]
    exact hnumber _ (readNumber_intText value).2.1
  | float value =>
    rw [text]
    exact hnumber _ value.characters.2
  | str value => exact ⟨'\x22', _, by rw [text], by decide⟩
  | arr items => exact ⟨'[', _, by rw [text], by decide⟩
  | obj members => exact ⟨'\x7b', _, by rw [text], by decide⟩

theorem text_length_pos (value : Value) : 0 < (text value).length := by
  obtain ⟨first, rest, htext, -⟩ := text_head value
  rw [htext]
  exact Nat.succ_pos _

theorem textItems_cons (item : Value) (items : List Value) :
    textItems (item :: items) = text item ++ textItemsTail items := by
  rw [textItems]

theorem textItemsTail_cons (item : Value) (items : List Value) :
    textItemsTail (item :: items) = ',' :: textItems (item :: items) := by
  rw [textItemsTail, textItems]

theorem textMembersTail_cons (member : String × Value) (members : List (String × Value)) :
    textMembersTail (member :: members) = ',' :: textMembers (member :: members) := by
  rw [textMembersTail, textMembers]

theorem delimited_items (items : List Value) (rest : List Char) :
    Delimited (textItemsTail items ++ rest) := by
  intro character hcharacter
  cases items with
  | nil | cons =>
    rw [textItemsTail] at hcharacter
    obtain rfl := Option.some.inj hcharacter
    decide

theorem delimited_members (members : List (String × Value)) (rest : List Char) :
    Delimited (textMembersTail members ++ rest) := by
  intro character hcharacter
  cases members with
  | nil | cons =>
    rw [textMembersTail] at hcharacter
    obtain rfl := Option.some.inj hcharacter
    decide

theorem readValue_bracket {first : Char} {rest : List Char} (fuel : Nat) (hfirst : first ≠ ']') :
    readValue (fuel + 1) ('[' :: first :: rest) =
      (readItems fuel (first :: rest)).map fun result => (.arr result.1, result.2) := by
  rw [readValue.eq_def]
  split
  case h_7 hnot hfuel heq =>
    obtain rfl := (List.cons.inj heq).2
    obtain rfl := Nat.succ.inj hfuel
    cases readItems fuel (first :: rest) <;> rfl
  all_goals simp_all

mutual

theorem readValue_text : ∀ value : Value, value.WellFormed → ∀ (fuel : Nat) (rest : List Char),
    (text value).length ≤ fuel → Delimited rest →
    readValue fuel (text value ++ rest) = some (value, rest)
  | value, hvalue, 0, rest, hfuel, _ => by
    have hpos := text_length_pos value
    omega
  | .null, _, fuel + 1, rest, _, _ => by
    simp only [text, List.cons_append, List.nil_append]
    rw [readValue]
  | .bool true, _, fuel + 1, rest, _, _ => by
    simp only [text, List.cons_append, List.nil_append]
    rw [readValue]
  | .bool false, _, fuel + 1, rest, _, _ => by
    simp only [text, List.cons_append, List.nil_append]
    rw [readValue]
  | .int value, _, fuel + 1, rest, _, hrest => by
    obtain ⟨hnumber, hbegins, hread⟩ := readNumber_intText value
    rw [text]
    exact readValue_number fuel hbegins hnumber hrest hread
  | .float value, _, fuel + 1, rest, _, hrest => by
    obtain ⟨hnumber, hbegins⟩ := value.characters
    rw [text]
    exact readValue_number fuel hbegins hnumber hrest (readNumber_floatText value)
  | .str value, _, fuel + 1, rest, _, _ => by
    simp only [text, List.cons_append]
    rw [readValue, readString_stringTail]
    simp
  | .arr [], _, fuel + 1, rest, _, _ => by
    simp only [text, textItems, List.cons_append, List.nil_append]
    rw [readValue]
  | .arr (item :: items), hvalue, fuel + 1, rest, hfuel, _ => by
    have hitems := readItems_text item items hvalue fuel rest (by
      simp only [text, List.length_cons] at hfuel
      omega)
    obtain ⟨first, tail, hhead, hfirst⟩ := text_head item
    have hsplit : textItems (item :: items) ++ rest =
        first :: (tail ++ (textItemsTail items ++ rest)) := by
      rw [textItems_cons, hhead, List.append_assoc, List.cons_append]
    rw [text, List.cons_append]
    rw [hsplit] at hitems ⊢
    rw [readValue_bracket fuel hfirst, hitems]
    rfl
  | .obj [], _, fuel + 1, rest, _, _ => by
    simp only [text, textMembers, List.cons_append, List.nil_append]
    rw [readValue]
  | .obj ((key, value) :: members), hvalue, fuel + 1, rest, hfuel, _ => by
    have hmembers := readMembers_text key value members hvalue.2 fuel rest (by
      simp only [text, List.length_cons] at hfuel
      omega)
    simp only [text, textMembers, List.cons_append] at hmembers ⊢
    rw [readValue, hmembers]
    simp only [Option.bind_eq_bind, Option.bind_some]
    rw [Value.ofMembers_of_ascending hvalue.1]

theorem readItems_text : ∀ (item : Value) (items : List Value),
    Value.WellFormedItems (item :: items) → ∀ (fuel : Nat) (rest : List Char),
    (textItems (item :: items)).length ≤ fuel →
    readItems fuel (textItems (item :: items) ++ rest) = some (item :: items, rest)
  | item, items, hitems, 0, rest, hfuel => by
    have hpos := text_length_pos item
    rw [textItems_cons, List.length_append] at hfuel
    omega
  | item, [], hitems, fuel + 1, rest, hfuel => by
    rw [textItems_cons, List.length_append] at hfuel
    have hitem := readValue_text item hitems.1 fuel (textItemsTail [] ++ rest) (by
      simp only [textItemsTail, List.length_cons, List.length_nil] at hfuel
      omega) (delimited_items [] rest)
    rw [textItems_cons, List.append_assoc, readItems, hitem]
    simp [textItemsTail]
  | item, next :: items, hitems, fuel + 1, rest, hfuel => by
    rw [textItems_cons, textItemsTail_cons, List.length_append, List.length_cons] at hfuel
    have hpos := text_length_pos item
    have hitem := readValue_text item hitems.1 fuel (textItemsTail (next :: items) ++ rest) (by
      omega) (delimited_items (next :: items) rest)
    have hrest := readItems_text next items hitems.2 fuel rest (by omega)
    rw [textItems_cons, List.append_assoc, readItems, hitem, textItemsTail_cons,
      List.cons_append]
    simp only [Option.bind_eq_bind, Option.bind_some]
    rw [hrest]
    rfl

theorem readMembers_text : ∀ (key : String) (value : Value) (members : List (String × Value)),
    Value.WellFormedMembers ((key, value) :: members) → ∀ (fuel : Nat) (rest : List Char),
    (textMembers ((key, value) :: members)).length ≤ fuel + 1 →
    readMembers fuel (stringTail key.toList ++ ':' :: (text value ++ textMembersTail members) ++
      rest) = some ((key, value) :: members, rest)
  | key, value, members, hmembers, 0, rest, hfuel => by
    have hpos := text_length_pos value
    simp only [textMembers, List.length_append, List.length_cons] at hfuel
    omega
  | key, value, [], hmembers, fuel + 1, rest, hfuel => by
    simp only [textMembers, List.length_append, List.length_cons] at hfuel
    have hvalue := readValue_text value hmembers.1 fuel (textMembersTail [] ++ rest) (by
      omega) (delimited_members [] rest)
    rw [List.append_assoc, List.cons_append, List.append_assoc, readMembers,
      readString_stringTail]
    simp only [Option.bind_eq_bind, Option.bind_some]
    rw [hvalue]
    simp [textMembersTail]
  | key, value, (next, other) :: members, hmembers, fuel + 1, rest, hfuel => by
    rw [textMembers, textMembersTail_cons] at hfuel
    simp only [List.length_append, List.length_cons] at hfuel
    have hpos := text_length_pos value
    have hvalue := readValue_text value hmembers.1 fuel
      (textMembersTail ((next, other) :: members) ++ rest) (by omega)
      (delimited_members ((next, other) :: members) rest)
    have hrest := readMembers_text next other members hmembers.2 fuel rest (by omega)
    rw [List.append_assoc, List.cons_append, List.append_assoc, readMembers,
      readString_stringTail]
    simp only [Option.bind_eq_bind, Option.bind_some]
    rw [hvalue]
    simp only [textMembersTail_cons, textMembers, List.cons_append, Option.bind_some]
    rw [hrest]
    simp

end

theorem loads_canonicalText {value : Value} (hvalue : value.WellFormed) :
    loads (canonicalText value) = some value := by
  have hread := readValue_text value hvalue ((text value).length + 1) [] (Nat.le_succ _)
    fun _ hcharacter => nomatch hcharacter
  rw [List.append_nil] at hread
  rw [loads, canonicalText, String.toList_ofList, hread]

theorem canonicalText_injective {left right : Value} (hleft : left.WellFormed)
    (hright : right.WellFormed) (htext : canonicalText left = canonicalText right) :
    left = right := by
  have hread := loads_canonicalText hleft
  rw [htext, loads_canonicalText hright] at hread
  exact (Option.some.inj hread).symm

end Json
