/-
`json.loads`, without a hook or with an `object_pairs_hook` that refuses a repeated key: any JSON
text, lone surrogates in its strings included, up to the interpreter's limits on the digits of an
integer and on the nesting.
-/
import NervOS.Python.Value

namespace Python

/-- What the interpreter brings to the decoder: `float`, which reads the text of a number, the
longest integer that it converts, and how deep its scanner recurses. -/
structure Interpreter where
  float : List Char → Scalar
  maxDigits : Nat
  stack : Nat

/-- Why a text is not read: a `JSONDecodeError`, the `ValueError` of a long integer, a
`RecursionError`, or the refusal of the hook. -/
inductive DecodeFailure where
  | malformed
  | longInteger
  | recursion
  | duplicateKey
deriving DecidableEq

def hexDigit (character : Char) : Option Nat :=
  if 'A' ≤ character ∧ character ≤ 'F' then some (character.toNat - 'A'.toNat + 10)
  else Json.hexValue character

def codeUnit (a b c d : Char) : Option Nat := do
  let a ← hexDigit a
  let b ← hexDigit b
  let c ← hexDigit c
  let d ← hexDigit d
  some (4096 * a + 256 * b + 16 * c + d)

def codePoint (codeUnit : Nat) : Char ⊕ Fin 2048 :=
  if 0xD800 ≤ codeUnit ∧ codeUnit < 0xE000 then .inr (Fin.ofNat 2048 (codeUnit - 0xD800))
  else .inl (Char.ofNat codeUnit)

def readString : List Char → Option (Text × List Char)
  | '\x22' :: rest => some ([], rest)
  | '\x5c' :: 'u' :: a :: b :: c :: d :: rest => do
    let escaped ← codeUnit a b c d
    let (read, rest) ← readString rest
    some (codePoint escaped :: read, rest)
  | '\x5c' :: letter :: rest => do
    let character ← Json.unescape letter
    let (read, rest) ← readString rest
    some (.inl character :: read, rest)
  | character :: rest =>
    if character.toNat < 0x20 then none
    else do
      let (read, rest) ← readString rest
      some (.inl character :: read, rest)
  | [] => none

def joinSurrogates : Text → Text
  | .inr high :: .inr low :: rest =>
    if high.val < 1024 ∧ 1024 ≤ low.val then
      .inl (Char.ofNat (0x10000 + 1024 * high.val + (low.val - 1024))) :: joinSurrogates rest
    else .inr high :: joinSurrogates (.inr low :: rest)
  | first :: rest => first :: joinSurrogates rest
  | [] => []

def isNumberCharacter (character : Char) : Bool :=
  Json.isNumberCharacter character || character == 'E'

def isExponent : List Char → Bool
  | '+' :: digits | '-' :: digits => !digits.isEmpty && digits.all Char.isDigit
  | digits => !digits.isEmpty && digits.all Char.isDigit

def isExponentPart : List Char → Bool
  | 'e' :: rest | 'E' :: rest => isExponent rest
  | _ => false

/-- What makes a number a float: a fraction, an exponent, or both. -/
def isFractional : List Char → Bool
  | '.' :: rest =>
    !(rest.takeWhile Char.isDigit).isEmpty &&
      ((rest.dropWhile Char.isDigit).isEmpty || isExponentPart (rest.dropWhile Char.isDigit))
  | rest => isExponentPart rest

/-- Digits without a leading zero, or the zero. -/
def isWhole (digits : List Char) : Bool :=
  !digits.isEmpty && (digits.length == 1 || digits.head? != some '0')

/-- Whether a number without its sign is a float; nothing when it is no number. -/
def unsignedKind (text : List Char) : Option Bool :=
  if isWhole (text.takeWhile Char.isDigit) then
    if (text.dropWhile Char.isDigit).isEmpty then some false
    else if isFractional (text.dropWhile Char.isDigit) then some true
    else none
  else none

def numberKind : List Char → Option Bool
  | '-' :: text => unsignedKind text
  | text => unsignedKind text

def Interpreter.readNumber (py : Interpreter) (number : List Char) :
    Except DecodeFailure Scalar :=
  match numberKind number with
  | none => .error .malformed
  | some true => .ok (py.float number)
  | some false =>
    match Json.readInt number with
    | none => .error .malformed
    | some value =>
      if value.natAbs < 10 ^ py.maxDigits then .ok (.int value) else .error .longInteger

/-- A float of the interpreter: `repr` writes a number of JSON that `float` reads back. -/
def Interpreter.IsFloat (py : Interpreter) (value : Json.FloatText) : Prop :=
  numberKind value.text = some true ∧ py.float value.text = .float value

section Values

variable (py : Interpreter)

def literals : List (List Char × Scalar) :=
  [(['n', 'u', 'l', 'l'], .none), (['t', 'r', 'u', 'e'], .bool true),
    (['f', 'a', 'l', 's', 'e'], .bool false), (['N', 'a', 'N'], .nonFinite),
    (['I', 'n', 'f', 'i', 'n', 'i', 't', 'y'], .nonFinite),
    (['-', 'I', 'n', 'f', 'i', 'n', 'i', 't', 'y'], .nonFinite)]

def readLiteral (text : List Char) : Option (Scalar × List Char) :=
  (literals.find? fun literal => literal.1.isPrefixOf text).map fun literal =>
    (literal.2, text.drop literal.1.length)

def isBlank (character : Char) : Bool :=
  character == ' ' || character == '\t' || character == '\n' || character == '\r'

/-- What follows the white space. -/
def skip (text : List Char) : List Char :=
  text.dropWhile isBlank

def readScalar (text : List Char) : Except DecodeFailure (Scalar × List Char) :=
  match readLiteral text with
  | some found => .ok found
  | none => (py.readNumber (text.takeWhile isNumberCharacter)).map fun scalar =>
    (scalar, text.dropWhile isNumberCharacter)

/-- The hook, over the members of an object as they were written. -/
def uniqueMembers (members : List (Text × Value Text)) :
    Except DecodeFailure (Value Text) :=
  if (members.map Prod.fst).Nodup then .ok (.mapping .plain members) else .error .duplicateKey

def lastMembers (members : List (Text × Value Text)) : Except DecodeFailure (Value Text) :=
  .ok (.mapping .plain (dict members))

variable (hook : List (Text × Value Text) → Except DecodeFailure (Value Text))

mutual

def readValue : Nat → Nat → List Char → Except DecodeFailure (Value Text × List Char)
  | 0, _, _ => .error .malformed
  | fuel + 1, stack, text =>
    if text.head? = some '\x22' then
      match readString text.tail with
      | none => .error .malformed
      | some (read, rest) => .ok (.scalar (.str (joinSurrogates read)), rest)
    else if text.head? = some '[' then
      if stack = 0 then .error .recursion
      else readItems fuel (stack - 1) (skip text.tail)
    else if text.head? = some '\x7b' then
      if stack = 0 then .error .recursion
      else readMembers fuel (stack - 1) (skip text.tail)
    else (readScalar py text).map fun result => (.scalar result.1, result.2)

/-- An array after its opening bracket. -/
def readItems : Nat → Nat → List Char → Except DecodeFailure (Value Text × List Char)
  | 0, _, _ => .error .malformed
  | fuel + 1, stack, text =>
    if text.head? = some ']' then .ok (.sequence .plain [], text.tail)
    else do
      let (items, rest) ← readItemsTail fuel stack text
      .ok (.sequence .plain items, rest)

/-- The items of an array that has one, and what follows its bracket. -/
def readItemsTail : Nat → Nat → List Char → Except DecodeFailure (List (Value Text) × List Char)
  | 0, _, _ => .error .malformed
  | fuel + 1, stack, text => do
    let (item, rest) ← readValue fuel stack text
    match skip rest with
    | ']' :: rest => .ok ([item], rest)
    | ',' :: rest => do
      let (items, rest) ← readItemsTail fuel stack (skip rest)
      .ok (item :: items, rest)
    | _ => .error .malformed

/-- An object after its opening brace. -/
def readMembers : Nat → Nat → List Char → Except DecodeFailure (Value Text × List Char)
  | 0, _, _ => .error .malformed
  | fuel + 1, stack, text =>
    if text.head? = some '\x7d' then .ok (.mapping .plain [], text.tail)
    else do
      let (members, rest) ← readMembersTail fuel stack text
      let object ← hook members
      .ok (object, rest)

/-- The members of an object that has one, and what follows its brace. -/
def readMembersTail :
    Nat → Nat → List Char → Except DecodeFailure (List (Text × Value Text) × List Char)
  | 0, _, _ => .error .malformed
  | fuel + 1, stack, text =>
    if text.head? = some '\x22' then
      match readString text.tail with
      | none => .error .malformed
      | some (key, rest) =>
        match skip rest with
        | ':' :: rest => do
          let (value, rest) ← readValue fuel stack (skip rest)
          match skip rest with
          | '\x7d' :: rest => .ok ([(joinSurrogates key, value)], rest)
          | ',' :: rest => do
            let (members, rest) ← readMembersTail fuel stack (skip rest)
            .ok ((joinSurrogates key, value) :: members, rest)
          | _ => .error .malformed
        | _ => .error .malformed
    else .error .malformed

end

/-- Read a whole text: three calls for a character are enough. -/
def loadsWith (source : String) : Except DecodeFailure (Value Text) := do
  let (value, rest) ←
    readValue py hook (3 * source.toList.length + 3) py.stack (skip source.toList)
  if skip rest = [] then .ok value else .error .malformed

/-- Read a text whose objects repeat no key. -/
def loads (source : String) : Except DecodeFailure (Value Text) :=
  loadsWith py uniqueMembers source

end Values

mutual

def ofJson : Json.Value → Value Text
  | .null => .scalar .none
  | .bool value => .scalar (.bool value)
  | .int value => .scalar (.int value)
  | .float value => .scalar (.float value)
  | .str value => .scalar (.str (text value))
  | .arr items => .sequence .plain (ofJsonItems items)
  | .obj members => .mapping .plain (ofJsonMembers members)

def ofJsonItems : List Json.Value → List (Value Text)
  | [] => []
  | item :: rest => ofJson item :: ofJsonItems rest

def ofJsonMembers : List (String × Json.Value) → List (Text × Value Text)
  | [] => []
  | (key, value) :: rest => (text key, ofJson value) :: ofJsonMembers rest

end

variable {py : Interpreter} {hook : List (Text × Value Text) → Except DecodeFailure (Value Text)}

mutual

/-- The interpreter can read the numbers, and no object repeats a key. -/
def Readable (py : Interpreter) : Json.Value → Prop
  | .int value => value.natAbs < 10 ^ py.maxDigits
  | .float value => py.IsFloat value
  | .arr items => ReadableItems py items
  | .obj members => (members.map Prod.fst).Nodup ∧ ReadableMembers py members
  | .null | .bool _ | .str _ => True

def ReadableItems (py : Interpreter) : List Json.Value → Prop
  | [] => True
  | item :: rest => Readable py item ∧ ReadableItems py rest

def ReadableMembers (py : Interpreter) : List (String × Json.Value) → Prop
  | [] => True
  | (_, value) :: rest => Readable py value ∧ ReadableMembers py rest

end

mutual

/-- How deep the containers are nested; a scalar is outside of all. -/
def nesting : Json.Value → Nat
  | .arr items => nestingItems items + 1
  | .obj members => nestingMembers members + 1
  | .null | .bool _ | .int _ | .float _ | .str _ => 0

def nestingItems : List Json.Value → Nat
  | [] => 0
  | item :: rest => max (nesting item) (nestingItems rest)

def nestingMembers : List (String × Json.Value) → Nat
  | [] => 0
  | (_, value) :: rest => max (nesting value) (nestingMembers rest)

end

/-! ### Strings -/

theorem joinSurrogates_text (characters : List Char) :
    joinSurrogates (characters.map Sum.inl) = characters.map Sum.inl := by
  induction characters with
  | nil => rfl
  | cons character rest ih =>
    rw [List.map_cons, joinSurrogates, ih]
    simp

theorem codeUnit_control {value : Nat} (h : value < 0x20) :
    (codeUnit '0' '0' (Nat.digitChar (value / 16)) (Nat.digitChar (value % 16))).map codePoint =
      some (.inl (Char.ofNat value)) := by
  revert h
  revert value
  decide +kernel

theorem readString_plain {character : Char} (rest : List Char) (hquote : character ≠ '\x22')
    (hbackslash : character ≠ '\x5c') (hcontrol : ¬ character.toNat < 0x20) :
    readString (character :: rest) =
      (readString rest).map fun result => (.inl character :: result.1, result.2) := by
  rw [readString.eq_def]
  split
  · simp_all
  · simp_all
  · simp_all
  · rename_i other rest' _ _ heq
    obtain ⟨rfl, rfl⟩ := List.cons.inj heq
    rw [if_neg hcontrol]
    cases readString rest <;> rfl
  · simp_all

theorem readString_letter {letter character : Char} (rest : List Char) (hletter : letter ≠ 'u')
    (hcharacter : Json.unescape letter = some character) :
    readString ('\x5c' :: letter :: rest) =
      (readString rest).map fun result => (.inl character :: result.1, result.2) := by
  rw [readString.eq_def]
  split
  · simp_all
  · simp_all
  · rename_i other rest' _ heq
    obtain ⟨rfl, rfl⟩ := List.cons.inj (List.cons.inj heq).2
    rw [hcharacter]
    cases readString rest <;> rfl
  · rename_i hletters heq
    obtain ⟨rfl, rfl⟩ := List.cons.inj heq
    exact absurd rfl (hletters letter rest rfl)
  · simp_all

theorem readString_control {character : Char} (rest : List Char)
    (hcontrol : character.toNat < 0x20) :
    readString ('\x5c' :: 'u' :: '0' :: '0' :: Nat.digitChar (character.toNat / 16) ::
        Nat.digitChar (character.toNat % 16) :: rest) =
      (readString rest).map fun result => (.inl character :: result.1, result.2) := by
  obtain ⟨escaped, hescaped, hpoint⟩ := Option.map_eq_some_iff.mp (codeUnit_control hcontrol)
  rw [Char.ofNat_toNat] at hpoint
  rw [readString, hescaped]
  simp only [Option.bind_eq_bind, Option.bind_some, hpoint]
  cases readString rest <;> rfl

theorem readString_escape (character : Char) (rest : List Char) :
    readString (Json.escape character ++ rest) =
      (readString rest).map fun result => (.inl character :: result.1, result.2) := by
  unfold Json.escape
  split
  · subst character
    exact readString_letter rest (by decide) (by decide)
  split
  · subst character
    exact readString_letter rest (by decide) (by decide)
  split
  · subst character
    exact readString_letter rest (by decide) (by decide)
  split
  · subst character
    exact readString_letter rest (by decide) (by decide)
  split
  · subst character
    exact readString_letter rest (by decide) (by decide)
  split
  · subst character
    exact readString_letter rest (by decide) (by decide)
  split
  · subst character
    exact readString_letter rest (by decide) (by decide)
  split
  · rename_i hcontrol
    exact readString_control rest hcontrol
  · rename_i hquote hbackslash _ _ _ _ _ hcontrol
    exact readString_plain rest hquote hbackslash hcontrol

theorem readString_stringTail (characters rest : List Char) :
    readString (Json.stringTail characters ++ rest) = some (characters.map Sum.inl, rest) := by
  induction characters with
  | nil => simp [Json.stringTail, readString]
  | cons character characters ih =>
    have hsplit : Json.stringTail (character :: characters) ++ rest =
        Json.escape character ++ (Json.stringTail characters ++ rest) := by
      simp only [Json.stringTail, List.flatMap_cons, List.append_assoc]
    rw [hsplit, readString_escape, ih]
    rfl

/-! ### Numbers -/

/-- What is left after a value is no part of a number. -/
def Delimited (rest : List Char) : Prop :=
  ∀ character ∈ rest.head?, isNumberCharacter character = false

theorem isNumberCharacter_of_json {number : List Char}
    (h : number.all Json.isNumberCharacter = true) : number.all isNumberCharacter = true := by
  rw [List.all_eq_true] at h ⊢
  intro character hcharacter
  rw [isNumberCharacter, h character hcharacter, Bool.true_or]

theorem span_number {number rest : List Char}
    (hnumber : number.all isNumberCharacter = true) (hrest : Delimited rest) :
    (number ++ rest).takeWhile isNumberCharacter = number ∧
      (number ++ rest).dropWhile isNumberCharacter = rest := by
  have hall := List.all_eq_true.mp hnumber
  rw [List.takeWhile_append_of_pos hall, List.dropWhile_append_of_pos hall]
  cases rest with
  | nil => exact ⟨List.append_nil _, rfl⟩
  | cons first rest =>
    have hfirst := hrest first rfl
    rw [List.takeWhile_cons, hfirst, List.dropWhile_cons, hfirst]
    exact ⟨List.append_nil _, rfl⟩

theorem head_toDigits {value : Nat} (hpos : 0 < value) :
    (Nat.toDigits 10 value).head? ≠ some '0' := by
  induction value using Nat.strong_induction_on with
  | _ value ih =>
    by_cases hlt : value < 10
    · rw [Nat.toDigits_of_lt_base hlt]
      have hdigit : ∀ digit < 10, 0 < digit → Nat.digitChar digit ≠ '0' := by decide
      rw [List.head?_cons, ne_eq, Option.some.injEq]
      exact hdigit value hlt hpos
    · have hrest := ih (value / 10) (by omega) (by omega)
      rw [Nat.toDigits_of_base_le (by decide) (by omega)]
      cases hdigits : Nat.toDigits 10 (value / 10) with
      | nil => exact absurd hdigits Nat.toDigits_ne_nil
      | cons first digits =>
        rw [hdigits] at hrest
        exact hrest

theorem isWhole_toDigits (value : Nat) : isWhole (Nat.toDigits 10 value) = true := by
  cases value with
  | zero => decide
  | succ value =>
    rw [isWhole, Bool.and_eq_true, Bool.or_eq_true, bne_iff_ne]
    refine ⟨?_, Or.inr (head_toDigits (Nat.succ_pos value))⟩
    cases hdigits : Nat.toDigits 10 (value + 1) with
    | nil => exact absurd hdigits Nat.toDigits_ne_nil
    | cons first digits => rfl

theorem unsignedKind_toDigits (value : Nat) :
    unsignedKind (Nat.toDigits 10 value) = some false := by
  have hall : ∀ character ∈ Nat.toDigits 10 value, Char.isDigit character = true :=
    List.all_eq_true.mp (Json.toDigits_all value)
  rw [unsignedKind, List.takeWhile_eq_self_iff.mpr hall, if_pos (isWhole_toDigits value),
    List.dropWhile_eq_nil_iff.mpr hall]
  rfl

theorem numberKind_intText (value : Int) : numberKind (Json.intText value) = some false := by
  rw [Json.intText]
  split
  · rw [numberKind, unsignedKind_toDigits]
  · have hall := Json.toDigits_all value.natAbs
    cases hdigits : Nat.toDigits 10 value.natAbs with
    | nil => exact absurd hdigits Nat.toDigits_ne_nil
    | cons first digits =>
      rw [hdigits, List.all_cons, Bool.and_eq_true] at hall
      rw [numberKind, ← hdigits, unsignedKind_toDigits]
      rintro rest heq
      rw [(List.cons.inj heq).1] at hall
      cases hall.1

theorem readNumber_intText {value : Int} (h : value.natAbs < 10 ^ py.maxDigits) :
    py.readNumber (Json.intText value) = .ok (.int value) := by
  have hread := (Json.readNumber_intText value).2.2
  have hint : Json.readInt (Json.intText value) = some value := by
    rw [Json.readNumber] at hread
    split_ifs at hread with hshape
    · cases hread
    obtain ⟨read, hread, heq⟩ := Option.map_eq_some_iff.mp hread
    rw [hread, Json.Value.int.inj heq]
  rw [Interpreter.readNumber, numberKind_intText]
  dsimp only
  rw [hint]
  exact if_pos h

theorem readNumber_floatText {value : Json.FloatText} (h : py.IsFloat value) :
    py.readNumber value.text = .ok (.float value) := by
  rw [Interpreter.readNumber, h.1]
  exact congrArg Except.ok h.2

theorem digit_ne {first letter : Char} (hfirst : first.isDigit = true)
    (hletter : letter.isDigit = false) : letter ≠ first := by
  rintro rfl
  rw [hfirst] at hletter
  cases hletter

def BeginsNumber (first : Char) (rest : List Char) : Prop :=
  first.isDigit = true ∨ first = '-' ∧ ∃ next ∈ rest.head?, next.isDigit = true

theorem head_of_unsignedKind {number : List Char} {kind : Bool}
    (h : unsignedKind number = some kind) :
    ∃ first rest, number = first :: rest ∧ first.isDigit = true := by
  cases number with
  | nil => cases h
  | cons first rest =>
    refine ⟨first, rest, rfl, ?_⟩
    by_contra hfirst
    rw [unsignedKind, List.takeWhile_cons_of_neg hfirst] at h
    cases h

theorem begins_of_numberKind {number : List Char} {kind : Bool}
    (h : numberKind number = some kind) :
    ∃ first rest, number = first :: rest ∧ BeginsNumber first rest := by
  rw [numberKind.eq_def] at h
  split at h
  · obtain ⟨first, rest, rfl, hfirst⟩ := head_of_unsignedKind h
    exact ⟨'-', first :: rest, rfl, Or.inr ⟨rfl, first, rfl, hfirst⟩⟩
  · obtain ⟨first, rest, rfl, hfirst⟩ := head_of_unsignedKind h
    exact ⟨first, rest, rfl, Or.inl hfirst⟩

theorem readLiteral_number {first : Char} {rest : List Char}
    (hfirst : BeginsNumber first rest) :
    readLiteral (first :: rest) = none := by
  rcases hfirst with hdigit | ⟨rfl, next, hnext, hdigit⟩
  · have hne : ∀ letter ∈ ['n', 't', 'f', 'N', 'I', '-'], letter ≠ first := by
      intro letter hletter
      simp only [List.mem_cons, List.not_mem_nil, or_false] at hletter
      rcases hletter with rfl | rfl | rfl | rfl | rfl | rfl <;> exact digit_ne hdigit (by decide)
    simp only [List.forall_mem_cons] at hne
    simp [readLiteral, literals, List.isPrefixOf, hne]
  · cases rest with
    | nil => cases hnext
    | cons other rest =>
      obtain rfl := Option.some.inj hnext
      have hne : 'I' ≠ other := digit_ne hdigit rfl
      simp [readLiteral, literals, List.isPrefixOf, hne]

theorem readScalar_number {number rest : List Char} {scalar : Scalar} {kind : Bool}
    (hkind : numberKind number = some kind) (hnumber : number.all isNumberCharacter = true)
    (hrest : Delimited rest) (hread : py.readNumber number = .ok scalar) :
    readScalar py (number ++ rest) = .ok (scalar, rest) := by
  obtain ⟨htake, hdrop⟩ := span_number hnumber hrest
  obtain ⟨first, tail, rfl, hfirst⟩ := begins_of_numberKind hkind
  have hbegins : BeginsNumber first (tail ++ rest) := by
    rcases hfirst with hdigit | ⟨hsign, next, hnext, hdigit⟩
    · exact Or.inl hdigit
    · refine Or.inr ⟨hsign, next, ?_, hdigit⟩
      rw [List.head?_append, hnext]
      rfl
  rw [readScalar, htake, hdrop, hread, List.cons_append, readLiteral_number hbegins]
  rfl

theorem readValue_scalar {number rest : List Char} {scalar : Scalar} {kind : Bool}
    {fuel stack : Nat} (hkind : numberKind number = some kind)
    (hread : readScalar py (number ++ rest) = .ok (scalar, rest)) :
    readValue py hook (fuel + 1) stack (number ++ rest) = .ok (.scalar scalar, rest) := by
  obtain ⟨first, tail, rfl, hfirst⟩ := begins_of_numberKind hkind
  have hne : first ≠ '\x22' ∧ first ≠ '[' ∧ first ≠ '\x7b' := by
    rcases hfirst with hdigit | ⟨rfl, -⟩
    · exact ⟨(digit_ne hdigit rfl).symm, (digit_ne hdigit rfl).symm, (digit_ne hdigit rfl).symm⟩
    · decide
  rw [List.cons_append] at hread ⊢
  simp only [readValue, hread, List.head?_cons, Option.some.injEq, hne.1, hne.2.1, hne.2.2,
    if_false]
  rfl

theorem readValue_word {word rest : List Char} {scalar : Scalar} {fuel stack : Nat}
    (hword : (word, scalar) ∈ literals.take 3) :
    readValue py hook (fuel + 1) stack (word ++ rest) = .ok (.scalar scalar, rest) := by
  rw [literals, List.take_succ_cons, List.take_succ_cons, List.take_succ_cons, List.take_zero,
    List.mem_cons, List.mem_cons, List.mem_singleton, Prod.mk.injEq, Prod.mk.injEq,
    Prod.mk.injEq] at hword
  rcases hword with ⟨rfl, rfl⟩ | ⟨rfl, rfl⟩ | ⟨rfl, rfl⟩ <;>
    simp [readValue, readScalar, readLiteral, literals, List.isPrefixOf, Except.map]

/-! ### Values -/

theorem text_head (value : Json.Value) (hvalue : Readable py value) :
    ∃ first rest, Json.text value = first :: rest ∧ isBlank first = false ∧ first ≠ ']' := by
  have hnumber : ∀ number kind, numberKind number = some kind →
      ∃ first rest, number = first :: rest ∧ isBlank first = false ∧ first ≠ ']' := by
    intro number kind hkind
    obtain ⟨first, rest, rfl, hfirst⟩ := begins_of_numberKind hkind
    refine ⟨first, rest, rfl, ?_⟩
    rcases hfirst with hdigit | ⟨rfl, -⟩
    · have hne : ∀ letter ∈ [' ', '\t', '\n', '\r', ']'], first ≠ letter := by
        intro letter hletter
        simp only [List.mem_cons, List.not_mem_nil, or_false] at hletter
        rcases hletter with rfl | rfl | rfl | rfl | rfl <;>
          exact (digit_ne hdigit (by decide)).symm
      simp only [List.forall_mem_cons] at hne
      simp [isBlank, hne]
    · decide
  cases value with
  | null => exact ⟨'n', _, by rw [Json.text], by decide⟩
  | bool value =>
    cases value with
    | true => exact ⟨'t', _, by rw [Json.text], by decide⟩
    | false => exact ⟨'f', _, by rw [Json.text], by decide⟩
  | int value =>
    rw [Json.text]
    exact hnumber _ _ (numberKind_intText value)
  | float value =>
    rw [Json.text]
    exact hnumber _ _ hvalue.1
  | str value => exact ⟨'\x22', _, by rw [Json.text], by decide⟩
  | arr items => exact ⟨'[', _, by rw [Json.text], by decide⟩
  | obj members => exact ⟨'\x7b', _, by rw [Json.text], by decide⟩

theorem skip_of_head {first : Char} {rest : List Char} (h : isBlank first = false) :
    skip (first :: rest) = first :: rest := by
  rw [skip, List.dropWhile_cons_of_neg]
  rw [h]
  exact Bool.false_ne_true

theorem readItemsTail_comma {fuel stack : Nat} {source rest : List Char} {item : Value Text}
    (h : readValue py hook fuel stack source = .ok (item, ',' :: rest)) :
    readItemsTail py hook (fuel + 1) stack source =
      (readItemsTail py hook fuel stack (skip rest)).map fun result =>
        (item :: result.1, result.2) := by
  have hskip : skip (',' :: rest) = ',' :: rest := skip_of_head (by decide)
  simp only [readItemsTail, h, bind, Except.bind, hskip]
  cases readItemsTail py hook fuel stack (skip rest) <;> rfl

theorem readMembersTail_colon {fuel stack : Nat} {source rest after : List Char} {key : Text}
    {value : Value Text} (hkey : readString source = some (key, ':' :: rest))
    (hvalue : readValue py hook fuel stack (skip rest) = .ok (value, ',' :: after)) :
    readMembersTail py hook (fuel + 1) stack ('\x22' :: source) =
      (readMembersTail py hook fuel stack (skip after)).map fun result =>
        ((joinSurrogates key, value) :: result.1, result.2) := by
  have hcolon : skip (':' :: rest) = ':' :: rest := skip_of_head (by decide)
  have hcomma : skip (',' :: after) = ',' :: after := skip_of_head (by decide)
  simp only [readMembersTail, List.head?_cons, if_true, List.tail_cons, hkey, hcolon, hvalue, bind,
    Except.bind, hcomma]
  cases readMembersTail py hook fuel stack (skip after) <;> rfl

theorem delimited_cons {first : Char} {rest : List Char}
    (h : isNumberCharacter first = false) : Delimited (first :: rest) := by
  intro character hcharacter
  rwa [← Option.some.inj hcharacter]

theorem delimited_items (items : List Json.Value) (rest : List Char) :
    Delimited (Json.textItemsTail items ++ rest) := by
  cases items with
  | nil => exact delimited_cons (by decide)
  | cons item items =>
    rw [Json.textItemsTail]
    exact delimited_cons (by decide)

theorem delimited_members (members : List (String × Json.Value)) (rest : List Char) :
    Delimited (Json.textMembersTail members ++ rest) := by
  cases members with
  | nil => exact delimited_cons (by decide)
  | cons member members =>
    rw [Json.textMembersTail]
    exact delimited_cons (by decide)

theorem ofJsonMembers_keys (members : List (String × Json.Value)) :
    (ofJsonMembers members).map Prod.fst = members.map fun member => text member.1 := by
  induction members with
  | nil => rfl
  | cons member rest ih => rw [ofJsonMembers, List.map_cons, List.map_cons, ih]

def KeepsDistinct (hook : List (Text × Value Text) → Except DecodeFailure (Value Text)) : Prop :=
  ∀ members : List (Text × Value Text), (members.map Prod.fst).Nodup →
    hook members = .ok (.mapping .plain members)

theorem keepsDistinct_uniqueMembers : KeepsDistinct uniqueMembers :=
  fun _ hnodup => if_pos hnodup

theorem KeepsDistinct.members (hhook : KeepsDistinct hook)
    {members : List (String × Json.Value)} (h : (members.map Prod.fst).Nodup) :
    hook (ofJsonMembers members) = .ok (.mapping .plain (ofJsonMembers members)) := by
  have hmap := h.map text_injective
  rw [List.map_map] at hmap
  refine hhook _ ?_
  rwa [ofJsonMembers_keys]

mutual

theorem readValue_text (hhook : KeepsDistinct hook) : ∀ value : Json.Value, Readable py value →
    ∀ (fuel stack : Nat) (rest : List Char), 3 * (Json.text value).length ≤ fuel →
    nesting value ≤ stack → Delimited rest →
    readValue py hook fuel stack (Json.text value ++ rest) = .ok (ofJson value, rest)
  | value, _, 0, _, _, hfuel, _, _ => by
    have hpos := Json.text_length_pos value
    omega
  | .null, _, fuel + 1, stack, rest, _, _, _ => by
    rw [Json.text]
    exact readValue_word (by decide)
  | .bool true, _, fuel + 1, stack, rest, _, _, _ => by
    rw [Json.text]
    exact readValue_word (by decide)
  | .bool false, _, fuel + 1, stack, rest, _, _, _ => by
    rw [Json.text]
    exact readValue_word (by decide)
  | .int value, hvalue, fuel + 1, stack, rest, _, _, hrest => by
    have hkind := numberKind_intText value
    have hscalar := readScalar_number hkind
      (isNumberCharacter_of_json (Json.readNumber_intText value).1) hrest
      (readNumber_intText hvalue)
    rw [Json.text, readValue_scalar hkind hscalar]
    rfl
  | .float value, hvalue, fuel + 1, stack, rest, _, _, hrest => by
    have hscalar := readScalar_number hvalue.1
      (isNumberCharacter_of_json value.characters.1) hrest (readNumber_floatText hvalue)
    rw [Json.text, readValue_scalar hvalue.1 hscalar]
    rfl
  | .str value, _, fuel + 1, stack, rest, _, _, _ => by
    have hread := readString_stringTail value.toList rest
    rw [Json.text, List.cons_append, readValue, List.head?_cons, if_pos rfl, List.tail_cons,
      hread]
    dsimp only
    rw [joinSurrogates_text]
    rfl
  | .arr items, hvalue, fuel + 1, stack, rest, hfuel, hstack, _ => by
    rw [nesting] at hstack
    rw [Json.text, List.length_cons] at hfuel
    have hitems := readItems_text hhook items hvalue fuel (stack - 1) rest (by omega) (by omega)
    rw [Json.text, List.cons_append, readValue, List.head?_cons, if_neg (by decide),
      if_pos rfl, if_neg (by omega), List.tail_cons, hitems]
    rfl
  | .obj members, hvalue, fuel + 1, stack, rest, hfuel, hstack, _ => by
    rw [nesting] at hstack
    rw [Json.text, List.length_cons] at hfuel
    have hmembers := readMembers_text hhook members hvalue.1 hvalue.2 fuel (stack - 1) rest
      (by omega) (by omega)
    rw [Json.text, List.cons_append, readValue, List.head?_cons, if_neg (by decide),
      if_neg (by decide), if_pos rfl, if_neg (by omega), List.tail_cons, hmembers]
    rfl
termination_by structural _ _ fuel => fuel

theorem readItems_text (hhook : KeepsDistinct hook) :
    ∀ items : List Json.Value, ReadableItems py items →
    ∀ (fuel stack : Nat) (rest : List Char), 3 * (Json.textItems items).length + 2 ≤ fuel →
    nestingItems items ≤ stack →
    readItems py hook fuel stack (skip (Json.textItems items ++ rest)) =
      .ok (.sequence .plain (ofJsonItems items), rest)
  | _, _, 0, _, _, hfuel, _ => by omega
  | [], _, fuel + 1, stack, rest, _, _ => by
    rw [Json.textItems, List.singleton_append, skip_of_head (by decide), readItems,
      List.head?_cons, if_pos rfl]
    rfl
  | item :: items, hitems, fuel + 1, stack, rest, hfuel, hstack => by
    have htail := readItemsTail_text hhook item items hitems fuel stack rest (by omega) hstack
    obtain ⟨first, tail, hhead, hblank, hfirst⟩ := text_head item hitems.1
    have hsplit : Json.textItems (item :: items) ++ rest =
        first :: (tail ++ (Json.textItemsTail items ++ rest)) := by
      rw [Json.textItems_cons, hhead, List.append_assoc, List.cons_append]
    rw [hsplit] at htail ⊢
    rw [skip_of_head hblank, readItems, List.head?_cons,
      if_neg fun heq => hfirst (Option.some.inj heq), htail]
    rfl
termination_by structural _ _ fuel => fuel

theorem readItemsTail_text (hhook : KeepsDistinct hook) :
    ∀ (item : Json.Value) (items : List Json.Value),
    ReadableItems py (item :: items) → ∀ (fuel stack : Nat) (rest : List Char),
    3 * (Json.textItems (item :: items)).length + 1 ≤ fuel →
    nestingItems (item :: items) ≤ stack →
    readItemsTail py hook fuel stack (Json.textItems (item :: items) ++ rest) =
      .ok (ofJsonItems (item :: items), rest)
  | _, _, _, 0, _, _, hfuel, _ => by omega
  | item, items, hitems, fuel + 1, stack, rest, hfuel, hstack => by
    rw [Json.textItems_cons, List.length_append] at hfuel
    rw [nestingItems, Nat.max_le] at hstack
    have hitem := readValue_text hhook item hitems.1 fuel stack (Json.textItemsTail items ++ rest)
      (by omega) hstack.1 (delimited_items items rest)
    rw [Json.textItems_cons, List.append_assoc]
    cases items with
    | nil =>
      rw [readItemsTail, hitem, Json.textItemsTail, List.singleton_append]
      rfl
    | cons next others =>
      rw [Json.textItemsTail_cons, List.length_cons] at hfuel
      have hrest := readItemsTail_text hhook next others hitems.2 fuel stack rest (by omega)
        hstack.2
      obtain ⟨first, tail, hhead, hblank, -⟩ := text_head next hitems.2.1
      have hsplit : Json.textItems (next :: others) ++ rest =
          first :: (tail ++ (Json.textItemsTail others ++ rest)) := by
        rw [Json.textItems_cons, hhead, List.append_assoc, List.cons_append]
      rw [Json.textItemsTail_cons, List.cons_append] at hitem ⊢
      rw [readItemsTail_comma hitem]
      rw [hsplit] at hrest ⊢
      rw [skip_of_head hblank, hrest]
      rfl
termination_by structural _ _ _ fuel => fuel

theorem readMembers_text (hhook : KeepsDistinct hook) : ∀ members : List (String × Json.Value),
    (members.map Prod.fst).Nodup → ReadableMembers py members →
    ∀ (fuel stack : Nat) (rest : List Char), 3 * (Json.textMembers members).length + 2 ≤ fuel →
    nestingMembers members ≤ stack →
    readMembers py hook fuel stack (skip (Json.textMembers members ++ rest)) =
      .ok (.mapping .plain (ofJsonMembers members), rest)
  | _, _, _, 0, _, _, hfuel, _ => by omega
  | [], _, _, fuel + 1, stack, rest, _, _ => by
    rw [Json.textMembers, List.singleton_append, skip_of_head (by decide), readMembers,
      List.head?_cons, if_pos rfl]
    rfl
  | (key, value) :: members, hkeys, hmembers, fuel + 1, stack, rest, hfuel, hstack => by
    have htail := readMembersTail_text hhook key value members hmembers fuel stack rest (by omega)
      hstack
    rw [Json.textMembers, List.cons_append] at htail ⊢
    rw [skip_of_head (by decide), readMembers, List.head?_cons, if_neg (by decide), htail]
    change (do
      let object ← hook (ofJsonMembers ((key, value) :: members))
      Except.ok (object, rest)) = _
    rw [hhook.members hkeys]
    rfl
termination_by structural _ _ _ fuel => fuel

theorem readMembersTail_text (hhook : KeepsDistinct hook) : ∀ (key : String) (value : Json.Value)
    (members : List (String × Json.Value)), ReadableMembers py ((key, value) :: members) →
    ∀ (fuel stack : Nat) (rest : List Char),
    3 * (Json.textMembers ((key, value) :: members)).length + 1 ≤ fuel →
    nestingMembers ((key, value) :: members) ≤ stack →
    readMembersTail py hook fuel stack (Json.textMembers ((key, value) :: members) ++ rest) =
      .ok (ofJsonMembers ((key, value) :: members), rest)
  | _, _, _, _, 0, _, _, hfuel, _ => by omega
  | key, value, members, hmembers, fuel + 1, stack, rest, hfuel, hstack => by
    rw [Json.textMembers, List.length_cons, List.length_append, List.length_cons,
      List.length_append] at hfuel
    rw [nestingMembers, Nat.max_le] at hstack
    have hvalue := readValue_text hhook value hmembers.1 fuel stack
      (Json.textMembersTail members ++ rest) (by omega) hstack.1 (delimited_members members rest)
    obtain ⟨first, tail, hhead, hblank, -⟩ := text_head value hmembers.1
    have hskip : skip (Json.text value ++ (Json.textMembersTail members ++ rest)) =
        Json.text value ++ (Json.textMembersTail members ++ rest) := by
      rw [hhead, List.cons_append, skip_of_head hblank]
    have hkey := readString_stringTail key.toList
      (':' :: (Json.text value ++ Json.textMembersTail members) ++ rest)
    rw [List.cons_append, List.append_assoc] at hkey
    rw [← hskip] at hvalue
    rw [Json.textMembers, List.cons_append, List.append_assoc, List.cons_append,
      List.append_assoc]
    cases members with
    | nil =>
      have hclose : Json.textMembersTail [] ++ rest = '\x7d' :: rest := by
        rw [Json.textMembersTail, List.singleton_append]
      rw [hclose] at hkey hvalue ⊢
      have hcolon : skip (':' :: (Json.text value ++ '\x7d' :: rest)) =
          ':' :: (Json.text value ++ '\x7d' :: rest) := skip_of_head (by decide)
      have hbrace : skip ('\x7d' :: rest) = '\x7d' :: rest := skip_of_head (by decide)
      simp only [readMembersTail, List.head?_cons, if_true, List.tail_cons, hkey, hcolon,
        hvalue, bind, Except.bind, hbrace, joinSurrogates_text]
      rfl
    | cons next others =>
      obtain ⟨nextKey, nextValue⟩ := next
      rw [Json.textMembersTail_cons, List.length_cons] at hfuel
      have hrest := readMembersTail_text hhook nextKey nextValue others hmembers.2 fuel stack
        rest (by omega) hstack.2
      rw [Json.textMembersTail_cons, List.cons_append] at hkey hvalue ⊢
      rw [readMembersTail_colon hkey hvalue, joinSurrogates_text]
      rw [Json.textMembers, List.cons_append] at hrest ⊢
      rw [skip_of_head (by decide), hrest]
      rfl
termination_by structural _ _ _ _ fuel => fuel

end

theorem loadsWith_canonicalText (hhook : KeepsDistinct hook) {value : Json.Value}
    (hvalue : Readable py value)
    (hstack : nesting value ≤ py.stack) :
    loadsWith py hook (Json.canonicalText value) = .ok (ofJson value) := by
  have hread := readValue_text hhook value hvalue (3 * (Json.text value).length + 3) py.stack []
    (by omega) hstack fun _ hcharacter => by cases hcharacter
  obtain ⟨first, rest, hhead, hblank, -⟩ := text_head value hvalue
  rw [List.append_nil] at hread
  rw [loadsWith, Json.canonicalText, String.toList_ofList]
  have hskip : skip (Json.text value) = Json.text value := by
    rw [hhead, skip_of_head hblank]
  rw [hskip, hread]
  rfl

theorem loads_canonicalText {value : Json.Value} (hvalue : Readable py value)
    (hstack : nesting value ≤ py.stack) :
    loads py (Json.canonicalText value) = .ok (ofJson value) :=
  loadsWith_canonicalText keepsDistinct_uniqueMembers hvalue hstack

end Python
