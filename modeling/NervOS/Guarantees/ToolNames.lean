/-
The names that a model calls the tools by: a fixed prefix for the source, the escaped upstream
name as far as there is room, and a part of the digest of both.  Which tools get one name: the
escape is a code that can be read back, and so is the prefix of the source, but the letters are
lowered first.
-/
import NervOS.Application.Tools
import NervOS.Package.Archive
import NervOS.Text.Codes

namespace NervOS

namespace ToolNames

open Python Text PackageFormat

def IsSource : ToolSourceKind → Option Nat → Prop
  | .builtin, id => id = none
  | .mcp, id => ∃ connection, id = some connection ∧ 0 < connection

structure ToolSourceRef where
  sourceKind : ToolSourceKind
  sourceId : Option Nat
  isSource : IsSource sourceKind sourceId

theorem ToolSourceRef.eq_of_id {left right : ToolSourceRef}
    (h : left.sourceId = right.sourceId) : left = right := by
  obtain ⟨leftKind, leftId, hleft⟩ := left
  obtain ⟨rightKind, rightId, hright⟩ := right
  dsimp only at h
  subst h
  cases leftKind with
  | builtin =>
    cases rightKind with
    | builtin => rfl
    | mcp =>
      obtain ⟨id, hid, -⟩ := hright
      cases hleft.symm.trans hid
  | mcp =>
    cases rightKind with
    | builtin =>
      obtain ⟨id, hid, -⟩ := hleft
      cases hid.symm.trans hright
    | mcp => rfl

def maxModelNameLength : Nat := 64

def minModelNameBudget : Nat := 8

def modelNameSuffixHexLength : Nat := 12

/-- Why no name comes out: no room for one, or something else that is raised. -/
inductive NameFailure where
  | invalidToolName
  | raised
deriving DecidableEq

/-- The bytes that pass through: lower case letters, digits and the hyphen. -/
def isKept (byte : UInt8) : Bool :=
  (0x61 ≤ byte && byte ≤ 0x7A) || (0x30 ≤ byte && byte ≤ 0x39) || byte == 0x2D

/-- The other bytes become `_` and two hexadecimal digits. -/
def escapeByte (byte : UInt8) : List Char :=
  if isKept byte then [Char.ofNat byte.toNat]
  else ['_', Nat.digitChar (byte.toNat / 16), Nat.digitChar (byte.toNat % 16)]

/-- `escape_upstream_name`, where `lower` is `str.lower`; nothing where the name cannot be
encoded. -/
def escapeUpstreamName (lower : Text → Text) (value : Text) : Option (List Char) :=
  (encode? (lower value)).map fun source => (utf8 source).flatMap escapeByte

def fixedNamePrefix (sourceRef : ToolSourceRef) : Option (List Char) :=
  match sourceRef.sourceId with
  | none => some "nervos__builtin__".toList
  | some id =>
    let digits := Nat.toDigits 10 id
    if maxIntDigits < digits.length then none
    else some ("nervos__c".toList ++ digits ++ ['_', '_'])

/-- The whole name, that the digest is taken of. -/
def composedName (lower : Text → Text) (sourceRef : ToolSourceRef) (upstreamName : Text) :
    Option (List Char) := do
  let fixed ← fixedNamePrefix sourceRef
  let escaped ← escapeUpstreamName lower upstreamName
  some (fixed ++ escaped)

def nameSuffix (sha256Hex : String → String) (composed : List Char) : List Char :=
  '_' :: (sha256Hex (String.ofList composed)).toList.take modelNameSuffixHexLength

/-- `model_tool_name` -/
def modelToolName (lower : Text → Text) (sha256Hex : String → String)
    (sourceRef : ToolSourceRef) (upstreamName : Text) : Except NameFailure String :=
  match fixedNamePrefix sourceRef, escapeUpstreamName lower upstreamName with
  | some fixed, some escaped =>
    let suffix := nameSuffix sha256Hex (fixed ++ escaped)
    if maxModelNameLength < fixed.length + suffix.length + minModelNameBudget then
      .error .invalidToolName
    else
      let budget := maxModelNameLength - fixed.length - suffix.length
      .ok (String.ofList (fixed ++ escaped.take budget ++ suffix))
  | _, _ => .error .raised

def isModelNameLeading (character : Char) : Bool :=
  ('a' ≤ character && character ≤ 'z') || ('0' ≤ character && character ≤ '9')

def isModelNameCharacter (character : Char) : Bool :=
  isModelNameLeading character || character == '-' || character == '_'

/-- `_require_model_name` -/
def IsModelName (value : String) : Prop :=
  value.toList.length ≤ maxModelNameLength ∧ value.toList.head?.any isModelNameLeading = true ∧
    value.toList.all isModelNameCharacter = true

section Escape

theorem digitChar_hex : ∀ digit < 16, isModelNameLeading (Nat.digitChar digit) = true := by
  decide

variable {byte : UInt8}

theorem escapeByte_kept (h : isKept byte = true) :
    escapeByte byte = [Char.ofNat byte.toNat] :=
  if_pos h

theorem escapeByte_escaped (h : ¬ isKept byte = true) :
    escapeByte byte =
      ['_', Nat.digitChar (byte.toNat / 16), Nat.digitChar (byte.toNat % 16)] :=
  if_neg h

theorem isKept_iff : isKept byte = true ↔
    (0x61 ≤ byte.toNat ∧ byte.toNat ≤ 0x7A) ∨ (0x30 ≤ byte.toNat ∧ byte.toNat ≤ 0x39) ∨
      byte.toNat = 0x2D := by
  simp [isKept, UInt8.le_iff_toNat_le, ← UInt8.toNat_inj, or_assoc]

theorem toNat_ofNat_byte (byte : UInt8) : (Char.ofNat byte.toNat).toNat = byte.toNat := by
  have hvalid : byte.toNat.isValidChar := by
    have hbyte := byte.toNat_lt
    left
    omega
  rw [Char.ofNat, dif_pos hvalid]
  rfl

theorem ofNat_ne_underscore (h : isKept byte = true) :
    Char.ofNat byte.toNat ≠ '_' := by
  intro heq
  have hnat := toNat_ofNat_byte byte
  rw [heq] at hnat
  change 95 = byte.toNat at hnat
  rw [isKept_iff] at h
  omega

theorem digitChar_injective {left right : Nat} (hleft : left < 16) (hright : right < 16)
    (h : Nat.digitChar left = Nat.digitChar right) : left = right := by
  have hvalue := Json.hexValue_digitChar left hleft
  rw [h, Json.hexValue_digitChar right hright] at hvalue
  exact (Option.some.inj hvalue).symm

theorem escape_prefixCode : PrefixCode escapeByte where
  nonempty byte := by
    unfold escapeByte
    split_ifs <;> exact List.cons_ne_nil _ _
  instant left right rest other heq := by
    have hleftLt := left.toNat_lt
    have hrightLt := right.toNat_lt
    by_cases hleft : isKept left = true
    · rw [escapeByte_kept hleft] at heq
      by_cases hright : isKept right = true
      · rw [escapeByte_kept hright] at heq
        have hnat := congrArg Char.toNat (List.cons.inj heq).1
        rw [toNat_ofNat_byte, toNat_ofNat_byte] at hnat
        exact UInt8.toNat_inj.mp hnat
      · rw [escapeByte_escaped hright] at heq
        exact absurd (List.cons.inj heq).1 (ofNat_ne_underscore hleft)
    · rw [escapeByte_escaped hleft] at heq
      by_cases hright : isKept right = true
      · rw [escapeByte_kept hright] at heq
        exact absurd (List.cons.inj heq).1.symm (ofNat_ne_underscore hright)
      · rw [escapeByte_escaped hright] at heq
        obtain ⟨hhigh, hrest⟩ := List.cons.inj (List.cons.inj heq).2
        have hlow := (List.cons.inj hrest).1
        have hquotient := digitChar_injective (by omega) (by omega) hhigh
        have hremainder := digitChar_injective (by omega) (by omega) hlow
        apply UInt8.toNat_inj.mp
        omega

theorem isModelNameCharacter_iff {character : Char} : isModelNameCharacter character = true ↔
    (97 ≤ character.toNat ∧ character.toNat ≤ 122) ∨
      (48 ≤ character.toNat ∧ character.toNat ≤ 57) ∨ character.toNat = 45 ∨
      character.toNat = 95 := by
  simp only [isModelNameCharacter, isModelNameLeading, Bool.or_eq_true, Bool.and_eq_true,
    decide_eq_true_eq, beq_iff_eq, Char.le_def, UInt32.le_iff_toNat_le, Char.ext_iff,
    ← UInt32.toNat_inj, or_assoc]
  rfl

theorem escapeByte_characters (byte : UInt8) :
    (escapeByte byte).all isModelNameCharacter = true := by
  by_cases hkept : isKept byte = true
  · rw [escapeByte_kept hkept, List.all_cons, List.all_nil, Bool.and_true]
    have hnat := toNat_ofNat_byte byte
    rw [isKept_iff] at hkept
    rw [isModelNameCharacter_iff, hnat]
    omega
  · rw [escapeByte_escaped hkept]
    have hbyte := byte.toNat_lt
    simp [isModelNameCharacter, digitChar_hex _ (show byte.toNat / 16 < 16 by omega),
      digitChar_hex _ (show byte.toNat % 16 < 16 by omega)]

end Escape

section Composed

variable {lower : Text → Text} {sourceRef otherRef : ToolSourceRef} {name otherName : Text}

theorem escapeUpstreamName_eq_some {escaped : List Char} :
    escapeUpstreamName lower name = some escaped ↔
      ∃ source, lower name = text source ∧ (utf8 source).flatMap escapeByte = escaped := by
  simp only [escapeUpstreamName, Option.map_eq_some_iff, encode?_eq_some]

theorem lower_eq_of_escape {escaped : List Char}
    (h : escapeUpstreamName lower name = some escaped)
    (hother : escapeUpstreamName lower otherName = some escaped) :
      lower name = lower otherName := by
  obtain ⟨source, hsource, hescaped⟩ := escapeUpstreamName_eq_some.mp h
  obtain ⟨other, hotherSource, hotherEscaped⟩ := escapeUpstreamName_eq_some.mp hother
  have hbytes := escape_prefixCode.flatMap_injective (hescaped.trans hotherEscaped.symm)
  rw [hsource, hotherSource, utf8_injective hbytes]

theorem fixedNamePrefix_builtin (h : sourceRef.sourceId = none) :
    fixedNamePrefix sourceRef = some ("nervos__".toList ++ 'b' :: "uiltin__".toList) := by
  rw [fixedNamePrefix, h]
  rfl

theorem fixedNamePrefix_mcp {id : Nat} (h : sourceRef.sourceId = some id) :
    fixedNamePrefix sourceRef = if maxIntDigits < (Nat.toDigits 10 id).length then none
      else some ("nervos__".toList ++ 'c' :: (Nat.toDigits 10 id ++ '_' :: ['_'])) := by
  rw [fixedNamePrefix, h]
  dsimp only
  rw [show "nervos__c".toList = "nervos__".toList ++ ['c'] from rfl, List.append_assoc,
    List.append_assoc]
  rfl

theorem fixedNamePrefix_mcp_eq_some {id : Nat} {fixed : List Char}
    (h : sourceRef.sourceId = some id) (hfixed : fixedNamePrefix sourceRef = some fixed) :
    fixed = "nervos__".toList ++ 'c' :: (Nat.toDigits 10 id ++ '_' :: ['_']) := by
  rw [fixedNamePrefix_mcp h] at hfixed
  split_ifs at hfixed
  exact (Option.some.inj hfixed).symm

theorem toDigits_injective {left right : Nat} (h : Nat.toDigits 10 left = Nat.toDigits 10 right) :
    left = right := by
  rw [← Nat.ofDigitChars_ten_toDigits (n := left), h, Nat.ofDigitChars_ten_toDigits]

theorem fixedNamePrefix_append_inj {fixed otherFixed rest other : List Char}
    (hfixed : fixedNamePrefix sourceRef = some fixed)
    (hother : fixedNamePrefix otherRef = some otherFixed)
    (h : fixed ++ rest = otherFixed ++ other) : sourceRef = otherRef ∧ rest = other := by
  cases hid : sourceRef.sourceId with
  | none =>
    rw [fixedNamePrefix_builtin hid] at hfixed
    cases hfixed
    cases hotherId : otherRef.sourceId with
    | none =>
      rw [fixedNamePrefix_builtin hotherId] at hother
      cases hother
      exact ⟨ToolSourceRef.eq_of_id (hid.trans hotherId.symm), List.append_cancel_left h⟩
    | some id =>
      rw [fixedNamePrefix_mcp_eq_some hotherId hother, List.append_assoc,
        List.append_assoc] at h
      exact absurd (List.cons.inj (List.append_cancel_left h)).1 (by decide)
  | some id =>
    rw [fixedNamePrefix_mcp_eq_some hid hfixed] at h
    cases hotherId : otherRef.sourceId with
    | none =>
      rw [fixedNamePrefix_builtin hotherId] at hother
      cases hother
      rw [List.append_assoc, List.append_assoc] at h
      exact absurd (List.cons.inj (List.append_cancel_left h)).1 (by decide)
    | some otherId =>
      rw [fixedNamePrefix_mcp_eq_some hotherId hother, List.append_assoc,
        List.append_assoc] at h
      have htail := List.append_cancel_left h
      rw [List.cons_append, List.cons_append, List.append_assoc, List.append_assoc] at htail
      replace htail := (List.cons.inj htail).2
      obtain ⟨hdigits, hrest⟩ := append_inj_of_marker (p := Char.isDigit) rfl
        (Json.toDigits_all id) (Json.toDigits_all otherId) htail
      refine ⟨ToolSourceRef.eq_of_id ?_, (List.cons.inj hrest).2⟩
      rw [hid, hotherId, toDigits_injective hdigits]

theorem composedName_eq_some {composed : List Char} :
    composedName lower sourceRef name = some composed ↔
      ∃ fixed escaped, fixedNamePrefix sourceRef = some fixed ∧
        escapeUpstreamName lower name = some escaped ∧ fixed ++ escaped = composed := by
  simp only [composedName, Option.bind_eq_bind, Option.bind_eq_some_iff, Option.some.injEq]
  constructor
  · rintro ⟨fixed, hfixed, escaped, hescaped, heq⟩
    exact ⟨fixed, escaped, hfixed, hescaped, heq⟩
  · rintro ⟨fixed, escaped, hfixed, hescaped, heq⟩
    exact ⟨fixed, hfixed, escaped, hescaped, heq⟩

theorem composedName_inj {composed : List Char}
    (h : composedName lower sourceRef name = some composed)
    (hother : composedName lower otherRef otherName = some composed) :
    sourceRef = otherRef ∧ lower name = lower otherName := by
  obtain ⟨fixed, escaped, hfixed, hescaped, heq⟩ := composedName_eq_some.mp h
  obtain ⟨otherFixed, other, hotherFixed, hotherEscaped, hotherEq⟩ :=
    composedName_eq_some.mp hother
  obtain ⟨hsource, htail⟩ :=
    fixedNamePrefix_append_inj hfixed hotherFixed (heq.trans hotherEq.symm)
  subst htail
  exact ⟨hsource, lower_eq_of_escape hescaped hotherEscaped⟩

end Composed

section Names

variable {lower : Text → Text} {sha256Hex : String → String} {sourceRef : ToolSourceRef}
  {name : Text}

def HasRoom (sourceRef : ToolSourceRef) : Prop :=
  ∀ id ∈ sourceRef.sourceId, id < 10 ^ 32

def IsEncodable (lower : Text → Text) (name : Text) : Prop :=
  ∃ source, lower name = text source

theorem fixedNamePrefix_room : HasRoom sourceRef ↔
    ∃ fixed, fixedNamePrefix sourceRef = some fixed ∧ fixed.length ≤ 43 := by
  cases hid : sourceRef.sourceId with
  | none =>
    have hroom : HasRoom sourceRef := by
      intro id hmem
      rw [hid] at hmem
      cases hmem
    exact iff_of_true hroom ⟨_, fixedNamePrefix_builtin hid, by decide⟩
  | some id =>
    have hroom : HasRoom sourceRef ↔ (Nat.toDigits 10 id).length ≤ 32 := by
      rw [HasRoom, hid, Nat.length_toDigits_le_iff (by decide) (by decide)]
      simp
    rw [hroom, fixedNamePrefix_mcp hid]
    constructor
    · intro hdigits
      rw [if_neg (by rw [maxIntDigits]; omega)]
      refine ⟨_, rfl, ?_⟩
      rw [List.length_append, List.length_cons, List.length_append]
      change 8 + (_ + 2 + 1) ≤ 43
      omega
    · rintro ⟨fixed, hfixed, hlength⟩
      split_ifs at hfixed
      cases hfixed
      rw [List.length_append, List.length_cons, List.length_append] at hlength
      change 8 + (_ + 2 + 1) ≤ 43 at hlength
      omega

theorem fixedNamePrefix_characters {fixed : List Char}
    (h : fixedNamePrefix sourceRef = some fixed) :
    fixed.head? = some 'n' ∧ fixed.all isModelNameCharacter = true := by
  cases hid : sourceRef.sourceId with
  | none =>
    rw [fixedNamePrefix_builtin hid] at h
    cases h
    exact ⟨rfl, by decide⟩
  | some id =>
    rw [fixedNamePrefix_mcp_eq_some hid h]
    refine ⟨rfl, ?_⟩
    have hdigits : (Nat.toDigits 10 id).all isModelNameCharacter = true := by
      rw [List.all_eq_true]
      intro digit hdigit
      have hvalue := List.all_eq_true.mp (Json.toDigits_all id) digit hdigit
      rw [Char.isDigit, Bool.and_eq_true, decide_eq_true_eq, decide_eq_true_eq] at hvalue
      rw [isModelNameCharacter, isModelNameLeading, Bool.or_eq_true, Bool.or_eq_true,
        Bool.or_eq_true, Bool.and_eq_true, Bool.and_eq_true]
      exact Or.inl (Or.inl (Or.inr ⟨decide_eq_true hvalue.1, decide_eq_true hvalue.2⟩))
    rw [List.all_append, List.all_cons, List.all_append, hdigits]
    decide

theorem escape_characters (bytes : Bytes) :
    (bytes.flatMap escapeByte).all isModelNameCharacter = true := by
  rw [List.all_flatMap, List.all_eq_true]
  exact fun byte _ => escapeByte_characters byte

theorem isHexDigit_character {character : Char} (h : PackageFormat.isHexDigit character = true) :
    isModelNameCharacter character = true := by
  simp only [PackageFormat.isHexDigit, Char.isDigit, Bool.or_eq_true, Bool.and_eq_true,
    decide_eq_true_eq] at h
  simp only [isModelNameCharacter, isModelNameLeading, Bool.or_eq_true, Bool.and_eq_true,
    decide_eq_true_eq]
  left
  left
  rcases h with h | h
  · exact Or.inr h
  · exact Or.inl ⟨h.1, h.2.trans (by decide)⟩

section

variable (hhex : ∀ source, IsSha256Hex (sha256Hex source))

include hhex

theorem nameSuffix_shape (composed : List Char) :
    (nameSuffix sha256Hex composed).length = 13 ∧
      (nameSuffix sha256Hex composed).all isModelNameCharacter = true := by
  obtain ⟨hlength, hdigits⟩ := hhex (String.ofList composed)
  constructor
  · rw [nameSuffix, List.length_cons, List.length_take, hlength]
    rfl
  · rw [nameSuffix, List.all_cons, Bool.and_eq_true]
    refine ⟨by decide, ?_⟩
    rw [List.all_eq_true] at hdigits ⊢
    intro character hcharacter
    exact isHexDigit_character (hdigits character (List.mem_of_mem_take hcharacter))

theorem modelToolName_isOk :
    (∃ modelName, modelToolName lower sha256Hex sourceRef name = .ok modelName ∧
      IsModelName modelName) ↔ HasRoom sourceRef ∧ IsEncodable lower name := by
  rw [fixedNamePrefix_room]
  constructor
  · rintro ⟨modelName, hname, -⟩
    unfold modelToolName at hname
    split at hname
    case h_1 fixed escaped hfixed hescaped =>
      dsimp only at hname
      split_ifs at hname with hroom
      obtain ⟨source, hsource, -⟩ := escapeUpstreamName_eq_some.mp hescaped
      refine ⟨⟨fixed, hfixed, ?_⟩, source, hsource⟩
      rw [(nameSuffix_shape hhex _).1, maxModelNameLength, minModelNameBudget] at hroom
      omega
    case h_2 => cases hname
  · rintro ⟨⟨fixed, hfixed, hlength⟩, source, hsource⟩
    have hescaped := escapeUpstreamName_eq_some.mpr ⟨source, hsource, rfl⟩
    obtain ⟨hsuffix, hcharacters⟩ :=
      nameSuffix_shape hhex (fixed ++ (utf8 source).flatMap escapeByte)
    obtain ⟨hhead, hfixedCharacters⟩ := fixedNamePrefix_characters hfixed
    rw [modelToolName, hfixed, hescaped]
    dsimp only
    rw [hsuffix, if_neg (by rw [maxModelNameLength, minModelNameBudget]; omega)]
    refine ⟨_, rfl, ?_, ?_, ?_⟩
    · rw [String.toList_ofList, List.length_append, List.length_append, hsuffix, List.length_take,
        maxModelNameLength]
      omega
    · obtain ⟨rest, rfl⟩ := List.head?_eq_some_iff.mp hhead
      rw [String.toList_ofList, List.cons_append, List.cons_append]
      rfl
    · rw [String.toList_ofList, List.all_append, List.all_append, hfixedCharacters, hcharacters]
      have hall := List.all_eq_true.mp (escape_characters (utf8 source))
      rw [Bool.true_and, Bool.and_true, List.all_eq_true]
      exact fun character hcharacter => hall character (List.mem_of_mem_take hcharacter)

theorem modelToolName_ends {modelName : String}
    (h : modelToolName lower sha256Hex sourceRef name = .ok modelName) :
    ∃ composed, composedName lower sourceRef name = some composed ∧
      modelName.toList.drop (modelName.toList.length - 13) = nameSuffix sha256Hex composed := by
  unfold modelToolName at h
  split at h
  case h_1 fixed escaped hfixed hescaped =>
    dsimp only at h
    split_ifs at h
    cases h
    refine ⟨fixed ++ escaped, composedName_eq_some.mpr ⟨_, _, hfixed, hescaped, rfl⟩, ?_⟩
    rw [String.toList_ofList]
    apply List.drop_left'
    have hsuffix := (nameSuffix_shape hhex (fixed ++ escaped)).1
    rw [List.length_append, List.length_append, List.length_append, hsuffix]
    omega
  case h_2 => cases h

end

end Names

variable {lower : Text → Text} {sha256Hex : String → String} {left right : ToolSourceRef × Text}

def NamesDistinguish (lower : Text → Text) (sha256Hex : String → String)
    (left right : ToolSourceRef × Text) : Prop :=
  (∃ modelName, modelToolName lower sha256Hex left.1 left.2 = .ok modelName ∧
    IsModelName modelName) ∧
  (∃ modelName, modelToolName lower sha256Hex right.1 right.2 = .ok modelName ∧
    IsModelName modelName) ∧
  (left ≠ right → modelToolName lower sha256Hex left.1 left.2 ≠
    modelToolName lower sha256Hex right.1 right.2) ∧
  (left.2 ≠ right.2 → escapeUpstreamName lower left.2 ≠ escapeUpstreamName lower right.2)

theorem eq_of_modelToolName (hhex : ∀ source, IsSha256Hex (sha256Hex source))
    (hcollision : ∀ composed other, composedName lower left.1 left.2 = some composed →
      composedName lower right.1 right.2 = some other →
      nameSuffix sha256Hex composed = nameSuffix sha256Hex other → composed = other)
    {modelName : String} (hleft : modelToolName lower sha256Hex left.1 left.2 = .ok modelName)
    (hright : modelToolName lower sha256Hex right.1 right.2 = .ok modelName) :
    left.1 = right.1 ∧ lower left.2 = lower right.2 := by
  obtain ⟨composed, hcomposed, hends⟩ := modelToolName_ends hhex hleft
  obtain ⟨other, hother, hotherEnds⟩ := modelToolName_ends hhex hright
  have heq := hcollision composed other hcomposed hother (hends.symm.trans hotherEnds)
  subst heq
  exact composedName_inj hcomposed hother

/-- Names are legal and tell the tools apart exactly when there is room for them, they can be
encoded, and the upstream names differ in more than the case of their letters. -/
theorem model_names_distinguish (hhex : ∀ source, IsSha256Hex (sha256Hex source))
    (hcollision : ∀ composed other, composedName lower left.1 left.2 = some composed →
      composedName lower right.1 right.2 = some other →
      nameSuffix sha256Hex composed = nameSuffix sha256Hex other → composed = other) :
    NamesDistinguish lower sha256Hex left right ↔
      (HasRoom left.1 ∧ IsEncodable lower left.2) ∧
        (HasRoom right.1 ∧ IsEncodable lower right.2) ∧
        (lower left.2 = lower right.2 → left.2 = right.2) := by
  rw [NamesDistinguish, modelToolName_isOk hhex, modelToolName_isOk hhex]
  refine and_congr_right fun hleft => and_congr_right fun hright => ?_
  constructor
  · rintro ⟨-, hescape⟩ hlower
    by_contra hne
    apply hescape hne
    rw [escapeUpstreamName, escapeUpstreamName, hlower]
  · intro hlower
    obtain ⟨leftName, hleftName, -⟩ := (modelToolName_isOk hhex).mpr hleft
    refine ⟨?_, ?_⟩
    · intro hne heq
      obtain ⟨hsource, hnames⟩ :=
        eq_of_modelToolName hhex hcollision hleftName (heq.symm.trans hleftName)
      exact hne (Prod.ext hsource (hlower hnames))
    · intro hne heq
      obtain ⟨source, hsource⟩ := hleft.2
      have hescaped := escapeUpstreamName_eq_some.mpr ⟨source, hsource, rfl⟩
      exact hne (hlower (lower_eq_of_escape hescaped (heq.symm.trans hescaped)))

def builtinSource : ToolSourceRef := ⟨.builtin, none, rfl⟩

def connectionSource : ToolSourceRef := ⟨.mcp, some 7, 7, rfl, by decide⟩

/-- `str.lower` of the ASCII letters. -/
def lowerAscii (source : Text) : Text :=
  source.map (Sum.map Char.toLower id)

def sampleSha256Hex (source : String) : String :=
  if source = "nervos__builtin__echo" then
    "5b99373c435dd956740faa35eab8f8bd159daf9873a23078dfe86883852bddeb"
  else "f75d590db0505f4624b8091fe4555193388258655253c2a12f9843dd79b6d635"

theorem sampleSha256Hex_hex (source : String) : IsSha256Hex (sampleSha256Hex source) := by
  unfold sampleSha256Hex
  split_ifs <;> decide +kernel

/-- Two sources give the same upstream name two names. -/
theorem model_names_distinguish_echo :
    NamesDistinguish lowerAscii sampleSha256Hex (builtinSource, text "echo")
        (connectionSource, text "echo") ↔
      (HasRoom builtinSource ∧ IsEncodable lowerAscii (text "echo")) ∧
        (HasRoom connectionSource ∧ IsEncodable lowerAscii (text "echo")) ∧
        (lowerAscii (text "echo") = lowerAscii (text "echo") → text "echo" = text "echo") := by
  apply model_names_distinguish sampleSha256Hex_hex
  intro composed other hcomposed hother hsuffix
  have hbuiltin : composedName lowerAscii builtinSource (text "echo") =
      some "nervos__builtin__echo".toList := by decide +kernel
  have hconnection : composedName lowerAscii connectionSource (text "echo") =
      some "nervos__c7__echo".toList := by decide +kernel
  cases hbuiltin.symm.trans hcomposed
  cases hconnection.symm.trans hother
  exact absurd hsuffix (by decide +kernel)

/-- `Echo` and `echo` of one source get one name. -/
theorem model_names_collide :
    ¬ ∀ left right : ToolSourceRef × Text, 1 ≤ left.2.length ∧ left.2.length ≤ 128 →
      1 ≤ right.2.length ∧ right.2.length ≤ 128 →
      NamesDistinguish lowerAscii sampleSha256Hex left right := by
  intro hall
  obtain ⟨-, -, hnames, -⟩ := hall (builtinSource, text "Echo") (builtinSource, text "echo")
    (by decide +kernel) (by decide +kernel)
  have hlower : lowerAscii (text "Echo") = lowerAscii (text "echo") := by decide +kernel
  apply hnames
  · intro heq
    exact absurd (congrArg Prod.snd heq) (by decide +kernel)
  · rw [modelToolName, modelToolName, escapeUpstreamName, escapeUpstreamName, hlower]

end ToolNames

end NervOS
