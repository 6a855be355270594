/-
Codes of letters by words that can be read back: what follows a code word says nothing
about where it ends.  Codes that keep the order of the letters, whatever follows.
-/
import Mathlib.Data.List.Basic
import Mathlib.Data.List.Lex
import Mathlib.Data.String.Basic

namespace Text

section PrefixCode

variable {α β : Type}

/-- No code word is empty, and the first one of a text is known from the text. -/
structure PrefixCode (code : α → List β) : Prop where
  nonempty : ∀ letter, code letter ≠ []
  instant : ∀ left right rest other, code left ++ rest = code right ++ other → left = right

namespace PrefixCode

variable {code : α → List β}

theorem append_inj (h : PrefixCode code) {left right : α} {rest other : List β}
    (heq : code left ++ rest = code right ++ other) : left = right ∧ rest = other := by
  have hletter := h.instant left right rest other heq
  subst hletter
  exact ⟨rfl, List.append_cancel_left heq⟩

theorem flatMap_injective (h : PrefixCode code) :
    Function.Injective (List.flatMap code) := by
  intro left
  induction left with
  | nil =>
    intro right heq
    cases right with
    | nil => rfl
    | cons letter rest =>
      rw [List.flatMap_nil, List.flatMap_cons, eq_comm, List.append_eq_nil_iff] at heq
      exact absurd heq.1 (h.nonempty letter)
  | cons letter rest ih =>
    intro right heq
    cases right with
    | nil =>
      rw [List.flatMap_nil, List.flatMap_cons, List.append_eq_nil_iff] at heq
      exact absurd heq.1 (h.nonempty letter)
    | cons other tail =>
      rw [List.flatMap_cons, List.flatMap_cons] at heq
      obtain ⟨hletter, hrest⟩ := h.append_inj heq
      rw [hletter, ih hrest]

end PrefixCode

end PrefixCode

section OrderedCode

variable {α β : Type} [LinearOrder α] [LinearOrder β]

/-- The words of these letters come in the order of the letters, whatever follows them. -/
def OrderedCode (letters : α → Prop) (code : α → List β) : Prop :=
  ∀ left right, letters left → letters right → left < right →
    ∀ rest other, code left ++ rest < code right ++ other

theorem append_lt_append_of_length_eq {left right rest other : List β}
    (hlength : left.length = right.length) (h : left < right) : left ++ rest < right ++ other := by
  induction left generalizing right with
  | nil =>
    rw [List.length_nil, eq_comm, List.length_eq_zero_iff] at hlength
    rw [hlength] at h
    exact absurd h (lt_irrefl _)
  | cons first left ih =>
    cases right with
    | nil => exact absurd hlength (Nat.succ_ne_zero _)
    | cons second right =>
      rw [List.cons_lt_cons_iff] at h
      rw [List.cons_append, List.cons_append, List.cons_lt_cons_iff]
      exact h.imp_right fun h => ⟨h.1, ih (Nat.succ.inj hlength) h.2⟩

variable {letters : α → Prop} {code : α → List β}

theorem OrderedCode.of_length {size : Nat} (hlength : ∀ letter, letters letter →
      (code letter).length = size)
    (hcode : ∀ left right, letters left → letters right → left < right → code left < code right) :
    OrderedCode letters code := fun left right hleft hright hlt _ _ =>
  append_lt_append_of_length_eq ((hlength left hleft).trans (hlength right hright).symm)
    (hcode left right hleft hright hlt)

theorem OrderedCode.append (h : OrderedCode letters code) {left right : α} {rest other : List β}
    (hleft : letters left) (hright : letters right)
    (hlt : left < right ∨ left = right ∧ rest < other) :
      code left ++ rest < code right ++ other := by
  rcases hlt with hlt | ⟨rfl, hlt⟩
  · exact h left right hleft hright hlt rest other
  · exact List.append_left_lt hlt

theorem OrderedCode.flatMap (h : OrderedCode letters code) (hne : ∀ letter, code letter ≠ [])
    {left right : List α} (hleft : ∀ letter ∈ left, letters letter)
    (hright : ∀ letter ∈ right, letters letter) (hlt : left < right) :
    left.flatMap code < right.flatMap code := by
  induction left generalizing right with
  | nil =>
    cases right with
    | nil => exact absurd hlt (lt_irrefl _)
    | cons first right =>
      obtain ⟨byte, rest, hword⟩ := List.exists_cons_of_ne_nil (hne first)
      rw [List.flatMap_nil, List.flatMap_cons, hword]
      exact List.nil_lt_cons _ _
  | cons first left ih =>
    cases right with
    | nil => exact absurd hlt (List.not_lt_nil _)
    | cons second right =>
      rw [List.forall_mem_cons] at hleft hright
      rw [List.cons_lt_cons_iff] at hlt
      rw [List.flatMap_cons, List.flatMap_cons]
      exact h.append hleft.1 hright.1 (hlt.imp_right fun hlt =>
        ⟨hlt.1, ih hleft.2 hright.2 hlt.2⟩)

theorem terminated_lt {p : α → Prop} {word : α → β} {mark : β}
    (hmark : ∀ letter, p letter → mark < word letter)
    (hword : ∀ left right, p left → p right → left < right → word left < word right)
    {left right : List α} (hleft : ∀ letter ∈ left, p letter) (hright : ∀ letter ∈ right, p letter)
    (hlt : left < right) (rest other : List β) :
    left.map word ++ mark :: rest < right.map word ++ mark :: other := by
  induction left generalizing right with
  | nil =>
    cases right with
    | nil => exact absurd hlt (lt_irrefl _)
    | cons first right =>
      rw [List.map_nil, List.nil_append, List.map_cons, List.cons_append, List.cons_lt_cons_iff]
      exact .inl (hmark first (hright first List.mem_cons_self))
  | cons first left ih =>
    cases right with
    | nil => exact absurd hlt (List.not_lt_nil _)
    | cons second right =>
      rw [List.forall_mem_cons] at hleft hright
      rw [List.cons_lt_cons_iff] at hlt
      rw [List.map_cons, List.map_cons, List.cons_append, List.cons_append,
        List.cons_lt_cons_iff]
      rcases hlt with hlt | ⟨rfl, hlt⟩
      · exact .inl (hword first second hleft.1 hright.1 hlt)
      · exact .inr ⟨rfl, ih hleft.2 hright.2 hlt⟩

end OrderedCode

section Marker

variable {α : Type} {p : α → Bool} {marker : α}

theorem append_inj_of_marker (hmarker : p marker = false) {left right rest other : List α}
    (hleft : left.all p = true) (hright : right.all p = true)
    (heq : left ++ marker :: rest = right ++ marker :: other) : left = right ∧ rest = other := by
  induction left generalizing right with
  | nil =>
    cases right with
    | nil => exact ⟨rfl, (List.cons.inj heq).2⟩
    | cons first tail =>
      rw [List.all_cons, ← (List.cons.inj heq).1, hmarker] at hright
      cases hright
  | cons letter tail ih =>
    rw [List.all_cons, Bool.and_eq_true] at hleft
    cases right with
    | nil =>
      rw [(List.cons.inj heq).1, hmarker] at hleft
      cases hleft.1
    | cons first rest =>
      rw [List.all_cons, Bool.and_eq_true] at hright
      obtain ⟨hletter, htail⟩ := List.cons.inj heq
      obtain ⟨hrest, hother⟩ := ih hleft.2 hright.2 htail
      exact ⟨by rw [hletter, hrest], hother⟩

end Marker

/-- The letter that a text of bytes begins with. -/
def decodeFirst (bytes : List UInt8) : Option Char :=
  ByteArray.utf8DecodeChar? bytes.toByteArray 0

theorem decodeFirst_encode (letter : Char) (rest : List UInt8) :
    decodeFirst (String.utf8EncodeChar letter ++ rest) = some letter := by
  rw [decodeFirst, List.toByteArray_append]
  exact ByteArray.utf8DecodeChar?_utf8EncodeChar_append

theorem decodeFirst_eq_some {bytes : List UInt8} {letter : Char}
    (h : decodeFirst bytes = some letter) :
    ∃ rest, bytes = String.utf8EncodeChar letter ++ rest := by
  obtain ⟨tail, htail⟩ := ByteArray.exists_of_utf8DecodeChar?_eq_some h
  refine ⟨tail.data.toList, List.toByteArray_inj.mp ?_⟩
  rw [htail, List.toByteArray_append]
  congr 1
  apply ByteArray.ext
  rw [List.data_toByteArray]

theorem utf8_prefixCode : PrefixCode String.utf8EncodeChar where
  nonempty letter := String.utf8EncodeChar_ne_nil
  instant left right rest other heq := by
    have hleft := decodeFirst_encode left rest
    rw [heq, decodeFirst_encode right other] at hleft
    exact (Option.some.inj hleft).symm

/-- Decoding that leaves out whatever is no letter. -/
def decodeIgnoring : List UInt8 → List Char
  | [] => []
  | byte :: rest =>
    match decodeFirst (byte :: rest) with
    | some letter => letter :: decodeIgnoring (rest.drop (letter.utf8Size - 1))
    | none => decodeIgnoring rest
termination_by bytes => bytes.length
decreasing_by
  · rw [List.length_drop, List.length_cons]
    omega
  · rw [List.length_cons]
    omega

theorem decodeIgnoring_encode (letter : Char) (rest : List UInt8) :
    decodeIgnoring (String.utf8EncodeChar letter ++ rest) = letter :: decodeIgnoring rest := by
  have hlength := String.length_utf8EncodeChar letter
  have hfirst := decodeFirst_encode letter rest
  cases hcode : String.utf8EncodeChar letter with
  | nil => exact absurd hcode String.utf8EncodeChar_ne_nil
  | cons byte bytes =>
    rw [hcode, List.length_cons] at hlength
    rw [hcode, List.cons_append] at hfirst
    rw [List.cons_append, decodeIgnoring, hfirst]
    dsimp only
    rw [← hlength, Nat.add_sub_cancel, List.drop_left]

theorem decodeIgnoring_of_none {bytes : List UInt8}
    (h : ∀ skipped, decodeFirst (bytes.drop skipped) = none) : decodeIgnoring bytes = [] := by
  induction bytes with
  | nil => rw [decodeIgnoring]
  | cons byte rest ih =>
    have hfirst := h 0
    rw [List.drop_zero] at hfirst
    rw [decodeIgnoring, hfirst]
    exact ih fun skipped => h (skipped + 1)

theorem decodeFirst_part {letter : Char} {size : Nat}
    (hsize : size < (String.utf8EncodeChar letter).length) (skipped : Nat) :
    decodeFirst (((String.utf8EncodeChar letter).take size).drop skipped) = none := by
  rw [Option.eq_none_iff_forall_ne_some]
  intro other hother
  obtain ⟨rest, hrest⟩ := decodeFirst_eq_some hother
  have hpos : 0 < (String.utf8EncodeChar other).length :=
    List.length_pos_of_ne_nil String.utf8EncodeChar_ne_nil
  have hlength := congrArg List.length hrest
  rw [List.length_drop, List.length_take, List.length_append] at hlength
  cases skipped with
  | zero =>
    -- the whole code would begin with a shorter one
    rw [List.drop_zero] at hrest
    have hcode := List.take_append_drop size (String.utf8EncodeChar letter)
    rw [hrest, List.append_assoc] at hcode
    have heq := utf8_prefixCode.instant other letter _ [] (hcode.trans (List.append_nil _).symm)
    rw [heq] at hlength
    omega
  | succ skipped =>
    -- a byte after the first would begin a letter
    have hindex : skipped + 1 < (String.utf8EncodeChar letter).length := by omega
    have hbyte : (String.utf8EncodeChar letter)[skipped + 1] =
        (String.utf8EncodeChar other)[0] := by
      have hget := congrArg (fun bytes => bytes[0]?) hrest
      rw [List.getElem?_drop, List.getElem?_take_of_lt (by omega),
        List.getElem?_append_left hpos, List.getElem?_eq_getElem hpos,
        List.getElem?_eq_getElem (by omega)] at hget
      exact Option.some.inj hget
    have hfirst : (String.utf8EncodeChar other)[0].IsUTF8FirstByte :=
      UInt8.isUTF8FirstByte_getElem_utf8EncodeChar.mpr rfl
    rw [← hbyte, UInt8.isUTF8FirstByte_getElem_utf8EncodeChar] at hfirst
    omega

theorem decodeIgnoring_take (letters : List Char) (size : Nat) :
    ∃ kept, kept <+: letters ∧
      decodeIgnoring ((letters.flatMap String.utf8EncodeChar).take size) = kept ∧
      (kept.flatMap String.utf8EncodeChar).length ≤ size := by
  induction letters generalizing size with
  | nil =>
    refine ⟨[], List.prefix_rfl, ?_, Nat.zero_le _⟩
    rw [List.flatMap_nil, List.take_nil, decodeIgnoring]
  | cons letter rest ih =>
    rw [List.flatMap_cons]
    by_cases hsize : (String.utf8EncodeChar letter).length ≤ size
    · obtain ⟨kept, hkept, hdecode, hlength⟩ :=
        ih (size - (String.utf8EncodeChar letter).length)
      refine ⟨letter :: kept, List.cons_prefix_cons.mpr ⟨rfl, hkept⟩, ?_, ?_⟩
      · rw [List.take_append, List.take_of_length_le hsize, decodeIgnoring_encode, hdecode]
      · rw [List.flatMap_cons, List.length_append]
        omega
    · refine ⟨[], List.nil_prefix, ?_, Nat.zero_le _⟩
      rw [List.take_append_of_le_length (by omega)]
      exact decodeIgnoring_of_none (decodeFirst_part (by omega))

end Text
