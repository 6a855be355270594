/-
The built-in tool `json_transform`: a pointer of RFC 6901 selects an object of a document, and a
list of keys projects it.  The pointers that select a value are the spellings of the paths to it,
and of the errors that leave the handler every one is its own, but for documents that cannot be
measured.
-/
import NervOS.Guarantees.CanonicalJson
import NervOS.Guarantees.ToolSchemas
import NervOS.Text.Numerals

namespace NervOS

namespace JsonTransform

open Python Python.Value StateCodec SchemaGate CanonicalJson

inductive ToolFailureReason where
  | argumentsInvalid
  | resultTooLarge
deriving DecidableEq

/-- What leaves a handler besides a result: a `ToolExecutionFailure`, or anything else. -/
inductive HandlerFailure where
  | toolExecution (reason : ToolFailureReason) (message : String)
  | raised
deriving DecidableEq

/-- Refused arguments, with the message of their `ToolExecutionFailure`. -/
def invalid {α : Type} (message : String) : Except String α :=
  .error message

def refused {α : Type} : Except String α → Except HandlerFailure α
  | .ok value => .ok value
  | .error message => .error (.toolExecution .argumentsInvalid message)

def slash : Char ⊕ Fin 2048 := .inl '/'

def tilde : Char ⊕ Fin 2048 := .inl '~'

/-- `_unescape_pointer_segment`; nothing where a `~` is malformed. -/
def unescapePointerSegment : Text → Option Text
  | [] => some []
  | [character] => if character = tilde then none else some [character]
  | character :: second :: rest =>
    if character ≠ tilde then (unescapePointerSegment (second :: rest)).map (character :: ·)
    else if second = .inl '0' then (unescapePointerSegment rest).map (tilde :: ·)
    else if second = .inl '1' then (unescapePointerSegment rest).map (slash :: ·)
    else none

def isAsciiDigit : Char ⊕ Fin 2048 → Bool
  | .inl character => character.isDigit
  | .inr _ => false

/-- `_parse_array_index`; a pointer is too short for more digits than `int` reads. -/
def parseArrayIndex (segment : Text) : Option Nat :=
  if segment = [] ∨ segment.all isAsciiDigit = false ∨
      (1 < segment.length ∧ segment.head? = some (.inl '0')) then none
  else some (Text.numeralValue (segment.filterMap Sum.getLeft?))

/-- One turn of the loop of `_resolve_pointer`. -/
def descend (current : Value Text) (segment : Text) : Except String (Value Text) :=
  match current with
  | .mapping .plain members =>
    match get? members segment with
    | some value => .ok value
    | none => invalid "Pointer does not resolve."
  | .sequence .plain items =>
    match parseArrayIndex segment with
    | none => invalid "Array index must be a decimal integer without leading zeroes."
    | some index =>
      match items[index]? with
      | some value => .ok value
      | none => invalid "Pointer does not resolve."
  | _ => invalid "Pointer does not resolve."

def descendAll (current : Value Text) : List Text → Except String (Value Text)
  | [] => .ok current
  | segment :: rest => do
    let next ← descend current segment
    descendAll next rest

/-- `pointer[1:].split("/")` -/
def splitPointer (rest : Text) : List Text :=
  @List.splitOn _ instBEqOfDecidableEq slash rest

/-- `_resolve_pointer` -/
def resolvePointer (document : Members) (pointer : Text) : Except String (Value Text) :=
  match pointer with
  | [] => .ok (.mapping .plain document)
  | first :: rest =>
    if first ≠ slash then invalid "Pointer must be empty or start with '/'."
    else
      match (splitPointer rest).mapM unescapePointerSegment with
      | none => invalid "Pointer contains a malformed '~' escape."
      | some segments => descendAll (.mapping .plain document) segments

def maxPointerLength : Nat := 256

def maxProjectionKeys : Nat := 32

def maxJsonDocumentBytes : Nat := 65536

structure ToolResult where
  text : String
  structured : Members

def projectKeys (selected : Members) :
    List (Value Text) → List Text → Members → Except String Members
  | [], _, projected => .ok projected
  | .scalar (.str key) :: rest, seen, projected =>
    if (seen.any fun other => decide (other = key)) = true then
      invalid "Requested keys must be unique strings."
    else
      match get? selected key with
      | none => invalid "Requested key is not present in the selected object."
      | some value => projectKeys selected rest (seen ++ [key]) (assign key value projected)
  | _ :: _, _, _ => invalid "Requested keys must be unique strings."

def project (selected : Members) : Value Text → Except String Members
  | .scalar .none => .ok selected
  | .sequence .plain keys =>
    if maxProjectionKeys < keys.length then invalid "Too many requested keys."
    else projectKeys selected keys [] []
  | _ => invalid "Too many requested keys."

/-- `require_json_value`, and the canonical text if it is within the bound. -/
def boundedText (value : Value Text) (message : String) : Except HandlerFailure String :=
  if validateJsonValue some StateCodec.jsonValueMaxDepth value (text "$") 0 ≠ none then
    .error .raised
  else
    match canonicalJsonText value with
    -- a lone surrogate cannot be encoded, nor a long integer be written
    | none => .error .raised
    | some canonical =>
      if maxJsonDocumentBytes < utf8Length canonical then
        .error (.toolExecution .resultTooLarge message)
      else .ok canonical

/-- `isinstance(selected, dict)` -/
def requireObject : Value Text → Except String Members
  | .mapping .plain members => .ok members
  | _ => invalid "Selected JSON value must be object."

/-- The handler, once its arguments are of the right types. -/
def transform (document : Members) (pointer : Text) (keys : Value Text) :
    Except HandlerFailure ToolResult :=
  if maxPointerLength < pointer.length then refused (invalid "Pointer is too long.")
  else do
    let _ ← boundedText (.mapping .plain document) "Document is too large."
    let value ← refused (resolvePointer document pointer)
    let selected ← refused (requireObject value)
    let result ← refused (project selected keys)
    let written ← boundedText (.mapping .plain result) "Result is too large."
    .ok ⟨written, result⟩

/-- `_json_transform_handler` -/
def jsonTransformHandler (arguments : Members) : Except HandlerFailure ToolResult :=
  match get arguments "document", get arguments "pointer" with
  | .mapping .plain document, .scalar (.str pointer) =>
    transform document pointer (get arguments "keys")
  | _, _ => refused (invalid "Invalid arguments.")

section Spelling

/-- A step of a path: the key of an object, or the position in an array. -/
inductive Step where
  | key (name : Text)
  | item (index : Nat)

def escapeCharacter (character : Char ⊕ Fin 2048) : Text :=
  if character = tilde then [tilde, .inl '0']
  else if character = slash then [tilde, .inl '1']
  else [character]

def escapeSegment (name : Text) : Text :=
  name.flatMap escapeCharacter

def indexDigits (index : Nat) : Text :=
  (Nat.toDigits 10 index).map Sum.inl

def Step.segment : Step → Text
  | .key name => escapeSegment name
  | .item index => indexDigits index

def pointerOf : List Step → Text
  | [] => []
  | step :: rest => slash :: [slash].intercalate ((step :: rest).map Step.segment)

def step? : Value Text → Step → Option (Value Text)
  | .mapping .plain members, .key name => get? members name
  | .sequence .plain items, .item index => items[index]?
  | _, _ => none

def at? (value : Value Text) : List Step → Option (Value Text)
  | [] => some value
  | step :: rest => (step? value step).bind fun next => at? next rest

variable {name segment : Text} {index : Nat}

theorem unescape_escape (name : Text) :
    unescapePointerSegment (escapeSegment name) = some name := by
  induction name with
  | nil => rfl
  | cons character rest ih =>
    have hcons : escapeSegment (character :: rest) =
        escapeCharacter character ++ escapeSegment rest := List.flatMap_cons
    rw [hcons, escapeCharacter]
    split_ifs with htilde hslash
    · rw [List.cons_append, List.singleton_append, unescapePointerSegment, if_neg (not_not.mpr rfl),
        if_pos rfl, ih, htilde]
      rfl
    · rw [List.cons_append, List.singleton_append, unescapePointerSegment, if_neg (not_not.mpr rfl),
        if_neg (by decide), if_pos rfl, ih, hslash]
      rfl
    · rw [List.singleton_append]
      cases hescaped : escapeSegment rest with
      | nil =>
        rw [hescaped] at ih
        cases ih
        rw [unescapePointerSegment, if_neg htilde]
      | cons second others =>
        rw [unescapePointerSegment, if_pos htilde, ← hescaped, ih]
        rfl

theorem slash_not_mem_escape (name : Text) : slash ∉ escapeSegment name := by
  intro hmem
  obtain ⟨character, -, hcharacter⟩ := List.mem_flatMap.mp hmem
  rw [escapeCharacter] at hcharacter
  split_ifs at hcharacter with htilde hslash
  · simp [slash, tilde] at hcharacter
  · simp [slash, tilde] at hcharacter
  · exact hslash (List.mem_singleton.mp hcharacter).symm

theorem escape_of_unescape (hslash : slash ∉ segment)
    (h : unescapePointerSegment segment = some name) : segment = escapeSegment name := by
  induction segment using unescapePointerSegment.induct generalizing name with
  | case1 =>
    cases h
    rfl
  | case2 => simp [unescapePointerSegment] at h
  | case3 character htilde =>
    rw [unescapePointerSegment, if_neg htilde] at h
    cases h
    rw [List.mem_singleton] at hslash
    rw [escapeSegment, List.flatMap_singleton, escapeCharacter, if_neg htilde,
      if_neg (Ne.symm hslash)]
  | case4 character second rest htilde ih =>
    rw [unescapePointerSegment, if_pos htilde, Option.map_eq_some_iff] at h
    obtain ⟨others, hothers, rfl⟩ := h
    rw [List.mem_cons, not_or] at hslash
    rw [ih hslash.2 hothers]
    exact (by simp [escapeSegment, escapeCharacter, htilde, Ne.symm hslash.1])
  | case5 character rest htilde ih =>
    have heq := not_not.mp htilde
    subst heq
    rw [unescapePointerSegment, if_neg htilde, if_pos rfl, Option.map_eq_some_iff] at h
    obtain ⟨others, hothers, rfl⟩ := h
    rw [List.mem_cons, List.mem_cons, not_or, not_or] at hslash
    rw [ih hslash.2.2 hothers]
    rfl
  | case6 character rest htilde hzero ih =>
    have heq := not_not.mp htilde
    subst heq
    rw [unescapePointerSegment, if_neg htilde, if_neg hzero, if_pos rfl,
      Option.map_eq_some_iff] at h
    obtain ⟨others, hothers, rfl⟩ := h
    rw [List.mem_cons, List.mem_cons, not_or, not_or] at hslash
    rw [ih hslash.2.2 hothers]
    rfl
  | case7 character second rest htilde hzero hone =>
    rw [unescapePointerSegment, if_neg htilde, if_neg hzero, if_neg hone] at h
    cases h

theorem isAsciiDigit_indexDigits (index : Nat) : (indexDigits index).all isAsciiDigit = true := by
  rw [indexDigits, List.all_map]
  exact Json.toDigits_all index

theorem escape_of_digits (hdigits : segment.all isAsciiDigit = true) :
    escapeSegment segment = segment := by
  induction segment with
  | nil => rfl
  | cons character rest ih =>
    rw [List.all_cons, Bool.and_eq_true] at hdigits
    have htilde : character ≠ tilde := by
      rintro rfl
      exact absurd hdigits.1 (by decide)
    have hslash : character ≠ slash := by
      rintro rfl
      exact absurd hdigits.1 (by decide)
    have hcons : escapeSegment (character :: rest) =
        escapeCharacter character ++ escapeSegment rest := List.flatMap_cons
    rw [hcons, ih hdigits.2, escapeCharacter, if_neg htilde, if_neg hslash,
      List.singleton_append]

theorem isCanonical_toDigits (index : Nat) : Text.IsCanonical (Nat.toDigits 10 index) := by
  by_cases hzero : index = 0
  · rw [hzero]
    exact .inl rfl
  · exact .inr ⟨Text.isNumeral_toDigits index, Nat.toDigits_ne_nil,
      head_toDigits (Nat.pos_of_ne_zero hzero)⟩

theorem filterMap_inl (characters : List Char) :
    (characters.map (Sum.inl (β := Fin 2048))).filterMap Sum.getLeft? = characters := by
  rw [List.filterMap_map]
  exact List.filterMap_some

theorem eq_map_of_digits (hdigits : segment.all isAsciiDigit = true) :
    ∃ numeral, segment = numeral.map Sum.inl ∧ Text.IsNumeral numeral := by
  induction segment with
  | nil => exact ⟨[], rfl, fun digit hdigit => absurd hdigit List.not_mem_nil⟩
  | cons character rest ih =>
    rw [List.all_cons, Bool.and_eq_true] at hdigits
    obtain ⟨numeral, rfl, hnumeral⟩ := ih hdigits.2
    cases character with
    | inl digit => exact ⟨digit :: numeral, rfl, List.forall_mem_cons.mpr ⟨hdigits.1, hnumeral⟩⟩
    | inr surrogate => cases hdigits.1

theorem parseArrayIndex_eq_some :
    parseArrayIndex segment = some index ↔ segment = indexDigits index := by
  rw [parseArrayIndex]
  constructor
  · intro h
    split_ifs at h with hmalformed
    rw [not_or, not_or, Bool.not_eq_false, not_and] at hmalformed
    obtain ⟨hne, hdigits, hhead⟩ := hmalformed
    obtain ⟨numeral, rfl, hnumeral⟩ := eq_map_of_digits hdigits
    rw [filterMap_inl, Option.some.injEq] at h
    have hcanonical : Text.IsCanonical numeral := by
      by_cases hzero : numeral = ['0']
      · exact .inl hzero
      · refine .inr ⟨hnumeral, fun hnil => hne (by rw [hnil, List.map_nil]), fun hfirst => ?_⟩
        obtain ⟨rest, rfl⟩ := List.head?_eq_some_iff.mp hfirst
        cases rest with
        | nil => exact hzero rfl
        | cons second rest =>
          refine hhead ?_ rfl
          rw [List.length_map, List.length_cons, List.length_cons]
          omega
    rw [indexDigits, Text.eq_of_canonical hcanonical (isCanonical_toDigits index)
      (h.trans (Text.numeralValue_toDigits index).symm)]
  · rintro rfl
    have hhead : ¬ (1 < (indexDigits index).length ∧
        (indexDigits index).head? = some (.inl '0')) := by
      rintro ⟨hlength, hfirst⟩
      rw [indexDigits, List.head?_map, Option.map_eq_some_iff] at hfirst
      obtain ⟨digit, hdigit, hzero⟩ := hfirst
      cases hzero
      rcases isCanonical_toDigits index with hsingle | ⟨-, -, hnot⟩
      · rw [indexDigits, hsingle] at hlength
        exact absurd hlength (by decide)
      · exact hnot hdigit
    have hne : indexDigits index ≠ [] := fun hnil =>
      Nat.toDigits_ne_nil (List.map_eq_nil_iff.mp hnil)
    rw [if_neg (by
      rw [not_or, not_or, isAsciiDigit_indexDigits]
      exact ⟨hne, by decide, hhead⟩), indexDigits, filterMap_inl, Text.numeralValue_toDigits]

theorem Step.segment_eq (step : Step) : ∃ name, step.segment = escapeSegment name := by
  cases step with
  | key name => exact ⟨name, rfl⟩
  | item index =>
    exact ⟨indexDigits index, (escape_of_digits (isAsciiDigit_indexDigits index)).symm⟩

variable {current value : Value Text} {raw : Text}

theorem descend_ok (hslash : slash ∉ raw) (hread : unescapePointerSegment raw = some segment) :
    descend current segment = .ok value ↔
      ∃ step : Step, raw = step.segment ∧ step? current step = some value := by
  have hraw := escape_of_unescape hslash hread
  constructor
  · intro h
    unfold descend at h
    split at h
    case h_1 members =>
      split at h
      case h_1 found hfound =>
        cases h
        exact ⟨.key segment, hraw, hfound⟩
      case h_2 => cases h
    case h_2 items =>
      split at h
      case h_1 => cases h
      case h_2 index hindex =>
        split at h
        case h_1 found hfound =>
          cases h
          have hsegment := parseArrayIndex_eq_some.mp hindex
          refine ⟨.item index, ?_, hfound⟩
          rw [hraw, hsegment, escape_of_digits (isAsciiDigit_indexDigits index)]
          rfl
        case h_2 => cases h
    case h_3 => cases h
  · rintro ⟨step, hstep, hvalue⟩
    unfold step? at hvalue
    split at hvalue
    case h_1 members name =>
      have hname : segment = name :=
        Option.some.inj (hread.symm.trans (hstep ▸ unescape_escape name))
      rw [descend, hname, hvalue]
    case h_2 items index =>
      have hdigits : segment = indexDigits index := by
        have hescape := escape_of_digits (isAsciiDigit_indexDigits index)
        have hagain := unescape_escape (indexDigits index)
        rw [hescape] at hagain
        exact Option.some.inj (hread.symm.trans (hstep ▸ hagain))
      rw [descend, parseArrayIndex_eq_some.mpr hdigits]
      dsimp only
      rw [hvalue]
    case h_3 => cases hvalue

theorem descendAll_ok {raws segments : List Text} (hslash : ∀ raw ∈ raws, slash ∉ raw)
    (hread : raws.mapM unescapePointerSegment = some segments) :
    descendAll current segments = .ok value ↔
      ∃ path : List Step, raws = path.map Step.segment ∧ at? current path = some value := by
  induction raws generalizing segments current with
  | nil =>
    rw [List.mapM_nil] at hread
    cases hread
    rw [descendAll, Except.ok.injEq]
    constructor
    · rintro rfl
      exact ⟨[], rfl, rfl⟩
    · rintro ⟨path, hpath, hvalue⟩
      rw [eq_comm, List.map_eq_nil_iff] at hpath
      rw [hpath] at hvalue
      exact Option.some.inj hvalue
  | cons raw rest ih =>
    simp only [List.mapM_cons, Option.bind_eq_bind, Option.bind_eq_some_iff] at hread
    obtain ⟨segment, hsegment, others, hothers, hcons⟩ := hread
    cases hcons
    rw [List.forall_mem_cons] at hslash
    have hstep := fun found => @descend_ok segment current found raw hslash.1 hsegment
    rw [descendAll]
    constructor
    · intro h
      cases hnext : descend current segment with
      | error failure =>
        rw [hnext] at h
        cases h
      | ok next =>
        rw [hnext] at h
        obtain ⟨step, hraw, hfound⟩ := (hstep next).mp hnext
        obtain ⟨path, hpath, hvalue⟩ := (ih hslash.2 hothers).mp h
        refine ⟨step :: path, ?_, ?_⟩
        · rw [List.map_cons, ← hraw, ← hpath]
        · rw [at?, hfound]
          exact hvalue
    · rintro ⟨path, hpath, hvalue⟩
      cases path with
      | nil => cases hpath
      | cons step path =>
        rw [List.map_cons, List.cons.injEq] at hpath
        rw [at?, Option.bind_eq_some_iff] at hvalue
        obtain ⟨next, hfound, hrest⟩ := hvalue
        rw [(hstep next).mpr ⟨step, hpath.1, hfound⟩]
        exact (ih hslash.2 hothers).mpr ⟨path, hpath.2, hrest⟩

theorem intercalate_splitPointer (rest : Text) : [slash].intercalate (splitPointer rest) = rest :=
  @List.intercalate_splitOn _ rest instBEqOfDecidableEq inferInstance slash

theorem splitPointer_intercalate {raws : List Text} (hslash : ∀ raw ∈ raws, slash ∉ raw)
    (hne : raws ≠ []) : splitPointer ([slash].intercalate raws) = raws :=
  @List.splitOn_intercalate _ raws instBEqOfDecidableEq inferInstance slash hslash hne

theorem segments_read (path : List Step) :
    ∃ segments, (path.map Step.segment).mapM unescapePointerSegment = some segments := by
  induction path with
  | nil => exact ⟨[], rfl⟩
  | cons step rest ih =>
    obtain ⟨name, hname⟩ := step.segment_eq
    obtain ⟨others, hothers⟩ := ih
    refine ⟨name :: others, ?_⟩
    rw [List.map_cons, List.mapM_cons, hname, unescape_escape, hothers]
    rfl

theorem resolvePointer_ok {document : Members} {pointer : Text} :
    resolvePointer document pointer = .ok value ↔
      ∃ path, pointer = pointerOf path ∧ at? (.mapping .plain document) path = some value := by
  cases pointer with
  | nil =>
    rw [resolvePointer, Except.ok.injEq]
    constructor
    · rintro rfl
      exact ⟨[], rfl, rfl⟩
    · rintro ⟨path, hpath, hvalue⟩
      cases path with
      | nil => exact Option.some.inj hvalue
      | cons step rest => cases hpath
  | cons first rest =>
    rw [resolvePointer]
    split_ifs with hfirst
    · constructor
      · intro h
        cases h
      · rintro ⟨path, hpath, -⟩
        cases path with
        | nil => cases hpath
        | cons step others => exact absurd (List.cons.inj hpath).1 hfirst
    · have hsplit : ∀ path : List Step, path ≠ [] →
          (splitPointer rest = path.map Step.segment ↔
            first :: rest = pointerOf path) := by
        intro path hpath
        obtain ⟨step, others, rfl⟩ := List.exists_cons_of_ne_nil hpath
        rw [pointerOf, List.cons.injEq, and_iff_right (not_not.mp hfirst)]
        constructor
        · intro h
          rw [← h, intercalate_splitPointer]
        · rintro rfl
          refine splitPointer_intercalate (fun raw hraw => ?_) (by simp)
          obtain ⟨other, -, rfl⟩ := List.mem_map.mp hraw
          obtain ⟨name, hname⟩ := other.segment_eq
          rw [hname]
          exact slash_not_mem_escape name
      have hslash : ∀ raw ∈ splitPointer rest, slash ∉ raw := fun raw hraw =>
        Text.not_mem_of_mem_splitOn hraw
      cases hread : (splitPointer rest).mapM unescapePointerSegment with
      | none =>
        constructor
        · intro h
          cases h
        · rintro ⟨path, hpath, -⟩
          have hne : path ≠ [] := by
            rintro rfl
            cases hpath
          obtain ⟨segments, hsegments⟩ := segments_read path
          rw [(hsplit path hne).mpr hpath, hsegments] at hread
          cases hread
      | some segments =>
        dsimp only
        rw [descendAll_ok hslash hread]
        constructor
        · rintro ⟨path, hpath, hvalue⟩
          have hne : path ≠ [] := by
            rintro rfl
            exact @List.splitOn_ne_nil _ instBEqOfDecidableEq slash rest hpath
          exact ⟨path, (hsplit path hne).mp hpath, hvalue⟩
        · rintro ⟨path, hpath, hvalue⟩
          have hne : path ≠ [] := by
            rintro rfl
            cases hpath
          exact ⟨path, (hsplit path hne).mpr hpath, hvalue⟩

end Spelling

section Measured

/-- What the contract admits at this depth and a text can be written of. -/
structure IsMeasurable (bound : Nat) (value : Value Text) : Prop where
  json : IsJson some value
  nesting : value.nesting ≤ bound
  writable : Writable value

variable {bound : Nat} {members : Members} {items : List (Value Text)}
  {value found : Value Text} {message canonical : String}

theorem isMeasurable_mapping : IsMeasurable bound (.mapping .plain members) ↔
    0 < bound ∧ ∀ member ∈ members,
      (encode? member.1).isSome ∧ IsMeasurable (bound - 1) member.2 := by
  constructor
  · rintro ⟨hjson, hnesting, hwritable⟩
    rw [IsJson, all_mapping] at hjson
    rw [Writable, all_mapping, List.forall_mem_map] at hwritable
    rw [Value.nesting] at hnesting
    have hmembers := nestingMembers_le.mp (Nat.le_sub_of_add_le hnesting)
    exact ⟨by omega, fun member hmember => ⟨hwritable.2.1 member hmember,
      hjson.2.2 member hmember, hmembers member hmember, hwritable.2.2 member hmember⟩⟩
  · rintro ⟨hpositive, hmembers⟩
    have hnesting := nestingMembers_le.mpr fun member hmember =>
      (hmembers member hmember).2.nesting
    refine ⟨?_, ?_, ?_⟩
    · rw [IsJson, all_mapping]
      exact ⟨rfl, fun key _ => rfl, fun member hmember => (hmembers member hmember).2.json⟩
    · rw [Value.nesting]
      omega
    · rw [Writable, all_mapping, List.forall_mem_map]
      exact ⟨trivial, fun member hmember => (hmembers member hmember).1,
        fun member hmember => (hmembers member hmember).2.writable⟩

theorem IsMeasurable.mono {other : Nat} (h : IsMeasurable bound value) (hle : bound ≤ other) :
    IsMeasurable other value :=
  ⟨h.json, h.nesting.trans hle, h.writable⟩

theorem IsMeasurable.step {step : Step} (h : IsMeasurable bound value)
    (hstep : step? value step = some found) : IsMeasurable bound found := by
  unfold step? at hstep
  split at hstep
  case h_1 members name =>
    have hmember := ((isMeasurable_mapping.mp h).2 _ (mem_of_get? hstep)).2
    exact hmember.mono (Nat.sub_le bound 1)
  case h_2 items index =>
    have hmem := List.mem_of_getElem? hstep
    obtain ⟨hjson, hnesting, hwritable⟩ := h
    rw [IsJson, all_sequence] at hjson
    rw [Writable, all_sequence] at hwritable
    rw [Value.nesting] at hnesting
    have hitem := nestingItems_le.mp (Nat.le_of_add_right_le hnesting) found hmem
    exact ⟨hjson.2 found hmem, hitem, hwritable.2 found hmem⟩
  case h_3 => cases hstep

theorem IsMeasurable.at {path : List Step} (h : IsMeasurable bound value)
    (hat : at? value path = some found) : IsMeasurable bound found := by
  induction path generalizing value with
  | nil => exact Option.some.inj hat ▸ h
  | cons step rest ih =>
    rw [at?, Option.bind_eq_some_iff] at hat
    obtain ⟨next, hnext, hrest⟩ := hat
    exact ih (h.step hnext) hrest

theorem boundedText_eq (value : Value Text) (message : String) :
    (¬ IsMeasurable StateCodec.jsonValueMaxDepth value ∧
        boundedText value message = .error .raised) ∨
      IsMeasurable StateCodec.jsonValueMaxDepth value ∧ ∃ canonical,
        canonicalJsonText value = some canonical ∧
          boundedText value message =
            if maxJsonDocumentBytes < utf8Length canonical then
              .error (.toolExecution .resultTooLarge message)
            else .ok canonical := by
  have hvalid := @validateJsonValue_none_iff StateCodec.jsonValueMaxDepth Text some value 0
    (Nat.zero_le _) (text "$")
  have hwritable : (canonicalJsonText value).isSome ↔ Writable value := by
    rw [canonicalJsonText, Option.isSome_map, json?_isSome]
  rw [Nat.zero_add] at hvalid
  rw [boundedText]
  by_cases hnone : validateJsonValue some StateCodec.jsonValueMaxDepth value (text "$") 0 = none
  · rw [if_neg (not_not.mpr hnone)]
    have hjson := hvalid.mp hnone
    cases hcanonical : canonicalJsonText value with
    | none =>
      refine .inl ⟨fun h => ?_, rfl⟩
      rw [hcanonical] at hwritable
      cases hwritable.mpr h.writable
    | some canonical =>
      rw [hcanonical] at hwritable
      exact .inr ⟨⟨hjson.1, hjson.2, hwritable.mp rfl⟩, canonical, rfl, rfl⟩
  · rw [if_pos hnone]
    exact .inl ⟨fun h => hnone (hvalid.mpr ⟨h.json, h.nesting⟩), rfl⟩

structure Fits (value : Value Text) (canonical : String) : Prop where
  measurable : IsMeasurable StateCodec.jsonValueMaxDepth value
  text : canonicalJsonText value = some canonical
  size : utf8Length canonical ≤ maxJsonDocumentBytes

theorem boundedText_ok : boundedText value message = .ok canonical ↔ Fits value canonical := by
  rcases boundedText_eq value message with ⟨hnot, heq⟩ | ⟨hmeasurable, other, hother, heq⟩
  · rw [heq]
    exact ⟨fun h => (by cases h), fun h => absurd h.measurable hnot⟩
  · rw [heq]
    constructor
    · intro h
      split_ifs at h with hsize
      cases h
      exact ⟨hmeasurable, hother, not_lt.mp hsize⟩
    · rintro ⟨-, htext, hsize⟩
      cases hother.symm.trans htext
      rw [if_neg (not_lt.mpr hsize)]

theorem boundedText_raised :
    boundedText value message = .error .raised ↔
      ¬ IsMeasurable StateCodec.jsonValueMaxDepth value := by
  rcases boundedText_eq value message with ⟨hnot, heq⟩ | ⟨hmeasurable, other, hother, heq⟩
  · exact iff_of_true heq hnot
  · refine iff_of_false (fun h => ?_) (not_not.mpr hmeasurable)
    rw [heq] at h
    split_ifs at h
    cases h

end Measured

variable {selected projected held : Members} {document : Members} {pointer : Text}
  {keys : Value Text} {result : ToolResult}

/-- The object restricted to the requested keys, which are distinct, or the object itself. -/
def Projects (selected : Members) (keys : Value Text) (projected : Members) : Prop :=
  (keys = .scalar .none ∧ projected = selected) ∨
    keys = .sequence .plain (projected.map fun member => .scalar (.str member.1)) ∧
      projected.length ≤ maxProjectionKeys ∧ (projected.map Prod.fst).Nodup ∧
        ∀ member ∈ projected, get? selected member.1 = some member.2

theorem projectKeys_other {first : Value Text} {rest : List (Value Text)} {seen : List Text}
    (h : ∀ key, first ≠ .scalar (.str key)) :
    projectKeys selected (first :: rest) seen projected =
      invalid "Requested keys must be unique strings." := by
  unfold projectKeys
  split
  case h_1 heq => cases heq
  case h_2 key _ heq => exact absurd (List.cons.inj heq).1 (h key)
  case h_3 => rfl

theorem projectKeys_ok {requested : List (Value Text)} (hheld : (held.map Prod.fst).Nodup) :
    projectKeys selected requested (held.map Prod.fst) held = .ok projected ↔
      ∃ more : Members, requested = more.map (fun member => .scalar (.str member.1)) ∧
        projected = held ++ more ∧ ((held ++ more).map Prod.fst).Nodup ∧
          ∀ member ∈ more, get? selected member.1 = some member.2 := by
  induction requested generalizing held with
  | nil =>
    rw [projectKeys, Except.ok.injEq]
    constructor
    · rintro rfl
      refine ⟨[], rfl, (List.append_nil held).symm, ?_, fun _ h => absurd h List.not_mem_nil⟩
      rwa [List.append_nil]
    · rintro ⟨more, hmore, rfl, -⟩
      rw [eq_comm, List.map_eq_nil_iff] at hmore
      rw [hmore, List.append_nil]
  | cons first rest ih =>
    by_cases hfirst : ∃ key, first = .scalar (.str key)
    · obtain ⟨key, rfl⟩ := hfirst
      rw [projectKeys]
      have hseen : ((held.map Prod.fst).any fun other => decide (other = key)) = true ↔
          key ∈ held.map Prod.fst := by
        rw [List.any_eq_true]
        simp
      split_ifs with hmem
      · rw [hseen] at hmem
        constructor
        · intro h
          cases h
        · rintro ⟨more, hmore, rfl, hnodup, -⟩
          cases more with
          | nil => cases hmore
          | cons member more =>
            cases (List.cons.inj hmore).1
            rw [List.map_append, List.nodup_append] at hnodup
            exact absurd rfl (hnodup.2.2 _ hmem member.1 List.mem_cons_self)
      · rw [hseen] at hmem
        cases hfound : get? selected key with
        | none =>
          constructor
          · intro h
            cases h
          · rintro ⟨more, hmore, rfl, -, hpresent⟩
            cases more with
            | nil => cases hmore
            | cons member more =>
              cases (List.cons.inj hmore).1
              cases hfound.symm.trans (hpresent member List.mem_cons_self)
        | some value =>
          have hnext : ((held ++ [(key, value)]).map Prod.fst).Nodup := by
            rw [List.map_append, List.nodup_append]
            refine ⟨hheld, List.nodup_singleton key, ?_⟩
            intro other hother last hlast heq
            have hkey : other = key := heq.trans (List.mem_singleton.mp hlast)
            exact hmem (hkey ▸ hother)
          have hseenNext : held.map Prod.fst ++ [key] = (held ++ [(key, value)]).map Prod.fst := by
            rw [List.map_append]
            rfl
          dsimp only
          rw [assign_of_new hmem, hseenNext, ih hnext]
          constructor
          · rintro ⟨more, rfl, rfl, hnodup, hpresent⟩
            rw [List.append_assoc, List.singleton_append] at hnodup ⊢
            exact ⟨(key, value) :: more, rfl, rfl, hnodup,
              List.forall_mem_cons.mpr ⟨hfound, hpresent⟩⟩
          · rintro ⟨more, hmore, rfl, hnodup, hpresent⟩
            cases more with
            | nil => cases hmore
            | cons member more =>
              obtain ⟨hkey, hrest⟩ := List.cons.inj hmore
              cases hkey
              rw [List.forall_mem_cons] at hpresent
              have hvalue := Option.some.inj (hfound.symm.trans hpresent.1)
              have hmember : held ++ member :: more = held ++ [(member.1, value)] ++ more := by
                rw [hvalue, List.append_cons]
              exact ⟨more, hrest, hmember, hmember ▸ hnodup, hpresent.2⟩
    · rw [projectKeys_other fun key hkey => hfirst ⟨key, hkey⟩]
      constructor
      · intro h
        cases h
      · rintro ⟨more, hmore, -⟩
        cases more with
        | nil => cases hmore
        | cons member more => exact absurd ⟨member.1, (List.cons.inj hmore).1⟩ hfirst

theorem project_ok : project selected keys = .ok projected ↔ Projects selected keys projected := by
  unfold project Projects
  split
  case h_1 => simp [eq_comm]
  case h_2 requested =>
    split_ifs with hlength
    · constructor
      · intro h
        cases h
      · rintro (⟨h, -⟩ | ⟨hkeys, hbound, -⟩)
        · cases h
        · cases hkeys
          rw [List.length_map] at hlength
          omega
    · have hkeys := @projectKeys_ok selected projected [] requested List.nodup_nil
      rw [List.map_nil] at hkeys
      rw [hkeys]
      constructor
      · rintro ⟨more, rfl, rfl, hnodup, hpresent⟩
        rw [List.length_map] at hlength
        exact .inr ⟨rfl, not_lt.mp hlength, hnodup, hpresent⟩
      · rintro (⟨h, -⟩ | ⟨hkeys, -, hnodup, hpresent⟩)
        · cases h
        · cases hkeys
          exact ⟨projected, rfl, rfl, hnodup, hpresent⟩
  case h_3 hnone hlist =>
    constructor
    · intro h
      cases h
    · rintro (⟨rfl, -⟩ | ⟨rfl, -⟩)
      · exact absurd rfl hnone
      · exact absurd rfl (hlist _)

theorem requireObject_ok {value : Value Text} :
    requireObject value = .ok selected ↔ value = .mapping .plain selected := by
  unfold requireObject
  split
  case h_1 members => simp
  case h_2 hnot => exact iff_of_false (fun h => (by cases h)) (hnot selected)

theorem Projects.measurable {bound : Nat} (h : IsMeasurable bound (.mapping .plain selected))
    (hprojects : Projects selected keys projected) :
    IsMeasurable bound (.mapping .plain projected) := by
  rcases hprojects with ⟨-, rfl⟩ | ⟨-, -, -, hpresent⟩
  · exact h
  · obtain ⟨hpositive, hmembers⟩ := isMeasurable_mapping.mp h
    exact isMeasurable_mapping.mpr
      ⟨hpositive, fun member hmember => hmembers member (mem_of_get? (hpresent member hmember))⟩

def argumentsOf (document : Members) (pointer : Text) (keys : Value Text) : Members :=
  [(text "document", .mapping .plain document), (text "pointer", .scalar (.str pointer)),
    (text "keys", keys)]

def Selects (document : Members) (pointer : Text) (keys : Value Text) (result : ToolResult) :
    Prop :=
  pointer.length ≤ maxPointerLength ∧ (∃ source, Fits (.mapping .plain document) source) ∧
    ∃ path selected, pointer = pointerOf path ∧
      at? (.mapping .plain document) path = some (.mapping .plain selected) ∧
        Projects selected keys result.structured ∧
          Fits (.mapping .plain result.structured) result.text

theorem refused_ok {α : Type} {outcome : Except String α} {value : α} :
    refused outcome = .ok value ↔ outcome = .ok value := by
  cases outcome <;> simp [refused]

theorem refused_ne_raised {α : Type} (outcome : Except String α) :
    refused outcome ≠ .error .raised := by
  cases outcome <;> simp [refused]

theorem jsonTransformHandler_argumentsOf :
    jsonTransformHandler (argumentsOf document pointer keys) = transform document pointer keys :=
  rfl

theorem bind_raised {α β : Type} {outcome : Except HandlerFailure α}
    {next : α → Except HandlerFailure β} :
    (outcome >>= next) = .error .raised ↔ outcome = .error .raised ∨
      ∃ found, outcome = .ok found ∧ next found = .error .raised := by
  cases outcome <;> simp [bind, Except.bind]

theorem jsonTransformHandler_ok :
    jsonTransformHandler (argumentsOf document pointer keys) = .ok result ↔
      Selects document pointer keys result := by
  rw [jsonTransformHandler_argumentsOf, transform, Selects]
  split_ifs with hlength
  · exact iff_of_false (fun h => (by cases h)) fun h => absurd h.1 (not_le.mpr hlength)
  · simp only [Relational.bind_eq_ok, refused_ok, resolvePointer_ok, requireObject_ok, project_ok,
      boundedText_ok]
    constructor
    · rintro ⟨source, hsource, value, ⟨path, hpath, hvalue⟩, selected, rfl, projected, hprojects,
        written, hwritten, heq⟩
      cases heq
      exact ⟨not_lt.mp hlength, ⟨source, hsource⟩, path, selected, hpath, hvalue, hprojects,
        hwritten⟩
    · rintro ⟨-, ⟨source, hsource⟩, path, selected, hpath, hvalue, hprojects, hwritten⟩
      exact ⟨source, hsource, _, ⟨path, hpath, hvalue⟩, selected, rfl, _, hprojects, _, hwritten,
        rfl⟩

theorem jsonTransformHandler_raised :
    jsonTransformHandler (argumentsOf document pointer keys) = .error .raised ↔
      pointer.length ≤ maxPointerLength ∧
        ¬ IsMeasurable StateCodec.jsonValueMaxDepth (.mapping .plain document) := by
  rw [jsonTransformHandler_argumentsOf, transform]
  split_ifs with hlength
  · exact iff_of_false (refused_ne_raised _) fun h => absurd h.1 (not_le.mpr hlength)
  · rw [bind_raised, boundedText_raised, and_iff_right (not_lt.mp hlength), or_iff_left_iff_imp]
    rintro ⟨source, hsource, h⟩
    have hdocument := (boundedText_ok.mp hsource).measurable
    simp only [bind_raised, refused_ne_raised, refused_ok, resolvePointer_ok, requireObject_ok,
      project_ok, boundedText_raised, false_or] at h
    obtain ⟨value, ⟨path, -, hvalue⟩, selected, rfl, projected, hprojects, h⟩ := h
    rcases h with h | ⟨written, -, h⟩
    · exact absurd (hprojects.measurable (hdocument.at hvalue)) h
    · cases h

/-- What the tool promises of one call: a result or its own failure, and the selected object. -/
def MeetsPointer (document : Members) (pointer : Text) (keys : Value Text) : Prop :=
  jsonTransformHandler (argumentsOf document pointer keys) ≠ .error .raised ∧
    ∀ result, jsonTransformHandler (argumentsOf document pointer keys) = .ok result ↔
      Selects document pointer keys result

/-- The tool keeps its promise exactly for the documents of the contract, without lone surrogates
and with integers that can be written, and for the pointers that are refused for their length. -/
theorem meetsPointer_iff (document : Members) (pointer : Text) (keys : Value Text) :
    MeetsPointer document pointer keys ↔
      maxPointerLength < pointer.length ∨
        IsMeasurable StateCodec.jsonValueMaxDepth (.mapping .plain document) := by
  rw [MeetsPointer, ne_eq, jsonTransformHandler_raised, not_and_or, not_not, not_le]
  exact and_iff_left fun result => jsonTransformHandler_ok

/-- A string with a lone surrogate, in a document that is to be returned whole. -/
theorem surrogateDocument_raises :
    ¬ MeetsPointer [(text "name", .scalar (.str [.inr 0]))] [] (.scalar .none) :=
  fun h => h.1 rfl

end JsonTransform

end NervOS
