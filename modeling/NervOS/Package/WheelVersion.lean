/-
The version in a wheel's metadata as normalized text: the streamed normalizer over one match of
packaging's grammar, equal to the text of packaging's own `Version`.
-/
import NervOS.Python.Value
import NervOS.Text.Numerals

namespace NervOS

namespace WheelVersion

inductive VersionFailure where
  | invalidVersion
  | longInteger
deriving DecidableEq, Repr

def isSeparator (character : Char) : Bool :=
  character == '-' || character == '_' || character == '.'

/-- The texts under the groups of a match; a group of the suffix that is absent is empty. -/
structure VersionMatch where
  epoch : Option (List Char)
  release : List Char
  pre : List Char
  post : List Char
  dev : List Char
  localVersion : Option (List Char)
  release_numeric : ∀ part ∈ release.splitOn '.', part ≠ [] ∧ Text.IsNumeral part
  local_segments : ∀ text, localVersion = some text →
    ∀ part ∈ text.splitOnP isSeparator, part ≠ [] ∧ ∀ letter ∈ part, letter.isAlphanum = true

def VersionMatch.suffix (found : VersionMatch) : List Char :=
  found.pre ++ found.post ++ found.dev

/-- What packaging and the interpreter bring: the grammar with the white space around it, how
the suffix of a version is written, and the longest integer that is converted. -/
structure Packaging where
  grammar : Python.Text → Option VersionMatch
  suffixText : List Char → List Char → List Char → Except VersionFailure (List Char)
  maxDigits : Nat
  maxDigits_pos : 0 < maxDigits
  suffixText_absent : suffixText [] [] [] = .ok []
  suffix_reparsed : ∀ value found, grammar value = some found → found.suffix ≠ [] →
    ∃ again, grammar (('0' :: found.suffix).map Sum.inl) = some again ∧ again.epoch = none ∧
      again.release = ['0'] ∧ again.pre = found.pre ∧ again.post = found.post ∧
      again.dev = found.dev ∧ again.localVersion = none

section Reference

variable (packaging : Packaging)

/-- `int`, up to the limit on the digits that it converts. -/
def Packaging.integer (digits : List Char) : Except VersionFailure Nat :=
  if digits.length ≤ packaging.maxDigits then .ok (Text.numeralValue digits)
  else .error .longInteger

/-- `str` of an integer. -/
def decimal (value : Nat) : List Char :=
  Nat.toDigits 10 value

def epochText (epoch : Nat) : List Char :=
  if epoch = 0 then [] else decimal epoch ++ ['!']

def Packaging.epoch (found : VersionMatch) : Except VersionFailure Nat :=
  match found.epoch with
  | none => .ok 0
  | some digits => packaging.integer digits

def Packaging.localPart (part : List Char) : Except VersionFailure (List Char) :=
  if part.all Char.isDigit = true then (packaging.integer part).map decimal
  else .ok (part.map Char.toLower)

def Packaging.localText (found : VersionMatch) : Except VersionFailure (List Char) :=
  match found.localVersion with
  | none => .ok []
  | some text => do
    let parts ← (text.splitOnP isSeparator).mapM packaging.localPart
    .ok ('+' :: ['.'].intercalate parts)

/-- `str(Version(value))` -/
def Packaging.versionText (value : Python.Text) : Except VersionFailure (List Char) :=
  match packaging.grammar value with
  | none => .error .invalidVersion
  | some found => do
    let epoch ← packaging.epoch found
    let release ← (found.release.splitOn '.').mapM packaging.integer
    let suffix ← packaging.suffixText found.pre found.post found.dev
    let localText ← packaging.localText found
    .ok (epochText epoch ++ ['.'].intercalate (release.map decimal) ++ suffix ++ localText)

end Reference

section Stream

/-- What `parts` carries from one segment to the next. -/
structure Stream where
  cached : List (List Char × List Char)
  written : List Char
  pending : List (List Char)
  pendingBytes : Nat
  first : Bool

def Stream.start (cached : List (List Char × List Char)) (written : List Char) : Stream :=
  ⟨cached, written, [], 0, true⟩

/-- Short segments are kept, up to so many. -/
def Stream.remember (stream : Stream) (raw normalized : List Char) : Stream :=
  if stream.cached.lookup raw = none ∧ raw.length ≤ 1024 ∧ stream.cached.length < 128 then
    { stream with cached := stream.cached ++ [(raw, normalized)] }
  else stream

def Stream.token (stream : Stream) (normalized : List Char) : List Char :=
  if stream.first then normalized else '.' :: normalized

/-- Queue a token, and write the queue when it has grown. -/
def Stream.put (stream : Stream) (token : List Char) : Stream :=
  if 65536 ≤ stream.pendingBytes + token.length then
    { stream with
      written := stream.written ++ (stream.pending ++ [token]).flatten
      pending := [], pendingBytes := 0, first := false }
  else
    { stream with
      pending := stream.pending ++ [token]
      pendingBytes := stream.pendingBytes + token.length, first := false }

def Stream.take (stream : Stream) (raw normalized : List Char) : Stream :=
  (stream.remember raw normalized).put (stream.token normalized)

/-- All that is written once the queue is. -/
def Stream.text (stream : Stream) : List Char :=
  stream.written ++ stream.pending.flatten

/-- `pattern.finditer` for a class of characters: its longest runs. -/
def findRuns (isPart : Char → Bool) (text : List Char) : List (List Char) :=
  (text.splitOnP fun character => ! isPart character).filter (· ≠ [])

variable (packaging : Packaging)

def Packaging.normalize (isLocal : Bool) (raw : List Char) : Except VersionFailure (List Char) :=
  if isLocal = false ∨ raw.all Char.isDigit = true then (packaging.integer raw).map decimal
  else .ok (raw.map Char.toLower)

def Packaging.takePart (isLocal : Bool) (raw : List Char) (stream : Stream) :
    Except VersionFailure Stream :=
  match stream.cached.lookup raw with
  | some normalized => .ok (stream.take raw normalized)
  | none => (packaging.normalize isLocal raw).map (stream.take raw)

def Packaging.takeParts (isLocal : Bool) :
    List (List Char) → Stream → Except VersionFailure Stream
  | [], stream => .ok stream
  | raw :: rest, stream => do
    let stream ← packaging.takePart isLocal raw stream
    takeParts isLocal rest stream

def Packaging.delegatedSuffix (found : VersionMatch) : Except VersionFailure (List Char) :=
  if found.suffix = [] then .ok []
  else (packaging.versionText (('0' :: found.suffix).map Sum.inl)).map (List.drop 1)

def Packaging.writeLocal (found : VersionMatch) (release : Stream) (suffix : List Char) :
    Except VersionFailure (List Char) :=
  match found.localVersion with
  | none => .ok (release.text ++ suffix)
  | some text => do
    let parts ← packaging.takeParts true (findRuns Char.isAlphanum text)
      (.start release.cached (release.text ++ suffix ++ ['+']))
    .ok parts.text

/-- Match the same grammar, then normalize segments into bounded output chunks. -/
def Packaging.normalizedMetadataVersion (value : Python.Text) :
    Except VersionFailure (List Char) :=
  match packaging.grammar value with
  | none => .error .invalidVersion
  | some found => do
    let epoch ← packaging.epoch found
    let release ← packaging.takeParts false (findRuns Char.isDigit found.release)
      (.start [] (epochText epoch))
    let suffix ← packaging.delegatedSuffix found
    packaging.writeLocal found release suffix

end Stream

section Runs

variable {isPart ends : Char → Bool} {text : List Char}

theorem mem_splitOnP {character : Char} (hmem : character ∈ text) :
    ends character = true ∨ ∃ part ∈ text.splitOnP ends, character ∈ part := by
  induction text with
  | nil => exact absurd hmem List.not_mem_nil
  | cons first rest ih =>
    rw [List.splitOnP_cons_eq_if_modifyHead]
    obtain ⟨head, tail, hsplit⟩ := List.exists_cons_of_ne_nil (List.splitOnP_ne_nil ends rest)
    by_cases hfirst : ends first = true
    · rw [if_pos hfirst]
      rcases List.mem_cons.mp hmem with rfl | hrest
      · exact .inl hfirst
      · rcases ih hrest with hends | ⟨part, hpart, hin⟩
        · exact .inl hends
        · exact .inr ⟨part, List.mem_cons_of_mem _ hpart, hin⟩
    · rw [if_neg hfirst, hsplit, List.modifyHead_cons]
      rcases List.mem_cons.mp hmem with rfl | hrest
      · exact .inr ⟨_, List.mem_cons_self, List.mem_cons_self⟩
      · rcases ih hrest with hends | ⟨part, hpart, hin⟩
        · exact .inl hends
        · rw [hsplit, List.mem_cons] at hpart
          rcases hpart with rfl | hpart
          · exact .inr ⟨_, List.mem_cons_self, List.mem_cons_of_mem _ hin⟩
          · exact .inr ⟨part, List.mem_cons_of_mem _ hpart, hin⟩

theorem splitOnP_congr {p q : Char → Bool} (h : ∀ character ∈ text, p character = q character) :
    text.splitOnP p = text.splitOnP q := by
  induction text with
  | nil => rw [List.splitOnP_nil, List.splitOnP_nil]
  | cons first rest ih =>
    rw [List.forall_mem_cons] at h
    rw [List.splitOnP_cons_eq_if_modifyHead, List.splitOnP_cons_eq_if_modifyHead, h.1, ih h.2]

theorem findRuns_eq (hends : ∀ character, ends character = true → isPart character = false)
    (hparts : ∀ part ∈ text.splitOnP ends,
      part ≠ [] ∧ ∀ character ∈ part, isPart character = true) :
    findRuns isPart text = text.splitOnP ends := by
  have hsame : ∀ character ∈ text, (! isPart character) = ends character := by
    intro character hmem
    cases hcharacter : ends character with
    | true => rw [hends character hcharacter, Bool.not_false]
    | false =>
      have hor : ends character = true ∨ ∃ part ∈ text.splitOnP ends, character ∈ part :=
        mem_splitOnP hmem
      rcases hor with htrue | ⟨part, hpart, hin⟩
      · rw [hcharacter] at htrue
        exact absurd htrue Bool.false_ne_true
      · rw [(hparts part hpart).2 character hin, Bool.not_true]
  rw [findRuns, splitOnP_congr hsame, List.filter_eq_self]
  exact fun part hpart => decide_eq_true (hparts part hpart).1

theorem findRuns_release (found : VersionMatch) :
    findRuns Char.isDigit found.release = found.release.splitOn '.' := by
  refine findRuns_eq (fun character hends => ?_) found.release_numeric
  rw [eq_of_beq hends]
  rfl

theorem findRuns_local {found : VersionMatch} (h : found.localVersion = some text) :
    findRuns Char.isAlphanum text = text.splitOnP isSeparator := by
  refine findRuns_eq (fun character hends => ?_) (found.local_segments text h)
  rw [isSeparator, Bool.or_eq_true, Bool.or_eq_true, beq_iff_eq, beq_iff_eq, beq_iff_eq] at hends
  rcases hends with (rfl | rfl) | rfl <;> rfl

end Runs

section Segments

variable {packaging : Packaging} {stream : Stream} {raw normalized : List Char} {isLocal : Bool}

/-- Every kept segment stands beside its normal form. -/
def Stream.Sound (packaging : Packaging) (stream : Stream) : Prop :=
  ∀ raw normalized, stream.cached.lookup raw = some normalized →
    packaging.normalize true raw = .ok normalized

theorem sound_take (hsound : stream.Sound packaging)
    (h : packaging.normalize true raw = .ok normalized) :
    (stream.take raw normalized).Sound packaging := by
  have hcached : (stream.take raw normalized).cached = (stream.remember raw normalized).cached := by
    rw [Stream.take, Stream.put]
    split_ifs <;> rfl
  intro other found hfound
  rw [hcached, Stream.remember] at hfound
  split_ifs at hfound with hnew
  · rw [List.lookup_append] at hfound
    cases hheld : stream.cached.lookup other with
    | some held =>
      rw [hheld, Option.some_or] at hfound
      exact hsound other found (hheld.trans hfound)
    | none =>
      rw [hheld, Option.none_or, List.lookup_cons] at hfound
      cases hsame : other == raw with
      | true =>
        rw [hsame] at hfound
        rw [eq_of_beq hsame, h, Option.some.inj hfound]
      | false =>
        rw [hsame] at hfound
        exact absurd hfound (by simp)
  · exact hsound other found hfound

theorem take_text : (stream.take raw normalized).text = stream.text ++ stream.token normalized := by
  have hremember : (stream.remember raw normalized).text = stream.text ∧
      (stream.remember raw normalized).pending = stream.pending := by
    rw [Stream.remember]
    split_ifs <;> exact ⟨rfl, rfl⟩
  rw [← hremember.1, Stream.take, Stream.put]
  split_ifs <;> simp [Stream.text]

theorem take_first : (stream.take raw normalized).first = false := by
  rw [Stream.take, Stream.put]
  split_ifs <;> rfl

theorem normalize_numeral (h : Text.IsNumeral raw) :
    packaging.normalize isLocal raw = (packaging.integer raw).map decimal :=
  if_pos (.inr (List.all_eq_true.mpr h))

theorem takePart_eq (hsound : stream.Sound packaging)
    (hraw : packaging.normalize isLocal raw = packaging.normalize true raw) :
    packaging.takePart isLocal raw stream =
      (packaging.normalize true raw).map (stream.take raw) := by
  rw [Packaging.takePart]
  cases hheld : stream.cached.lookup raw with
  | some normalized =>
    rw [hsound raw normalized hheld]
    rfl
  | none =>
    dsimp only
    rw [hraw]

/-- The segments with a full stop before each but the first. -/
def dotted : Bool → List (List Char) → List Char
  | _, [] => []
  | first, part :: rest => (if first then part else '.' :: part) ++ dotted false rest

theorem dotted_false (parts : List (List Char)) (part : List Char) :
    part ++ dotted false parts = ['.'].intercalate (part :: parts) := by
  induction parts generalizing part with
  | nil => simp [dotted]
  | cons next rest ih =>
    rw [List.intercalate_cons_cons, ← ih, dotted]
    simp

theorem dotted_true (parts : List (List Char)) : dotted true parts = ['.'].intercalate parts := by
  cases parts with
  | nil => rfl
  | cons part rest => exact dotted_false rest part

variable {raws : List (List Char)}

theorem takeParts_error {failure : VersionFailure} (hsound : stream.Sound packaging)
    (hraws : ∀ raw ∈ raws, packaging.normalize isLocal raw = packaging.normalize true raw)
    (h : raws.mapM (packaging.normalize true) = .error failure) :
    packaging.takeParts isLocal raws stream = .error failure := by
  induction raws generalizing stream with
  | nil => exact absurd h (by simp [pure, Except.pure])
  | cons raw rest ih =>
    rw [List.forall_mem_cons] at hraws
    rw [Packaging.takeParts, takePart_eq hsound hraws.1]
    rw [List.mapM_cons] at h
    cases hraw : packaging.normalize true raw with
    | error other =>
      rw [hraw] at h
      cases h
      rfl
    | ok normalized =>
      rw [hraw] at h
      refine ih (sound_take hsound hraw) hraws.2 ?_
      cases hrest : rest.mapM (packaging.normalize true) with
      | error other =>
        rw [hrest] at h
        cases h
        rfl
      | ok parts =>
        rw [hrest] at h
        cases h

theorem takeParts_ok {raws parts : List (List Char)} (hsound : stream.Sound packaging)
    (hraws : ∀ raw ∈ raws, packaging.normalize isLocal raw = packaging.normalize true raw)
    (h : raws.mapM (packaging.normalize true) = .ok parts) :
    ∃ taken, packaging.takeParts isLocal raws stream = .ok taken ∧
      taken.text = stream.text ++ dotted stream.first parts ∧ taken.Sound packaging := by
  induction raws generalizing stream parts with
  | nil =>
    cases h
    exact ⟨stream, rfl, (List.append_nil _).symm, hsound⟩
  | cons raw rest ih =>
    rw [List.forall_mem_cons] at hraws
    rw [Packaging.takeParts, takePart_eq hsound hraws.1]
    rw [List.mapM_cons] at h
    cases hraw : packaging.normalize true raw with
    | error failure =>
      rw [hraw] at h
      cases h
    | ok normalized =>
      rw [hraw] at h
      cases hrest : rest.mapM (packaging.normalize true) with
      | error failure =>
        rw [hrest] at h
        cases h
      | ok others =>
        rw [hrest] at h
        cases h
        obtain ⟨taken, htaken, htext, hkept⟩ :=
          ih (sound_take hsound hraw) hraws.2 hrest
        refine ⟨taken, htaken, ?_, hkept⟩
        rw [htext, take_text, take_first, dotted, List.append_assoc]
        rfl

theorem takeParts_start {cached : List (List Char × List Char)} {written : List Char}
    (hsound : (Stream.start cached written).Sound packaging)
    (hraws : ∀ raw ∈ raws, packaging.normalize isLocal raw = packaging.normalize true raw) :
    (∃ failure, raws.mapM (packaging.normalize true) = .error failure ∧
      packaging.takeParts isLocal raws (.start cached written) = .error failure) ∨
    ∃ parts taken, raws.mapM (packaging.normalize true) = .ok parts ∧
      packaging.takeParts isLocal raws (.start cached written) = .ok taken ∧
      taken.text = written ++ ['.'].intercalate parts ∧ taken.Sound packaging := by
  cases h : raws.mapM (packaging.normalize true) with
  | error failure => exact .inl ⟨failure, rfl, takeParts_error hsound hraws h⟩
  | ok parts =>
    obtain ⟨taken, htaken, htext, hkept⟩ := takeParts_ok hsound hraws h
    refine .inr ⟨parts, taken, rfl, htaken, ?_, hkept⟩
    rw [htext, Stream.start, Stream.text, List.flatten_nil, List.append_nil, dotted_true]

end Segments

variable (packaging : Packaging)

theorem normalize_local : packaging.normalize true = packaging.localPart := by
  funext raw
  simp [Packaging.normalize, Packaging.localPart]

theorem mapM_release {raws : List (List Char)} (h : ∀ raw ∈ raws, Text.IsNumeral raw) :
    raws.mapM (packaging.normalize true) =
      (raws.mapM packaging.integer).map (List.map decimal) := by
  induction raws with
  | nil => rfl
  | cons raw rest ih =>
    rw [List.forall_mem_cons] at h
    rw [List.mapM_cons, List.mapM_cons, normalize_numeral h.1, ih h.2]
    cases packaging.integer raw with
    | error failure => rfl
    | ok value =>
      cases rest.mapM packaging.integer with
      | error | ok => rfl

theorem delegatedSuffix_eq {value : Python.Text} {found : VersionMatch}
    (h : packaging.grammar value = some found) :
    packaging.delegatedSuffix found =
      packaging.suffixText found.pre found.post found.dev := by
  rw [Packaging.delegatedSuffix]
  split_ifs with habsent
  · rw [VersionMatch.suffix, List.append_eq_nil_iff, List.append_eq_nil_iff] at habsent
    rw [habsent.1.1, habsent.1.2, habsent.2, packaging.suffixText_absent]
  · obtain ⟨again, hgrammar, hepoch, hrelease, hpre, hpost, hdev, hlocal⟩ :=
      packaging.suffix_reparsed value found h habsent
    have hinteger : packaging.integer ['0'] = .ok 0 := if_pos packaging.maxDigits_pos
    have hzero : (again.release.splitOn '.').mapM packaging.integer = .ok [0] := by
      rw [hrelease]
      have hsplit : ['0'].splitOn '.' = [['0']] := rfl
      rw [hsplit, List.mapM_cons, hinteger]
      rfl
    have hepochs : packaging.epoch again = .ok 0 := by rw [Packaging.epoch, hepoch]
    simp only [Packaging.versionText, Packaging.localText, hgrammar, hepochs, hzero, hpre, hpost,
      hdev, hlocal]
    cases packaging.suffixText found.pre found.post found.dev with
    | error failure => rfl
    | ok suffix =>
      have hopening : epochText 0 ++ ['.'].intercalate ([0].map decimal) = ['0'] := by decide
      simp only [bind, Except.bind, Except.map, hopening, List.append_nil, List.singleton_append,
        List.drop_succ_cons, List.drop_zero]

theorem writeLocal_eq {release : Stream} (found : VersionMatch) (suffix : List Char)
    (hsound : release.Sound packaging) :
    packaging.writeLocal found release suffix =
      (packaging.localText found).map fun localText => release.text ++ suffix ++ localText := by
  rw [Packaging.writeLocal, Packaging.localText]
  cases hlocal : found.localVersion with
  | none => exact congrArg Except.ok (List.append_nil _).symm
  | some text =>
    dsimp only
    rw [findRuns_local hlocal, ← normalize_local]
    have hstart : (Stream.start release.cached (release.text ++ suffix ++ ['+'])).Sound
        packaging := hsound
    have hparts : ∀ raw ∈ text.splitOnP isSeparator,
        packaging.normalize true raw = packaging.normalize true raw := fun _ _ => rfl
    rcases takeParts_start hstart hparts with
      ⟨failure, hmap, htake⟩ | ⟨parts, taken, hmap, htake, hwritten, -⟩
    · rw [hmap, htake]
      rfl
    · rw [hmap, htake]
      change Except.ok taken.text = Except.ok _
      rw [hwritten, List.append_assoc, List.singleton_append]

/-- The streamed normalizer and packaging agree on every string: both raise the same, or both
write the same text. -/
theorem normalized_metadata_version (value : Python.Text) :
    packaging.normalizedMetadataVersion value = packaging.versionText value := by
  rw [Packaging.normalizedMetadataVersion, Packaging.versionText]
  cases hfound : packaging.grammar value with
  | none => rfl
  | some found =>
    have hnumeric : ∀ raw ∈ found.release.splitOn '.', Text.IsNumeral raw :=
      fun raw hraw => (found.release_numeric raw hraw).2
    have hrelease : ∀ raw ∈ found.release.splitOn '.',
        packaging.normalize false raw = packaging.normalize true raw := fun raw hraw =>
      (normalize_numeral (hnumeric raw hraw)).trans (normalize_numeral (hnumeric raw hraw)).symm
    dsimp only
    rw [findRuns_release, delegatedSuffix_eq packaging hfound]
    cases packaging.epoch found with
    | error failure => rfl
    | ok epoch =>
      have hempty : (Stream.start [] (epochText epoch)).Sound packaging := by
        intro raw normalized hheld
        cases hheld
      have hnormal := mapM_release packaging hnumeric
      rcases takeParts_start hempty hrelease with
        ⟨failure, hmap, htake⟩ | ⟨parts, taken, hmap, htake, htext, hsound⟩
      · rw [hmap] at hnormal
        cases hvalues : (found.release.splitOn '.').mapM packaging.integer with
        | error other =>
          rw [hvalues] at hnormal
          cases hnormal
          simp only [bind, Except.bind, htake]
        | ok values =>
          rw [hvalues] at hnormal
          cases hnormal
      · rw [hmap] at hnormal
        cases hvalues : (found.release.splitOn '.').mapM packaging.integer with
        | error other =>
          rw [hvalues] at hnormal
          cases hnormal
        | ok values =>
          rw [hvalues] at hnormal
          cases hnormal
          simp only [bind, Except.bind, htake]
          cases packaging.suffixText found.pre found.post found.dev with
          | error failure => rfl
          | ok suffix =>
            dsimp only
            rw [writeLocal_eq packaging found suffix hsound, htext]
            cases packaging.localText found with
            | error | ok => rfl

/-! ### A version with every kind of segment: `01.2RC+A_007` -/

theorem sampleRelease_numeric :
    ∀ part ∈ ['0', '1', '.', '2'].splitOn '.', part ≠ [] ∧ Text.IsNumeral part := by
  simp [List.splitOn, List.splitOnP, List.splitOnPPrepend, Text.IsNumeral]

theorem sampleZero_numeric :
    ∀ part ∈ ['0'].splitOn '.', part ≠ [] ∧ Text.IsNumeral part := by
  change ∀ part ∈ [['0']], _
  simp [Text.IsNumeral]

theorem sampleLocal_segments : ∀ text, some ['A', '_', '0', '0', '7'] = some text →
    ∀ part ∈ text.splitOnP isSeparator,
      part ≠ [] ∧ ∀ letter ∈ part, letter.isAlphanum = true := by
  rintro _ ⟨⟩
  change ∀ part ∈ [['A'], ['0', '0', '7']], _
  intro part hpart
  rw [List.mem_cons, List.mem_singleton] at hpart
  rcases hpart with rfl | rfl
  · exact ⟨List.cons_ne_nil _ _, List.all_eq_true.mp rfl⟩
  · exact ⟨List.cons_ne_nil _ _, List.all_eq_true.mp rfl⟩

def sampleVersion : VersionMatch :=
  ⟨none, ['0', '1', '.', '2'], ['R', 'C'], [], [], some ['A', '_', '0', '0', '7'],
    sampleRelease_numeric, sampleLocal_segments⟩

def sampleReparsed : VersionMatch :=
  ⟨none, ['0'], ['R', 'C'], [], [], none, sampleZero_numeric, fun _ h => nomatch h⟩

def sampleGrammar (value : Python.Text) : Option VersionMatch :=
  if value = Python.text "01.2RC+A_007" then some sampleVersion
  else if value = Python.text "0RC" then some sampleReparsed
  else none

def sampleSuffix (pre post dev : List Char) : Except VersionFailure (List Char) :=
  .ok (if pre ++ post ++ dev = [] then [] else ['r', 'c', '0'])

theorem sampleGrammar_reparsed (value : Python.Text) (found : VersionMatch)
    (h : sampleGrammar value = some found) (_ : found.suffix ≠ []) :
    ∃ again, sampleGrammar (('0' :: found.suffix).map Sum.inl) = some again ∧
      again.epoch = none ∧ again.release = ['0'] ∧ again.pre = found.pre ∧
      again.post = found.post ∧ again.dev = found.dev ∧ again.localVersion = none := by
  have hfound : found.pre = ['R', 'C'] ∧ found.post = [] ∧ found.dev = [] := by
    rw [sampleGrammar] at h
    split_ifs at h <;> cases h <;> exact ⟨rfl, rfl, rfl⟩
  rw [VersionMatch.suffix, hfound.1, hfound.2.1, hfound.2.2]
  have hagain : sampleGrammar (Python.text "0RC") = some sampleReparsed := by
    rw [sampleGrammar, if_neg (by decide), if_pos rfl]
  exact ⟨sampleReparsed, hagain, rfl, rfl, rfl, rfl, rfl, rfl⟩

def samplePackaging : Packaging :=
  ⟨sampleGrammar, sampleSuffix, 4300, Nat.succ_pos _, rfl, sampleGrammar_reparsed⟩

example : samplePackaging.normalizedMetadataVersion (Python.text "01.2RC+A_007") =
    .ok "1.2rc0+a.7".toList := by
  decide +kernel

end WheelVersion

end NervOS
