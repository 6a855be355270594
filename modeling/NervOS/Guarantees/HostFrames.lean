/-
The frames of the package host as a stream: what is written is read back, a stream that is cut
gives its whole frames and then an error, and only what is read back is written.
-/
import NervOS.Guarantees.CanonicalJson
import NervOS.Worker.Wire

namespace NervOS

namespace HostWire

open PackageFormat (Bytes utf8 decodeUtf8? decodeUtf8?_utf8)
open Python Python.Value StateCodec

section Streams

variable {read : Bytes → Except ReadFailure (Value Text × Bytes)}

structure Reads (read : Bytes → Except ReadFailure (Value Text × Bytes)) (frame : Bytes)
    (message : Value Text) : Prop where
  whole : ∀ rest, read (frame ++ rest) = .ok (message, rest)
  part : ∀ size < frame.length,
    read (frame.take size) = .error .hostProtocolError ∨ read (frame.take size) = .error .endOfInput

variable {messages : List (Value Text)}

theorem readFrames_flatten {frames : List Bytes} (h : List.Forall₂ (Reads read) frames messages)
    (rest : Bytes) :
    readFrames read frames.length (frames.flatten ++ rest) = (messages, .ok rest) := by
  induction h with
  | nil => rfl
  | cons hframe _ ih =>
    rw [List.flatten_cons, List.append_assoc, List.length_cons, readFrames, hframe.whole]
    dsimp only
    rw [ih]

theorem readFrames_take {frames : List Bytes} (h : List.Forall₂ (Reads read) frames messages)
    {size : Nat} (hsize : size < frames.flatten.length) :
    ∃ count failure, (frames.take count).flatten.length ≤ size ∧
      size < (frames.take (count + 1)).flatten.length ∧
      (failure = ReadFailure.hostProtocolError ∨ failure = ReadFailure.endOfInput) ∧
      readFrames read frames.length (frames.flatten.take size) =
        (messages.take count, .error failure) := by
  induction h generalizing size with
  | nil => cases hsize
  | @cons frame message frames messages hframe _ ih =>
    rw [List.flatten_cons, List.length_append] at hsize
    rw [List.flatten_cons, List.length_cons, readFrames]
    by_cases hcut : size < frame.length
    · rw [List.take_append_of_le_length hcut.le]
      have hlength : size < ((frame :: frames).take 1).flatten.length := by
        rw [List.take_succ_cons, List.take_zero, List.flatten_cons, List.length_append]
        omega
      rcases hframe.part size hcut with hfail | hfail
      · exact ⟨0, _, Nat.zero_le _, hlength, Or.inl rfl, by rw [hfail, List.take_zero]⟩
      · exact ⟨0, _, Nat.zero_le _, hlength, Or.inr rfl, by rw [hfail, List.take_zero]⟩
    · obtain ⟨count, failure, hbefore, hafter, hfailure, hread⟩ :=
        @ih (size - frame.length) (by omega)
      refine ⟨count + 1, failure, ?_, ?_, hfailure, ?_⟩
      · rw [List.take_succ_cons, List.flatten_cons, List.length_append]
        omega
      · rw [List.take_succ_cons, List.flatten_cons, List.length_append]
        omega
      · rw [List.take_append, List.take_of_length_le (by omega), hframe.whole]
        dsimp only
        rw [hread, List.take_succ_cons]

end Streams

section Headers

theorem readline_line {line rest : Bytes} {limit : Nat} (hline : newline ∉ line)
    (hlimit : line.length < limit) :
    readline limit (line ++ newline :: rest) = (line ++ [newline], rest) := by
  induction line generalizing limit with
  | nil =>
    obtain ⟨limit, rfl⟩ := Nat.exists_eq_succ_of_ne_zero hlimit.ne'
    rw [List.nil_append, readline, if_pos rfl]
    rfl
  | cons byte line ih =>
    obtain ⟨limit, rfl⟩ := Nat.exists_eq_succ_of_ne_zero (Nat.ne_zero_of_lt hlimit)
    rw [List.mem_cons, not_or] at hline
    rw [List.cons_append, readline, if_neg fun heq => hline.1 heq.symm,
      ih hline.2 (Nat.lt_of_succ_lt_succ hlimit)]
    rfl

theorem readline_part {line : Bytes} {limit : Nat} (hline : newline ∉ line)
    (hlimit : line.length ≤ limit) : readline limit line = (line, []) := by
  induction line generalizing limit with
  | nil => cases limit <;> rfl
  | cons byte line ih =>
    obtain ⟨limit, rfl⟩ := Nat.exists_eq_succ_of_ne_zero (Nat.ne_zero_of_lt hlimit)
    rw [List.mem_cons, not_or] at hline
    rw [readline, if_neg fun heq => hline.1 heq.symm, ih hline.2 (Nat.le_of_succ_le_succ hlimit)]

theorem byte_of_digit {digit : Char} (h : digit.isDigit = true) :
    isDigitByte (UInt8.ofNat digit.toNat) = true ∧
      Char.ofNat (UInt8.ofNat digit.toNat).toNat = digit := by
  have hbounds : 48 ≤ digit.toNat ∧ digit.toNat ≤ 57 := by
    rw [Char.isDigit, Bool.and_eq_true, decide_eq_true_eq, decide_eq_true_eq] at h
    exact ⟨h.1, h.2⟩
  have hbyte : (UInt8.ofNat digit.toNat).toNat = digit.toNat := by
    rw [UInt8.toNat_ofNat']
    omega
  rw [isDigitByte, hbyte, Char.ofNat_toNat]
  exact ⟨by simp [hbounds], rfl⟩

variable (value : Nat)

theorem digits_toDigits : ∀ digit ∈ Nat.toDigits 10 value, digit.isDigit = true :=
  List.all_eq_true.mp (Json.toDigits_all value)

theorem decimalBytes_digits : (decimalBytes value).all isDigitByte = true := by
  rw [decimalBytes, List.all_map, List.all_eq_true]
  intro digit hdigit
  exact (byte_of_digit (digits_toDigits value digit hdigit)).1

theorem decimalValue_decimalBytes : decimalValue (decimalBytes value) = value := by
  have hmap : (Nat.toDigits 10 value).map
      ((fun byte : UInt8 => Char.ofNat byte.toNat) ∘ fun digit : Char => UInt8.ofNat digit.toNat) =
        (Nat.toDigits 10 value).map id :=
    List.map_congr_left fun digit hdigit => (byte_of_digit (digits_toDigits value digit hdigit)).2
  rw [decimalValue, decimalBytes, List.map_map, hmap, List.map_id, Nat.ofDigitChars_ten_toDigits]

theorem newline_notMem_decimalBytes : newline ∉ decimalBytes value := by
  intro hmem
  have hdigit := List.all_eq_true.mp (decimalBytes_digits value) _ hmem
  revert hdigit
  decide

theorem decimalBytes_ne_nil : decimalBytes value ≠ [] := by
  rw [decimalBytes, ne_eq, List.map_eq_nil_iff]
  exact Nat.toDigits_ne_nil

theorem head_decimalBytes {value : Nat} (h : 0 < value) : (decimalBytes value).head? ≠ some 48 := by
  have hhead := head_toDigits h
  rw [decimalBytes]
  cases hdigits : Nat.toDigits 10 value with
  | nil => exact absurd hdigits Nat.toDigits_ne_nil
  | cons first rest =>
    have hfirst := byte_of_digit (digits_toDigits value first (hdigits ▸ List.mem_cons_self))
    rw [hdigits] at hhead
    rw [List.map_cons, List.head?_cons]
    intro heq
    apply hhead
    rw [Option.some.inj heq] at hfirst
    rw [List.head?_cons, ← hfirst.2]
    rfl

theorem length_decimalBytes {value : Nat} (h : value ≤ maxFrameBytes) :
    (decimalBytes value).length ≤ 7 := by
  rw [decimalBytes, List.length_map, Nat.length_toDigits_le_iff (by decide) (by decide)]
  have hbound : maxFrameBytes < 10 ^ 7 := by decide
  omega

end Headers

section Readers

variable {py : Interpreter} {stream rest payload : Bytes} {value : Nat} {document : Value Text}

theorem readFrame_header (hpos : 0 < value) (hmax : value ≤ maxFrameBytes)
    (hline : readline (maxHeaderBytes + 1) stream = (decimalBytes value ++ [newline], rest)) :
    readFrame py stream =
      if (rest.take value).length ≠ value then .error .hostProtocolError
      else (readPayload py (rest.take value)).map fun message => (message, rest.drop value) := by
  have hlength := length_decimalBytes hmax
  have hheader : ¬ (decimalBytes value ++ [newline] = [] ∨
      (decimalBytes value ++ [newline]).getLast? ≠ some newline ∨
        maxHeaderBytes < (decimalBytes value ++ [newline]).length) := by
    rw [List.getLast?_concat, List.length_append, List.length_singleton, maxHeaderBytes]
    rintro (hnil | hlast | hlong)
    · exact absurd (List.append_eq_nil_iff.mp hnil).2 (List.cons_ne_nil _ _)
    · exact hlast rfl
    · omega
  have hdigits : ¬ (decimalBytes value = [] ∨ (decimalBytes value).all isDigitByte = false ∨
      (1 < (decimalBytes value).length ∧ (decimalBytes value).head? = some 48) ∨
        decimalBytes value = [48]) := by
    rw [decimalBytes_digits]
    rintro (hnil | hdigit | ⟨-, hzero⟩ | hzero)
    · exact decimalBytes_ne_nil value hnil
    · cases hdigit
    · exact head_decimalBytes hpos hzero
    · exact head_decimalBytes hpos (congrArg List.head? hzero)
  simp only [readFrame, hline, List.dropLast_concat, decimalValue_decimalBytes]
  rw [if_neg hheader, if_neg hdigits, if_neg (not_lt.mpr hmax)]

theorem readFrame_part (hmax : value ≤ maxFrameBytes) {size : Nat}
    (hsize : size ≤ (decimalBytes value).length) :
    readFrame py ((decimalBytes value).take size) = .error .hostProtocolError := by
  have hnew : newline ∉ (decimalBytes value).take size := fun hmem =>
    newline_notMem_decimalBytes value (List.mem_of_mem_take hmem)
  have hlength := length_decimalBytes hmax
  have hline : readline (maxHeaderBytes + 1) ((decimalBytes value).take size) =
      ((decimalBytes value).take size, []) :=
    readline_part hnew (by
      rw [List.length_take, maxHeaderBytes]
      omega)
  have hlast : ((decimalBytes value).take size).getLast? ≠ some newline := fun hlast =>
    hnew (List.mem_of_getLast? hlast)
  simp only [readFrame, hline]
  rw [if_pos (Or.inr (Or.inl hlast))]

theorem reads_readFrame (hpayload : readPayload py payload = .ok document)
    (hpos : 0 < payload.length) (hmax : payload.length ≤ maxFrameBytes) :
    Reads (readFrame py) (decimalBytes payload.length ++ [newline] ++ payload) document where
  whole rest := by
    have hlength := length_decimalBytes hmax
    have hline := @readline_line _ (payload ++ rest) (maxHeaderBytes + 1)
      (newline_notMem_decimalBytes payload.length) (by
        rw [maxHeaderBytes]
        omega)
    have hsplit : decimalBytes payload.length ++ [newline] ++ payload ++ rest =
        decimalBytes payload.length ++ newline :: (payload ++ rest) := by
      rw [List.append_assoc, List.append_assoc, List.singleton_append]
    rw [hsplit, readFrame_header hpos hmax hline, List.take_left', List.drop_left',
      if_neg (not_not.mpr rfl), hpayload]
    · rfl
    · rfl
    · rfl
  part size hsize := by
    have hlength := length_decimalBytes hmax
    left
    by_cases hcut : size ≤ (decimalBytes payload.length).length
    · rw [List.append_assoc, List.take_append_of_le_length hcut]
      exact readFrame_part hmax hcut
    · rw [List.length_append, List.length_append, List.length_singleton] at hsize
      have hline := @readline_line _
        (payload.take (size - (decimalBytes payload.length ++ [newline]).length))
        (maxHeaderBytes + 1) (newline_notMem_decimalBytes payload.length) (by
          rw [maxHeaderBytes]
          omega)
      rw [List.append_cons] at hline
      rw [List.take_append, List.take_of_length_le (by
        rw [List.length_append, List.length_singleton]
        omega), readFrame_header hpos hmax hline, if_pos]
      rw [List.length_take, List.length_take, List.length_append, List.length_singleton]
      omega

theorem workerReadFrame_header (hpos : 0 < value) (hmax : value ≤ maxFrameBytes)
    (hline : readline (stream.length + 1) stream = (decimalBytes value ++ [newline], rest)) :
    workerReadFrame py none stream =
      if rest.length < value then .error .endOfInput
      else (readFrame py (decimalBytes value ++ [newline] ++ rest.take value)).map fun result =>
        (result.1, rest.drop value) := by
  have hlength := length_decimalBytes hmax
  have hlimit : ¬ lineLimit < (decimalBytes value ++ [newline]).length := by
    rw [List.length_append, List.length_singleton, lineLimit]
    omega
  have hheader : ¬ ((decimalBytes value ++ [newline]).getLast? ≠ some newline ∨
      maxHeaderBytes + 1 < (decimalBytes value ++ [newline]).length ∨ decimalBytes value = [] ∨
        (decimalBytes value).all isDigitByte = false ∨
          (decimalBytes value).head? = some 48) := by
    rw [List.getLast?_concat, List.length_append, List.length_singleton, maxHeaderBytes,
      decimalBytes_digits]
    rintro (hlast | hlong | hnil | hdigit | hzero)
    · exact hlast rfl
    · omega
    · exact decimalBytes_ne_nil value hnil
    · cases hdigit
    · exact head_decimalBytes hpos hzero
  simp only [workerReadFrame, hline, List.dropLast_concat, decimalValue_decimalBytes,
    Option.any_none, Bool.false_eq_true, if_false]
  rw [if_neg hlimit, if_neg hheader, if_neg (by omega)]

theorem reads_workerReadFrame (hpayload : readPayload py payload = .ok document)
    (hpos : 0 < payload.length) (hmax : payload.length ≤ maxFrameBytes) :
    Reads (workerReadFrame py none) (decimalBytes payload.length ++ [newline] ++ payload)
      document where
  whole rest := by
    have hhost := (reads_readFrame hpayload hpos hmax).whole []
    have hline := @readline_line _ (payload ++ rest)
      ((decimalBytes payload.length ++ newline :: (payload ++ rest)).length + 1)
      (newline_notMem_decimalBytes payload.length) (by
        rw [List.length_append]
        omega)
    have hsplit : decimalBytes payload.length ++ [newline] ++ payload ++ rest =
        decimalBytes payload.length ++ newline :: (payload ++ rest) := by
      rw [List.append_assoc, List.append_assoc, List.singleton_append]
    rw [List.append_nil] at hhost
    rw [hsplit, workerReadFrame_header hpos hmax hline, if_neg (by
      rw [List.length_append]
      omega), List.take_left' rfl, List.drop_left' rfl, hhost]
    rfl
  part size hsize := by
    have hlength := length_decimalBytes hmax
    by_cases hcut : size ≤ (decimalBytes payload.length).length
    · left
      have hnew : newline ∉ (decimalBytes payload.length).take size := fun hmem =>
        newline_notMem_decimalBytes payload.length (List.mem_of_mem_take hmem)
      have hlast : ((decimalBytes payload.length).take size).getLast? ≠ some newline :=
        fun hlast => hnew (List.mem_of_getLast? hlast)
      have hline := readline_part hnew (Nat.le_succ _)
      have hlimit : ¬ lineLimit < ((decimalBytes payload.length).take size).length := by
        rw [List.length_take, lineLimit]
        omega
      rw [List.append_assoc, List.take_append_of_le_length hcut]
      simp only [workerReadFrame, hline]
      rw [if_neg hlimit, if_pos (Or.inl hlast)]
    · right
      rw [List.length_append, List.length_append, List.length_singleton] at hsize
      have hline := @readline_line _
        (payload.take (size - (decimalBytes payload.length ++ [newline]).length))
        ((decimalBytes payload.length ++ newline :: payload.take
          (size - (decimalBytes payload.length ++ [newline]).length)).length + 1)
        (newline_notMem_decimalBytes payload.length) (by
          rw [List.length_append]
          omega)
      rw [List.append_cons] at hline
      rw [List.take_append, List.take_of_length_le (by
        rw [List.length_append, List.length_singleton]
        omega), workerReadFrame_header hpos hmax hline, if_pos]
      rw [List.length_take, List.length_append, List.length_singleton]
      omega

end Readers

section Dumps

variable {less : Key KeyObject → Key KeyObject → Bool} {py : Interpreter}

theorem dumpsItems_eq_some {items : List Message} {written : List Json.Value} :
    dumpsItems less items = some written ↔
      List.Forall₂ (fun item json => dumps less item = some json) items written := by
  induction items generalizing written with
  | nil => cases written <;> simp [dumpsItems]
  | cons item rest ih =>
    rw [dumpsItems]
    cases written with
    | nil => simp [Option.bind_eq_some_iff]
    | cons json others =>
      simp only [Option.bind_eq_bind, Option.bind_eq_some_iff, Option.pure_def,
        Option.some.injEq, List.cons.injEq, List.forall₂_cons, ih]
      constructor
      · rintro ⟨_, hitem, _, hrest, rfl, rfl⟩
        exact ⟨hitem, hrest⟩
      · rintro ⟨hitem, hrest⟩
        exact ⟨json, hitem, others, hrest, rfl, rfl⟩

theorem dumpsMembers_eq_some {members : List (Key KeyObject × Message)}
    {written : List (String × Json.Value)} :
    dumpsMembers less members = some written ↔
      List.Forall₂ (fun member json =>
        keyText member.1 = some json.1 ∧ dumps less member.2 = some json.2) members written := by
  induction members generalizing written with
  | nil => cases written <;> simp [dumpsMembers]
  | cons member rest ih =>
    obtain ⟨key, value⟩ := member
    rw [dumpsMembers]
    cases written with
    | nil => simp [Option.bind_eq_some_iff]
    | cons json others =>
      obtain ⟨jsonKey, jsonValue⟩ := json
      simp only [Option.bind_eq_bind, Option.bind_eq_some_iff, Option.pure_def,
        Option.some.injEq, List.cons.injEq, Prod.mk.injEq, List.forall₂_cons, ih]
      constructor
      · rintro ⟨_, hkey, _, hvalue, _, hrest, ⟨rfl, rfl⟩, rfl⟩
        exact ⟨⟨hkey, hvalue⟩, hrest⟩
      · rintro ⟨⟨hkey, hvalue⟩, hrest⟩
        exact ⟨jsonKey, hkey, jsonValue, hvalue, others, hrest, ⟨rfl, rfl⟩, rfl⟩

theorem readNumber_keyText {key : Key KeyObject} {name : String} (hnumber : Key.isNumber key)
    (h : keyText key = some name) :
    (∃ value, key = .other (.int value) ∧ Json.readNumber name.toList = some (.int value)) ∨
      (∃ value, key = .other (.float value) ∧ Json.readNumber name.toList = some (.float value)) ∨
      (∃ value, key = .other (.bool value) ∧ name = if value then "true" else "false") := by
  cases key with
  | str source => cases hnumber
  | other object =>
    cases object with
    | none | nonFinite | foreign => cases hnumber
    | bool value =>
      right
      right
      cases value <;> exact ⟨_, rfl, (Option.some.inj h).symm⟩
    | int value =>
      left
      rw [keyText] at h
      split_ifs at h
      refine ⟨value, rfl, ?_⟩
      rw [← Option.some.inj h, String.toList_ofList]
      exact (Json.readNumber_intText value).2.2
    | float value =>
      right
      left
      refine ⟨value, rfl, ?_⟩
      rw [← Option.some.inj h, String.toList_ofList]
      exact Json.readNumber_floatText value

theorem readNumber_word (value : Bool) :
    Json.readNumber (if value then "true" else "false").toList = none := by
  cases value <;> decide +kernel

theorem keyText_inj {left right : Key KeyObject} {name : String} (hleft : Key.isNumber left)
    (hright : Key.isNumber right) (hleftText : keyText left = some name)
    (hrightText : keyText right = some name) : left = right := by
  rcases readNumber_keyText hleft hleftText with
      ⟨value, rfl, hread⟩ | ⟨value, rfl, hread⟩ | ⟨value, rfl, hname⟩ <;>
    rcases readNumber_keyText hright hrightText with
      ⟨other, rfl, hother⟩ | ⟨other, rfl, hother⟩ | ⟨other, rfl, hotherName⟩
  · cases hread.symm.trans hother
    rfl
  · cases hread.symm.trans hother
  · rw [hotherName, readNumber_word] at hread
    cases hread
  · cases hread.symm.trans hother
  · cases hread.symm.trans hother
    rfl
  · rw [hotherName, readNumber_word] at hread
    cases hread
  · rw [hname, readNumber_word] at hother
    cases hother
  · rw [hname, readNumber_word] at hother
    cases hother
  · rw [hname] at hotherName
    cases value <;> cases other
    · rfl
    · exact absurd hotherName (by decide +kernel)
    · exact absurd hotherName (by decide +kernel)
    · rfl

theorem sortKeys_eq_some {keys : List (Key KeyObject)} {members sorted : List (String × Json.Value)}
    (hkeys : keys.Nodup)
    (htexts : List.Forall₂ (fun key member => keyText key = some member.1) keys members)
    (h : sortKeys less keys members = some sorted) :
    (sorted.map Prod.fst).Nodup ∧ ∀ member ∈ sorted, member ∈ members := by
  rw [sortKeys] at h
  split_ifs at h with hstrings hnumbers
  · obtain rfl := Option.some.inj h
    exact ⟨(Json.Value.ascending_ofMembers members).imp fun hlt => hlt.ne,
      fun member => Json.Value.mem_of_mem_ofMembers⟩
  · obtain rfl := Option.some.inj h
    have hlength := htexts.length_eq
    have hperm : (((keys.zip members).mergeSort fun left right =>
        !less right.1 left.1).map Prod.snd).Perm members := by
      refine ((List.mergeSort_perm _ _).map Prod.snd).trans ?_
      rw [List.map_snd_zip hlength.ge]
    refine ⟨(hperm.map Prod.fst).nodup_iff.mpr ?_, fun member => hperm.mem_iff.mp⟩
    rcases hnumbers with hshort | hnumbers
    · rw [hlength] at hshort
      match members, hshort with
      | [], _ => exact List.nodup_nil
      | [member], _ => exact List.nodup_singleton _
    · have hmap : keys.map keyText = (members.map Prod.fst).map some := by
        clear h hperm hlength hkeys hstrings hnumbers
        induction htexts with
        | nil => rfl
        | cons hkey _ ih => rw [List.map_cons, List.map_cons, List.map_cons, hkey, ih]
      apply List.Nodup.of_map some
      rw [← hmap]
      refine List.Nodup.map_on ?_ hkeys
      intro left hleft right hright heq
      have hall := List.all_eq_true.mp hnumbers
      have hmem : keyText left ∈ (members.map Prod.fst).map some := hmap ▸ List.mem_map_of_mem hleft
      obtain ⟨name, -, hname⟩ := List.mem_map.mp hmem
      exact keyText_inj (hall left hleft) (hall right hright) hname.symm (heq ▸ hname.symm)

theorem readableItems_iff {items : List Json.Value} :
    ReadableItems py items ↔ ∀ item ∈ items, Readable py item := by
  induction items with
  | nil => simp [ReadableItems]
  | cons item rest ih => rw [ReadableItems, ih, List.forall_mem_cons]

theorem readableMembers_iff {members : List (String × Json.Value)} :
    ReadableMembers py members ↔ ∀ member ∈ members, Readable py member.2 := by
  induction members with
  | nil => simp [ReadableMembers]
  | cons member rest ih => rw [ReadableMembers, ih, List.forall_mem_cons]

def HasFloatsOf (py : Interpreter) (message : Message) : Prop :=
  message.All (fun s => ∀ value, s = .float value → py.IsFloat value) (fun _ => True)
    (fun _ => True)

theorem readable_scalar {s : Scalar} {json : Json.Value} (hdigits : maxIntDigits ≤ py.maxDigits)
    (hfloats : ∀ value, s = .float value → py.IsFloat value) (h : scalarJson? s = some json) :
    Readable py json := by
  cases s with
  | none | bool =>
    cases h
    trivial
  | int value =>
    rw [scalarJson?] at h
    split_ifs at h with hshort
    cases h
    exact hshort.trans_le (Nat.pow_le_pow_right (by decide) hdigits)
  | float value =>
    cases h
    exact hfloats value rfl
  | str source =>
    obtain ⟨value, -, rfl⟩ := Option.map_eq_some_iff.mp h
    trivial
  | nonFinite | foreign => cases h

theorem readable_dumps (hdigits : maxIntDigits ≤ py.maxDigits) {message : Message}
    {json : Json.Value} (hfloats : HasFloatsOf py message) (hdistinct : message.Distinct)
    (h : dumps less message = some json) : Readable py json := by
  induction message using parts_induction generalizing json with
  | scalar s =>
    rw [dumps] at h
    exact readable_scalar hdigits (all_scalar.mp hfloats) h
  | sequence kind items ih =>
    rw [dumps] at h
    obtain ⟨written, hwritten, rfl⟩ := Option.map_eq_some_iff.mp h
    rw [HasFloatsOf, all_sequence] at hfloats
    rw [Distinct, all_sequence] at hdistinct
    rw [Readable, readableItems_iff]
    intro item hitem
    obtain ⟨source, hsource, hdumps⟩ :=
      CanonicalJson.forall₂_of_mem_right (dumpsItems_eq_some.mp hwritten) hitem
    exact ih source hsource (hfloats.2 source hsource) (hdistinct.2 source hsource) hdumps
  | mapping kind members ih =>
    rw [dumps] at h
    obtain ⟨written, hwritten, hobject⟩ := Option.bind_eq_some_iff.mp h
    obtain ⟨sorted, hsorted, rfl⟩ := Option.map_eq_some_iff.mp hobject
    rw [HasFloatsOf, all_mapping] at hfloats
    rw [Distinct, all_mapping] at hdistinct
    have hforall := dumpsMembers_eq_some.mp hwritten
    have htexts : List.Forall₂ (fun key member => keyText key = some member.1)
        (members.map Prod.fst) written :=
      List.forall₂_map_left_iff.mpr (hforall.imp fun _ _ hmember => hmember.1)
    obtain ⟨hnodup, hmem⟩ := sortKeys_eq_some hdistinct.2.1 htexts hsorted
    rw [Readable, readableMembers_iff]
    refine ⟨hnodup, ?_⟩
    intro member hmember
    obtain ⟨source, hsource, -, hdumps⟩ :=
      CanonicalJson.forall₂_of_mem_right hforall (hmem member hmember)
    exact ih source hsource (hfloats.2.2 source hsource) (hdistinct.2.2 source hsource) hdumps

end Dumps

section Validation

variable {less : Key KeyObject → Key KeyObject → Bool} {K : Type} {name : String}
  {string? : K → Option Text}

theorem mem_of_get? {members : List (K × Value K)} {value : Value K}
    (h : get? string? members name = some value) :
    ∃ key, (key, value) ∈ members ∧ string? key = some (Python.text name) := by
  obtain ⟨member, hfind, rfl⟩ := Option.map_eq_some_iff.mp h
  exact ⟨member.1, List.mem_of_find?_eq_some hfind, by simpa using List.find?_some hfind⟩

theorem get?_of_mem {members : List (Text × Value Text)} {value : Value Text}
    (hkeys : (members.map Prod.fst).Nodup) (h : (Python.text name, value) ∈ members) :
    get? some members name = some value := by
  have hfind : members.find? (fun member => some member.1 = some (Python.text name)) =
      some (Python.text name, value) := by
    obtain ⟨member, hmember⟩ := Option.isSome_iff_exists.mp
      (List.find?_isSome.mpr ⟨_, h, decide_eq_true rfl⟩ :
        (members.find? fun member => some member.1 = some (Python.text name)).isSome)
    have hkey : some member.1 = some (Python.text name) := by
      simpa using List.find?_some hmember
    rw [hmember, Python.eq_of_key hkeys (List.mem_of_find?_eq_some hmember) h
      (Option.some.inj hkey)]
  rw [get?, hfind]
  rfl

variable {members : List (String × Json.Value)}

theorem mem_ofJsonMembers {member : String × Json.Value} (h : member ∈ members) :
    (Python.text member.1, ofJson member.2) ∈ ofJsonMembers members := by
  induction members with
  | nil => cases h
  | cons first rest ih =>
    rw [ofJsonMembers]
    rcases List.mem_cons.mp h with rfl | h
    · exact List.mem_cons_self
    · exact List.mem_cons_of_mem _ (ih h)

theorem key_of_mem_ofJsonMembers {key : Text} (h : key ∈ (ofJsonMembers members).map Prod.fst) :
    ∃ member ∈ members, key = Python.text member.1 := by
  rw [ofJsonMembers_keys] at h
  obtain ⟨member, hmember, rfl⟩ := List.mem_map.mp h
  exact ⟨member, hmember, rfl⟩

theorem keyText_of_string {key : Key KeyObject} (h : Key.string? key = some (Python.text name)) :
    keyText key = some name := by
  cases key with
  | str source =>
    rw [← Option.some.inj h.symm]
    exact encode?_text name
  | other object => cases h

variable {json : Json.Value}

theorem string_ofJson {value : Message} {source : Text}
    (hstring : string (some value) = some source) (hjson : dumps less value = some json) :
    string (some (ofJson json)) = some source := by
  cases value with
  | scalar s =>
    cases s with
    | str held =>
      obtain rfl := Option.some.inj hstring
      rw [dumps, scalarJson?] at hjson
      obtain ⟨value, hencode, rfl⟩ := Option.map_eq_some_iff.mp hjson
      rw [encode?_eq_some.mp hencode]
      rfl
    | _ => cases hstring
  | sequence | mapping => cases hstring

theorem isDict_ofJson {value : Message} (hdict : isDict (some value) = true)
    (hjson : dumps less value = some json) :
    isDict (some (ofJson json)) = true := by
  cases value with
  | scalar | sequence => cases hdict
  | mapping kind members =>
    rw [dumps] at hjson
    obtain ⟨written, -, hobject⟩ := Option.bind_eq_some_iff.mp hjson
    obtain ⟨sorted, -, rfl⟩ := Option.map_eq_some_iff.mp hobject
    rfl

theorem isString_iff {key : Key KeyObject} :
    Key.isString key = true ↔ ∃ source, key = .str source := by
  cases key with
  | str source => exact iff_of_true rfl ⟨source, rfl⟩
  | other object => exact iff_of_false Bool.false_ne_true fun ⟨_, heq⟩ => by cases heq

theorem nodup_texts {members : List (Key KeyObject × Message)}
    {written : List (String × Json.Value)} (hkeys : (members.map Prod.fst).Nodup)
    (hstrings : (members.map Prod.fst).all Key.isString = true)
    (h : List.Forall₂ (fun member json =>
      keyText member.1 = some json.1 ∧ dumps less member.2 = some json.2) members written) :
    (written.map Prod.fst).Nodup := by
  have htexts : members.map Prod.fst = (written.map Prod.fst).map fun name =>
      (.str (Python.text name) : Key KeyObject) := by
    induction h with
    | nil => rfl
    | @cons member json _ _ hmember _ ih =>
      rw [List.map_cons, List.nodup_cons] at hkeys
      rw [List.map_cons, List.all_cons, Bool.and_eq_true] at hstrings
      rw [List.map_cons, List.map_cons, List.map_cons, ← ih hkeys.2 hstrings.2]
      obtain ⟨source, hsource⟩ := isString_iff.mp hstrings.1
      rw [hsource, keyText] at hmember
      rw [hsource, encode?_eq_some.mp hmember.1]
  rw [htexts] at hkeys
  exact List.Nodup.of_map _ hkeys

variable {field : Option (Value K)}

theorem any_string_iff {p : Text → Bool} :
    (string field).any p = true ↔
      ∃ value, field = some value ∧
        ∃ source, string (some value) = some source ∧ p source = true := by
  rw [Option.any_eq_true]
  cases field with
  | none => simp [string]
  | some value => simp

theorem isDict_iff :
    isDict field = true ↔ ∃ value, field = some value ∧ isDict (some value) = true := by
  cases field with
  | none => simp [isDict]
  | some value => simp

theorem validateMessage_iff {members : List (K × Value K)} :
    validateMessage string? members = true ↔
      (∀ member ∈ members, ∃ name ∈ requiredFields, string? member.1 = some (Python.text name)) ∧
      (∀ name ∈ requiredFields, ∃ member ∈ members, string? member.1 = some (Python.text name)) ∧
      (∃ value, get? string? members "protocol_version" = some value ∧
        ∃ version, string (some value) = some version ∧
          decide (version = Python.text hostProtocolVersion) = true) ∧
      (∃ value, get? string? members "type" = some value ∧
        ∃ type, string (some value) = some type ∧
          (messageTypes.any fun name => decide (type = Python.text name)) = true) ∧
      (∃ value, get? string? members "request_id" = some value ∧
        ∃ requestId, string (some value) = some requestId ∧
          decide (requestId ≠ [] ∧ requestId.length ≤ 128) = true) ∧
      ∃ value, get? string? members "payload" = some value ∧ isDict (some value) = true := by
  rw [validateMessage, ← any_string_iff, ← any_string_iff, ← any_string_iff, ← isDict_iff]
  simp only [Bool.and_eq_true, List.all_eq_true, List.any_eq_true, decide_eq_true_eq, and_assoc]

theorem isMessage_ofJson {message : Message} (hvalid : isMessage Key.string? message = true)
    (hdistinct : message.Distinct) (h : dumps less message = some json) :
    isMessage some (ofJson json) = true := by
  cases message with
  | scalar | sequence => cases hvalid
  | mapping kind members =>
    rw [dumps] at h
    obtain ⟨written, hwritten, hobject⟩ := Option.bind_eq_some_iff.mp h
    obtain ⟨sorted, hsorted, rfl⟩ := Option.map_eq_some_iff.mp hobject
    have hforall := dumpsMembers_eq_some.mp hwritten
    change validateMessage Key.string? members = true at hvalid
    obtain ⟨hkeys, hrequired, ⟨version, hversion, hversionText⟩, ⟨type, htype, htypeText⟩,
      ⟨requestId, hid, hidText⟩, ⟨payload, hpayload, hdict⟩⟩ := validateMessage_iff.mp hvalid
    rw [Distinct, all_mapping] at hdistinct
    have hstrings : (members.map Prod.fst).all Key.isString = true := by
      rw [List.all_eq_true]
      intro key hkey
      obtain ⟨member, hmember, rfl⟩ := List.mem_map.mp hkey
      obtain ⟨name, -, hname⟩ := hkeys member hmember
      cases hmemberKey : member.1 with
      | str source => rfl
      | other object =>
        rw [hmemberKey] at hname
        cases hname
    rw [sortKeys, if_pos hstrings] at hsorted
    obtain rfl := Option.some.inj hsorted
    have hsortedKeys : ((Json.Value.ofMembers written).map Prod.fst).Nodup :=
      (Json.Value.ascending_ofMembers written).imp fun hlt => hlt.ne
    have hdocument : ((ofJsonMembers (Json.Value.ofMembers written)).map Prod.fst).Nodup := by
      have hmap := hsortedKeys.map text_injective
      rw [ofJsonMembers_keys]
      rwa [List.map_map] at hmap
    have hwrittenKeys : (written.map Prod.fst).Nodup :=
      nodup_texts hdistinct.2.1 hstrings hforall
    have hperm := Json.Value.perm_ofMembers hwrittenKeys
    -- a field is written under its name
    have hfield : ∀ {name : String} {value : Message},
        get? Key.string? members name = some value → ∃ json, dumps less value = some json ∧
          get? some (ofJsonMembers (Json.Value.ofMembers written)) name = some (ofJson json) := by
      intro name value hget
      obtain ⟨key, hmem, hkey⟩ := mem_of_get? hget
      obtain ⟨other, hother, hotherKey, hotherValue⟩ :=
        CanonicalJson.forall₂_of_mem_left hforall hmem
      have hname : other.1 = name :=
        Option.some.inj (hotherKey.symm.trans (keyText_of_string hkey))
      refine ⟨other.2, hotherValue, get?_of_mem hdocument ?_⟩
      rw [← hname]
      exact mem_ofJsonMembers (hperm.mem_iff.mpr hother)
    change validateMessage some (ofJsonMembers (Json.Value.ofMembers written)) = true
    refine validateMessage_iff.mpr ⟨?_, ?_, ?_, ?_, ?_, ?_⟩
    · intro member hmember
      obtain ⟨other, hother, hkey⟩ := key_of_mem_ofJsonMembers (List.mem_map_of_mem hmember)
      obtain ⟨source, hsource, hsourceKey, -⟩ :=
        CanonicalJson.forall₂_of_mem_right hforall (hperm.mem_iff.mp hother)
      obtain ⟨name, hname, hsourceName⟩ := hkeys source hsource
      refine ⟨name, hname, ?_⟩
      rw [hkey, Option.some.inj (hsourceKey.symm.trans (keyText_of_string hsourceName))]
    · intro name hname
      obtain ⟨source, hsource, hsourceName⟩ := hrequired name hname
      obtain ⟨other, hother, hotherKey, -⟩ := CanonicalJson.forall₂_of_mem_left hforall hsource
      refine ⟨_, mem_ofJsonMembers (hperm.mem_iff.mpr hother), ?_⟩
      rw [Option.some.inj (hotherKey.symm.trans (keyText_of_string hsourceName))]
    · obtain ⟨json, hjson, hget⟩ := hfield hversion
      obtain ⟨source, hsource, hcheck⟩ := hversionText
      exact ⟨_, hget, source, string_ofJson hsource hjson, hcheck⟩
    · obtain ⟨json, hjson, hget⟩ := hfield htype
      obtain ⟨source, hsource, hcheck⟩ := htypeText
      exact ⟨_, hget, source, string_ofJson hsource hjson, hcheck⟩
    · obtain ⟨json, hjson, hget⟩ := hfield hid
      obtain ⟨source, hsource, hcheck⟩ := hidText
      exact ⟨_, hget, source, string_ofJson hsource hjson, hcheck⟩
    · obtain ⟨json, hjson, hget⟩ := hfield hpayload
      exact ⟨_, hget, isDict_ofJson hdict hjson⟩

end Validation

section Identity

open CanonicalJson (InContract HasShortIntegers Same)

variable {less : Key KeyObject → Key KeyObject → Bool}
  {items : List (Value Text)}

theorem dumpsItems_keyed (ih : ∀ item ∈ items, dumps less item.keyed = json? item) :
    dumpsItems less (items.map keyed) = jsonItems? items := by
  induction items with
  | nil => rfl
  | cons item rest ihrest =>
    rw [List.forall_mem_cons] at ih
    rw [List.map_cons, dumpsItems, jsonItems?, ih.1, ihrest ih.2]

theorem dumpsMembers_keyed {members : List (Text × Value Text)}
    (ih : ∀ member ∈ members, dumps less member.2.keyed = json? member.2) :
    dumpsMembers less (members.map fun member => (Key.str member.1, member.2.keyed)) =
      jsonMembers? members := by
  induction members with
  | nil => rfl
  | cons member rest ihrest =>
    rw [List.forall_mem_cons] at ih
    rw [List.map_cons, dumpsMembers, jsonMembers?, keyText, ih.1, ihrest ih.2]

theorem dumps_keyed (value : Value Text) : dumps less value.keyed = json? value := by
  induction value with
  | scalar s => rw [keyed, rebuilt_scalar, dumps, json?]
  | sequence kind items ih =>
    rw [keyed, rebuilt_sequence, dumps, json?]
    exact congrArg _ (dumpsItems_keyed ih)
  | mapping kind members ih =>
    have hstrings : ((members.map fun member => (Key.str member.1,
        (member.2.rebuilt Key.str id : Message))).map Prod.fst).all Key.isString = true := by
      rw [List.all_map, List.all_map, List.all_eq_true]
      exact fun _ _ => rfl
    have hmembers := dumpsMembers_keyed ih
    rw [keyed, rebuilt_mapping, dumps, json?]
    change (dumpsMembers less (members.map fun member => (Key.str member.1,
      member.2.keyed))).bind _ = _
    rw [hmembers]
    cases jsonMembers? members with
    | none => rfl
    | some written =>
      rw [Option.bind_some, sortKeys, if_pos hstrings]
      rfl

theorem sameItems_ofJson {read : List Json.Value}
    (h : List.Forall₂ (fun item json => Same item (ofJson json)) items read) :
    List.Forall₂ Same items (ofJsonItems read) := by
  induction h with
  | nil => exact List.Forall₂.nil
  | cons hitem _ ih => exact List.Forall₂.cons hitem ih

theorem same_ofJson {value : Value Text} {json : Json.Value} (hdistinct : value.Distinct)
    (h : json? value = some json) : Same value (ofJson json) := by
  induction value generalizing json with
  | scalar s =>
    rw [json?] at h
    have hscalar := CanonicalJson.eq_scalarOf h
    obtain ⟨hitems, hmembers⟩ := CanonicalJson.scalarJson?_leaf h
    cases json with
    | arr items => exact absurd rfl (hitems items)
    | obj members => exact absurd rfl (hmembers members)
    | _ => exact hscalar
  | sequence kind items ih =>
    rw [json?] at h
    obtain ⟨read, hread, rfl⟩ := Option.map_eq_some_iff.mp h
    rw [Distinct, all_sequence] at hdistinct
    rw [ofJson, Same, CanonicalJson.sameItems_iff]
    apply sameItems_ofJson
    have hforall := CanonicalJson.jsonItems?_eq_some.mp hread
    exact List.forall₂_iff_get.mpr ⟨hforall.length_eq, fun index hindex hread =>
      ih _ (List.get_mem _ _) (hdistinct.2 _ (List.get_mem _ _)) (hforall.get hindex hread)⟩
  | mapping kind members ih =>
    rw [json?] at h
    obtain ⟨read, hread, rfl⟩ := Option.map_eq_some_iff.mp h
    rw [Distinct, all_mapping] at hdistinct
    have hperm := Json.Value.perm_ofMembers (CanonicalJson.nodup_read hread hdistinct.2.1)
    have hforall := CanonicalJson.jsonMembers?_eq_some.mp hread
    rw [ofJson, Same, CanonicalJson.sameMembers_iff]
    refine ⟨?_, ?_⟩
    · have hlength := congrArg List.length (ofJsonMembers_keys (Json.Value.ofMembers read))
      rw [List.length_map, List.length_map] at hlength
      rw [hlength, hperm.length_eq, hforall.length_eq]
    · intro member hmember
      obtain ⟨other, hother, hkey, hvalue⟩ := CanonicalJson.forall₂_of_mem_left hforall hmember
      refine ⟨_, ?_, ih member hmember (hdistinct.2.2 member hmember) hvalue⟩
      rw [hkey]
      exact mem_ofJsonMembers (hperm.mem_iff.mpr hother)

end Identity

open CanonicalJson (InContract HasShortIntegers Same)

variable {less : Key KeyObject → Key KeyObject → Bool} {py : Interpreter}

theorem canonicalPayload_isSome {message : Value Text} (h : InContract message) :
    (canonicalPayload py less message.keyed).isSome ↔
      isMessage Key.string? (message.keyed : Message) = true ∧ HasShortIntegers message ∧
        ∀ json ∈ json? message, Python.nesting json ≤ py.stack := by
  rw [canonicalPayload, dumps_keyed]
  by_cases hvalid : isMessage Key.string? (message.keyed : Message) = true
  · rw [if_pos hvalid, Option.isSome_map, ← CanonicalJson.writable_iff h, ← json?_isSome]
    cases json? message with
    | none => simp
    | some json =>
      by_cases hstack : Python.nesting json ≤ py.stack
      · simp [hvalid, hstack, Option.filter]
      · simp [hvalid, hstack, Option.filter]
  · rw [if_neg hvalid]
    simp [hvalid]

variable {message : Message}

theorem canonicalPayload_eq_some {payload : Bytes}
    (h : canonicalPayload py less message = some payload) :
    isMessage Key.string? message = true ∧ ∃ json, dumps less message = some json ∧
      Python.nesting json ≤ py.stack ∧ payload = utf8 (Json.canonicalText json) := by
  rw [canonicalPayload] at h
  split_ifs at h with hvalid
  obtain ⟨json, hjson, rfl⟩ := Option.map_eq_some_iff.mp h
  obtain ⟨hdumps, hstack⟩ := Option.filter_eq_some_iff.mp hjson
  exact ⟨hvalid, json, hdumps, of_decide_eq_true hstack, rfl⟩

theorem readPayload_dumps (hdigits : maxIntDigits ≤ py.maxDigits) {json : Json.Value}
    (hvalid : isMessage Key.string? message = true) (hdistinct : message.Distinct)
    (hfloats : HasFloatsOf py message) (hdumps : dumps less message = some json)
    (hstack : Python.nesting json ≤ py.stack) :
    readPayload py (utf8 (Json.canonicalText json)) = .ok (ofJson json) := by
  have hloads := loads_canonicalText (readable_dumps hdigits hfloats hdistinct hdumps) hstack
  rw [readPayload, decodeUtf8?_utf8]
  dsimp only
  rw [hloads]
  exact if_pos (isMessage_ofJson hvalid hdistinct hdumps)

theorem writeFrame_eq_some {frame : Bytes} :
    writeFrame py less message = some frame ↔ ∃ payload,
      canonicalPayload py less message = some payload ∧ 0 < payload.length ∧
        payload.length ≤ maxFrameBytes ∧
        frame = decimalBytes payload.length ++ [newline] ++ payload := by
  rw [writeFrame]
  cases canonicalPayload py less message with
  | none => simp
  | some payload =>
    dsimp only
    by_cases hbound : payload = [] ∨ maxFrameBytes < payload.length
    · rw [if_pos hbound]
      refine iff_of_false (by simp) ?_
      rintro ⟨_, hpayload, hpos, hmax, -⟩
      obtain rfl := Option.some.inj hpayload
      rcases hbound with rfl | hlong
      · cases hpos
      · omega
    · rw [not_or, not_lt] at hbound
      have hlength := length_decimalBytes hbound.2
      have hheader : ¬ maxHeaderBytes < (decimalBytes payload.length ++ [newline]).length := by
        rw [List.length_append, List.length_singleton, maxHeaderBytes]
        omega
      rw [if_neg (by simp [hbound]), if_neg hheader]
      constructor
      · intro h
        exact ⟨payload, rfl, List.length_pos_of_ne_nil hbound.1, hbound.2,
          (Option.some.inj h).symm⟩
      · rintro ⟨_, hpayload, -, -, rfl⟩
        obtain rfl := Option.some.inj hpayload
        rfl

theorem reads_writeFrame (hdigits : maxIntDigits ≤ py.maxDigits) {frame : Bytes}
    (hdistinct : message.Distinct) (hfloats : HasFloatsOf py message)
    (h : writeFrame py less message = some frame) :
    ∃ json, dumps less message = some json ∧ Reads (readFrame py) frame (ofJson json) ∧
      Reads (workerReadFrame py none) frame (ofJson json) := by
  obtain ⟨payload, hpayload, hpos, hmax, rfl⟩ := writeFrame_eq_some.mp h
  obtain ⟨hvalid, json, hdumps, hstack, rfl⟩ := canonicalPayload_eq_some hpayload
  have hread := readPayload_dumps hdigits hvalid hdistinct hfloats hdumps hstack
  exact ⟨json, hdumps, reads_readFrame hread hpos hmax, reads_workerReadFrame hread hpos hmax⟩

theorem utf8_canonicalText_pos (json : Json.Value) :
    0 < (utf8 (Json.canonicalText json)).length := by
  have hlength := Json.text_length_pos json
  rw [Json.canonicalText, PackageFormat.utf8_ofList]
  cases htext : Json.text json with
  | nil =>
    rw [htext] at hlength
    cases hlength
  | cons first rest =>
    rw [List.flatMap_cons, List.length_append]
    have hfirst := List.length_pos_of_ne_nil (String.utf8EncodeChar_ne_nil (c := first))
    omega

structure Sendable (py : Interpreter) (less : Key KeyObject → Key KeyObject → Bool)
    (message : Value Text) : Prop where
  inContract : InContract message
  floats : HasFloatsOf py message.keyed
  fits : ∃ payload, canonicalPayload py less message.keyed = some payload ∧
    payload.length ≤ maxFrameBytes

theorem Sendable.reads (hdigits : maxIntDigits ≤ py.maxDigits) {message : Value Text}
    (h : Sendable py less message) :
    ∃ frame document, writeFrame py less message.keyed = some frame ∧ Same message document ∧
      Reads (readFrame py) frame document ∧ Reads (workerReadFrame py none) frame document := by
  obtain ⟨payload, hpayload, hmax⟩ := h.fits
  have hdistinct := h.inContract.distinct
  have hpos : 0 < payload.length := by
    obtain ⟨-, json, -, -, rfl⟩ := canonicalPayload_eq_some hpayload
    exact utf8_canonicalText_pos json
  have hframe := writeFrame_eq_some.mpr ⟨payload, hpayload, hpos, hmax, rfl⟩
  obtain ⟨json, hdumps, hhost, hworker⟩ :=
    reads_writeFrame hdigits (distinct_keyed.mpr hdistinct) h.floats hframe
  rw [dumps_keyed] at hdumps
  exact ⟨_, ofJson json, hframe, same_ofJson hdistinct hdumps, hhost, hworker⟩

def ReadsStream (read : Bytes → Except ReadFailure (Value Text × Bytes)) (frames : List Bytes)
    (documents : List (Value Text)) : Prop :=
  readFrames read frames.length frames.flatten = (documents, .ok []) ∧
    ∀ size < frames.flatten.length, ∃ count failure,
      (frames.take count).flatten.length ≤ size ∧
      size < (frames.take (count + 1)).flatten.length ∧
      (failure = ReadFailure.hostProtocolError ∨ failure = ReadFailure.endOfInput) ∧
      readFrames read frames.length (frames.flatten.take size) =
        (documents.take count, .error failure)

theorem readsStream_of_reads {read : Bytes → Except ReadFailure (Value Text × Bytes)}
    {frames : List Bytes} {documents : List (Value Text)}
    (h : List.Forall₂ (Reads read) frames documents) : ReadsStream read frames documents := by
  refine ⟨?_, fun size hsize => readFrames_take h hsize⟩
  have hwhole := readFrames_flatten h []
  rwa [List.append_nil] at hwhole

/-- The frames of sendable messages are read as these messages, and a stream that is cut gives its
whole frames and then an error; every frame that is written is read. -/
theorem host_frames_round_trip (py : Interpreter)
    (less : Key KeyObject → Key KeyObject → Bool) (hdigits : maxIntDigits ≤ py.maxDigits) :
    (∀ messages : List (Value Text), (∀ message ∈ messages, Sendable py less message) →
      ∃ frames documents,
        List.Forall₂ (fun message frame => writeFrame py less message.keyed = some frame)
          messages frames ∧
        List.Forall₂ Same messages documents ∧
        ReadsStream (readFrame py) frames documents ∧
        ReadsStream (workerReadFrame py none) frames documents) ∧
    (∀ (message : Message) (frame : Bytes), message.Distinct → HasFloatsOf py message →
      writeFrame py less message = some frame →
        ∃ document, readFrame py frame = .ok (document, [])) ∧
    ∀ message : Value Text, InContract message →
      ((canonicalPayload py less message.keyed).isSome ↔
        isMessage Key.string? (message.keyed : Message) = true ∧ HasShortIntegers message ∧
          ∀ json ∈ json? message, Python.nesting json ≤ py.stack) := by
  refine ⟨?_, ?_, fun message => canonicalPayload_isSome⟩
  · intro messages hmessages
    have hall : ∃ frames documents,
        List.Forall₂ (fun message frame => writeFrame py less message.keyed = some frame)
          messages frames ∧
        List.Forall₂ Same messages documents ∧
        List.Forall₂ (Reads (readFrame py)) frames documents ∧
        List.Forall₂ (Reads (workerReadFrame py none)) frames documents := by
      induction messages with
      | nil => exact ⟨[], [], .nil, .nil, .nil, .nil⟩
      | cons message rest ih =>
        rw [List.forall_mem_cons] at hmessages
        obtain ⟨frame, document, hframe, hsame, hhost, hworker⟩ := hmessages.1.reads hdigits
        obtain ⟨frames, documents, hframes, hsames, hhosts, hworkers⟩ := ih hmessages.2
        exact ⟨frame :: frames, document :: documents, .cons hframe hframes,
          .cons hsame hsames, .cons hhost hhosts, .cons hworker hworkers⟩
    obtain ⟨frames, documents, hframes, hsames, hhosts, hworkers⟩ := hall
    exact ⟨frames, documents, hframes, hsames, readsStream_of_reads hhosts,
      readsStream_of_reads hworkers⟩
  · intro message frame hdistinct hfloats hframe
    obtain ⟨json, -, hreads, -⟩ := reads_writeFrame hdigits hdistinct hfloats hframe
    have hwhole := hreads.whole []
    rw [List.append_nil] at hwhole
    exact ⟨_, hwhole⟩

/-- CPython's limits, and a `float` for messages without floats. -/
def samplePy : Interpreter where
  float _ := .nonFinite
  maxDigits := 4300
  stack := 1000

def sampleLess (_left _right : Key KeyObject) : Bool :=
  false

def sampleMessage : Value Text :=
  .mapping .plain
    [(text "protocol_version", .scalar (.str (text "1"))),
      (text "type", .scalar (.str (text "cancel"))),
      (text "request_id", .scalar (.str (text "cancel"))),
      (text "payload", .mapping .plain [])]

theorem sendable_sampleMessage : Sendable samplePy sampleLess sampleMessage where
  inContract := by
    refine all_mapping.mpr ⟨rfl, by decide +kernel, ?_⟩
    simp [CanonicalJson.IsJsonScalar]
  floats := by
    rw [HasFloatsOf, keyed, all_rebuilt]
    simp [sampleMessage]
  fits := by
    have hsome : ((canonicalPayload samplePy sampleLess sampleMessage.keyed).any fun payload =>
        payload.length ≤ maxFrameBytes) = true := by
      decide +kernel
    obtain ⟨payload, hpayload, hlength⟩ := Option.any_eq_true _ _ |>.mp hsome
    exact ⟨payload, hpayload, of_decide_eq_true hlength⟩

/-- Two frames of a cancellation. -/
theorem host_frames_round_trip_sample : ∃ frames documents,
    List.Forall₂ (fun message frame => writeFrame samplePy sampleLess message.keyed = some frame)
      [sampleMessage, sampleMessage] frames ∧
    List.Forall₂ Same [sampleMessage, sampleMessage] documents ∧
    ReadsStream (readFrame samplePy) frames documents ∧
    ReadsStream (workerReadFrame samplePy none) frames documents :=
  (host_frames_round_trip samplePy sampleLess (Nat.le_refl _)).1 [sampleMessage, sampleMessage]
    (by
      intro message hmessage
      rw [List.mem_cons, List.mem_singleton, or_self] at hmessage
      rw [hmessage]
      exact sendable_sampleMessage)

end HostWire

end NervOS
