/-
What the decoder reads: dictionaries with distinct keys, numbers that the interpreter has, and
the same value under any limits that the value keeps.
-/
import NervOS.Python.Decoder

namespace Python

namespace Value

variable {K : Type}

mutual

/-- How deep the containers are nested; a scalar is outside of all. -/
def nesting : Value K → Nat
  | .scalar _ => 0
  | .sequence _ items => nestingItems items + 1
  | .mapping _ members => nestingMembers members + 1

def nestingItems : List (Value K) → Nat
  | [] => 0
  | item :: rest => max item.nesting (nestingItems rest)

def nestingMembers : List (K × Value K) → Nat
  | [] => 0
  | (_, value) :: rest => max value.nesting (nestingMembers rest)

end

theorem nestingItems_le {items : List (Value K)} {bound : Nat} :
    nestingItems items ≤ bound ↔ ∀ item ∈ items, item.nesting ≤ bound := by
  induction items with
  | nil => simp [nestingItems]
  | cons item rest ih => rw [nestingItems, Nat.max_le, ih, List.forall_mem_cons]

theorem nestingMembers_le {members : List (K × Value K)} {bound : Nat} :
    nestingMembers members ≤ bound ↔ ∀ member ∈ members, member.2.nesting ≤ bound := by
  induction members with
  | nil => simp [nestingMembers]
  | cons member rest ih => rw [nestingMembers, Nat.max_le, ih, List.forall_mem_cons]

theorem nesting_rebuilt {K' : Type} {f : K → K'} {kind : Kind → Kind} (value : Value K) :
    (value.rebuilt f kind).nesting = value.nesting := by
  induction value with
  | scalar s => simp [nesting]
  | sequence k items ih =>
    rw [rebuilt_sequence, nesting, nesting]
    congr 1
    induction items with
    | nil => rfl
    | cons item rest ihrest =>
      rw [List.map_cons, nestingItems, nestingItems, ih item List.mem_cons_self, ihrest]
      exact fun other hother => ih other (List.mem_cons_of_mem item hother)
  | mapping k members ih =>
    rw [rebuilt_mapping, nesting, nesting]
    congr 1
    induction members with
    | nil => rfl
    | cons member rest ihrest =>
      rw [List.map_cons, nestingMembers, nestingMembers, ih member List.mem_cons_self, ihrest]
      exact fun other hother => ih other (List.mem_cons_of_mem member hother)

theorem all_and {scalars scalars' : Scalar → Prop} {kinds kinds' : Kind → Prop}
    {keys keys' : List K → Prop} {value : Value K} (h : value.All scalars kinds keys)
    (h' : value.All scalars' kinds' keys') :
    value.All (fun s => scalars s ∧ scalars' s) (fun k => kinds k ∧ kinds' k)
      fun k => keys k ∧ keys' k := by
  induction value with
  | scalar s => exact all_scalar.mpr ⟨all_scalar.mp h, all_scalar.mp h'⟩
  | sequence kind items ih =>
    obtain ⟨hkind, hitems⟩ := all_sequence.mp h
    obtain ⟨hkind', hitems'⟩ := all_sequence.mp h'
    exact all_sequence.mpr ⟨⟨hkind, hkind'⟩, fun item hitem =>
      ih item hitem (hitems item hitem) (hitems' item hitem)⟩
  | mapping kind members ih =>
    obtain ⟨hkind, hkeys, hmembers⟩ := all_mapping.mp h
    obtain ⟨hkind', hkeys', hmembers'⟩ := all_mapping.mp h'
    exact all_mapping.mpr ⟨⟨hkind, hkind'⟩, ⟨hkeys, hkeys'⟩, fun member hmember =>
      ih member hmember (hmembers member hmember) (hmembers' member hmember)⟩

end Value

section Inversion

variable {py : Interpreter} {fuel stack : Nat} {source rest : List Char} {value : Value Text}

theorem readValue_ok :
    readValue py uniqueMembers (fuel + 1) stack source = .ok (value, rest) ↔
      (source.head? = some '\x22' ∧ ∃ read, readString source.tail = some (read, rest) ∧
        value = .scalar (.str (joinSurrogates read))) ∨
      (source.head? = some '[' ∧ stack ≠ 0 ∧
        readItems py uniqueMembers fuel (stack - 1) (skip source.tail) = .ok (value, rest)) ∨
      (source.head? = some '\x7b' ∧ stack ≠ 0 ∧
        readMembers py uniqueMembers fuel (stack - 1) (skip source.tail) = .ok (value, rest)) ∨
      (source.head? ≠ some '\x22' ∧ source.head? ≠ some '[' ∧ source.head? ≠ some '\x7b' ∧
        ∃ scalar, readScalar py source = .ok (scalar, rest) ∧ value = .scalar scalar) := by
  rw [readValue]
  by_cases hquote : source.head? = some '\x22'
  · rw [if_pos hquote]
    cases readString source.tail with
    | none => simp [hquote]
    | some result =>
      obtain ⟨read, after⟩ := result
      simp only [hquote, Except.ok.injEq, Prod.mk.injEq, Option.some.injEq, true_and, ne_eq,
        not_true_eq_false, false_and, or_false, Char.reduceEq]
      constructor
      · rintro ⟨rfl, rfl⟩
        exact ⟨read, ⟨rfl, rfl⟩, rfl⟩
      · rintro ⟨_, ⟨rfl, rfl⟩, rfl⟩
        exact ⟨rfl, rfl⟩
  · rw [if_neg hquote]
    by_cases hbracket : source.head? = some '['
    · rw [if_pos hbracket]
      by_cases hstack : stack = 0
      · simp [hbracket, hstack]
      · simp [hbracket, hstack]
    · rw [if_neg hbracket]
      by_cases hbrace : source.head? = some '\x7b'
      · rw [if_pos hbrace]
        by_cases hstack : stack = 0
        · simp [hbrace, hstack]
        · simp [hbrace, hstack]
      · rw [if_neg hbrace]
        cases readScalar py source with
        | error failure => simp [hquote, hbracket, hbrace, Except.map]
        | ok result =>
          obtain ⟨scalar, after⟩ := result
          simp only [Except.map, hquote, hbracket, hbrace, false_and, false_or, ne_eq,
            not_false_eq_true, true_and, Except.ok.injEq, Prod.mk.injEq]
          constructor
          · rintro ⟨rfl, rfl⟩
            exact ⟨scalar, ⟨rfl, rfl⟩, rfl⟩
          · rintro ⟨_, ⟨rfl, rfl⟩, rfl⟩
            exact ⟨rfl, rfl⟩

theorem readItems_ok :
    readItems py uniqueMembers (fuel + 1) stack source = .ok (value, rest) ↔
      (source.head? = some ']' ∧ value = .sequence .plain [] ∧ rest = source.tail) ∨
      (source.head? ≠ some ']' ∧ ∃ items,
        readItemsTail py uniqueMembers fuel stack source = .ok (items, rest) ∧
        value = .sequence .plain items) := by
  rw [readItems]
  by_cases hclose : source.head? = some ']'
  · simp [hclose, eq_comm]
  · rw [if_neg hclose]
    cases readItemsTail py uniqueMembers fuel stack source with
    | error failure => simp [bind, Except.bind, hclose]
    | ok result =>
      obtain ⟨items, after⟩ := result
      simp only [bind, Except.bind, hclose, false_and, false_or, ne_eq, not_false_eq_true,
        true_and, Except.ok.injEq, Prod.mk.injEq]
      constructor
      · rintro ⟨rfl, rfl⟩
        exact ⟨items, ⟨rfl, rfl⟩, rfl⟩
      · rintro ⟨_, ⟨rfl, rfl⟩, rfl⟩
        exact ⟨rfl, rfl⟩

theorem readItemsTail_ok {items : List (Value Text)} :
    readItemsTail py uniqueMembers (fuel + 1) stack source = .ok (items, rest) ↔
      ∃ item after, readValue py uniqueMembers fuel stack source = .ok (item, after) ∧
        ((skip after = ']' :: rest ∧ items = [item]) ∨
          ∃ next others, skip after = ',' :: next ∧
            readItemsTail py uniqueMembers fuel stack (skip next) = .ok (others, rest) ∧
              items = item :: others) := by
  rw [readItemsTail]
  cases readValue py uniqueMembers fuel stack source with
  | error failure => simp [bind, Except.bind]
  | ok result =>
    obtain ⟨item, after⟩ := result
    simp only [bind, Except.bind, Except.ok.injEq, Prod.mk.injEq]
    constructor
    · intro h
      refine ⟨item, after, ⟨rfl, rfl⟩, ?_⟩
      split at h
      · rename_i heq
        obtain ⟨rfl, rfl⟩ := Prod.mk.inj (Except.ok.inj h)
        exact Or.inl ⟨heq, rfl⟩
      · rename_i next heq
        cases hrest : readItemsTail py uniqueMembers fuel stack (skip next) with
        | error failure =>
          rw [hrest] at h
          cases h
        | ok result =>
          rw [hrest] at h
          obtain ⟨rfl, rfl⟩ := Prod.mk.inj (Except.ok.inj h)
          exact Or.inr ⟨next, _, heq, hrest, rfl⟩
      · cases h
    · rintro ⟨_, _, ⟨rfl, rfl⟩, ⟨heq, rfl⟩ | ⟨next, others, heq, hrest, rfl⟩⟩
      · simp only [heq]
      · simp only [heq, hrest]

variable {members : List (Text × Value Text)}

theorem uniqueMembers_ok :
    uniqueMembers members = .ok value ↔
      (members.map Prod.fst).Nodup ∧ value = .mapping .plain members := by
  rw [uniqueMembers]
  split_ifs with h
  · simp [h, eq_comm]
  · simp [h]

theorem readMembers_ok :
    readMembers py uniqueMembers (fuel + 1) stack source = .ok (value, rest) ↔
      (source.head? = some '\x7d' ∧ value = .mapping .plain [] ∧ rest = source.tail) ∨
      (source.head? ≠ some '\x7d' ∧ ∃ members,
        readMembersTail py uniqueMembers fuel stack source = .ok (members, rest) ∧
          (members.map Prod.fst).Nodup ∧ value = .mapping .plain members) := by
  rw [readMembers]
  by_cases hclose : source.head? = some '\x7d'
  · simp [hclose, eq_comm]
  · rw [if_neg hclose]
    cases readMembersTail py uniqueMembers fuel stack source with
    | error failure => simp [bind, Except.bind, hclose]
    | ok result =>
      obtain ⟨members, after⟩ := result
      simp only [bind, Except.bind, hclose, false_and, false_or, ne_eq, not_false_eq_true,
        true_and, Except.ok.injEq, Prod.mk.injEq]
      cases hunique : uniqueMembers members with
      | error failure =>
        constructor
        · intro h
          cases h
        · rintro ⟨_, ⟨rfl, rfl⟩, hkeys⟩
          rw [uniqueMembers_ok.mpr hkeys] at hunique
          cases hunique
      | ok object =>
        constructor
        · intro h
          obtain ⟨rfl, rfl⟩ := Prod.mk.inj (Except.ok.inj h)
          exact ⟨members, ⟨rfl, rfl⟩, uniqueMembers_ok.mp hunique⟩
        · rintro ⟨_, ⟨rfl, rfl⟩, hkeys⟩
          rw [uniqueMembers_ok.mpr hkeys] at hunique
          rw [Except.ok.inj hunique]

theorem readMembersTail_ok :
    readMembersTail py uniqueMembers (fuel + 1) stack source = .ok (members, rest) ↔
      source.head? = some '\x22' ∧ ∃ key afterKey afterColon value after,
        readString source.tail = some (key, afterKey) ∧ skip afterKey = ':' :: afterColon ∧
        readValue py uniqueMembers fuel stack (skip afterColon) = .ok (value, after) ∧
        ((skip after = '\x7d' :: rest ∧ members = [(joinSurrogates key, value)]) ∨
          ∃ next others, skip after = ',' :: next ∧
            readMembersTail py uniqueMembers fuel stack (skip next) = .ok (others, rest) ∧
              members = (joinSurrogates key, value) :: others) := by
  rw [readMembersTail]
  by_cases hquote : source.head? = some '\x22'
  · rw [if_pos hquote]
    simp only [hquote, true_and]
    cases readString source.tail with
    | none => simp
    | some result =>
      obtain ⟨key, afterKey⟩ := result
      simp only [Option.some.injEq, Prod.mk.injEq]
      constructor
      · intro h
        split at h
        · rename_i afterColon hcolon
          cases hvalue : readValue py uniqueMembers fuel stack (skip afterColon) with
          | error failure =>
            rw [hvalue] at h
            cases h
          | ok result =>
            obtain ⟨value, after⟩ := result
            rw [hvalue] at h
            refine ⟨key, afterKey, afterColon, value, after, ⟨rfl, rfl⟩, hcolon, hvalue, ?_⟩
            simp only [bind, Except.bind] at h
            split at h
            · rename_i heq
              obtain ⟨rfl, rfl⟩ := Prod.mk.inj (Except.ok.inj h)
              exact Or.inl ⟨heq, rfl⟩
            · rename_i next heq
              cases hrest : readMembersTail py uniqueMembers fuel stack (skip next) with
              | error failure =>
                rw [hrest] at h
                cases h
              | ok result =>
                rw [hrest] at h
                obtain ⟨rfl, rfl⟩ := Prod.mk.inj (Except.ok.inj h)
                exact Or.inr ⟨next, _, heq, hrest, rfl⟩
            · cases h
        · cases h
      · rintro ⟨_, _, afterColon, value, after, ⟨rfl, rfl⟩, hcolon, hvalue,
          ⟨heq, rfl⟩ | ⟨next, others, heq, hrest, rfl⟩⟩
        · simp only [hcolon, hvalue, bind, Except.bind, heq]
        · simp only [hcolon, hvalue, bind, Except.bind, heq, hrest]
  · rw [if_neg hquote]
    simp [hquote]

end Inversion

section Limits

variable {py py' : Interpreter} {source rest : List Char}

theorem readItems_sequence {fuel stack : Nat} {value : Value Text}
    (h : readItems py uniqueMembers fuel stack source = .ok (value, rest)) :
    ∃ items, value = .sequence .plain items := by
  cases fuel with
  | zero =>
    rw [readItems] at h
    cases h
  | succ fuel =>
    rcases readItems_ok.mp h with ⟨-, rfl, -⟩ | ⟨-, items, -, rfl⟩
    · exact ⟨[], rfl⟩
    · exact ⟨items, rfl⟩

theorem readMembers_mapping {fuel stack : Nat} {value : Value Text}
    (h : readMembers py uniqueMembers fuel stack source = .ok (value, rest)) :
    ∃ members, value = .mapping .plain members := by
  cases fuel with
  | zero =>
    rw [readMembers] at h
    cases h
  | succ fuel =>
    rcases readMembers_ok.mp h with ⟨-, rfl, -⟩ | ⟨-, members, -, -, rfl⟩
    · exact ⟨[], rfl⟩
    · exact ⟨members, rfl⟩

structure Within (py : Interpreter) (stack : Nat) (value : Value Text) : Prop where
  integers : value.All (fun s => ∀ integer, s = .int integer → integer.natAbs < 10 ^ py.maxDigits)
    (fun _ => True) (fun _ => True)
  nesting : value.nesting ≤ stack

variable {stack : Nat}

theorem within_scalar {s : Scalar} :
    Within py stack (.scalar s) ↔
      ∀ integer, s = .int integer → integer.natAbs < 10 ^ py.maxDigits :=
  ⟨fun h => Value.all_scalar.mp h.integers, fun h => ⟨Value.all_scalar.mpr h, Nat.zero_le _⟩⟩

theorem within_sequence {kind : Kind} {items : List (Value Text)} :
    Within py stack (.sequence kind items) ↔
      stack ≠ 0 ∧ ∀ item ∈ items, Within py (stack - 1) item := by
  constructor
  · intro h
    have hnesting := h.nesting
    rw [Value.nesting] at hnesting
    refine ⟨by omega, fun item hitem => ⟨(Value.all_sequence.mp h.integers).2 item hitem, ?_⟩⟩
    exact Value.nestingItems_le.mp (by omega) item hitem
  · rintro ⟨hstack, hitems⟩
    refine ⟨Value.all_sequence.mpr ⟨trivial, fun item hitem => (hitems item hitem).integers⟩, ?_⟩
    have hnesting := Value.nestingItems_le.mpr fun item hitem => (hitems item hitem).nesting
    rw [Value.nesting]
    omega

theorem within_mapping {kind : Kind} {members : List (Text × Value Text)} :
    Within py stack (.mapping kind members) ↔
      stack ≠ 0 ∧ ∀ member ∈ members, Within py (stack - 1) member.2 := by
  constructor
  · intro h
    have hnesting := h.nesting
    rw [Value.nesting] at hnesting
    refine ⟨by omega, fun member hmember =>
      ⟨(Value.all_mapping.mp h.integers).2.2 member hmember, ?_⟩⟩
    exact Value.nestingMembers_le.mp (by omega) member hmember
  · rintro ⟨hstack, hmembers⟩
    refine ⟨Value.all_mapping.mpr ⟨trivial, trivial, fun member hmember =>
      (hmembers member hmember).integers⟩, ?_⟩
    have hnesting := Value.nestingMembers_le.mpr fun member hmember =>
      (hmembers member hmember).nesting
    rw [Value.nesting]
    omega

theorem readScalar_within {s : Scalar} (hfloat : py'.float = py.float)
    (h : readScalar py source = .ok (s, rest))
    (hinteger : ∀ integer, s = .int integer → integer.natAbs < 10 ^ py'.maxDigits) :
    readScalar py' source = .ok (s, rest) := by
  rw [readScalar] at h ⊢
  cases hliteral : readLiteral source with
  | some found =>
    rw [hliteral] at h
    exact h
  | none =>
    rw [hliteral] at h
    dsimp only at h ⊢
    rw [Interpreter.readNumber] at h ⊢
    rw [hfloat]
    cases hkind : numberKind (source.takeWhile isNumberCharacter) with
    | none =>
      rw [hkind] at h
      cases h
    | some isFloat =>
      cases isFloat with
      | true =>
        rw [hkind] at h
        exact h
      | false =>
        rw [hkind] at h
        dsimp only at h ⊢
        cases hread : Json.readInt (source.takeWhile isNumberCharacter) with
        | none =>
          rw [hread] at h
          cases h
        | some value =>
          rw [hread] at h
          dsimp only at h ⊢
          by_cases hshort : value.natAbs < 10 ^ py.maxDigits
          · rw [if_pos hshort] at h
            obtain ⟨hs, hrest⟩ := Prod.mk.inj (Except.ok.inj h)
            rw [if_pos (hinteger value hs.symm), ← hs, ← hrest]
            rfl
          · rw [if_neg hshort] at h
            cases h

mutual

theorem readValue_within (hfloat : py'.float = py.float) : ∀ (fuel stack stack' : Nat)
    (source rest : List Char) (value : Value Text),
    readValue py uniqueMembers fuel stack source = .ok (value, rest) → Within py' stack' value →
    readValue py' uniqueMembers fuel stack' source = .ok (value, rest)
  | 0, _, _, _, _, _, h, _ => by
    rw [readValue] at h
    cases h
  | fuel + 1, stack, stack', source, rest, value, h, hwithin => by
    rw [readValue_ok] at h ⊢
    rcases h with h | ⟨hhead, -, hitems⟩ | ⟨hhead, -, hmembers⟩ |
      ⟨hquote, hbracket, hbrace, s, hs, rfl⟩
    · exact Or.inl h
    · have hnonzero : stack' ≠ 0 := by
        obtain ⟨items, rfl⟩ := readItems_sequence hitems
        exact (within_sequence.mp hwithin).1
      have hread := readItems_within hfloat fuel _ stack' _ rest value hitems hwithin
      exact Or.inr (Or.inl ⟨hhead, hnonzero, hread⟩)
    · have hnonzero : stack' ≠ 0 := by
        obtain ⟨members, rfl⟩ := readMembers_mapping hmembers
        exact (within_mapping.mp hwithin).1
      have hread := readMembers_within hfloat fuel _ stack' _ rest value hmembers hwithin
      exact Or.inr (Or.inr (Or.inl ⟨hhead, hnonzero, hread⟩))
    · exact Or.inr (Or.inr (Or.inr ⟨hquote, hbracket, hbrace, s,
        readScalar_within hfloat hs (within_scalar.mp hwithin), rfl⟩))
termination_by structural fuel => fuel

theorem readItems_within (hfloat : py'.float = py.float) : ∀ (fuel stack stack' : Nat)
    (source rest : List Char) (value : Value Text),
    readItems py uniqueMembers fuel stack source = .ok (value, rest) → Within py' stack' value →
    readItems py' uniqueMembers fuel (stack' - 1) source = .ok (value, rest)
  | 0, _, _, _, _, _, h, _ => by
    rw [readItems] at h
    cases h
  | fuel + 1, stack, stack', source, rest, value, h, hwithin => by
    rw [readItems_ok] at h ⊢
    rcases h with h | ⟨hhead, items, hitems, rfl⟩
    · exact Or.inl h
    · refine Or.inr ⟨hhead, items, ?_, rfl⟩
      exact readItemsTail_within hfloat fuel stack (stack' - 1) source rest items hitems
        (within_sequence.mp hwithin).2
termination_by structural fuel => fuel

theorem readItemsTail_within (hfloat : py'.float = py.float) : ∀ (fuel stack stack' : Nat)
    (source rest : List Char) (items : List (Value Text)),
    readItemsTail py uniqueMembers fuel stack source = .ok (items, rest) →
    (∀ item ∈ items, Within py' stack' item) →
    readItemsTail py' uniqueMembers fuel stack' source = .ok (items, rest)
  | 0, _, _, _, _, _, h, _ => by
    rw [readItemsTail] at h
    cases h
  | fuel + 1, stack, stack', source, rest, items, h, hwithin => by
    rw [readItemsTail_ok] at h ⊢
    obtain ⟨item, after, hitem, ⟨hclose, rfl⟩ | ⟨next, others, hcomma, hothers, rfl⟩⟩ := h
    · refine ⟨item, after, ?_, Or.inl ⟨hclose, rfl⟩⟩
      exact readValue_within hfloat fuel stack stack' source after item hitem
        (hwithin item List.mem_cons_self)
    · rw [List.forall_mem_cons] at hwithin
      refine ⟨item, after, ?_, Or.inr ⟨next, others, hcomma, ?_, rfl⟩⟩
      · exact readValue_within hfloat fuel stack stack' source after item hitem hwithin.1
      · exact readItemsTail_within hfloat fuel stack stack' (skip next) rest others hothers
          hwithin.2
termination_by structural fuel => fuel

theorem readMembers_within (hfloat : py'.float = py.float) : ∀ (fuel stack stack' : Nat)
    (source rest : List Char) (value : Value Text),
    readMembers py uniqueMembers fuel stack source = .ok (value, rest) → Within py' stack' value →
    readMembers py' uniqueMembers fuel (stack' - 1) source = .ok (value, rest)
  | 0, _, _, _, _, _, h, _ => by
    rw [readMembers] at h
    cases h
  | fuel + 1, stack, stack', source, rest, value, h, hwithin => by
    rw [readMembers_ok] at h ⊢
    rcases h with h | ⟨hhead, members, hmembers, hkeys, rfl⟩
    · exact Or.inl h
    · refine Or.inr ⟨hhead, members, ?_, hkeys, rfl⟩
      exact readMembersTail_within hfloat fuel stack (stack' - 1) source rest members hmembers
        (within_mapping.mp hwithin).2
termination_by structural fuel => fuel

theorem readMembersTail_within (hfloat : py'.float = py.float) : ∀ (fuel stack stack' : Nat)
    (source rest : List Char) (members : List (Text × Value Text)),
    readMembersTail py uniqueMembers fuel stack source = .ok (members, rest) →
    (∀ member ∈ members, Within py' stack' member.2) →
    readMembersTail py' uniqueMembers fuel stack' source = .ok (members, rest)
  | 0, _, _, _, _, _, h, _ => by
    rw [readMembersTail] at h
    cases h
  | fuel + 1, stack, stack', source, rest, members, h, hwithin => by
    rw [readMembersTail_ok] at h ⊢
    obtain ⟨hquote, key, afterKey, afterColon, value, after, hkey, hcolon, hvalue,
      ⟨hclose, rfl⟩ | ⟨next, others, hcomma, hothers, rfl⟩⟩ := h
    · refine ⟨hquote, key, afterKey, afterColon, value, after, hkey, hcolon, ?_,
        Or.inl ⟨hclose, rfl⟩⟩
      exact readValue_within hfloat fuel stack stack' (skip afterColon) after value hvalue
        (hwithin _ List.mem_cons_self)
    · rw [List.forall_mem_cons] at hwithin
      refine ⟨hquote, key, afterKey, afterColon, value, after, hkey, hcolon, ?_,
        Or.inr ⟨next, others, hcomma, ?_, rfl⟩⟩
      · exact readValue_within hfloat fuel stack stack' (skip afterColon) after value hvalue
          hwithin.1
      · exact readMembersTail_within hfloat fuel stack stack' (skip next) rest others hothers
          hwithin.2
termination_by structural fuel => fuel

end

theorem loads_within (hfloat : py'.float = py.float) {source : String} {value : Value Text}
    (h : loads py source = .ok value) (hwithin : Within py' py'.stack value) :
    loads py' source = .ok value := by
  rw [loads, loadsWith] at h ⊢
  cases hread : readValue py uniqueMembers (3 * source.toList.length + 3) py.stack
    (skip source.toList) with
  | error failure =>
    rw [hread] at h
    cases h
  | ok result =>
    obtain ⟨read, rest⟩ := result
    rw [hread] at h
    simp only [bind, Except.bind] at h
    split_ifs at h with hend
    obtain rfl := Except.ok.inj h
    rw [readValue_within hfloat _ _ py'.stack _ _ _ hread hwithin]
    exact if_pos hend

end Limits

variable {py : Interpreter}

/-- What `float` answers is a float that `repr` writes back, or none at all. -/
def Interpreter.Lawful (py : Interpreter) : Prop :=
  ∀ number, py.float number = .nonFinite ∨
    ∃ value, py.float number = .float value ∧ py.IsFloat value

def IsRead (py : Interpreter) : Scalar → Prop
  | .int value => value.natAbs < 10 ^ py.maxDigits
  | .float value => py.IsFloat value
  | .foreign => False
  | .none | .bool _ | .nonFinite | .str _ => True

/-- A value of the decoder, nested in so many containers at most. -/
structure Loaded (py : Interpreter) (stack : Nat) (value : Value Text) : Prop where
  parts : value.All (IsRead py) (· = .plain) List.Nodup
  nesting : value.nesting ≤ stack

theorem isRead_readScalar (hpy : py.Lawful) {source rest : List Char} {s : Scalar}
    (h : readScalar py source = .ok (s, rest)) : IsRead py s := by
  rw [readScalar] at h
  cases hliteral : readLiteral source with
  | some found =>
    rw [hliteral] at h
    obtain ⟨literal, hfind, rfl⟩ := Option.map_eq_some_iff.mp hliteral
    have hall : ∀ literal ∈ literals, IsRead py literal.2 := by simp [literals, IsRead]
    rw [← (Prod.mk.inj (Except.ok.inj h)).1]
    exact hall literal (List.mem_of_find?_eq_some hfind)
  | none =>
    rw [hliteral] at h
    dsimp only at h
    cases hnumber : py.readNumber (source.takeWhile isNumberCharacter) with
    | error failure =>
      rw [hnumber] at h
      cases h
    | ok scalar =>
      rw [hnumber] at h
      rw [← (Prod.mk.inj (Except.ok.inj h)).1]
      rw [Interpreter.readNumber] at hnumber
      split at hnumber
      · cases hnumber
      · rw [← Except.ok.inj hnumber]
        rcases hpy (source.takeWhile isNumberCharacter) with heq | ⟨value, heq, hvalue⟩
        · rw [heq]
          trivial
        · rw [heq]
          exact hvalue
      · split at hnumber
        · cases hnumber
        · split_ifs at hnumber with hshort
          rw [← Except.ok.inj hnumber]
          exact hshort

theorem loaded_sequence {stack : Nat} {items : List (Value Text)} (hstack : stack ≠ 0)
    (h : ∀ item ∈ items, Loaded py (stack - 1) item) :
    Loaded py stack (.sequence .plain items) := by
  refine ⟨Value.all_sequence.mpr ⟨rfl, fun item hitem => (h item hitem).parts⟩, ?_⟩
  have hnesting := Value.nestingItems_le.mpr fun item hitem => (h item hitem).nesting
  rw [Value.nesting]
  omega

theorem loaded_mapping {stack : Nat} {members : List (Text × Value Text)} (hstack : stack ≠ 0)
    (hkeys : (members.map Prod.fst).Nodup)
    (h : ∀ member ∈ members, Loaded py (stack - 1) member.2) :
    Loaded py stack (.mapping .plain members) := by
  refine ⟨Value.all_mapping.mpr ⟨rfl, hkeys, fun member hmember => (h member hmember).parts⟩, ?_⟩
  have hnesting := Value.nestingMembers_le.mpr fun member hmember => (h member hmember).nesting
  rw [Value.nesting]
  omega

mutual

theorem loaded_readValue (hpy : py.Lawful) : ∀ (fuel stack : Nat) (source rest : List Char)
    (value : Value Text), readValue py uniqueMembers fuel stack source = .ok (value, rest) →
    Loaded py stack value
  | 0, _, _, _, _, h => by
    rw [readValue] at h
    cases h
  | fuel + 1, stack, source, rest, value, h => by
    rw [readValue_ok] at h
    rcases h with ⟨-, read, -, rfl⟩ | ⟨-, hstack, hitems⟩ | ⟨-, hstack, hmembers⟩ |
      ⟨-, -, -, s, hs, rfl⟩
    · exact ⟨Value.all_scalar.mpr trivial, Nat.zero_le _⟩
    · exact loaded_readItems hpy fuel stack _ rest value hstack hitems
    · exact loaded_readMembers hpy fuel stack _ rest value hstack hmembers
    · exact ⟨Value.all_scalar.mpr (isRead_readScalar hpy hs), Nat.zero_le _⟩
termination_by structural fuel => fuel

theorem loaded_readItems (hpy : py.Lawful) : ∀ (fuel stack : Nat) (source rest : List Char)
    (value : Value Text), stack ≠ 0 →
    readItems py uniqueMembers fuel (stack - 1) source = .ok (value, rest) →
    Loaded py stack value
  | 0, _, _, _, _, _, h => by
    rw [readItems] at h
    cases h
  | fuel + 1, stack, source, rest, value, hstack, h => by
    rw [readItems_ok] at h
    rcases h with ⟨-, rfl, -⟩ | ⟨-, items, hitems, rfl⟩
    · exact loaded_sequence hstack (fun item hitem => by cases hitem)
    · exact loaded_sequence hstack
        (loaded_readItemsTail hpy fuel (stack - 1) source rest items hitems)
termination_by structural fuel => fuel

theorem loaded_readItemsTail (hpy : py.Lawful) : ∀ (fuel stack : Nat) (source rest : List Char)
    (items : List (Value Text)),
    readItemsTail py uniqueMembers fuel stack source = .ok (items, rest) →
    ∀ item ∈ items, Loaded py stack item
  | 0, _, _, _, _, h => by
    rw [readItemsTail] at h
    cases h
  | fuel + 1, stack, source, rest, items, h => by
    rw [readItemsTail_ok] at h
    obtain ⟨item, after, hitem, ⟨-, rfl⟩ | ⟨next, others, -, hothers, rfl⟩⟩ := h
    · rw [List.forall_mem_singleton]
      exact loaded_readValue hpy fuel stack source after item hitem
    · rw [List.forall_mem_cons]
      exact ⟨loaded_readValue hpy fuel stack source after item hitem,
        loaded_readItemsTail hpy fuel stack (skip next) rest others hothers⟩
termination_by structural fuel => fuel

theorem loaded_readMembers (hpy : py.Lawful) : ∀ (fuel stack : Nat) (source rest : List Char)
    (value : Value Text), stack ≠ 0 →
    readMembers py uniqueMembers fuel (stack - 1) source = .ok (value, rest) →
    Loaded py stack value
  | 0, _, _, _, _, _, h => by
    rw [readMembers] at h
    cases h
  | fuel + 1, stack, source, rest, value, hstack, h => by
    rw [readMembers_ok] at h
    rcases h with ⟨-, rfl, -⟩ | ⟨-, members, hmembers, hkeys, rfl⟩
    · exact loaded_mapping hstack List.nodup_nil (fun member hmember => by cases hmember)
    · exact loaded_mapping hstack hkeys
        (loaded_readMembersTail hpy fuel (stack - 1) source rest members hmembers)
termination_by structural fuel => fuel

theorem loaded_readMembersTail (hpy : py.Lawful) : ∀ (fuel stack : Nat)
    (source rest : List Char) (members : List (Text × Value Text)),
    readMembersTail py uniqueMembers fuel stack source = .ok (members, rest) →
    ∀ member ∈ members, Loaded py stack member.2
  | 0, _, _, _, _, h => by
    rw [readMembersTail] at h
    cases h
  | fuel + 1, stack, source, rest, members, h => by
    rw [readMembersTail_ok] at h
    obtain ⟨-, key, afterKey, afterColon, value, after, -, -, hvalue,
      ⟨-, rfl⟩ | ⟨next, others, -, hothers, rfl⟩⟩ := h
    · rw [List.forall_mem_singleton]
      exact loaded_readValue hpy fuel stack (skip afterColon) after value hvalue
    · rw [List.forall_mem_cons]
      exact ⟨loaded_readValue hpy fuel stack (skip afterColon) after value hvalue,
        loaded_readMembersTail hpy fuel stack (skip next) rest others hothers⟩
termination_by structural fuel => fuel

end

theorem loaded_loads (hpy : py.Lawful) {source : String} {value : Value Text}
    (h : loads py source = .ok value) : Loaded py py.stack value := by
  rw [loads, loadsWith] at h
  cases hread : readValue py uniqueMembers (3 * source.toList.length + 3) py.stack
    (skip source.toList) with
  | error failure =>
    rw [hread] at h
    cases h
  | ok result =>
    obtain ⟨read, rest⟩ := result
    rw [hread] at h
    simp only [bind, Except.bind] at h
    split_ifs at h with hend
    obtain rfl := Except.ok.inj h
    exact loaded_readValue hpy _ _ _ _ _ hread

end Python
