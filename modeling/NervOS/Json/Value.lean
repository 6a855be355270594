/-
JSON values.  An object is a finite map, listed by strictly ascending keys, so
that equal values are equal trees.  A finite float is its shortest decimal text,
which reads back as the same number.
-/
import Mathlib.Data.String.Basic
import Mathlib.Tactic.Common

namespace Json

/-- An exponent, as `repr` writes it: a sign and digits. -/
def isExponent : List Char → Bool
  | '+' :: digits | '-' :: digits => !digits.isEmpty && digits.all Char.isDigit
  | _ => false

/-- What may follow the whole part of a float: a fraction, an exponent, or both. -/
def isFractional : List Char → Bool
  | '.' :: rest =>
    !(rest.takeWhile Char.isDigit).isEmpty &&
      match rest.dropWhile Char.isDigit with
      | [] => true
      | 'e' :: digits => isExponent digits
      | _ => false
  | 'e' :: digits => isExponent digits
  | _ => false

def isUnsignedFloat (text : List Char) : Bool :=
  !(text.takeWhile Char.isDigit).isEmpty && isFractional (text.dropWhile Char.isDigit)

def isFloatText : List Char → Bool
  | '-' :: text => isUnsignedFloat text
  | text => isUnsignedFloat text

structure FloatText where
  text : List Char
  shape : isFloatText text = true
deriving DecidableEq

inductive Value where
  | null
  | bool (value : Bool)
  | int (value : Int)
  | float (value : FloatText)
  | str (value : String)
  | arr (items : List Value)
  | obj (members : List (String × Value))

namespace Value

mutual

/-- The depth of the deepest node; a scalar and an empty container are one deep. -/
def depth : Value → Nat
  | .arr items => depthItems items + 1
  | .obj members => depthMembers members + 1
  | .null | .bool _ | .int _ | .float _ | .str _ => 1

def depthItems : List Value → Nat
  | [] => 0
  | item :: rest => max item.depth (depthItems rest)

def depthMembers : List (String × Value) → Nat
  | [] => 0
  | (_, value) :: rest => max value.depth (depthMembers rest)

end

mutual

/-- Every scalar and every container is one node. -/
def nodes : Value → Nat
  | .arr items => nodesItems items + 1
  | .obj members => nodesMembers members + 1
  | .null | .bool _ | .int _ | .float _ | .str _ => 1

def nodesItems : List Value → Nat
  | [] => 0
  | item :: rest => item.nodes + nodesItems rest

def nodesMembers : List (String × Value) → Nat
  | [] => 0
  | (_, value) :: rest => value.nodes + nodesMembers rest

end

mutual

/-- The keys of every object ascend strictly. -/
def WellFormed : Value → Prop
  | .arr items => WellFormedItems items
  | .obj members =>
    (members.map Prod.fst).Pairwise (· < ·) ∧ WellFormedMembers members
  | .null | .bool _ | .int _ | .float _ | .str _ => True

def WellFormedItems : List Value → Prop
  | [] => True
  | item :: rest => item.WellFormed ∧ WellFormedItems rest

def WellFormedMembers : List (String × Value) → Prop
  | [] => True
  | (_, value) :: rest => value.WellFormed ∧ WellFormedMembers rest

end

mutual

def decideWellFormed : ∀ value : Value, Decidable value.WellFormed
  | .arr items => decideItems items
  | .obj members =>
    have := decideMembers members
    inferInstanceAs (Decidable (_ ∧ WellFormedMembers members))
  | .null | .bool _ | .int _ | .float _ | .str _ => isTrue trivial

def decideItems : ∀ items : List Value, Decidable (WellFormedItems items)
  | [] => isTrue trivial
  | item :: rest =>
    have := decideWellFormed item
    have := decideItems rest
    inferInstanceAs (Decidable (_ ∧ WellFormedItems rest))

def decideMembers : ∀ members : List (String × Value), Decidable (WellFormedMembers members)
  | [] => isTrue trivial
  | (_, value) :: rest =>
    have := decideWellFormed value
    have := decideMembers rest
    inferInstanceAs (Decidable (_ ∧ WellFormedMembers rest))

end

instance : DecidablePred WellFormed := decideWellFormed

def assign (key : String) (value : Value) : List (String × Value) → List (String × Value)
  | [] => [(key, value)]
  | member :: rest =>
    if member.1 < key then member :: assign key value rest
    else if member.1 = key then (key, value) :: rest
    else (key, value) :: member :: rest

def ofMembers (members : List (String × Value)) : List (String × Value) :=
  members.foldl (fun object member => assign member.1 member.2 object) []

theorem assign_of_ascending {key : String} {value : Value} {members : List (String × Value)}
    (hbelow : ∀ member ∈ members, member.1 < key) :
    assign key value members = members ++ [(key, value)] := by
  induction members with
  | nil => rfl
  | cons member rest ih =>
    have hhead := hbelow member List.mem_cons_self
    have htail := ih fun other hother => hbelow other (List.mem_cons_of_mem member hother)
    rw [assign, if_pos hhead, htail, List.cons_append]

theorem ofMembers_of_ascending {members : List (String × Value)}
    (hascending : (members.map Prod.fst).Pairwise (· < ·)) : ofMembers members = members := by
  have hfold : ∀ (rest object : List (String × Value)),
      ((object ++ rest).map Prod.fst).Pairwise (· < ·) →
        rest.foldl (fun object member => assign member.1 member.2 object) object =
          object ++ rest := by
    intro rest
    induction rest with
    | nil =>
      intro object _
      rw [List.foldl_nil, List.append_nil]
    | cons member rest ih =>
      intro object hobject
      have hbelow : ∀ other ∈ object, other.1 < member.1 := by
        rw [List.map_append, List.pairwise_append] at hobject
        intro other hother
        apply hobject.2.2 _ (List.mem_map_of_mem hother)
        exact List.mem_map_of_mem List.mem_cons_self
      rw [List.foldl_cons, assign_of_ascending hbelow, ih]
      · rw [List.append_assoc, List.singleton_append]
      · rwa [List.append_assoc, List.singleton_append]
  apply hfold members []
  exact hascending

end Value

end Json
