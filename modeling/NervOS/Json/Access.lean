/-
Reading a JSON value by key and by path, and Python's equality of the values that it decodes to.
-/
import NervOS.Json.Value

namespace Json

inductive Step where
  | member (key : String)
  | item (index : Nat)
deriving DecidableEq

namespace Value

/-- The members of an object; nothing else has any. -/
def members : Value → List (String × Value)
  | .obj members => members
  | .null | .bool _ | .int _ | .float _ | .str _ | .arr _ => []

/-- `value.get(key)` of an object, telling an absent key from a null. -/
def get? (value : Value) (key : String) : Option Value :=
  value.members.lookup key

/-- `value.get(key)` of an object. -/
def get (value : Value) (key : String) : Value :=
  (value.get? key).getD .null

def item? : Value → Nat → Option Value
  | .arr items, index => items[index]?
  | .null, _ | .bool _, _ | .int _, _ | .float _, _ | .str _, _ | .obj _, _ => none

def step? (value : Value) : Step → Option Value
  | .member key => value.get? key
  | .item index => value.item? index

def at? (value : Value) : List Step → Option Value
  | [] => some value
  | step :: rest => (value.step? step).bind (·.at? rest)

@[simp] theorem at?_cons (value : Value) (step : Step) (rest : List Step) :
    value.at? (step :: rest) = (value.step? step).bind (·.at? rest) := rfl

def isTrue : Value → Bool
  | .bool value => value
  | .null | .int _ | .float _ | .str _ | .arr _ | .obj _ => false

def isNumber : Value → Bool
  | .int _ | .float _ => true
  | .null | .bool _ | .str _ | .arr _ | .obj _ => false

def isNonNegativeInt : Value → Bool
  | .int value => 0 ≤ value
  | .null | .bool _ | .float _ | .str _ | .arr _ | .obj _ => false

def isBool : Value → Bool
  | .bool _ => true
  | .null | .int _ | .float _ | .str _ | .arr _ | .obj _ => false

def isString : Value → Bool
  | .str _ => true
  | .null | .bool _ | .int _ | .float _ | .arr _ | .obj _ => false

/-- `isinstance(value, int) and value > limit`; a boolean is an integer and never above. -/
def intAbove (limit : Nat) : Value → Bool
  | .int value => (limit : Int) < value
  | .null | .bool _ | .float _ | .str _ | .arr _ | .obj _ => false

def str? : Value → Option String
  | .str value => some value
  | .null | .bool _ | .int _ | .float _ | .arr _ | .obj _ => none

mutual

def same : Value → Value → Bool
  | .null, .null => true
  | .bool left, .bool right => left = right
  | .int left, .int right => left = right
  | .float left, .float right => left = right
  | .str left, .str right => left = right
  | .arr left, .arr right => sameItems left right
  | .obj left, .obj right => sameMembers left right
  | _, _ => false

def sameItems : List Value → List Value → Bool
  | [], [] => true
  | left :: lefts, right :: rights => same left right && sameItems lefts rights
  | _, _ => false

def sameMembers : List (String × Value) → List (String × Value) → Bool
  | [], [] => true
  | (key, left) :: lefts, (other, right) :: rights =>
    key = other && same left right && sameMembers lefts rights
  | _, _ => false

end

mutual

theorem same_iff : ∀ left right : Value, same left right = true ↔ left = right
  | .null, right => by cases right <;> simp [same]
  | .bool _, right => by cases right <;> simp [same]
  | .int _, right => by cases right <;> simp [same]
  | .float _, right => by cases right <;> simp [same]
  | .str _, right => by cases right <;> simp [same]
  | .arr left, right => by cases right <;> simp [same, sameItems_iff left]
  | .obj left, right => by cases right <;> simp [same, sameMembers_iff left]

theorem sameItems_iff : ∀ left right : List Value, sameItems left right = true ↔ left = right
  | [], right => by cases right <;> simp [sameItems]
  | left :: lefts, right => by
    cases right <;> simp [sameItems, same_iff left, sameItems_iff lefts]

theorem sameMembers_iff : ∀ left right : List (String × Value),
    sameMembers left right = true ↔ left = right
  | [], right => by cases right <;> simp [sameMembers]
  | (key, left) :: lefts, right => by
    cases right with
    | nil => simp [sameMembers]
    | cons member rest =>
      obtain ⟨other, value⟩ := member
      simp [sameMembers, same_iff left, sameMembers_iff lefts, Prod.ext_iff]

end

instance : DecidableEq Value := fun left right =>
  decidable_of_iff (same left right = true) (same_iff left right)

/-- The number that a value is to Python.  `whole` is the integer that a float is, if it is one: a
boolean is an integer, and an integer equals the float of the same value. -/
def number? (whole : FloatText → Option Int) : Value → Option (Int ⊕ FloatText)
  | .bool value => some (.inl value.toNat)
  | .int value => some (.inl value)
  | .float value =>
    match whole value with
    | some integer => some (.inl integer)
    | none => some (.inr value)
  | .null | .str _ | .arr _ | .obj _ => none

mutual

/-- Python's `==` of two decoded values. -/
def pyEq (whole : FloatText → Option Int) : Value → Value → Bool
  | .null, .null => true
  | .str left, .str right => left = right
  | .arr left, .arr right => pyEqItems whole left right
  | .obj left, .obj right => left.length = right.length && pyEqMembers whole left right
  | left, right =>
    (left.number? whole).isSome && left.number? whole = right.number? whole

def pyEqItems (whole : FloatText → Option Int) : List Value → List Value → Bool
  | [], [] => true
  | left :: lefts, right :: rights => pyEq whole left right && pyEqItems whole lefts rights
  | _, _ => false

def pyEqMembers (whole : FloatText → Option Int) :
    List (String × Value) → List (String × Value) → Bool
  | [], _ => true
  | (key, value) :: rest, members =>
    (match members.lookup key with
      | some other => pyEq whole value other
      | none => false) && pyEqMembers whole rest members

end

end Value

end Json
