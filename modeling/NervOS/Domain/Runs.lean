/-
Run values: lifecycle states, the frozen execution limits, usage, and the text
rules that submission and settlement validate.
-/
import Mathlib.Algebra.GroupWithZero.Nat
import Mathlib.Tactic.Common

namespace NervOS

inductive RunStatus where
  | created
  | running
  | succeeded
  | failed
  | cancelled
deriving DecidableEq, Repr

def RunStatus.IsTerminal : RunStatus → Prop
  | .succeeded | .failed | .cancelled => True
  | .created | .running => False

instance : DecidablePred RunStatus.IsTerminal
  | .succeeded | .failed | .cancelled => isTrue trivial
  | .created | .running => isFalse id

/-- The one terminal outcome code that licenses a failed Run which never
started. -/
def workerRecoveryExhausted : String := "worker_recovery_exhausted"

/-- Frozen to keep blank-text semantics stable across Python and SQLite. -/
def blankTextCodePoints : List Nat :=
  [0x0009, 0x000A, 0x000B, 0x000C, 0x000D, 0x0020, 0x0085, 0x00A0, 0x1680,
    0x2000, 0x2001, 0x2002, 0x2003, 0x2004, 0x2005, 0x2006, 0x2007, 0x2008,
    0x2009, 0x200A, 0x2028, 0x2029, 0x202F, 0x205F, 0x3000]

def isBlankCharacter (character : Char) : Bool :=
  blankTextCodePoints.contains character.toNat

def isBlankText (value : String) : Bool :=
  value.toList.all isBlankCharacter

def hasNul (value : String) : Bool :=
  value.toList.contains '\x00'

/-- The number of bytes of the UTF-8 encoding. -/
def utf8Length (value : String) : Nat :=
  (value.toList.map Char.utf8Size).sum

def maxModelCallsBounds : Nat × Nat := (1, 16)
def maxToolCallsBounds : Nat × Nat := (0, 16)
def toolTimeoutMsBounds : Nat × Nat := (1000, 300000)
def toolResultMaxBytesBounds : Nat × Nat := (1024, 1048576)
def maxConsecutiveToolFailuresLimit : Nat := 3

/-- Execution limits, refused at construction when a value is out of range. -/
structure RunLimits where
  inputMaxBytes : Nat := 8000
  inputMaxCodePoints : Nat := 4000
  outputMaxBytes : Nat := 32000
  outputMaxCodePoints : Nat := 16000
  providerTimeoutMs : Nat := 60000
  maxOutputTokens : Nat := 1024
  maxModelCalls : Nat := 1
  maxToolCalls : Nat := 0
  toolTimeoutMs : Nat := 30000
  toolResultMaxBytes : Nat := 65536
  maxConsecutiveToolFailures : Nat := maxConsecutiveToolFailuresLimit
  positive : 0 < inputMaxBytes ∧ 0 < inputMaxCodePoints ∧ 0 < outputMaxBytes ∧
    0 < outputMaxCodePoints ∧ 0 < providerTimeoutMs ∧ 0 < maxOutputTokens ∧
    0 < maxModelCalls ∧ 0 < toolTimeoutMs ∧ 0 < toolResultMaxBytes ∧
    0 < maxConsecutiveToolFailures := by decide
  modelCalls : maxModelCallsBounds.1 ≤ maxModelCalls ∧
    maxModelCalls ≤ maxModelCallsBounds.2 := by decide
  toolCalls : maxToolCallsBounds.1 ≤ maxToolCalls ∧
    maxToolCalls ≤ maxToolCallsBounds.2 := by decide
  toolTimeout : toolTimeoutMsBounds.1 ≤ toolTimeoutMs ∧
    toolTimeoutMs ≤ toolTimeoutMsBounds.2 := by decide
  toolResult : toolResultMaxBytesBounds.1 ≤ toolResultMaxBytes ∧
    toolResultMaxBytes ≤ toolResultMaxBytesBounds.2 := by decide
  toolFailures : maxConsecutiveToolFailures = maxConsecutiveToolFailuresLimit := by decide
deriving DecidableEq

def stageBLimits : RunLimits := {}

def toolEnabledLimits : RunLimits := { maxModelCalls := 8, maxToolCalls := 8 }

structure ModelUsage where
  inputTokens : Option Nat := none
  outputTokens : Option Nat := none
  totalTokens : Option Nat := none
deriving DecidableEq, Repr

def validateInputText (value : String) (limits : RunLimits) : Bool :=
  !isBlankText value && !hasNul value &&
    value.toList.length ≤ limits.inputMaxCodePoints &&
    utf8Length value ≤ limits.inputMaxBytes

def validateErrorMessage (value : String) : Bool :=
  !isBlankText value && !hasNul value && value.toList.length ≤ 512 &&
    utf8Length value ≤ 2048

theorem validateErrorMessage_ofList (characters : List Char) :
    validateErrorMessage (String.ofList characters) =
      (!characters.all isBlankCharacter && !characters.contains '\x00' &&
        characters.length ≤ 512 && (characters.map Char.utf8Size).sum ≤ 2048) := by
  simp only [validateErrorMessage, isBlankText, hasNul, utf8Length, String.toList_ofList]

end NervOS
