import Interpose.Instruction
import Interpose.Value

/-! The ways in which running code fails. -/

namespace Interpose

/-- A cause of failure. Names are those of the unit, variable or routine at fault. -/
inductive Fault where
  | raised (value : Value)
  | integerOverflow (operator : BinaryOperator)
  | negationOverflow
  | absoluteOverflow (n : Int64)
  | repeatedTooLong (bytes : Nat) (count : Int64)
  | divisionByZero
  | floatDivisionByZero
  | unsupportedOperands (operator : BinaryOperator) (left right : Kind)
  | unsupportedOperand (operand : Kind)
  | unorderedOperands (comparison : Comparison) (left right : Kind)
  | unboundLocal (name : String)
  | unboundCell (name : String)
  | undefinedName (name : String)
  /-- An instruction at this position found too few values. -/
  | stackUnderflow (unit : String) (position : Nat)
  | nothingToDuplicate (unit : String)
  | ranPastEnd (unit : String)
  | noCell (unit : String) (index : Nat) (name : String)
  | closureOfNonCell (found : Kind)
  | functionOfNonCode (unit : String)
  | notCallable (callee : Kind)
  | argumentMismatch (unit : String) (expected given : Nat)
  | closureMismatch (unit : String) (given expected : Nat)
  | recursionLimit (unit : String)
  | arityMismatch (routine : String) (expected given : Nat)
  | noAbsolute (operand : Kind)
  | noLength (operand : Kind)
  | maximumOfNone
  | noMaximum (candidate best : Kind)
  | fewerLocals (replacement : String) (declared required : Nat) (unit : String)
  | otherCells (replacement : String) (cells frees : Nat) (unit : String)
      (requiredCells requiredFrees : Nat)
  | slotsExhausted (users : Nat)
  | hosted (text : String)
deriving DecidableEq

end Interpose
