import Interpose.Binary64.Arithmetic
import Interpose.Fault
import Interpose.Integer

/-! The operators on values. Two integers are computed with exactly; an integer and a floating point
number meet as floating point numbers. -/

namespace Interpose.Value

/-- The equality of the language. Numbers are equal when their values are, NaN to nothing; code,
functions and cells are equal only to themselves. -/
def equals : Value → Value → Bool
  | .nil, .nil => true
  | .bool a, .bool b => a == b
  | .int a, .int b => a == b
  | .float a, .float b => a.place?.isSome && a.place? == b.place?
  | .int a, .float b => (Binary64.ofInt a.toInt).place? == b.place?
  | .float a, .int b => a.place? == (Binary64.ofInt b.toInt).place?
  | .str a, .str b => a == b
  | .code a, .code b => a == b
  | .function a, .function b => a.id == b.id
  | .native a, .native b => a == b
  | .cell a, .cell b => a == b
  | _, _ => false

/-- How two values are ordered: not at all when they are of kinds that have no order; without a
result when one of them is NaN. -/
def ordering? : Value → Value → Option (Option Ordering)
  | .int a, .int b => some (some (compare a.toInt b.toInt))
  | .str a, .str b => some (some (compare a b))
  | left, right =>
    match left.toBinary64?, right.toBinary64? with
    | some a, some b =>
      match a.place?, b.place? with
      | some p, some q => some (some (compare p q))
      | _, _ => some none
    | _, _ => none

end Interpose.Value

namespace Interpose

def Comparison.holds : Comparison → Ordering → Bool
  | .eq, ordering => ordering.isEq
  | .ne, ordering => ordering.isNe
  | .lt, ordering => ordering.isLT
  | .le, ordering => ordering.isLE
  | .gt, ordering => ordering.isGT
  | .ge, ordering => ordering.isGE

/-- Compares two values. Equality is defined on all of them; no order relation holds of NaN. -/
def Comparison.apply (comparison : Comparison) (left right : Value) : Except Fault Bool :=
  match comparison with
  | .eq => .ok (left.equals right)
  | .ne => .ok (!left.equals right)
  | _ =>
    match left.ordering? right with
    | some (some ordering) => .ok (comparison.holds ordering)
    | some none => .ok false
    | none => .error (.unorderedOperands comparison left.kind right.kind)

def longestRepetition : Nat := 1 <<< 30

/-- So many copies of a string in a row; none for a count that is not positive. -/
def repeatString (s : String) (count : Int64) : Except Fault String :=
  let copies := count.toInt.toNat
  let bytes := s.utf8ByteSize * copies
  if bytes = 0 then .ok ""
  else if bytes ≤ longestRepetition then .ok (Nat.repeat (· ++ s) copies "")
  else .error (.repeatedTooLong s.utf8ByteSize count)

namespace BinaryOperator

def divides : BinaryOperator → Bool
  | .div => true
  | .floorDiv => true
  | .mod => true
  | _ => false

def checked (operator : BinaryOperator) : Option Int64 → Except Fault Value
  | some n => .ok (.int n)
  | none => .error (.integerOverflow operator)

/-- Two integers. The true quotient is a floating point number. -/
def onIntegers (operator : BinaryOperator) (a b : Int64) : Except Fault Value :=
  if operator.divides && b == 0 then .error .divisionByZero
  else
    match operator with
    | .add => operator.checked (Integer.add? a b)
    | .sub => operator.checked (Integer.sub? a b)
    | .mul => operator.checked (Integer.mul? a b)
    | .div => .ok (.float ((Binary64.ofInt a.toInt).div (Binary64.ofInt b.toInt)))
    | .floorDiv => operator.checked (Integer.floorDiv? a b)
    | .mod => operator.checked (Integer.floorMod? a b)

def onFloats (operator : BinaryOperator) (a b : Binary64) : Except Fault Value :=
  if operator.divides && b.place? == some 0 then .error .floatDivisionByZero
  else
    .ok (.float (match operator with
      | .add => a.add b
      | .sub => a.sub b
      | .mul => a.mul b
      | .div => a.div b
      | .floorDiv => a.floorDiv b
      | .mod => a.floorMod b))

/-- Applies an operator: to two integers, to strings where it joins or repeats them, and else to the
floating point numbers that both operands stand for. -/
def apply (operator : BinaryOperator) (left right : Value) : Except Fault Value :=
  match operator, left, right with
  | _, .int a, .int b => operator.onIntegers a b
  | .add, .str a, .str b => .ok (.str (a ++ b))
  | .mul, .str s, .int n => (repeatString s n).map .str
  | .mul, .int n, .str s => (repeatString s n).map .str
  | _, _, _ =>
    match left.toBinary64?, right.toBinary64? with
    | some a, some b => operator.onFloats a b
    | _, _ => .error (.unsupportedOperands operator left.kind right.kind)

end BinaryOperator

def Value.negate : Value → Except Fault Value
  | .int n =>
    match Integer.neg? n with
    | some m => .ok (.int m)
    | none => .error .negationOverflow
  | .float x => .ok (.float x.neg)
  | other => .error (.unsupportedOperand other.kind)

end Interpose
