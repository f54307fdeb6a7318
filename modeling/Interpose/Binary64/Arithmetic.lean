import Interpose.Binary64.Basic

/-! Floating point arithmetic: each operation is the exact result, rounded once to the nearest
number with a half to the even neighbour. NaN goes through every operation. -/

namespace Interpose.Binary64

def neg (x : Binary64) : Binary64 := ofWord (!x.isNegative) x.magnitudeWord

def abs (x : Binary64) : Binary64 := ofWord false x.magnitudeWord

/-- An exact sum of zero is negative only when both summands are. -/
def add (x y : Binary64) : Binary64 :=
  if x.isNaN || y.isNaN then nan
  else if x.isInfinite then
    if y.isInfinite && x.isNegative != y.isNegative then nan else x
  else if y.isInfinite then y
  else
    let sum := x.scaled + y.scaled
    if sum = 0 then zero (x.isNegative && y.isNegative)
    else nearest (decide (sum < 0)) sum.natAbs 1

def sub (x y : Binary64) : Binary64 := add x y.neg

def mul (x y : Binary64) : Binary64 :=
  let negative := x.isNegative != y.isNegative
  if x.isNaN || y.isNaN then nan
  else if x.isInfinite || y.isInfinite then
    if x.magnitudeWord = 0 ∨ y.magnitudeWord = 0 then nan else infinity negative
  else nearest negative (x.magnitude * y.magnitude) (1 <<< 1074)

def div (x y : Binary64) : Binary64 :=
  let negative := x.isNegative != y.isNegative
  if x.isNaN || y.isNaN then nan
  else if x.isInfinite then
    if y.isInfinite then nan else infinity negative
  else if y.isInfinite then zero negative
  else if y.magnitudeWord = 0 then
    if x.magnitudeWord = 0 then nan else infinity negative
  else nearest negative (x.magnitude <<< 1074) y.magnitude

/-- The largest integer that is not above the number. Its zero keeps the sign of the number. -/
def floor (x : Binary64) : Binary64 :=
  if x.isNaN then nan
  else if x.isInfinite then x
  else
    let whole := x.scaled.shiftRight 1074
    if whole = 0 then zero x.isNegative else ofInt whole

/-- The quotient of a division with its remainder: the floor of the rounded quotient. -/
def floorDiv (x y : Binary64) : Binary64 := (div x y).floor

/-- What the floor quotient leaves over, by the same rounded steps. -/
def floorMod (x y : Binary64) : Binary64 := sub x (mul y (floorDiv x y))

end Interpose.Binary64
