/-! Binary floating point numbers of 64 bits, held as their bits. A finite number is an integer
multiple of the least positive one, `2 ^ -1074`; magnitudes are counted in that unit. -/

namespace Interpose

/-- A sign bit, eleven bits of exponent and fifty-two bits of fraction. -/
structure Binary64 where
  bits : UInt64
deriving DecidableEq, Repr

namespace Binary64

def signBit : Nat := 0x8000000000000000

/-- The lowest bit of the exponent, and the leading one that a normal significand has above its
fraction. -/
def leadingBit : Nat := 0x10000000000000

/-- The word of a magnitude, without the sign bit. Larger magnitudes have larger words. -/
def magnitudeWord (x : Binary64) : Nat := x.bits.toNat % signBit

def isNegative (x : Binary64) : Bool := decide (signBit ≤ x.bits.toNat)

/-- The word of infinity: the largest exponent and no fraction. Above it lie the words of NaN. -/
def infinityWord : Nat := 2047 * leadingBit

def isNaN (x : Binary64) : Bool := decide (infinityWord < x.magnitudeWord)

def isInfinite (x : Binary64) : Bool := decide (x.magnitudeWord = infinityWord)

def ofWord (negative : Bool) (word : Nat) : Binary64 :=
  ⟨UInt64.ofNat (word + if negative then signBit else 0)⟩

def nan : Binary64 := ofWord false (infinityWord + leadingBit / 2)

def infinity (negative : Bool) : Binary64 := ofWord negative infinityWord

def zero (negative : Bool) : Binary64 := ofWord negative 0

instance : Inhabited Binary64 := ⟨zero false⟩

/-- The significand, which for a normal number includes the leading one. -/
def significand (x : Binary64) : Nat :=
  if x.magnitudeWord < leadingBit then x.magnitudeWord
  else leadingBit + x.magnitudeWord % leadingBit

/-- The power of two, in units of `2 ^ -1074`, that the significand counts. -/
def exponent (x : Binary64) : Nat := x.magnitudeWord / leadingBit - 1

/-- The magnitude of a finite number in units of `2 ^ -1074`. -/
def magnitude (x : Binary64) : Nat := x.significand <<< x.exponent

/-- A finite number in units of `2 ^ -1074`. -/
def scaled (x : Binary64) : Int := if x.isNegative then -x.magnitude else x.magnitude

/-- The place of a number in the order, none for NaN. Both zeros have the place zero. -/
def place? (x : Binary64) : Option Int :=
  if x.isNaN then none
  else some (if x.isNegative then -x.magnitudeWord else x.magnitudeWord)

/-- The quotient to the nearest integer, a half to the even one. -/
def roundQuotient (numerator denominator : Nat) : Nat :=
  let quotient := numerator / denominator
  let doubled := 2 * (numerator % denominator)
  if denominator < doubled ∨ (doubled = denominator ∧ quotient % 2 = 1) then quotient + 1
  else quotient

/-- The word of the magnitude nearest to a quotient in units of `2 ^ -1074`. The unit of the last
place is chosen so that the significand keeps fifty-three digits; a significand that rounds up to
one more carries into the exponent, and a word past the largest finite one is infinity. -/
def roundMagnitude (numerator denominator : Nat) : Nat :=
  let exponent := Nat.log2 (numerator / denominator) - 52
  let significand := roundQuotient numerator (denominator <<< exponent)
  min infinityWord (exponent * leadingBit + significand)

/-- The number nearest to a signed quotient in units of `2 ^ -1074`. -/
def nearest (negative : Bool) (numerator denominator : Nat) : Binary64 :=
  ofWord negative (roundMagnitude numerator denominator)

/-- The number nearest to an integer, a half to the even neighbour. -/
def ofInt (n : Int) : Binary64 := nearest (decide (n < 0)) (n.natAbs <<< 1074) 1

end Binary64

end Interpose
