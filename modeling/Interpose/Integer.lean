/-! Signed 64-bit integers whose operations are exact: a result that does not fit has no value.
Division rounds to the floor, so a remainder is zero or has the sign of its divisor. -/

namespace Interpose.Integer

def Fits (n : Int) : Prop := Int64.minValue.toInt ≤ n ∧ n ≤ Int64.maxValue.toInt

instance (n : Int) : Decidable (Fits n) := inferInstanceAs (Decidable (_ ∧ _))

def fit? (n : Int) : Option Int64 := if Fits n then some (Int64.ofInt n) else none

def add? (a b : Int64) : Option Int64 := fit? (a.toInt + b.toInt)

def sub? (a b : Int64) : Option Int64 := fit? (a.toInt - b.toInt)

def mul? (a b : Int64) : Option Int64 := fit? (a.toInt * b.toInt)

/-- The quotient rounded to the floor, for a divisor that is not zero. -/
def floorDiv? (a b : Int64) : Option Int64 := fit? (a.toInt.fdiv b.toInt)

/-- The remainder that belongs to the floor quotient. It exists only together with that quotient. -/
def floorMod? (a b : Int64) : Option Int64 :=
  (floorDiv? a b).bind fun _ => fit? (a.toInt.fmod b.toInt)

def neg? (a : Int64) : Option Int64 := fit? (-a.toInt)

def abs? (a : Int64) : Option Int64 := fit? a.toInt.natAbs

/-- An integer that exists has the value that was asked for. -/
theorem toInt_of_fit {n : Int} {a : Int64} (found : fit? n = some a) : a.toInt = n := by
  unfold fit? at found
  split at found
  next fits =>
    cases found
    exact Int64.toInt_ofInt_of_le fits.1 (Int.lt_add_one_of_le fits.2)
  next => cases found

theorem fit?_isSome_iff {n : Int} : (fit? n).isSome ↔ Fits n := by
  unfold fit?
  split <;> simp_all

end Interpose.Integer
