import Interpose.Decimal.Shortest

/-! Decimal text without an exponent. -/

namespace Interpose.Decimal

def ofNat (n : Nat) : String := String.ofList (Nat.toDigits 10 n)

/-- An integer, with a minus sign before the digits of a negative one. -/
def ofInt (n : Int) : String := if n < 0 then "-" ++ ofNat n.natAbs else ofNat n.natAbs

/-- All digits written out, with a point only where digits follow it. -/
def Scientific.positional (x : Scientific) : String :=
  if x.power < 0 then
    let places := x.power.natAbs
    let fraction := Nat.toDigits 10 (x.digits % powerOfTen places)
    let filler := List.replicate (places - fraction.length) '0'
    ofNat (x.digits / powerOfTen places) ++ "." ++ String.ofList (filler ++ fraction)
  else ofNat (x.digits * powerOfTen x.power.natAbs)

/-- A floating point number by its shortest decimal; zero keeps its sign, NaN shows none. -/
def ofBinary64 (x : Binary64) : String :=
  if x.isNaN then "NaN"
  else
    let sign := if x.isNegative then "-" else ""
    if x.isInfinite then sign ++ "inf"
    else if x.magnitudeWord = 0 then sign ++ "0"
    else sign ++ (shortest x).positional

end Interpose.Decimal
