import Interpose.Binary64.Basic

/-! The decimal with the fewest digits that reads back as a given floating point number. All
comparisons are between exact natural numbers; lengths are counted in units of `2 ^ -1076`, in
which a number and the two halfway points beside it are integers. -/

namespace Interpose.Decimal

def powerOfTen (n : Nat) : Nat := Nat.pow 10 n

structure Scientific where
  digits : Nat
  power : Int
deriving DecidableEq, Repr

/-- The reals that round to a number: those between the halfway points to its two neighbours. The
halfway points themselves belong to it when its significand is even. -/
structure Basin where
  low : Nat
  center : Nat
  high : Nat
  closed : Bool

namespace Basin

/-- The basin of a positive finite number. Below a power of two the neighbour is half as far. -/
def ofBinary64 (x : Binary64) : Basin :=
  let below := if x.significand = Binary64.leadingBit ∧ 0 < x.exponent then 1 else 2
  { low := (4 * x.significand - below) <<< x.exponent
    center := (4 * x.significand) <<< x.exponent
    high := (4 * x.significand + 2) <<< x.exponent
    closed := x.significand % 2 = 0 }

/-- What one step of a decimal grid and one unit of a basin count in their common measure. -/
def measures (power : Int) : Nat × Nat :=
  let scale := powerOfTen power.natAbs
  if power < 0 then (1 <<< 1076, scale) else (scale <<< 1076, 1)

def holds (basin : Basin) (power : Int) (digits : Nat) : Bool :=
  let (step, unit) := measures power
  if basin.closed then
    decide (basin.low * unit ≤ digits * step ∧ digits * step ≤ basin.high * unit)
  else decide (basin.low * unit < digits * step ∧ digits * step < basin.high * unit)

/-- The multiple of a power of ten nearest to the center among those that round to it; the upper one
of two that are equally near. Only the two multiples beside the center can be nearest. -/
def nearest? (basin : Basin) (power : Int) : Option Nat :=
  let (step, unit) := measures power
  let lower := basin.center * unit / step
  let upper := lower + 1
  match basin.holds power lower, basin.holds power upper with
  | false, false => none
  | true, false => some lower
  | false, true => some upper
  | true, true =>
    if basin.center * unit - lower * step < upper * step - basin.center * unit then some lower
    else some upper

/-- Searches ever finer powers of ten for one with a multiple in the basin. -/
def search (basin : Basin) (power : Int) : Nat → Scientific
  | 0 => ⟨0, power⟩
  | finer + 1 =>
    match basin.nearest? power with
    | some digits => ⟨digits, power⟩
    | none => search basin (power - 1) finer

/-- A power of ten above the basin: ten is more than three binary digits. -/
def ceiling (basin : Basin) : Nat := Nat.log2 (basin.high >>> 1076) / 3 + 1

end Basin

/-- The decimal of fewest digits that rounds to a positive finite number, the nearest of these. The
number itself is a multiple of `10 ^ -1074`, so the search ends there at the latest. -/
def shortest (x : Binary64) : Scientific :=
  let basin := Basin.ofBinary64 x
  basin.search basin.ceiling (basin.ceiling + 1075)

end Interpose.Decimal
