import Interpose.Binary64.Basic

/-! Integers as floating point numbers. Every integer has a number nearest to it, which is not NaN,
and rounding keeps the order: within one exponent because quotients do, and across exponents because
a significand that rounds up ends where the next exponent begins. -/

namespace Interpose.Binary64

theorem div_le_roundQuotient (numerator denominator : Nat) :
    numerator / denominator ≤ roundQuotient numerator denominator := by
  simp only [roundQuotient]
  split <;> omega

theorem roundQuotient_le (numerator denominator : Nat) :
    roundQuotient numerator denominator ≤ numerator / denominator + 1 := by
  simp only [roundQuotient]
  split <;> omega

theorem roundQuotient_mono {first second : Nat} (denominator : Nat) (ordered : first ≤ second) :
    roundQuotient first denominator ≤ roundQuotient second denominator := by
  have quotients : first / denominator ≤ second / denominator := Nat.div_le_div_right ordered
  rcases Nat.lt_or_eq_of_le quotients with lower | same
  · calc roundQuotient first denominator
        ≤ first / denominator + 1 := roundQuotient_le first denominator
      _ ≤ second / denominator := lower
      _ ≤ roundQuotient second denominator := div_le_roundQuotient second denominator
  · have one := Nat.div_add_mod first denominator
    have other := Nat.div_add_mod second denominator
    rw [← same] at other
    simp only [roundQuotient, ← same]
    split <;> split <;> omega

/-- The exponent that leaves a significand of fifty-three digits at most. -/
def chosenExponent (numerator denominator : Nat) : Nat := Nat.log2 (numerator / denominator) - 52

theorem roundMagnitude_eq (numerator denominator : Nat) :
    roundMagnitude numerator denominator = min infinityWord
      (chosenExponent numerator denominator * leadingBit +
        roundQuotient numerator (denominator <<< chosenExponent numerator denominator)) := rfl

theorem chosenExponent_mono {first second : Nat} (denominator : Nat) (ordered : first ≤ second) :
    chosenExponent first denominator ≤ chosenExponent second denominator := by
  have quotients : first / denominator ≤ second / denominator := Nat.div_le_div_right ordered
  have logs : Nat.log2 (first / denominator) ≤ Nat.log2 (second / denominator) := by
    by_cases zero : first / denominator = 0
    · rw [zero, Nat.log2_zero]
      exact Nat.zero_le _
    · have nonzero : second / denominator ≠ 0 :=
        Nat.ne_of_gt (Nat.lt_of_lt_of_le (Nat.pos_of_ne_zero zero) quotients)
      exact (Nat.le_log2 nonzero).mpr (Nat.le_trans (Nat.log2_self_le zero) quotients)
  exact Nat.sub_le_sub_right logs 52

/-- A significand has no more than fifty-three digits, or it rounded up to one more. -/
theorem significand_le (numerator denominator : Nat) :
    roundQuotient numerator (denominator <<< chosenExponent numerator denominator) ≤
      2 * leadingBit := by
  have short : numerator / denominator / 2 ^ chosenExponent numerator denominator <
      2 * leadingBit := by
    rw [Nat.div_lt_iff_lt_mul (Nat.two_pow_pos _)]
    calc numerator / denominator
        < 2 ^ (Nat.log2 (numerator / denominator) + 1) := Nat.lt_log2_self
      _ ≤ 2 ^ (53 + chosenExponent numerator denominator) :=
          Nat.pow_le_pow_right Nat.two_pos (by unfold chosenExponent; omega)
      _ = 2 * leadingBit * 2 ^ chosenExponent numerator denominator := by
          rw [Nat.pow_add]
          rfl
  have rounded := roundQuotient_le numerator
    (denominator <<< chosenExponent numerator denominator)
  rw [Nat.shiftLeft_eq, ← Nat.div_div_eq_div_mul, ← Nat.shiftLeft_eq] at rounded
  omega

/-- Above the least exponent a significand has its leading digit. -/
theorem leadingBit_le_significand {numerator denominator : Nat}
    (normal : 0 < chosenExponent numerator denominator) :
    leadingBit ≤
      roundQuotient numerator (denominator <<< chosenExponent numerator denominator) := by
  have long : Nat.log2 (numerator / denominator) =
      52 + chosenExponent numerator denominator := by
    unfold chosenExponent at normal ⊢
    omega
  have nonzero : numerator / denominator ≠ 0 := by
    intro zero
    rw [zero, Nat.log2_zero] at long
    omega
  refine Nat.le_trans ?_ (div_le_roundQuotient _ _)
  rw [Nat.shiftLeft_eq, ← Nat.div_div_eq_div_mul, Nat.le_div_iff_mul_le (Nat.two_pow_pos _)]
  calc leadingBit * 2 ^ chosenExponent numerator denominator
      = 2 ^ Nat.log2 (numerator / denominator) := by
        rw [long, Nat.pow_add]
        rfl
    _ ≤ numerator / denominator := Nat.log2_self_le nonzero

theorem roundMagnitude_mono {first second : Nat} (denominator : Nat) (ordered : first ≤ second) :
    roundMagnitude first denominator ≤ roundMagnitude second denominator := by
  rw [roundMagnitude_eq, roundMagnitude_eq]
  apply Nat.le_min.mpr ⟨Nat.min_le_left _ _, Nat.le_trans (Nat.min_le_right _ _) ?_⟩
  rcases Nat.lt_or_eq_of_le (chosenExponent_mono denominator ordered) with lower | same
  · have largest := significand_le first denominator
    have least := leadingBit_le_significand (Nat.zero_lt_of_lt lower)
    calc chosenExponent first denominator * leadingBit + _
        ≤ chosenExponent first denominator * leadingBit + 2 * leadingBit :=
          Nat.add_le_add_left largest _
      _ = (chosenExponent first denominator + 1) * leadingBit + leadingBit := by
          rw [Nat.add_mul, Nat.two_mul, Nat.one_mul, Nat.add_assoc]
      _ ≤ chosenExponent second denominator * leadingBit + _ :=
          Nat.add_le_add (Nat.mul_le_mul_right leadingBit lower) least
  · rw [← same]
    exact Nat.add_le_add_left (roundQuotient_mono _ ordered) _

theorem roundMagnitude_le (numerator denominator : Nat) :
    roundMagnitude numerator denominator ≤ infinityWord := Nat.min_le_left _ _

theorem toNat_bits_ofWord {word : Nat} (negative : Bool) (unsigned : word < signBit) :
    (ofWord negative word).bits.toNat = word + if negative then signBit else 0 := by
  apply UInt64.toNat_ofNat_of_lt'
  cases negative <;> simp [signBit, UInt64.size] at unsigned ⊢ <;> omega

theorem magnitudeWord_ofWord {word : Nat} (negative : Bool) (unsigned : word < signBit) :
    (ofWord negative word).magnitudeWord = word := by
  rw [magnitudeWord, toNat_bits_ofWord negative unsigned]
  cases negative with
  | true => exact (Nat.add_mod_right word signBit).trans (Nat.mod_eq_of_lt unsigned)
  | false => exact Nat.mod_eq_of_lt unsigned

theorem isNegative_ofWord {word : Nat} (negative : Bool) (unsigned : word < signBit) :
    (ofWord negative word).isNegative = negative := by
  rw [isNegative, toNat_bits_ofWord negative unsigned]
  cases negative with
  | true => exact decide_eq_true (Nat.le_add_left signBit word)
  | false => exact decide_eq_false (Nat.not_le.mpr unsigned)

def wholePlace (n : Int) : Int :=
  if n < 0 then -roundMagnitude (n.natAbs <<< 1074) 1 else roundMagnitude (n.natAbs <<< 1074) 1

theorem place?_ofInt (n : Int) : (ofInt n).place? = some (wholePlace n) := by
  have finite := roundMagnitude_le (n.natAbs <<< 1074) 1
  have unsigned : roundMagnitude (n.natAbs <<< 1074) 1 < signBit :=
    Nat.lt_of_le_of_lt finite (by decide)
  have number : (ofInt n).isNaN = false := by
    rw [isNaN, ofInt, nearest, magnitudeWord_ofWord _ unsigned]
    exact decide_eq_false (Nat.not_lt.mpr finite)
  rw [place?, number, if_neg Bool.false_ne_true, ofInt, nearest, isNegative_ofWord _ unsigned,
    magnitudeWord_ofWord _ unsigned, wholePlace]
  simp only [decide_eq_true_eq]

/-- An integer is rounded to a number in the same order as all other integers. -/
theorem wholePlace_mono {first second : Int} (ordered : first ≤ second) :
    wholePlace first ≤ wholePlace second := by
  have rounded {one other : Nat} (smaller : one ≤ other) :
      roundMagnitude (one <<< 1074) 1 ≤ roundMagnitude (other <<< 1074) 1 := by
    apply roundMagnitude_mono
    rw [Nat.shiftLeft_eq, Nat.shiftLeft_eq]
    exact Nat.mul_le_mul_right _ smaller
  unfold wholePlace
  split
  next below =>
    split
    next =>
      have magnitudes := rounded (by omega : second.natAbs ≤ first.natAbs)
      omega
    next => omega
  next above =>
    rw [if_neg (by omega)]
    exact Int.ofNat_le.mpr (rounded (by omega))

end Interpose.Binary64
