import Interpose.Builtin
import Interpose.Proofs.Division
import Mathlib.Algebra.Order.Field.Basic
import Mathlib.Data.Rat.Floor

/-! Calculation with integers. A result is the exact integer, or there is no word for it and the
calculation fails. Division by steps on words comes to the floor and its remainder: a machine
refuses one pair besides the zero divisors, and for all others no step leaves the range of words. -/

namespace Interpose

namespace Integer

/-- A machine does not divide these words: there is no quotient, or no word for it. -/
def Refused (a b : Int64) : Prop := b = 0 ∨ a = .minValue ∧ b = -1

instance (a b : Int64) : Decidable (Refused a b) := inferInstanceAs (Decidable (_ ∨ _))

/-- The quotient of words rounds toward zero; where it is above the floor it is lowered by one. -/
def steppedDiv? (a b : Int64) : Option Int64 :=
  if Refused a b then none
  else some (if a % b ≠ 0 ∧ ¬(a < 0 ↔ b < 0) then a / b - 1 else a / b)

/-- The remainder of words has the sign of the dividend; where that is not the sign of the divisor,
the divisor is added. -/
def steppedMod? (a b : Int64) : Option Int64 :=
  if Refused a b then none
  else some (if a % b ≠ 0 ∧ ¬(a % b < 0 ↔ b < 0) then a % b + b else a % b)

structure StepsExactly (a b : Int64) : Prop where
  quotient : (a / b).toInt = a.toInt.tdiv b.toInt
  remainder : (a % b).toInt = a.toInt.tmod b.toInt
  lowered : a % b ≠ 0 → ¬(a < 0 ↔ b < 0) → (a / b - 1).toInt = (a / b).toInt - 1
  raised : a % b ≠ 0 → ¬(a % b < 0 ↔ b < 0) → (a % b + b).toInt = (a % b).toInt + b.toInt

theorem fit?_of_toInt {n : Int} {a : Int64} (same : a.toInt = n) : fit? n = some a := by
  subst same
  rw [fit?, if_pos (fits_toInt a), Int64.ofInt_toInt]

theorem bmod_of_fits {n : Int} (fits : Fits n) : n.bmod (2 ^ 64) = n := by
  rw [fits_iff] at fits
  apply Int.bmod_eq_of_le <;> omega

theorem eq_minValue_iff (a : Int64) : a = .minValue ↔ a.toInt = -9223372036854775808 :=
  Int64.toInt_inj.symm

/-- Words reach one further below zero than above: the least of them has no negative. -/
theorem fits_neg_iff (a : Int64) : Fits (-a.toInt) ↔ a ≠ .minValue := by
  have bounds := fits_iff.mp (fits_toInt a)
  rw [fits_iff, ne_eq, eq_minValue_iff]
  omega

theorem fits_natAbs_iff (a : Int64) : Fits a.toInt.natAbs ↔ a ≠ .minValue := by
  have bounds := fits_iff.mp (fits_toInt a)
  rw [fits_iff, ne_eq, eq_minValue_iff]
  omega

section
variable {a b : Int64}

private theorem toInt_ne_zero (nonzero : b ≠ 0) : b.toInt ≠ 0 :=
  fun zero => nonzero (Int64.toInt_inj.mp zero)

theorem fits_tdiv (divided : ¬Refused a b) : Fits (a.toInt.tdiv b.toInt) := by
  have nonzero : b.toInt ≠ 0 := toInt_ne_zero fun zero => divided (.inl zero)
  have bounds := fits_iff.mp (fits_toInt a)
  by_cases opposite : b.toInt = -1
  · have least : a ≠ .minValue := fun same => divided (.inr ⟨same, Int64.toInt_inj.mp opposite⟩)
    rw [opposite, Int.tdiv_neg, Int.tdiv_one]
    exact (fits_neg_iff a).mpr least
  · by_cases one : b.toInt = 1
    · rw [one, Int.tdiv_one]
      exact fits_toInt a
    · have half : (a.toInt.tdiv b.toInt).natAbs ≤ a.toInt.natAbs / 2 := by
        rw [Int.natAbs_tdiv]
        exact Nat.div_le_div_left (by omega) (by decide)
      rw [fits_iff]
      omega

private theorem mod_eq_zero_iff : a % b = 0 ↔ a.toInt.tmod b.toInt = 0 := by
  rw [← Int64.toInt_mod]
  exact Int64.toInt_inj.symm

/-- The correction of a quotient looks at words, and sees what is to be seen of the integers. -/
theorem overshoots_words_iff :
    a % b ≠ 0 ∧ ¬(a < 0 ↔ b < 0) ↔ Overshoots a.toInt b.toInt := by
  rw [Overshoots, ne_eq, mod_eq_zero_iff, Int64.lt_iff_toInt_lt, Int64.lt_iff_toInt_lt,
    Int64.toInt_zero]

theorem overshoots_rest_iff :
    a % b ≠ 0 ∧ ¬(a % b < 0 ↔ b < 0) ↔ Overshoots a.toInt b.toInt := by
  rw [overshoots_iff, ne_eq, mod_eq_zero_iff, Int64.lt_iff_toInt_lt, Int64.lt_iff_toInt_lt,
    Int64.toInt_zero, Int64.toInt_mod]

theorem stepsExactly (divided : ¬Refused a b) : StepsExactly a b := by
  have nonzero : b.toInt ≠ 0 := toInt_ne_zero fun zero => divided (.inl zero)
  have quotient : (a / b).toInt = a.toInt.tdiv b.toInt := by
    rw [Int64.toInt_div, bmod_of_fits (fits_tdiv divided)]
  refine ⟨quotient, Int64.toInt_mod a b, ?lowered, ?raised⟩
  case lowered =>
    intro rest apart
    have past := overshoots_words_iff.mp ⟨rest, apart⟩
    rw [Int64.toInt_sub, quotient, Int64.toInt_one]
    exact bmod_of_fits (fits_lowered a nonzero past).2
  case raised =>
    intro rest apart
    have past := overshoots_rest_iff.mp ⟨rest, apart⟩
    rw [Int64.toInt_add, Int64.toInt_mod]
    exact bmod_of_fits (fits_raised a nonzero past)

end

section
variable (a : Int64) {b : Int64}

/-- The floor quotient is what the steps on words come to. -/
theorem floorDiv?_eq_stepped (nonzero : b ≠ 0) : floorDiv? a b = steppedDiv? a b := by
  rw [floorDiv?, steppedDiv?, fdiv_eq a.toInt (toInt_ne_zero nonzero)]
  by_cases refused : Refused a b
  · rw [if_pos refused]
    rcases refused with zero | ⟨rfl, rfl⟩
    · exact absurd zero nonzero
    · decide
  · have steps := stepsExactly refused
    rw [if_neg refused]
    by_cases past : Overshoots a.toInt b.toInt
    · have seen := overshoots_words_iff.mpr past
      rw [if_pos past, if_pos seen]
      apply fit?_of_toInt
      rw [steps.lowered seen.1 seen.2, steps.quotient]
    · rw [if_neg past, if_neg (past ∘ overshoots_words_iff.mp)]
      exact fit?_of_toInt steps.quotient

theorem floorMod?_eq_stepped (nonzero : b ≠ 0) : floorMod? a b = steppedMod? a b := by
  rw [floorMod?, floorDiv?_eq_stepped a nonzero, steppedDiv?, steppedMod?]
  by_cases refused : Refused a b
  · rw [if_pos refused, if_pos refused, Option.bind_none]
  · have steps := stepsExactly refused
    rw [if_neg refused, if_neg refused, Option.bind_some, fmod_eq a.toInt (toInt_ne_zero nonzero)]
    by_cases past : Overshoots a.toInt b.toInt
    · have seen := overshoots_rest_iff.mpr past
      rw [if_pos past, if_pos seen]
      apply fit?_of_toInt
      rw [steps.raised seen.1 seen.2, steps.remainder]
    · rw [if_neg past, if_neg (past ∘ overshoots_rest_iff.mp)]
      exact fit?_of_toInt steps.remainder

end

/-- A floor remainder is smaller than the divisor, and it is zero or has the sign of the divisor. -/
theorem fmod_bounds (a : Int) {b : Int} (nonzero : b ≠ 0) :
    (a.fmod b).natAbs < b.natAbs ∧
      (a.fmod b = 0 ∨ a.fmod b < 0 ∧ b < 0 ∨ 0 < a.fmod b ∧ 0 < b) := by
  have smaller := natAbs_tmod_lt a nonzero
  rw [fmod_eq a nonzero]
  split
  next past =>
    obtain ⟨rest, apart⟩ := overshoots_iff.mp past
    omega
  next short =>
    rw [overshoots_iff] at short
    omega

theorem floor_div_eq (a : Int) {b : Int} (nonzero : b ≠ 0) : ⌊(a : ℚ) / (b : ℚ)⌋ = a.fdiv b := by
  have parts : (a : ℚ) = b * a.fdiv b + a.fmod b := by
    exact_mod_cast (Int.mul_fdiv_add_fmod a b).symm
  have whole : (b : ℚ) ≠ 0 := by exact_mod_cast nonzero
  have split : (a : ℚ) / b = a.fdiv b + (a.fmod b : ℚ) / b := by
    rw [parts, add_div, mul_div_cancel_left₀ _ whole]
  obtain ⟨smaller, sign⟩ := fmod_bounds a nonzero
  rw [Int.floor_eq_iff, split]
  rcases Int.lt_or_gt_of_ne nonzero with negative | positive
  · have below : (b : ℚ) < 0 := by exact_mod_cast negative
    have rest : (a.fmod b : ℚ) ≤ 0 := by exact_mod_cast (by omega : a.fmod b ≤ 0)
    have short : (b : ℚ) < a.fmod b := by exact_mod_cast (by omega : b < a.fmod b)
    have fraction := (div_lt_one_of_neg below).mpr short
    have unsigned := div_nonneg_of_nonpos rest (le_of_lt below)
    constructor <;> linarith
  · have above : (0 : ℚ) < b := by exact_mod_cast positive
    have rest : (0 : ℚ) ≤ a.fmod b := by exact_mod_cast (by omega : 0 ≤ a.fmod b)
    have short : (a.fmod b : ℚ) < b := by exact_mod_cast (by omega : a.fmod b < b)
    have fraction := (div_lt_one above).mpr short
    have unsigned := div_nonneg rest (le_of_lt above)
    constructor <;> linarith

end Integer

/-- The exact integer where there is a word for it, and elsewhere a failure for this cause. -/
inductive Exactly (n : Int) (overflow : Fault) : Except Fault Value → Prop
  | fits {a : Int64} (same : a.toInt = n) : Exactly n overflow (.ok (.int a))
  | exceeds (large : ¬Integer.Fits n) : Exactly n overflow (.error overflow)

def Fault.Says (fault : Fault) (kind : String) : Prop :=
  ∀ heap, ∃ rest, fault.message? heap = some (kind ++ ": " ++ rest)

structure CalculatesExactly (a b : Int64) : Prop where
  add : Exactly (a.toInt + b.toInt) (.integerOverflow .add)
    (BinaryOperator.add.apply (.int a) (.int b))
  sub : Exactly (a.toInt - b.toInt) (.integerOverflow .sub)
    (BinaryOperator.sub.apply (.int a) (.int b))
  mul : Exactly (a.toInt * b.toInt) (.integerOverflow .mul)
    (BinaryOperator.mul.apply (.int a) (.int b))
  /-- The zero divisor is seen before anything is divided. -/
  zero : b = 0 → ∀ operator ∈ [BinaryOperator.div, .floorDiv, .mod],
    operator.apply (.int a) (.int b) = .error .divisionByZero
  refused : a = .minValue → b = -1 → ∀ operator ∈ [BinaryOperator.floorDiv, .mod],
    operator.apply (.int a) (.int b) = .error (.integerOverflow operator)
  divided : b ≠ 0 → ¬(a = .minValue ∧ b = -1) → ∃ quotient remainder : Int64,
    BinaryOperator.floorDiv.apply (.int a) (.int b) = .ok (.int quotient) ∧
    BinaryOperator.mod.apply (.int a) (.int b) = .ok (.int remainder) ∧
    quotient.toInt = ⌊(a.toInt : ℚ) / (b.toInt : ℚ)⌋ ∧
    a.toInt = quotient.toInt * b.toInt + remainder.toInt ∧
    |remainder.toInt| < |b.toInt| ∧
    (remainder.toInt = 0 ∨ remainder.toInt.sign = b.toInt.sign)
  /-- So a machine divides, without a panic or a wrap. -/
  stepped : b ≠ 0 → Integer.floorDiv? a b = Integer.steppedDiv? a b ∧
    Integer.floorMod? a b = Integer.steppedMod? a b ∧
    (¬Integer.Refused a b → Integer.StepsExactly a b)
  neg : Exactly (-a.toInt) .negationOverflow (Value.int a).negate ∧
    ((Value.int a).negate = .error .negationOverflow ↔ a = .minValue)
  abs : Exactly |a.toInt| (.absoluteOverflow a) (Builtin.abs [.int a]) ∧
    (Builtin.abs [.int a] = .error (.absoluteOverflow a) ↔ a = .minValue)
  named : Fault.divisionByZero.Says "ZeroDivisionError" ∧
    (∀ operator, (Fault.integerOverflow operator).Says "OverflowError") ∧
    Fault.negationOverflow.Says "OverflowError" ∧ (Fault.absoluteOverflow a).Says "OverflowError"

namespace Exactly
variable {n : Int} {overflow : Fault} {result : Except Fault Value}

/-- An operation that asks for the word of an integer, and fails where there is none. -/
theorem of_fit? (found : ∀ a, Integer.fit? n = some a → result = .ok (.int a))
    (missing : Integer.fit? n = none → result = .error overflow) : Exactly n overflow result := by
  cases held : Integer.fit? n with
  | some a =>
    rw [found a held]
    exact .fits (Integer.toInt_of_fit held)
  | none =>
    rw [missing held]
    apply Exactly.exceeds
    rw [← Integer.fit?_isSome_iff, held]
    exact Bool.false_ne_true

theorem of_checked (operator : BinaryOperator) (n : Int) :
    Exactly n (.integerOverflow operator) (operator.checked (Integer.fit? n)) := by
  apply of_fit?
  · intro a held
    rw [held, BinaryOperator.checked]
  · intro held
    rw [held, BinaryOperator.checked]

theorem failed_iff (exactly : Exactly n overflow result) :
    result = .error overflow ↔ ¬Integer.Fits n := by
  cases exactly with
  | @fits a same =>
    refine iff_of_false nofun ?_
    rw [← same]
    exact not_not_intro (Integer.fits_toInt a)
  | exceeds large => exact iff_of_true rfl large

end Exactly

theorem exactly_negate (a : Int64) :
    Exactly (-a.toInt) .negationOverflow (Value.int a).negate := by
  apply Exactly.of_fit?
  · intro negated held
    simp only [Value.negate, Integer.neg?, held]
  · intro held
    simp only [Value.negate, Integer.neg?, held]

theorem exactly_abs (a : Int64) :
    Exactly |a.toInt| (.absoluteOverflow a) (Builtin.abs [.int a]) := by
  rw [Int.abs_eq_natAbs]
  apply Exactly.of_fit?
  · intro positive held
    simp only [Builtin.abs, Integer.abs?, held]
  · intro held
    simp only [Builtin.abs, Integer.abs?, held]

namespace BinaryOperator
variable (a : Int64) {b : Int64}

theorem apply_zero {operator : BinaryOperator} (divides : operator.divides = true) :
    operator.apply (.int a) (.int 0) = .error .divisionByZero := by
  simp only [apply, onIntegers, divides, beq_self_eq_true, Bool.and_self, if_true]

theorem floorDiv_apply (nonzero : b ≠ 0) :
    floorDiv.apply (.int a) (.int b) = floorDiv.checked (Integer.floorDiv? a b) := by
  simp only [apply, onIntegers, beq_false_of_ne nonzero, Bool.and_false, Bool.false_eq_true,
    if_false]

theorem mod_apply (nonzero : b ≠ 0) :
    mod.apply (.int a) (.int b) = mod.checked (Integer.floorMod? a b) := by
  simp only [apply, onIntegers, beq_false_of_ne nonzero, Bool.and_false, Bool.false_eq_true,
    if_false]

end BinaryOperator

namespace Integer
variable {a b : Int64}

/-- Words that can be divided have a quotient and a remainder. -/
theorem exists_floor (nonzero : b ≠ 0) (divided : ¬Refused a b) :
    ∃ quotient remainder, floorDiv? a b = some quotient ∧ floorMod? a b = some remainder ∧
      quotient.toInt = a.toInt.fdiv b.toInt ∧ remainder.toInt = a.toInt.fmod b.toInt := by
  have fits := fits_tdiv divided
  have whole := toInt_ne_zero nonzero
  obtain ⟨quotient, found⟩ := Option.isSome_iff_exists.mp ((floorDiv?_isSome_iff a whole).mpr fits)
  obtain ⟨remainder, left⟩ := Option.isSome_iff_exists.mp ((floorMod?_isSome_iff a whole).mpr fits)
  obtain ⟨_, _, rest⟩ := Option.bind_eq_some_iff.mp left
  exact ⟨quotient, remainder, found, left, toInt_of_fit found, toInt_of_fit rest⟩

end Integer

/-- Operations on two integers give the exact integer or fail, and fail only where they must. -/
theorem calculates_exactly (a b : Int64) : CalculatesExactly a b := by
  constructor
  case add => exact Exactly.of_checked .add _
  case sub => exact Exactly.of_checked .sub _
  case mul => exact Exactly.of_checked .mul _
  case zero =>
    rintro rfl operator member
    have divide : ∀ operator ∈ [BinaryOperator.div, .floorDiv, .mod], operator.divides = true := by
      decide
    exact BinaryOperator.apply_zero a (divide operator member)
  case refused =>
    rintro rfl rfl operator member
    rcases List.mem_cons.mp member with rfl | member
    · rfl
    · rw [List.mem_singleton.mp member]
      rfl
  case divided =>
    intro nonzero apart
    have whole : b.toInt ≠ 0 := fun zero => nonzero (Int64.toInt_inj.mp zero)
    have divided : ¬Integer.Refused a b := not_or_intro nonzero apart
    obtain ⟨quotient, remainder, found, left, floor, rest⟩ := Integer.exists_floor nonzero divided
    obtain ⟨smaller, sign⟩ := Integer.fmod_bounds a.toInt whole
    refine ⟨quotient, remainder, ?quotient, ?remainder, ?floor, ?parts, ?smaller, ?sign⟩
    case quotient => rw [BinaryOperator.floorDiv_apply a nonzero, found, BinaryOperator.checked]
    case remainder => rw [BinaryOperator.mod_apply a nonzero, left, BinaryOperator.checked]
    case floor => rw [floor, Integer.floor_div_eq a.toInt whole]
    case parts => rw [floor, rest, Int.mul_comm, Int.mul_fdiv_add_fmod]
    case smaller =>
      rw [rest, Int.abs_eq_natAbs, Int.abs_eq_natAbs]
      exact_mod_cast smaller
    case sign =>
      rw [rest]
      rcases sign with zero | ⟨below, negative⟩ | ⟨above, positive⟩
      · exact .inl zero
      · exact .inr (by rw [Int.sign_eq_neg_one_of_neg below, Int.sign_eq_neg_one_of_neg negative])
      · exact .inr (by rw [Int.sign_eq_one_of_pos above, Int.sign_eq_one_of_pos positive])
  case stepped =>
    intro nonzero
    exact ⟨Integer.floorDiv?_eq_stepped a nonzero, Integer.floorMod?_eq_stepped a nonzero,
      Integer.stepsExactly⟩
  case neg =>
    refine ⟨exactly_negate a, (exactly_negate a).failed_iff.trans ?_⟩
    rw [Integer.fits_neg_iff, not_not]
  case abs =>
    refine ⟨exactly_abs a, (exactly_abs a).failed_iff.trans ?_⟩
    rw [Int.abs_eq_natAbs, Integer.fits_natAbs_iff, not_not]
  case named =>
    refine ⟨fun _ => ⟨"division by zero", rfl⟩, ?operators, fun _ => ⟨"integer negation", rfl⟩,
      ?absolute⟩
    case operators =>
      intro operator heap
      refine ⟨"integer " ++ operator.text ++ " overflow", ?_⟩
      cases operator <;> rfl
    case absolute =>
      intro heap
      refine ⟨"abs() of " ++ Decimal.ofInt a.toInt, ?_⟩
      simp only [Fault.message?, ← String.append_assoc]
      rfl

end Interpose
