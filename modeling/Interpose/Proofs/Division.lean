import Interpose.Integer

/-! Division of words. A machine rounds the quotient toward zero and gives the remainder the sign of
the dividend; from there the floor is one step away at most. Of all the steps only the first can
leave the range of words, and where it does there is no result. -/

namespace Interpose.Integer

theorem fits_toInt (a : Int64) : Fits a.toInt := ⟨Int64.minValue_le_toInt a, Int64.toInt_le a⟩

/-- A quotient that was rounded toward zero is above the floor. -/
def Overshoots (a b : Int) : Prop := a.tmod b ≠ 0 ∧ ¬(a < 0 ↔ b < 0)

instance (a b : Int) : Decidable (Overshoots a b) := inferInstanceAs (Decidable (_ ∧ _))

theorem fdiv_eq (a : Int) {b : Int} (nonzero : b ≠ 0) :
    a.fdiv b = if Overshoots a b then a.tdiv b - 1 else a.tdiv b := by
  have whole : b ∣ a ↔ a.tmod b = 0 := Int.dvd_iff_tmod_eq_zero
  have above : 0 ≤ a ↔ ¬a < 0 := Int.not_lt.symm
  rw [Int.fdiv_eq_ediv, Int.tdiv_eq_ediv]
  by_cases divides : a.tmod b = 0
  · simp [Overshoots, whole, divides]
  · rcases Int.lt_or_gt_of_ne nonzero with negative | positive
    · rw [Int.sign_eq_neg_one_of_neg negative]
      have nowhere : ¬0 ≤ b := Int.not_le.mpr negative
      by_cases below : a < 0
      · simp [Overshoots, whole, above, divides, negative, nowhere, below, Int.sub_eq_add_neg]
      · simp [Overshoots, whole, above, divides, negative, nowhere, below]
    · rw [Int.sign_eq_one_of_pos positive]
      have bounds : 0 ≤ b ∧ ¬b < 0 := ⟨Int.le_of_lt positive, Int.lt_asymm positive⟩
      by_cases below : a < 0 <;> simp [Overshoots, whole, above, divides, bounds, below]

theorem tmod_lt_zero_iff {a b : Int} (rest : a.tmod b ≠ 0) : a.tmod b < 0 ↔ a < 0 := by
  rcases Int.lt_or_le a 0 with below | above
  · have negated := Int.tmod_nonneg b (Int.neg_nonneg_of_nonpos (Int.le_of_lt below))
    rw [Int.neg_tmod] at negated
    omega
  · have same := Int.tmod_nonneg b above
    omega

theorem fmod_eq (a : Int) {b : Int} (nonzero : b ≠ 0) :
    a.fmod b = if Overshoots a b then a.tmod b + b else a.tmod b := by
  rw [Int.fmod_def, Int.tmod_def, fdiv_eq a nonzero]
  split
  · rw [Int.mul_sub, Int.mul_one]
    omega
  · rfl

theorem natAbs_tmod_lt (a : Int) {b : Int} (nonzero : b ≠ 0) :
    (a.tmod b).natAbs < b.natAbs := by
  rw [Int.natAbs_tmod]
  exact Nat.mod_lt _ (Int.natAbs_pos.mpr nonzero)

/-- The sign that the correction of a remainder looks at is that of the remainder itself. -/
theorem overshoots_iff {a b : Int} :
    Overshoots a b ↔ a.tmod b ≠ 0 ∧ ¬(a.tmod b < 0 ↔ b < 0) := by
  refine and_congr_right fun rest => ?_
  rw [tmod_lt_zero_iff rest]

theorem fits_iff {n : Int} : Fits n ↔ -9223372036854775808 ≤ n ∧ n ≤ 9223372036854775807 :=
  Iff.rfl

section
variable (a : Int64) {b : Int64}

theorem fits_tmod (nonzero : b.toInt ≠ 0) : Fits (a.toInt.tmod b.toInt) := by
  have smaller := natAbs_tmod_lt a.toInt nonzero
  have bounds := fits_iff.mp (fits_toInt b)
  rw [fits_iff]
  omega

/-- A quotient that overshoots is half of the dividend at most. -/
theorem natAbs_tdiv_le (nonzero : b.toInt ≠ 0) (past : Overshoots a.toInt b.toInt) :
    (a.toInt.tdiv b.toInt).natAbs ≤ a.toInt.natAbs / 2 := by
  have large : 2 ≤ b.toInt.natAbs := by
    have rest := past.1
    have smaller := natAbs_tmod_lt a.toInt nonzero
    omega
  rw [Int.natAbs_tdiv]
  exact Nat.div_le_div_left large (by decide)

theorem fits_lowered (nonzero : b.toInt ≠ 0) (past : Overshoots a.toInt b.toInt) :
    Fits (a.toInt.tdiv b.toInt) ∧ Fits (a.toInt.tdiv b.toInt - 1) := by
  have half := natAbs_tdiv_le a nonzero past
  have bounds := fits_iff.mp (fits_toInt a)
  rw [fits_iff, fits_iff]
  omega

theorem fits_raised (nonzero : b.toInt ≠ 0) (past : Overshoots a.toInt b.toInt) :
    Fits (a.toInt.tmod b.toInt + b.toInt) := by
  have smaller := natAbs_tmod_lt a.toInt nonzero
  have bounds := fits_iff.mp (fits_toInt b)
  obtain ⟨rest, apart⟩ := overshoots_iff.mp past
  rw [fits_iff]
  omega

theorem fits_fmod (nonzero : b.toInt ≠ 0) : Fits (a.toInt.fmod b.toInt) := by
  rw [fmod_eq a.toInt nonzero]
  split
  next past => exact fits_raised a nonzero past
  next => exact fits_tmod a nonzero

theorem floorDiv?_isSome_iff (nonzero : b.toInt ≠ 0) :
    (floorDiv? a b).isSome ↔ Fits (a.toInt.tdiv b.toInt) := by
  rw [floorDiv?, fit?_isSome_iff, fdiv_eq a.toInt nonzero]
  split
  next past =>
    obtain ⟨fits, lowered⟩ := fits_lowered a nonzero past
    exact iff_of_true lowered fits
  next => exact Iff.rfl

theorem floorMod?_isSome_iff (nonzero : b.toInt ≠ 0) :
    (floorMod? a b).isSome ↔ Fits (a.toInt.tdiv b.toInt) := by
  rw [← floorDiv?_isSome_iff a nonzero, floorMod?]
  cases floorDiv? a b with
  | none => exact Iff.rfl
  | some quotient => exact iff_of_true (fit?_isSome_iff.mpr (fits_fmod a nonzero)) rfl

end

/-- Where the first quotient is a word, so is all that is computed from it; where it is none, there
is no result. -/
structure Divides (a b : Int64) : Prop where
  quotient : (floorDiv? a b).isSome ↔ Fits (a.toInt.tdiv b.toInt)
  remainder : (floorMod? a b).isSome ↔ Fits (a.toInt.tdiv b.toInt)
  fits : Fits (a.toInt.tmod b.toInt)
  lowered : Overshoots a.toInt b.toInt → Fits (a.toInt.tdiv b.toInt - 1)
  raised : Overshoots a.toInt b.toInt → Fits (a.toInt.tmod b.toInt + b.toInt)

theorem divides (a : Int64) {b : Int64} (nonzero : b ≠ 0) : Divides a b := by
  have nonzero : b.toInt ≠ 0 := fun zero => nonzero (Int64.toInt_inj.mp zero)
  exact ⟨floorDiv?_isSome_iff a nonzero, floorMod?_isSome_iff a nonzero, fits_tmod a nonzero,
    fun past => (fits_lowered a nonzero past).2, fits_raised a nonzero⟩

end Interpose.Integer
