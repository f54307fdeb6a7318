import Interpose.Proofs.Exactness

/-! Strings in a row. The limit is on bytes and is asked of the exact product, which words give as
well because they notice a product that has no word. Lengths are counted in characters, of which a
string has no more than bytes, so below the limit no length leaves the range of words. -/

namespace Interpose

def copies (s : String) (count : Nat) : String := String.join (List.replicate count s)

section
variable (s : String)

theorem copies_zero : copies s 0 = "" := String.join_nil

theorem copies_succ (count : Nat) : copies s (count + 1) = copies s count ++ s := by
  rw [copies, copies, List.replicate_succ', String.join_append, String.join_cons, String.join_nil,
    String.append_empty]

theorem copies_add (first second : Nat) :
    copies s (first + second) = copies s first ++ copies s second := by
  rw [copies, List.replicate_add, String.join_append]
  rfl

theorem repeat_eq_copies (count : Nat) : Nat.repeat (· ++ s) count "" = copies s count := by
  induction count with
  | zero => exact (copies_zero s).symm
  | succ count ih => rw [Nat.repeat, ih, copies_succ]

theorem length_copies (count : Nat) : (copies s count).length = s.length * count := by
  induction count with
  | zero => rw [copies_zero, String.length_empty, Nat.mul_zero]
  | succ count ih => rw [copies_succ, String.length_append, ih, Nat.mul_succ]

theorem utf8ByteSize_copies (count : Nat) :
    (copies s count).utf8ByteSize = s.utf8ByteSize * count := by
  induction count with
  | zero => rw [copies_zero, String.utf8ByteSize_empty, Nat.mul_zero]
  | succ count ih => rw [copies_succ, String.utf8ByteSize_append, ih, Nat.mul_succ]

/-- Every character takes a byte at least. -/
theorem length_le_utf8ByteSize : s.length ≤ s.utf8ByteSize := by
  induction s using String.push_induction with
  | empty => exact Nat.zero_le _
  | push s c ih =>
    rw [String.length_push, String.utf8ByteSize_push]
    exact Nat.add_le_add ih c.utf8Size_pos

/-- A string is repeated up to the limit, also where nothing is repeated. -/
theorem repeatString_eq (count : Int64) :
    repeatString s count =
      if s.utf8ByteSize * count.toInt.toNat ≤ longestRepetition then
        .ok (copies s count.toInt.toNat)
      else .error (.repeatedTooLong s.utf8ByteSize count) := by
  simp only [repeatString, repeat_eq_copies]
  split
  next zero =>
    have empty : copies s count.toInt.toNat = "" := by
      rw [← String.utf8ByteSize_eq_zero_iff, utf8ByteSize_copies, zero]
    rw [zero, if_pos (Nat.zero_le _), empty]
  next => rfl

end

namespace Integer

/-- The product of two words by words alone: a division tells whether it has a word. -/
def wordProduct? (a b : UInt64) : Option UInt64 :=
  if b = 0 then some 0 else if a ≤ UInt64.ofNat (UInt64.size - 1) / b then some (a * b) else none

theorem wordProduct?_eq_some_iff (a b c : UInt64) :
    wordProduct? a b = some c ↔ a.toNat * b.toNat = c.toNat := by
  unfold wordProduct?
  split
  next zero => rw [zero, Option.some.injEq, ← UInt64.toNat_inj, UInt64.toNat_zero, Nat.mul_zero]
  next nonzero =>
    have positive : 0 < b.toNat := Nat.pos_of_ne_zero fun zero => nonzero (UInt64.toNat_inj.mp zero)
    have room : a ≤ UInt64.ofNat (UInt64.size - 1) / b ↔ a.toNat * b.toNat < UInt64.size := by
      rw [UInt64.le_iff_toNat_le, UInt64.toNat_div, UInt64.toNat_ofNat_of_lt' (by decide),
        Nat.le_div_iff_mul_le positive, Nat.le_sub_one_iff_lt (by decide)]
    split
    next fits =>
      rw [Option.some.injEq, ← UInt64.toNat_inj, UInt64.toNat_mul, Nat.mod_eq_of_lt (room.mp fits)]
    next large =>
      refine iff_of_false nofun fun same => large (room.mpr ?_)
      rw [same]
      exact c.toNat_lt

theorem toNat_toUInt64 {n : Int64} (above : 0 ≤ n.toInt) : n.toUInt64.toNat = n.toInt.toNat := by
  have unsigned : n.toBitVec.msb = false := by
    rw [BitVec.msb_eq_toInt, Int64.toInt_toBitVec]
    exact decide_eq_false (Int.not_lt.mpr above)
  rw [← UInt64.toNat_toBitVec, Int64.toBitVec_toUInt64, ← BitVec.toNat_toInt_of_msb _ unsigned,
    Int64.toInt_toBitVec]

end Integer

/-- The repetition by words: a product without a word is too long, whatever it would wrap to. -/
def steppedRepeat (s : String) (count : Int64) : Except Fault String :=
  let times := if count < 0 then 0 else count.toUInt64
  match Integer.wordProduct? s.utf8ByteSize.toUInt64 times with
  | some bytes =>
    if bytes = 0 then .ok ""
    else if bytes ≤ UInt64.ofNat longestRepetition then .ok (Nat.repeat (· ++ s) times.toNat "")
    else .error (.repeatedTooLong s.utf8ByteSize count)
  | none => .error (.repeatedTooLong s.utf8ByteSize count)

theorem repeatString_eq_stepped {s : String} (fits : s.utf8ByteSize < UInt64.size)
    (count : Int64) : repeatString s count = steppedRepeat s count := by
  have times : (if count < 0 then 0 else count.toUInt64).toNat = count.toInt.toNat := by
    split
    next below =>
      have below := Int64.lt_iff_toInt_lt.mp below
      exact (Int.toNat_of_nonpos (Int.le_of_lt below)).symm
    next above =>
      rw [Int64.lt_iff_toInt_lt] at above
      exact Integer.toNat_toUInt64 (Int.not_lt.mp above)
  have size : s.utf8ByteSize.toUInt64.toNat = s.utf8ByteSize := UInt64.toNat_ofNat_of_lt' fits
  have product (bytes : UInt64) := Integer.wordProduct?_eq_some_iff s.utf8ByteSize.toUInt64
    (if count < 0 then 0 else count.toUInt64) bytes
  rw [times, size] at product
  simp only [steppedRepeat, times]
  split
  next bytes found =>
    have same := (product bytes).mp found
    have zero : bytes = 0 ↔ s.utf8ByteSize * count.toInt.toNat = 0 := by
      rw [same, ← UInt64.toNat_inj, UInt64.toNat_zero]
    have short : bytes ≤ UInt64.ofNat longestRepetition ↔
        s.utf8ByteSize * count.toInt.toNat ≤ longestRepetition := by
      rw [same, UInt64.le_iff_toNat_le, UInt64.toNat_ofNat_of_lt' (by decide)]
    simp only [repeatString, zero, short]
  next missing =>
    have large : UInt64.size ≤ s.utf8ByteSize * count.toInt.toNat := by
      by_contra below
      have word := UInt64.toNat_ofNat_of_lt' (Nat.not_le.mp below)
      rw [(product _).mpr word.symm] at missing
      cases missing
    rw [repeatString_eq, if_neg]
    exact Nat.not_le.mpr (Nat.lt_of_lt_of_le (by decide) large)

structure RepeatsExactly (s : String) (count : Int64) : Prop where
  commutes : BinaryOperator.mul.apply (.int count) (.str s) =
    BinaryOperator.mul.apply (.str s) (.int count)
  empty : s = "" ∨ count.toInt ≤ 0 →
    BinaryOperator.mul.apply (.str s) (.int count) = .ok (.str "")
  repeated : ¬(s = "" ∨ count.toInt ≤ 0) → s.utf8ByteSize * count.toInt ≤ 2 ^ 30 →
    BinaryOperator.mul.apply (.str s) (.int count) = .ok (.str (copies s count.toInt.toNat))
  refused : ¬(s = "" ∨ count.toInt ≤ 0) → ¬s.utf8ByteSize * count.toInt ≤ 2 ^ 30 →
    ∃ fault, BinaryOperator.mul.apply (.str s) (.int count) = .error fault ∧
      fault.Says "OverflowError"
  /-- A string whose size is a word is repeated by words alike. -/
  stepped : s.utf8ByteSize < UInt64.size → repeatString s count = steppedRepeat s count
  length : ∀ result, BinaryOperator.mul.apply (.str s) (.int count) = .ok result →
    ∃ whole part : Int64, Builtin.len [result] = .ok (.int whole) ∧
      Builtin.len [.str s] = .ok (.int part) ∧ whole.toInt = part.toInt * max count.toInt 0
  distributes : ∀ more total : Int64, 0 ≤ count.toInt → 0 ≤ more.toInt →
    BinaryOperator.add.apply (.int count) (.int more) = .ok (.int total) →
    ∀ result, BinaryOperator.mul.apply (.str s) (.int total) = .ok result →
    ∃ first second, BinaryOperator.mul.apply (.str s) (.int count) = .ok first ∧
      BinaryOperator.mul.apply (.str s) (.int more) = .ok second ∧
      BinaryOperator.add.apply first second = .ok result
  /-- The sum of lengths is exact for strings whose joined size does not pass the largest integer,
  which no string in memory does. -/
  joined : ∀ t, ∃ (result : Value) (first second whole : Int64),
    BinaryOperator.add.apply (.str s) (.str t) = .ok result ∧
    Builtin.len [.str s] = .ok (.int first) ∧ Builtin.len [.str t] = .ok (.int second) ∧
    Builtin.len [result] = .ok (.int whole) ∧ whole = first + second ∧
    (Integer.Fits (s ++ t).utf8ByteSize →
      BinaryOperator.add.apply (.int first) (.int second) = .ok (.int whole))

theorem apply_mul_str (s : String) (count : Int64) :
    BinaryOperator.mul.apply (.str s) (.int count) =
      if s.utf8ByteSize * count.toInt.toNat ≤ longestRepetition then
        .ok (.str (copies s count.toInt.toNat))
      else .error (.repeatedTooLong s.utf8ByteSize count) := by
  have applied : BinaryOperator.mul.apply (.str s) (.int count) =
      (repeatString s count).map .str := rfl
  rw [applied, repeatString_eq]
  split <;> rfl

theorem apply_mul_eq_ok_iff {s : String} {count : Int64} {result : Value} :
    BinaryOperator.mul.apply (.str s) (.int count) = .ok result ↔
      s.utf8ByteSize * count.toInt.toNat ≤ longestRepetition ∧
        result = .str (copies s count.toInt.toNat) := by
  rw [apply_mul_str]
  split <;> simp_all [eq_comm]

/-- For a positive count the limit is asked of the product of integers. -/
theorem short_iff (s : String) {count : Int64} (above : 0 ≤ count.toInt) :
    s.utf8ByteSize * count.toInt ≤ 2 ^ 30 ↔
      s.utf8ByteSize * count.toInt.toNat ≤ longestRepetition := by
  rw [← Int.ofNat_le, Int.natCast_mul, Int.toNat_of_nonneg above]
  rfl

theorem says_repeatedTooLong (bytes : Nat) (count : Int64) :
    (Fault.repeatedTooLong bytes count).Says "OverflowError" := by
  intro heap
  refine ⟨"repeated string is too long (" ++ Decimal.ofNat bytes ++ " * " ++
    Decimal.ofInt count.toInt ++ ")", ?_⟩
  simp only [Fault.message?, ← String.append_assoc]
  rfl

/-- A length is a word where the size is one. -/
theorem toInt_length {s : String} (fits : Integer.Fits s.utf8ByteSize) :
    (Int64.ofNat s.length).toInt = s.length := by
  apply Int64.toInt_ofNat_of_lt
  have fewer := length_le_utf8ByteSize s
  rw [Integer.fits_iff] at fits
  omega

theorem fits_of_le_longestRepetition {size : Nat} (short : size ≤ longestRepetition) :
    Integer.Fits size := by
  rw [longestRepetition] at short
  rw [Integer.fits_iff]
  omega

/-- The length of a repetition below the limit. One copy at least keeps the string below it too. -/
theorem toInt_length_copies {s : String} {count : Nat}
    (short : s.utf8ByteSize * count ≤ longestRepetition) :
    (Int64.ofNat (copies s count).length).toInt = (Int64.ofNat s.length).toInt * count := by
  have fits : Integer.Fits (copies s count).utf8ByteSize := by
    rw [utf8ByteSize_copies]
    exact fits_of_le_longestRepetition short
  rw [toInt_length fits, length_copies]
  cases count with
  | zero => simp
  | succ count =>
    have part : s.utf8ByteSize ≤ longestRepetition :=
      Nat.le_trans (Nat.le_mul_of_pos_right _ count.succ_pos) short
    rw [toInt_length (fits_of_le_longestRepetition part), Int.natCast_mul]

theorem toInt_of_added {first second total : Int64}
    (added : BinaryOperator.add.apply (.int first) (.int second) = .ok (.int total)) :
    total.toInt = first.toInt + second.toInt := by
  have exactly : Exactly (first.toInt + second.toInt) (.integerOverflow .add)
      (BinaryOperator.add.apply (.int first) (.int second)) := Exactly.of_checked .add _
  rw [added] at exactly
  cases exactly with
  | fits same => exact same

/-- Repetition is exact below its limit and fails above it, and lengths add and multiply. -/
theorem repeats_exactly (s : String) (count : Int64) : RepeatsExactly s count := by
  constructor
  case commutes => rfl
  case empty =>
    intro nothing
    have zero : s.utf8ByteSize * count.toInt.toNat = 0 := by
      obtain rfl | below := nothing
      · rw [String.utf8ByteSize_empty, Nat.zero_mul]
      · rw [Int.toNat_of_nonpos below, Nat.mul_zero]
    have empty : copies s count.toInt.toNat = "" := by
      rw [← String.utf8ByteSize_eq_zero_iff, utf8ByteSize_copies, zero]
    exact apply_mul_eq_ok_iff.mpr ⟨zero ▸ Nat.zero_le _, by rw [empty]⟩
  case repeated =>
    intro something short
    have above := Int.not_le.mp (not_or.mp something).2
    exact apply_mul_eq_ok_iff.mpr ⟨(short_iff s (Int.le_of_lt above)).mp short, rfl⟩
  case refused =>
    intro something long
    have above := Int.not_le.mp (not_or.mp something).2
    rw [short_iff s (Int.le_of_lt above)] at long
    exact ⟨_, by rw [apply_mul_str, if_neg long], says_repeatedTooLong _ _⟩
  case stepped => exact fun fits => repeatString_eq_stepped fits count
  case length =>
    intro result applied
    obtain ⟨short, rfl⟩ := apply_mul_eq_ok_iff.mp applied
    refine ⟨_, _, rfl, rfl, ?_⟩
    rw [toInt_length_copies short, Int.toNat_eq_max]
  case distributes =>
    intro more total above above' added result applied
    obtain ⟨short, rfl⟩ := apply_mul_eq_ok_iff.mp applied
    have sum : total.toInt = count.toInt + more.toInt := toInt_of_added added
    have times : total.toInt.toNat = count.toInt.toNat + more.toInt.toNat := by
      rw [sum, Int.toNat_add above above']
    rw [times, Nat.mul_add] at short
    have first := Nat.le_trans (Nat.le_add_right _ _) short
    have second := Nat.le_trans (Nat.le_add_left _ _) short
    refine ⟨_, _, apply_mul_eq_ok_iff.mpr ⟨first, rfl⟩, apply_mul_eq_ok_iff.mpr ⟨second, rfl⟩, ?_⟩
    rw [times, copies_add]
    rfl
  case joined =>
    intro t
    refine ⟨_, _, _, _, rfl, rfl, rfl, rfl, by rw [String.length_append, Int64.ofNat_add], ?_⟩
    intro fits
    have first : Integer.Fits s.utf8ByteSize := by
      rw [String.utf8ByteSize_append, Integer.fits_iff] at *
      omega
    have second : Integer.Fits t.utf8ByteSize := by
      rw [String.utf8ByteSize_append, Integer.fits_iff] at *
      omega
    have sum : (Int64.ofNat (s ++ t).length).toInt =
        (Int64.ofNat s.length).toInt + (Int64.ofNat t.length).toInt := by
      rw [toInt_length fits, toInt_length first, toInt_length second, String.length_append,
        Int.natCast_add]
    exact congrArg BinaryOperator.add.checked (Integer.fit?_of_toInt sum)

end Interpose
