import Interpose.Proofs.Exactness
import Interpose.Proofs.Rounding

/-! Equality and order of values agree. Two numbers meet as integers or as floating point numbers,
two strings as strings, and no other pair has an order. Wherever there is an order, the ordering
found decides all six comparisons in both directions; where one side is NaN, none is found. -/

namespace Interpose

/-- The order of two floating point numbers; none when one of them is NaN. -/
def Binary64.order? (x y : Binary64) : Option Ordering :=
  match x.place?, y.place? with
  | some p, some q => some (compare p q)
  | _, _ => none

namespace Binary64

theorem place?_eq_none_iff (x : Binary64) : x.place? = none ↔ x.isNaN = true := by
  unfold place?
  split
  next nan => exact iff_of_true rfl nan
  next number => exact iff_of_false nofun number

theorem isNaN_ofInt (n : Int) : (ofInt n).isNaN = false := by
  rw [Bool.eq_false_iff, ne_eq, ← place?_eq_none_iff, place?_ofInt]
  exact nofun

theorem order?_swap (x y : Binary64) : y.order? x = (x.order? y).map .swap := by
  unfold order?
  cases x.place? <;> cases y.place?
  case some.some p q => exact congrArg some Std.OrientedOrd.eq_swap
  all_goals rfl

theorem order?_eq_none_iff (x y : Binary64) :
    x.order? y = none ↔ x.isNaN = true ∨ y.isNaN = true := by
  rw [← place?_eq_none_iff, ← place?_eq_none_iff]
  unfold order?
  cases x.place? <;> cases y.place? <;> simp

/-- Numbers with an order are equal when they have the same place. -/
theorem beq_place? (x y : Binary64) :
    (x.place?.isSome && x.place? == y.place?) = (x.order? y == some .eq) := by
  unfold order?
  cases x.place? with
  | none => rfl
  | some p =>
    cases y.place? with
    | none => rfl
    | some q =>
      rw [Bool.eq_iff_iff]
      simp

end Binary64

namespace Value

def isNumber : Value → Bool
  | .int _ => true
  | .float _ => true
  | _ => false

def isNaN : Value → Bool
  | .float x => x.isNaN
  | _ => false

inductive Ordered : Value → Value → Prop
  | numbers {left right} (first : left.isNumber = true) (second : right.isNumber = true) :
      Ordered left right
  | strings (s t : String) : Ordered (.str s) (.str t)

theorem toBinary64?_isSome (value : Value) : value.toBinary64?.isSome = value.isNumber := by
  cases value <;> rfl

theorem isNumber_iff {value : Value} :
    value.isNumber = true ↔ ∃ x, value.toBinary64? = some x := by
  rw [← toBinary64?_isSome, Option.isSome_iff_exists]

theorem isNaN_of_toBinary64? {value : Value} {x : Binary64}
    (number : value.toBinary64? = some x) : value.isNaN = x.isNaN := by
  cases value with
  | int n =>
    cases number
    exact (Binary64.isNaN_ofInt n.toInt).symm
  | float y =>
    cases number
    rfl
  | _ => cases number

/-- What is found of two values that have an order, and of the same two the other way round. -/
structure Finds (left right : Value) (found : Option Ordering) : Prop where
  order : left.ordering? right = some found
  mirrored : right.ordering? left = some (found.map .swap)
  equal : left.equals right = (found == some .eq)
  nan : found = none ↔ left.isNaN = true ∨ right.isNaN = true

variable {left right : Value}

private theorem finds_integers (a b : Int64) :
    Finds (.int a) (.int b) (some (compare a.toInt b.toInt)) where
  order := rfl
  mirrored := congrArg (fun ordering => some (some ordering)) Std.OrientedOrd.eq_swap
  equal := by
    rw [Bool.eq_iff_iff]
    simp [equals, Int64.toInt_inj]
  nan := by simp [isNaN]

private theorem finds_strings (s t : String) :
    Finds (.str s) (.str t) (some (compare s t)) where
  order := rfl
  mirrored := congrArg (fun ordering => some (some ordering)) Std.OrientedOrd.eq_swap
  equal := by
    rw [Bool.eq_iff_iff]
    simp [equals]
  nan := by simp [isNaN]

/-- Two numbers that are not both integers are ordered as floating point numbers. -/
theorem ordering?_floats {x y : Binary64} (first : left.toBinary64? = some x)
    (second : right.toBinary64? = some y)
    (mixed : ¬∃ a b, left = .int a ∧ right = .int b) :
    left.ordering? right = some (x.order? y) := by
  unfold ordering?
  split
  next a b => exact absurd ⟨a, b, rfl, rfl⟩ mixed
  next => cases first
  next =>
    simp only [first, second]
    unfold Binary64.order?
    cases x.place? <;> cases y.place? <;> rfl

private theorem equals_floats {x y : Binary64} (first : left.toBinary64? = some x)
    (second : right.toBinary64? = some y)
    (mixed : ¬∃ a b, left = .int a ∧ right = .int b) :
    left.equals right = (x.order? y == some .eq) := by
  rw [← Binary64.beq_place?]
  cases left with
  | int a =>
    cases first
    cases right with
    | int b => exact absurd ⟨a, b, rfl, rfl⟩ mixed
    | float y =>
      cases second
      rw [Binary64.place?_ofInt, Option.isSome_some, Bool.true_and, ← Binary64.place?_ofInt]
      rfl
    | _ => cases second
  | float x =>
    cases first
    cases right with
    | int b =>
      cases second
      have number : (Binary64.ofInt b.toInt).place?.isSome = true := by
        rw [Binary64.place?_ofInt]
        rfl
      cases placed : x.place? with
      | none => simp [equals, placed, Binary64.place?_ofInt]
      | some p => simp [equals, placed]
    | float y =>
      cases second
      rfl
    | _ => cases second
  | _ => cases first

private theorem finds_floats {x y : Binary64} (first : left.toBinary64? = some x)
    (second : right.toBinary64? = some y)
    (mixed : ¬∃ a b, left = .int a ∧ right = .int b) : Finds left right (x.order? y) where
  order := ordering?_floats first second mixed
  mirrored := by
    rw [← Binary64.order?_swap]
    exact ordering?_floats second first fun ⟨b, a, same, other⟩ => mixed ⟨a, b, other, same⟩
  equal := equals_floats first second mixed
  nan := by
    rw [isNaN_of_toBinary64? first, isNaN_of_toBinary64? second, Binary64.order?_eq_none_iff]

/-- Values that have an order are found in some order, unless one of them is NaN. -/
theorem exists_finds (ordered : left.Ordered right) : ∃ found, Finds left right found := by
  cases ordered with
  | strings s t => exact ⟨_, finds_strings s t⟩
  | numbers first second =>
    by_cases whole : ∃ a b, left = .int a ∧ right = .int b
    · obtain ⟨a, b, rfl, rfl⟩ := whole
      exact ⟨_, finds_integers a b⟩
    · obtain ⟨x, first⟩ := isNumber_iff.mp first
      obtain ⟨y, second⟩ := isNumber_iff.mp second
      exact ⟨_, finds_floats first second whole⟩

theorem ordering?_of_unordered (unordered : ¬left.Ordered right) : left.ordering? right = none := by
  unfold ordering?
  split
  next a b => exact absurd (.numbers rfl rfl) unordered
  next s t => exact absurd (.strings s t) unordered
  next =>
    split
    next first second =>
      exact absurd (.numbers (isNumber_iff.mpr ⟨_, first⟩) (isNumber_iff.mpr ⟨_, second⟩)) unordered
    next => rfl

theorem equals_comm (left right : Value) : left.equals right = right.equals left := by
  by_cases ordered : left.Ordered right
  · obtain ⟨found, finds⟩ := exists_finds ordered
    have back : right.Ordered left := by
      cases ordered with
      | numbers first second => exact .numbers second first
      | strings s t => exact .strings t s
    obtain ⟨other, mirror⟩ := exists_finds back
    have swapped : other = found.map .swap :=
      Option.some.inj (mirror.order.symm.trans finds.mirrored)
    rw [finds.equal, mirror.equal, swapped]
    rcases found with _ | ordering
    · rfl
    · cases ordering <;> rfl
  · cases left <;> cases right
    case bool.bool | code.code | function.function | native.native | cell.cell => exact BEq.comm
    case int.int | int.float | float.int | float.float => exact absurd (.numbers rfl rfl) ordered
    case str.str s t => exact absurd (.strings s t) ordered
    all_goals rfl

end Value

namespace Comparison
variable {left right : Value} {comparison : Comparison}

def orders : List Comparison := [.lt, .le, .gt, .ge]

theorem apply_eq_of_orders (member : comparison ∈ orders) :
    comparison.apply left right =
      match left.ordering? right with
      | some found => .ok (found.any comparison.holds)
      | none => .error (.unorderedOperands comparison left.kind right.kind) := by
  cases comparison with
  | eq | ne => simp [orders] at member
  | lt | le | gt | ge =>
    simp only [apply]
    rcases left.ordering? right with _ | _ | ordering <;> rfl

theorem apply_of_finds {found : Option Ordering} (finds : left.Finds right found)
    (member : comparison ∈ orders) :
    comparison.apply left right = .ok (found.any comparison.holds) := by
  rw [apply_eq_of_orders member, finds.order]

theorem apply_mirrored {found : Option Ordering} (finds : left.Finds right found)
    (member : comparison ∈ orders) :
    comparison.apply right left = .ok ((found.map .swap).any comparison.holds) := by
  rw [apply_eq_of_orders member, finds.mirrored]

theorem apply_of_unordered (unordered : ¬left.Ordered right) (member : comparison ∈ orders) :
    comparison.apply left right =
      .error (.unorderedOperands comparison left.kind right.kind) := by
  rw [apply_eq_of_orders member, Value.ordering?_of_unordered unordered]

theorem says_unorderedOperands (comparison : Comparison) (left right : Kind) :
    (Fault.unorderedOperands comparison left right).Says "TypeError" := by
  intro heap
  refine ⟨"'" ++ comparison.text ++ "' not supported between '" ++ left.name ++ "' and '" ++
    right.name ++ "'", ?_⟩
  simp only [Fault.message?, ← String.append_assoc]
  rfl

end Comparison

structure ComparesConsistently (left right : Value) : Prop where
  negated : ∃ equal, Comparison.eq.apply left right = .ok equal ∧
    Comparison.ne.apply left right = .ok !equal
  symmetric : Comparison.eq.apply right left = Comparison.eq.apply left right
  refused : ∀ comparison ∈ Comparison.orders,
    ((∃ fault, comparison.apply left right = .error fault) ↔ ¬left.Ordered right) ∧
    ∀ fault, comparison.apply left right = .error fault → fault.Says "TypeError"
  mirrored : left.Ordered right →
    Comparison.lt.apply left right = Comparison.gt.apply right left ∧
    Comparison.le.apply left right = Comparison.ge.apply right left
  /-- Of two values that are not NaN, one is less, or both are equal, or one is greater. -/
  decided : left.Ordered right → left.isNaN = false → right.isNaN = false →
    ∃ less equal greater, Comparison.lt.apply left right = .ok less ∧
      Comparison.eq.apply left right = .ok equal ∧
      Comparison.gt.apply left right = .ok greater ∧
      [less, equal, greater].count true = 1 ∧
      Comparison.le.apply left right = .ok (less || equal) ∧
      Comparison.ge.apply left right = .ok (greater || equal)
  nan : left.Ordered right → left.isNaN = true ∨ right.isNaN = true →
    Comparison.eq.apply left right = .ok false ∧ Comparison.ne.apply left right = .ok true ∧
    ∀ comparison ∈ Comparison.orders, comparison.apply left right = .ok false

/-- All comparisons of two values go by the one ordering that is found of them. -/
theorem compares_consistently (left right : Value) : ComparesConsistently left right := by
  constructor
  case negated => exact ⟨left.equals right, rfl, rfl⟩
  case symmetric => exact congrArg Except.ok (right.equals_comm left)
  case refused =>
    intro comparison member
    by_cases ordered : left.Ordered right
    · obtain ⟨found, finds⟩ := Value.exists_finds ordered
      have succeeds (fault : Fault) : comparison.apply left right ≠ .error fault := by
        rw [Comparison.apply_of_finds finds member]
        simp
      refine ⟨iff_of_false ?_ (not_not_intro ordered), fun fault failed => ?_⟩
      · exact fun ⟨fault, failed⟩ => succeeds fault failed
      · exact absurd failed (succeeds fault)
    · rw [Comparison.apply_of_unordered ordered member]
      refine ⟨iff_of_true ⟨_, rfl⟩ ordered, ?_⟩
      rintro fault ⟨⟩
      exact Comparison.says_unorderedOperands comparison left.kind right.kind
  case mirrored =>
    intro ordered
    obtain ⟨found, finds⟩ := Value.exists_finds ordered
    rw [Comparison.apply_of_finds finds (by decide), Comparison.apply_of_finds finds (by decide),
      Comparison.apply_mirrored finds (by decide), Comparison.apply_mirrored finds (by decide)]
    rcases found with _ | ordering
    · exact ⟨rfl, rfl⟩
    · cases ordering <;> exact ⟨rfl, rfl⟩
  case decided =>
    intro ordered first second
    obtain ⟨found, finds⟩ := Value.exists_finds ordered
    obtain ⟨ordering, rfl⟩ : ∃ ordering, found = some ordering := by
      rw [← Option.ne_none_iff_exists', ne_eq, finds.nan, first, second]
      simp
    refine ⟨_, _, _, Comparison.apply_of_finds finds (by decide), congrArg Except.ok finds.equal,
      Comparison.apply_of_finds finds (by decide), ?_⟩
    rw [Comparison.apply_of_finds finds (by decide), Comparison.apply_of_finds finds (by decide)]
    cases ordering <;> exact ⟨rfl, rfl, rfl⟩
  case nan =>
    intro ordered unordered
    obtain ⟨found, finds⟩ := Value.exists_finds ordered
    obtain rfl := finds.nan.mpr unordered
    refine ⟨congrArg Except.ok finds.equal, congrArg (fun equal => Except.ok !equal) finds.equal,
      ?_⟩
    intro comparison member
    exact Comparison.apply_of_finds finds member

end Interpose
