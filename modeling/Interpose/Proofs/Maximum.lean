import Interpose.Proofs.Comparisons

/-! The maximum by the order of the language. Among numbers to be greater is transitive, although
two integers are compared exactly and an integer with a floating point number is compared after it
was rounded: rounding keeps the order. So what was passed over stays beaten when the best changes,
and in the end nothing is greater than what is returned. -/

namespace Interpose

namespace Value
variable {left middle right : Value}

/-- One value is greater than another by the comparison of the language. -/
def Exceeds (left right : Value) : Prop := Comparison.gt.apply left right = .ok true

/-- Where a number stands among the floating point numbers, an integer once it was rounded. -/
def standing? : Value → Option Int
  | .int n => some (Binary64.wholePlace n.toInt)
  | .float x => x.place?
  | _ => none

theorem standing?_of_toBinary64? {value : Value} {x : Binary64}
    (number : value.toBinary64? = some x) : value.standing? = x.place? := by
  cases value with
  | int n =>
    cases number
    exact (Binary64.place?_ofInt n.toInt).symm
  | float y =>
    cases number
    rfl
  | _ => cases number

theorem apply_gt_integers (a b : Int64) :
    Comparison.gt.apply (.int a) (.int b) = .ok (decide (b.toInt < a.toInt)) := by
  refine (Comparison.apply_eq_of_orders (by decide)).trans (congrArg Except.ok ?_)
  rw [Bool.eq_iff_iff, decide_eq_true_iff]
  simp only [Option.any_some, Comparison.holds, Ordering.isGT_iff_eq_gt]
  exact compare_gt_iff_gt

/-- Two numbers that are not both integers are compared where they stand. -/
theorem apply_gt_floats {x y : Binary64} (first : left.toBinary64? = some x)
    (second : right.toBinary64? = some y) (mixed : ¬∃ a b, left = .int a ∧ right = .int b) :
    Comparison.gt.apply left right = .ok ((x.order? y).any Ordering.isGT) := by
  rw [Comparison.apply_eq_of_orders (by decide), ordering?_floats first second mixed]
  rfl

theorem exceeds_integers_iff (a b : Int64) : Exceeds (.int a) (.int b) ↔ b.toInt < a.toInt := by
  rw [Exceeds, apply_gt_integers, Except.ok.injEq, decide_eq_true_iff]

theorem exceeds_floats_iff (first : left.isNumber = true) (second : right.isNumber = true)
    (mixed : ¬∃ a b, left = .int a ∧ right = .int b) :
    Exceeds left right ↔
      ∃ p q, left.standing? = some p ∧ right.standing? = some q ∧ q < p := by
  obtain ⟨x, first⟩ := isNumber_iff.mp first
  obtain ⟨y, second⟩ := isNumber_iff.mp second
  rw [Exceeds, apply_gt_floats first second mixed, standing?_of_toBinary64? first,
    standing?_of_toBinary64? second, Except.ok.injEq]
  unfold Binary64.order?
  cases x.place? <;> cases y.place? <;> simp [Ordering.isGT_iff_eq_gt, compare_gt_iff_gt]

theorem Exceeds.numbers (greater : Exceeds left right) (number : right.isNumber = true) :
    left.isNumber = true := by
  by_contra other
  have unordered : ¬left.Ordered right := by
    rintro (⟨first, -⟩ | ⟨s, t⟩)
    · exact other first
    · cases number
  rw [Exceeds, Comparison.apply_of_unordered unordered (by decide)] at greater
  cases greater

/-- A number that is greater does not stand lower, and two integers alone may stand together. -/
theorem Exceeds.standing (greater : Exceeds left right) (first : left.isNumber = true)
    (second : right.isNumber = true) :
    ∃ p q, left.standing? = some p ∧ right.standing? = some q ∧ q ≤ p ∧
      ((¬∃ a b, left = .int a ∧ right = .int b) → q < p) := by
  by_cases whole : ∃ a b, left = .int a ∧ right = .int b
  · obtain ⟨a, b, rfl, rfl⟩ := whole
    have less := (exceeds_integers_iff a b).mp greater
    exact ⟨_, _, rfl, rfl, Binary64.wholePlace_mono (Int.le_of_lt less),
      fun mixed => absurd ⟨a, b, rfl, rfl⟩ mixed⟩
  · obtain ⟨p, q, stands, other, less⟩ := (exceeds_floats_iff first second whole).mp greater
    exact ⟨p, q, stands, other, Int.le_of_lt less, fun _ => less⟩

/-- A number that stands higher is greater, integers included: they were rounded in their order. -/
theorem exceeds_of_standing {p q : Int} (first : left.isNumber = true)
    (second : right.isNumber = true) (stands : left.standing? = some p)
    (other : right.standing? = some q) (less : q < p) : Exceeds left right := by
  by_cases whole : ∃ a b, left = .int a ∧ right = .int b
  · obtain ⟨a, b, rfl, rfl⟩ := whole
    obtain rfl := Option.some.inj stands
    obtain rfl := Option.some.inj other
    rw [exceeds_integers_iff]
    by_contra below
    exact absurd (Binary64.wholePlace_mono (Int.not_lt.mp below)) (Int.not_le.mpr less)
  · exact (exceeds_floats_iff first second whole).mpr ⟨p, q, stands, other, less⟩

/-- Among numbers to be greater is transitive. Through a floating point number one of the two steps
is strict where the numbers stand; only between integers do both steps have to be exact. -/
theorem Exceeds.trans (greater : Exceeds left middle) (next : Exceeds middle right)
    (number : right.isNumber = true) : Exceeds left right := by
  have second := next.numbers number
  have first := greater.numbers second
  by_cases whole : ∃ a b c, left = .int a ∧ middle = .int b ∧ right = .int c
  · obtain ⟨a, b, c, rfl, rfl, rfl⟩ := whole
    rw [exceeds_integers_iff] at greater next ⊢
    exact Int.lt_trans next greater
  · obtain ⟨p, q, stands, between, ordered, strict⟩ := greater.standing first second
    obtain ⟨q', r, same, other, ordered', strict'⟩ := next.standing second number
    obtain rfl := Option.some.inj (between.symm.trans same)
    apply exceeds_of_standing first number stands other
    by_cases integers : ∃ a b, left = .int a ∧ middle = .int b
    · obtain ⟨a, b, rfl, rfl⟩ := integers
      refine Int.lt_of_lt_of_le (strict' ?_) ordered
      rintro ⟨-, c, -, rfl⟩
      exact whole ⟨a, b, c, rfl, rfl, rfl⟩
    · exact Int.lt_of_le_of_lt ordered' (strict integers)

theorem not_exceeds_self (value : Value) : ¬Exceeds value value := by
  intro greater
  by_cases ordered : value.Ordered value
  · obtain ⟨found, finds⟩ := exists_finds ordered
    have mirrored := Option.some.inj (finds.order.symm.trans finds.mirrored)
    rw [Exceeds, Comparison.apply_of_finds finds (by decide)] at greater
    rcases found with _ | ordering
    · cases greater
    · cases ordering with
      | gt => simp at mirrored
      | lt | eq => cases greater
  · rw [Exceeds, Comparison.apply_of_unordered ordered (by decide)] at greater
    cases greater

end Value

namespace Builtin
variable {candidate best : Value}

/-- Of two numbers the routine asks what the comparison of the language says. -/
theorem exceeds?_of_numbers (first : candidate.isNumber = true) (second : best.isNumber = true) :
    ∃ greater, exceeds? candidate best = some greater ∧
      Comparison.gt.apply candidate best = .ok greater := by
  by_cases whole : ∃ a b, candidate = .int a ∧ best = .int b
  · obtain ⟨a, b, rfl, rfl⟩ := whole
    exact ⟨decide (b.toInt < a.toInt), rfl, Value.apply_gt_integers a b⟩
  · obtain ⟨x, first⟩ := Value.isNumber_iff.mp first
    obtain ⟨y, second⟩ := Value.isNumber_iff.mp second
    refine ⟨_, ?_, Value.apply_gt_floats first second whole⟩
    unfold exceeds?
    split
    next a b _ _ => exact absurd ⟨a, b, rfl, rfl⟩ whole
    next =>
      simp only [first, second]
      unfold Binary64.order?
      cases x.place? <;> cases y.place?
      case some.some p q =>
        have same : decide (q < p) = (compare p q).isGT := by
          rw [Bool.eq_iff_iff, decide_eq_true_iff, Ordering.isGT_iff_eq_gt, compare_gt_iff_gt]
        exact congrArg some same
      all_goals rfl

theorem exceeds?_eq_none (other : candidate.isNumber = false ∨ best.isNumber = false) :
    exceeds? candidate best = none := by
  unfold exceeds?
  split
  next a b => cases other <;> contradiction
  next =>
    rw [← Value.toBinary64?_isSome, ← Value.toBinary64?_isSome, Option.isSome_eq_false_iff,
      Option.isSome_eq_false_iff, Option.isNone_iff_eq_none, Option.isNone_iff_eq_none] at other
    split
    next first second => simp [first, second] at other
    next => rfl

structure Leads (best : Value) (passed : List Value) : Prop where
  member : best ∈ passed
  numbers : ∀ value ∈ passed, value.isNumber = true
  unexceeded : ∀ value ∈ passed, ¬value.Exceeds best

namespace Leads
variable {passed rest : List Value}

/-- A number that is greater than the best of those before is greater than whatever they are not. -/
theorem replaced (leads : Leads best passed) (number : candidate.isNumber = true)
    (greater : candidate.Exceeds best) : Leads candidate (passed ++ [candidate]) where
  member := List.mem_append_right _ (List.mem_singleton_self candidate)
  numbers := List.forall_mem_append.mpr ⟨leads.numbers, by simpa using number⟩
  unexceeded := by
    rw [List.forall_mem_append, List.forall_mem_singleton]
    refine ⟨?_, candidate.not_exceeds_self⟩
    intro value member exceeds
    exact leads.unexceeded value member (exceeds.trans greater (leads.numbers best leads.member))

theorem kept (leads : Leads best passed) (number : candidate.isNumber = true)
    (less : ¬candidate.Exceeds best) : Leads best (passed ++ [candidate]) where
  member := List.mem_append_left _ leads.member
  numbers := List.forall_mem_append.mpr ⟨leads.numbers, by simpa using number⟩
  unexceeded := by
    rw [List.forall_mem_append, List.forall_mem_singleton]
    exact ⟨leads.unexceeded, less⟩

theorem maxFrom (leads : Leads best passed) (numbers : ∀ value ∈ rest, value.isNumber = true) :
    ∃ most, Builtin.maxFrom best rest = .ok most ∧ Leads most (passed ++ rest) := by
  induction rest generalizing best passed with
  | nil => exact ⟨best, rfl, by rwa [List.append_nil]⟩
  | cons candidate rest ih =>
    rw [List.forall_mem_cons] at numbers
    obtain ⟨number, numbers⟩ := numbers
    obtain ⟨greater, asked, compared⟩ :=
      exceeds?_of_numbers number (leads.numbers best leads.member)
    rw [List.append_cons]
    cases greater with
    | true =>
      simp only [Builtin.maxFrom, asked]
      exact ih (leads.replaced number compared) numbers
    | false =>
      have less : ¬candidate.Exceeds best := by
        rw [Value.Exceeds, compared]
        exact nofun
      simp only [Builtin.maxFrom, asked]
      exact ih (leads.kept number less) numbers

end Leads

/-- What is not a number cannot be passed, wherever it stands among others. -/
theorem maxFrom_fails {rest : List Value} (more : rest ≠ [])
    (other : ∃ value ∈ best :: rest, value.isNumber = false) :
    ∃ fault, maxFrom best rest = .error fault := by
  induction rest generalizing best with
  | nil => exact absurd rfl more
  | cons candidate rest ih =>
    by_cases numbers : candidate.isNumber = true ∧ best.isNumber = true
    · obtain ⟨number, first⟩ := numbers
      obtain ⟨greater, asked, -⟩ := exceeds?_of_numbers number first
      have behind : ∃ value ∈ rest, value.isNumber = false := by
        simpa [number, first] using other
      have more : rest ≠ [] := by
        rintro rfl
        simp at behind
      obtain ⟨value, member, other⟩ := behind
      cases greater <;> simp only [maxFrom, asked] <;>
        exact ih more ⟨value, List.mem_cons_of_mem _ member, other⟩
    · have unasked : exceeds? candidate best = none := by
        apply exceeds?_eq_none
        simpa [imp_iff_not_or] using numbers
      simp only [maxFrom, unasked]
      exact ⟨_, rfl⟩

theorem leads_first {first : Value} (number : first.isNumber = true) : Leads first [first] where
  member := List.mem_singleton_self first
  numbers := List.forall_mem_singleton.mpr number
  unexceeded := List.forall_mem_singleton.mpr first.not_exceeds_self

/-- The maximum of numbers is one of them, and none of them is greater. -/
theorem max_leads {arguments : List Value} (nonempty : arguments ≠ [])
    (numbers : ∀ value ∈ arguments, value.isNumber = true) :
    ∃ most, max arguments = .ok most ∧ Leads most arguments := by
  cases arguments with
  | nil => exact absurd rfl nonempty
  | cons first rest =>
    rw [List.forall_mem_cons] at numbers
    exact (leads_first numbers.1).maxFrom numbers.2

def Unranked (arguments : List Value) : Prop :=
  arguments = [] ∨ 2 ≤ arguments.length ∧ ∃ value ∈ arguments, value.isNumber = false

theorem max_fails {arguments : List Value} (unranked : Unranked arguments) :
    ∃ fault, max arguments = .error fault := by
  obtain rfl | ⟨several, other⟩ := unranked
  · exact ⟨_, rfl⟩
  · cases arguments with
    | nil => cases several
    | cons first rest =>
      apply maxFrom_fails ?_ other
      rintro rfl
      exact absurd several (by simp)

theorem max_of_ranked {arguments : List Value} (ranked : ¬Unranked arguments) :
    (∃ value, arguments = [value]) ∨
      arguments ≠ [] ∧ ∀ value ∈ arguments, value.isNumber = true := by
  rw [Unranked, not_or, not_and, not_exists] at ranked
  obtain ⟨nonempty, numbers⟩ := ranked
  match arguments with
  | [] => exact absurd rfl nonempty
  | [value] => exact .inl ⟨value, rfl⟩
  | first :: second :: rest =>
    refine .inr ⟨nonempty, ?_⟩
    intro value member
    rw [← Bool.not_eq_false]
    exact fun other => numbers (by simp) value ⟨member, other⟩

end Builtin

structure FindsMaximum (arguments : List Value) : Prop where
  fails_iff : (∃ fault, Builtin.max arguments = .error fault) ↔ Builtin.Unranked arguments
  found : ¬Builtin.Unranked arguments → ∃ most ∈ arguments, Builtin.max arguments = .ok most ∧
    ∀ value ∈ arguments, ¬value.Exceeds most
  /-- Among several arguments the comparison with the maximum does not fail either. -/
  compared : ¬Builtin.Unranked arguments → 2 ≤ arguments.length →
    ∀ most, Builtin.max arguments = .ok most →
    ∀ value ∈ arguments, Comparison.gt.apply value most = .ok false
  whole : ∀ numbers : List Int64, numbers ≠ [] → arguments = numbers.map .int →
    ∃ most ∈ numbers, Builtin.max arguments = .ok (.int most) ∧ ∀ n ∈ numbers, n.toInt ≤ most.toInt

/-- The maximum is found, or not, by the order that the comparisons go by. -/
theorem finds_maximum (arguments : List Value) : FindsMaximum arguments := by
  have found (ranked : ¬Builtin.Unranked arguments) : ∃ most ∈ arguments,
      Builtin.max arguments = .ok most ∧ ∀ value ∈ arguments, ¬value.Exceeds most := by
    obtain ⟨value, rfl⟩ | ⟨nonempty, numbers⟩ := Builtin.max_of_ranked ranked
    · exact ⟨value, List.mem_singleton_self value, rfl,
        List.forall_mem_singleton.mpr value.not_exceeds_self⟩
    · obtain ⟨most, result, leads⟩ := Builtin.max_leads nonempty numbers
      exact ⟨most, leads.member, result, leads.unexceeded⟩
  constructor
  case fails_iff =>
    refine ⟨?_, Builtin.max_fails⟩
    rintro ⟨fault, failed⟩
    by_contra ranked
    obtain ⟨most, -, result, -⟩ := found ranked
    rw [result] at failed
    cases failed
  case found => exact found
  case compared =>
    intro ranked several most result value member
    obtain ⟨value, rfl⟩ | ⟨nonempty, numbers⟩ := Builtin.max_of_ranked ranked
    · exact absurd several (by simp)
    · obtain ⟨most', result', leads⟩ := Builtin.max_leads nonempty numbers
      obtain rfl := Except.ok.inj (result.symm.trans result')
      obtain ⟨greater, -, compared⟩ :=
        Builtin.exceeds?_of_numbers (numbers value member) (numbers most leads.member)
      cases greater with
      | false => exact compared
      | true => exact absurd compared (leads.unexceeded value member)
  case whole =>
    rintro integers nonempty rfl
    have numbers : ∀ value ∈ integers.map Value.int, value.isNumber = true := by
      simp [Value.isNumber]
    obtain ⟨most, result, leads⟩ := Builtin.max_leads (by simpa using nonempty) numbers
    obtain ⟨n, member, rfl⟩ := List.mem_map.mp leads.member
    refine ⟨n, member, result, ?_⟩
    intro m among
    have less := leads.unexceeded (.int m) (List.mem_map_of_mem among)
    rw [Value.exceeds_integers_iff] at less
    exact Int.not_lt.mp less

end Interpose
