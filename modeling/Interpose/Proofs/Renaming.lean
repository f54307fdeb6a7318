import Mathlib.Data.List.Forall2
import Interpose.Builtin

/-! Two engines that number the same things differently. A naming pairs each thing of one engine with
one of the other, and a renaming consists of a naming for each kind of thing. Values that are the same
under a renaming are told apart by no operator and by no native function of the engine. -/

namespace Interpose

/-- Which numbers of one engine stand for which of another. There are so many things here and so many
there; each one here has a number there, and no two have the same. -/
@[ext]
structure Naming where
  here : Nat
  there : Nat
  maps : Nat → Nat → Prop
  bound : ∀ {a b}, maps a b → a < here ∧ b < there
  oneToOne : ∀ {a b c d}, maps a b → maps c d → (a = c ↔ b = d)
  total : ∀ a < here, ∃ b, maps a b

namespace Naming

def Within (naming wider : Naming) : Prop := ∀ {a b}, naming.maps a b → wider.maps a b

def identity (count : Nat) : Naming where
  here := count
  there := count
  maps a b := a = b ∧ a < count
  bound := by
    rintro a b ⟨rfl, known⟩
    exact ⟨known, known⟩
  oneToOne := by
    rintro a b c d ⟨rfl, _⟩ ⟨rfl, _⟩
    exact Iff.rfl
  total a known := ⟨a, rfl, known⟩

/-- So many further things on both sides, paired in their order. -/
def extend (naming : Naming) (more : Nat) : Naming where
  here := naming.here + more
  there := naming.there + more
  maps a b := naming.maps a b ∨ ∃ i < more, a = naming.here + i ∧ b = naming.there + i
  bound := by
    rintro a b (old | ⟨i, inside, rfl, rfl⟩)
    · have := naming.bound old
      omega
    · omega
  oneToOne := by
    rintro a b c d (old | ⟨i, inside, rfl, rfl⟩) (older | ⟨j, within, rfl, rfl⟩)
    · exact naming.oneToOne old older
    · have := naming.bound old
      omega
    · have := naming.bound older
      omega
    · omega
  total := by
    intro a known
    rcases Nat.lt_or_ge a naming.here with before | after
    · obtain ⟨b, old⟩ := naming.total a before
      exact ⟨b, .inl old⟩
    · exact ⟨naming.there + (a - naming.here), .inr ⟨a - naming.here, by omega, by omega, rfl⟩⟩

def Grows (naming wider : Naming) : Prop := ∃ more, wider = naming.extend more

/-- Further things on the other side alone, so that there are at least so many. -/
def widen (naming : Naming) (count : Nat) : Naming :=
  { naming with
    there := max naming.there count
    bound := fun old =>
      ⟨(naming.bound old).1, Nat.lt_of_lt_of_le (naming.bound old).2 (Nat.le_max_left _ _)⟩ }

variable {naming wider : Naming}

theorem maps_extend (naming : Naming) {more i : Nat} (inside : i < more) :
    (naming.extend more).maps (naming.here + i) (naming.there + i) :=
  .inr ⟨i, inside, rfl, rfl⟩

/-- The next thing on either side. -/
theorem maps_next (naming : Naming) : (naming.extend 1).maps naming.here naming.there :=
  naming.maps_extend Nat.one_pos

/-- Of one further pair, what each pair is. -/
theorem maps_extend_one {a b : Nat} (named : (naming.extend 1).maps a b) :
    naming.maps a b ∧ a ≠ naming.here ∧ b ≠ naming.there ∨ a = naming.here ∧ b = naming.there := by
  rcases named with old | ⟨i, inside, rfl, rfl⟩
  · have bound := naming.bound old
    exact .inl ⟨old, Nat.ne_of_lt bound.1, Nat.ne_of_lt bound.2⟩
  · obtain rfl := Nat.lt_one_iff.mp inside
    exact .inr ⟨rfl, rfl⟩

theorem extend_extend (naming : Naming) (first second : Nat) :
    (naming.extend first).extend second = naming.extend (first + second) := by
  ext a b
  · exact Nat.add_assoc _ _ _
  · exact Nat.add_assoc _ _ _
  · constructor
    · rintro ((old | ⟨i, inside, rfl, rfl⟩) | ⟨i, inside, rfl, rfl⟩)
      · exact .inl old
      · exact .inr ⟨i, Nat.lt_add_right second inside, rfl, rfl⟩
      · exact .inr ⟨first + i, Nat.add_lt_add_left inside first, Nat.add_assoc _ _ _,
          Nat.add_assoc _ _ _⟩
    · rintro (old | ⟨i, inside, rfl, rfl⟩)
      · exact .inl (.inl old)
      · rcases Nat.lt_or_ge i first with early | late
        · exact .inl (.inr ⟨i, early, rfl, rfl⟩)
        · obtain ⟨j, rfl⟩ := Nat.exists_eq_add_of_le late
          exact .inr ⟨j, Nat.lt_of_add_lt_add_left inside, (Nat.add_assoc _ _ _).symm,
            (Nat.add_assoc _ _ _).symm⟩

theorem extend_zero (naming : Naming) : naming.extend 0 = naming := by
  ext a b
  · rfl
  · rfl
  · constructor
    · rintro (old | ⟨i, inside, _⟩)
      · exact old
      · exact absurd inside (Nat.not_lt_zero i)
    · exact .inl

theorem extend_identity (count more : Nat) :
    (identity count).extend more = identity (count + more) := by
  ext a b
  · rfl
  · rfl
  · constructor
    · rintro (⟨rfl, known⟩ | ⟨i, inside, rfl, rfl⟩)
      · exact ⟨rfl, Nat.lt_add_right more known⟩
      · exact ⟨rfl, Nat.add_lt_add_left inside count⟩
    · rintro ⟨rfl, known⟩
      rcases Nat.lt_or_ge a count with before | after
      · exact .inl ⟨rfl, before⟩
      · obtain ⟨i, rfl⟩ := Nat.exists_eq_add_of_le after
        exact .inr ⟨i, Nat.lt_of_add_lt_add_left known, rfl, rfl⟩

namespace Grows

theorem refl (naming : Naming) : naming.Grows naming := ⟨0, naming.extend_zero.symm⟩

theorem extend (naming : Naming) (more : Nat) : naming.Grows (naming.extend more) := ⟨more, rfl⟩

theorem trans {widest : Naming} (first : naming.Grows wider) (second : wider.Grows widest) :
    naming.Grows widest := by
  obtain ⟨more, rfl⟩ := first
  obtain ⟨further, rfl⟩ := second
  exact ⟨more + further, naming.extend_extend more further⟩

theorem within (grows : naming.Grows wider) : naming.Within wider := by
  obtain ⟨more, rfl⟩ := grows
  exact .inl

/-- What is paired was paired before, or is new on both sides. -/
theorem maps_cases {a b : Nat} (grows : naming.Grows wider) (named : wider.maps a b) :
    naming.maps a b ∨ naming.here ≤ a ∧ naming.there ≤ b := by
  obtain ⟨more, rfl⟩ := grows
  rcases named with old | ⟨i, _, rfl, rfl⟩
  · exact .inl old
  · exact .inr ⟨Nat.le_add_right _ _, Nat.le_add_right _ _⟩

theorem eq_identity {count : Nat} (grows : (identity count).Grows wider) :
    wider = identity wider.here := by
  obtain ⟨more, rfl⟩ := grows
  rw [extend_identity]
  rfl

end Grows

/-- Two tables with a row for each number, and related rows under numbers that are paired. -/
structure Rows {α β : Type} [Inhabited α] [Inhabited β] (naming : Naming) (related : α → β → Prop)
    (first : Table α) (second : Table β) : Prop where
  size : naming.here = first.size ∧ naming.there = second.size
  get : ∀ {a b}, naming.maps a b → related (first.get a) (second.get b)

namespace Rows
variable {α β : Type} [Inhabited α] [Inhabited β] {related : α → β → Prop} {first : Table α}
  {second : Table β} {row : α} {other : β}

theorem push (rows : naming.Rows related first second) (same : related row other) :
    (naming.extend 1).Rows related (first.push row) (second.push other) where
  size := by
    simp only [extend, Table.size_push, rows.size.1, rows.size.2, and_self]
  get := by
    intro a b named
    rw [Table.get_push, Table.get_push, ← rows.size.1, ← rows.size.2]
    rcases maps_extend_one named with ⟨old, apart, beside⟩ | ⟨rfl, rfl⟩
    · rw [if_neg apart, if_neg beside]
      exact rows.get old
    · rw [if_pos rfl, if_pos rfl]
      exact same

theorem set (rows : naming.Rows related first second) {a b : Nat} (named : naming.maps a b)
    (same : related row other) : naming.Rows related (first.set a row) (second.set b other) where
  size := by
    obtain ⟨here, there⟩ := naming.bound named
    rw [Table.size_set, Table.size_set, ← rows.size.1, ← rows.size.2]
    exact ⟨(Nat.max_eq_left here).symm, (Nat.max_eq_left there).symm⟩
  get := by
    intro c d also
    simp only [Table.get_set, naming.oneToOne also named]
    split
    · exact same
    · exact rows.get also

end Rows

end Naming

structure Renaming where
  units : Naming
  cells : Naming
  spaces : Naming
  functions : Naming
  interpreters : Naming
  threads : Naming

namespace Renaming

structure Within (names wider : Renaming) : Prop where
  units : names.units.Within wider.units
  cells : names.cells.Within wider.cells
  spaces : names.spaces.Within wider.spaces
  functions : names.functions.Within wider.functions
  interpreters : names.interpreters.Within wider.interpreters
  threads : names.threads.Within wider.threads

theorem Within.refl (names : Renaming) : names.Within names :=
  ⟨fun old => old, fun old => old, fun old => old, fun old => old, fun old => old, fun old => old⟩

theorem Within.trans {names wider widest : Renaming} (first : names.Within wider)
    (second : wider.Within widest) : names.Within widest where
  units old := second.units (first.units old)
  cells old := second.cells (first.cells old)
  spaces old := second.spaces (first.spaces old)
  functions old := second.functions (first.functions old)
  interpreters old := second.interpreters (first.interpreters old)
  threads old := second.threads (first.threads old)

structure Grows (names wider : Renaming) : Prop where
  units : names.units.Grows wider.units
  cells : names.cells.Grows wider.cells
  spaces : names.spaces.Grows wider.spaces
  functions : names.functions.Grows wider.functions
  interpreters : names.interpreters.Grows wider.interpreters
  threads : names.threads.Grows wider.threads

namespace Grows

theorem refl (names : Renaming) : names.Grows names :=
  ⟨.refl _, .refl _, .refl _, .refl _, .refl _, .refl _⟩

theorem trans {names wider widest : Renaming} (first : names.Grows wider)
    (second : wider.Grows widest) : names.Grows widest where
  units := first.units.trans second.units
  cells := first.cells.trans second.cells
  spaces := first.spaces.trans second.spaces
  functions := first.functions.trans second.functions
  interpreters := first.interpreters.trans second.interpreters
  threads := first.threads.trans second.threads

theorem within {names wider : Renaming} (grows : names.Grows wider) : names.Within wider :=
  ⟨grows.units.within, grows.cells.within, grows.spaces.within, grows.functions.within,
    grows.interpreters.within, grows.threads.within⟩

end Grows

def addUnit (names : Renaming) : Renaming := { names with units := names.units.extend 1 }

def addCells (names : Renaming) (count : Nat) : Renaming :=
  { names with cells := names.cells.extend count }

def addSpace (names : Renaming) : Renaming := { names with spaces := names.spaces.extend 1 }

def addFunction (names : Renaming) : Renaming :=
  { names with functions := names.functions.extend 1 }

def addInterpreter (names : Renaming) : Renaming :=
  { names with interpreters := names.interpreters.extend 1 }

def addThread (names : Renaming) : Renaming := { names with threads := names.threads.extend 1 }

variable (names : Renaming)

theorem grows_addUnit : names.Grows names.addUnit :=
  { Grows.refl names with units := .extend _ 1 }

theorem grows_addCells (count : Nat) : names.Grows (names.addCells count) :=
  { Grows.refl names with cells := .extend _ count }

theorem grows_addSpace : names.Grows names.addSpace :=
  { Grows.refl names with spaces := .extend _ 1 }

theorem grows_addFunction : names.Grows names.addFunction :=
  { Grows.refl names with functions := .extend _ 1 }

theorem grows_addInterpreter : names.Grows names.addInterpreter :=
  { Grows.refl names with interpreters := .extend _ 1 }

theorem grows_addThread : names.Grows names.addThread :=
  { Grows.refl names with threads := .extend _ 1 }

end Renaming

structure Function.Renamed (names : Renaming) (f g : Function) : Prop where
  id : names.functions.maps f.id g.id
  code : names.units.maps f.code g.code
  globals : names.spaces.maps f.globals g.globals
  closure : List.Forall₂ names.cells.maps f.closure g.closure

def Value.isPlain : Value → Bool
  | .code _ | .function _ | .cell _ => false
  | _ => true

def Fault.isRaised : Fault → Bool
  | .raised _ => true
  | _ => false

/-- Two values that are the same but for the numbers in them. -/
inductive Value.Renamed (names : Renaming) : Value → Value → Prop
  | plain {value} (plain : value.isPlain = true) : Renamed names value value
  | code {a b} (same : names.units.maps a b) : Renamed names (.code a) (.code b)
  | function {f g} (same : f.Renamed names g) : Renamed names (.function f) (.function g)
  | cell {a b} (same : names.cells.maps a b) : Renamed names (.cell a) (.cell b)

inductive Fault.Renamed (names : Renaming) : Fault → Fault → Prop
  | own {fault} (own : fault.isRaised = false) : Renamed names fault fault
  | raised {value other} (same : value.Renamed names other) :
      Renamed names (.raised value) (.raised other)

inductive RenamedResult (names : Renaming) : Except Fault Value → Except Fault Value → Prop
  | ok {value other} (same : value.Renamed names other) : RenamedResult names (.ok value) (.ok other)
  | error {fault other} (same : fault.Renamed names other) :
      RenamedResult names (.error fault) (.error other)

def PlainResult : Except Fault Value → Prop
  | .ok value => value.isPlain = true
  | .error fault => fault.isRaised = false

section
variable {names wider : Renaming}

theorem Function.Renamed.mono {f g : Function} (same : f.Renamed names g)
    (within : names.Within wider) : f.Renamed wider g :=
  ⟨within.functions same.id, within.units same.code, within.spaces same.globals,
    same.closure.imp fun _ _ => within.cells⟩

theorem Value.Renamed.mono {value other : Value} (same : value.Renamed names other)
    (within : names.Within wider) : value.Renamed wider other := by
  cases same with
  | plain plain => exact .plain plain
  | code same => exact .code (within.units same)
  | function same => exact .function (same.mono within)
  | cell same => exact .cell (within.cells same)

theorem PlainResult.renamed {result : Except Fault Value} (plain : PlainResult result)
    (names : Renaming) : RenamedResult names result result := by
  cases result with
  | ok value => exact .ok (.plain plain)
  | error fault => exact .error (.own plain)

end

section
variable {α β : Type} {related : α → β → Prop} {items : List α} {others : List β}

theorem rel_getElem? (same : List.Forall₂ related items others) (index : Nat) :
    Option.Rel related items[index]? others[index]? := by
  induction same generalizing index with
  | nil => exact .none
  | cons here rest ih =>
    cases index with
    | zero => exact .some here
    | succ index => exact ih index

theorem forall₂_set (same : List.Forall₂ related items others) (index : Nat) {item : α} {other : β}
    (here : related item other) :
    List.Forall₂ related (items.set index item) (others.set index other) := by
  induction same generalizing index with
  | nil => exact .nil
  | cons first rest ih =>
    cases index with
    | zero => exact .cons here rest
    | succ index => exact .cons first (ih index)

end

namespace Value.Renamed
variable {names : Renaming} {value other left right : Value}

theorem eq_of_plain (same : value.Renamed names other) (plain : value.isPlain = true) :
    other = value := by
  cases same with
  | plain _ => rfl
  | code _ | function _ | cell _ => cases plain

theorem isPlain_eq (same : value.Renamed names other) : other.isPlain = value.isPlain := by
  cases same <;> rfl

theorem kind_eq (same : value.Renamed names other) : other.kind = value.kind := by
  cases same <;> rfl

theorem exists_function {f : Function} (same : (Value.function f).Renamed names other) :
    ∃ g, other = .function g ∧ f.Renamed names g := by
  cases same with
  | function same => exact ⟨_, rfl, same⟩
  | plain plain => cases plain

theorem exists_cell {cell : CellId} (same : (Value.cell cell).Renamed names other) :
    ∃ also, other = .cell also ∧ names.cells.maps cell also := by
  cases same with
  | cell same => exact ⟨_, rfl, same⟩
  | plain plain => cases plain

theorem isTruthy_eq (same : value.Renamed names other) : other.isTruthy = value.isTruthy := by
  cases same <;> rfl

theorem equals_eq (first : value.Renamed names other) (second : left.Renamed names right) :
    other.equals right = value.equals left := by
  cases first with
  | plain plain =>
    cases second with
    | plain _ => rfl
    | code _ | function _ | cell _ => cases value <;> first | rfl | cases plain
  | code same =>
    cases second with
    | plain plain => cases left <;> first | rfl | cases plain
    | code also => exact decide_eq_decide.mpr (names.units.oneToOne same also).symm
    | function _ | cell _ => rfl
  | function same =>
    cases second with
    | plain plain => cases left <;> first | rfl | cases plain
    | function also => exact decide_eq_decide.mpr (names.functions.oneToOne same.id also.id).symm
    | code _ | cell _ => rfl
  | cell same =>
    cases second with
    | plain plain => cases left <;> first | rfl | cases plain
    | cell also => exact decide_eq_decide.mpr (names.cells.oneToOne same also).symm
    | code _ | function _ => rfl

end Value.Renamed

theorem Value.toBinary64?_of_named {value : Value} (named : value.isPlain = false) :
    value.toBinary64? = none := by
  cases value <;> first | rfl | cases named

private theorem PlainResult.map {α : Type} (wrap : α → Value)
    (plain : ∀ content, (wrap content).isPlain = true) {result : Except Fault α}
    (faults : ∀ fault, result = .error fault → fault.isRaised = false) :
    PlainResult (result.map wrap) := by
  cases result with
  | ok content => exact plain content
  | error fault => exact faults fault rfl

namespace Comparison

theorem plain_apply (comparison : Comparison) (left right : Value) :
    PlainResult ((comparison.apply left right).map .bool) := by
  refine PlainResult.map .bool (fun _ => rfl) fun fault failed => ?_
  unfold apply at failed
  split at failed
  · cases failed
  · cases failed
  · split at failed <;> cases failed
    rfl

private theorem ordering?_of_named {left right : Value}
    (named : left.isPlain = false ∨ right.isPlain = false) : left.ordering? right = none := by
  unfold Value.ordering?
  split
  · rcases named with named | named <;> cases named
  · rcases named with named | named <;> cases named
  · rcases named with named | named
    · rw [Value.toBinary64?_of_named named]
    · rw [Value.toBinary64?_of_named named]
      split
      next missing => cases missing
      next => rfl

/-- Comparing does not tell apart values that are the same but for their numbers. -/
theorem apply_renamed {names : Renaming} {left right left' right' : Value}
    (comparison : Comparison) (first : left.Renamed names left')
    (second : right.Renamed names right') :
    comparison.apply left' right' = comparison.apply left right := by
  have ordered : left'.ordering? right' = left.ordering? right := by
    cases plain : left.isPlain && right.isPlain with
    | true =>
      rw [Bool.and_eq_true] at plain
      rw [first.eq_of_plain plain.1, second.eq_of_plain plain.2]
    | false =>
      have named := Bool.and_eq_false_iff.mp plain
      have also := named
      rw [← first.isPlain_eq, ← second.isPlain_eq] at also
      rw [ordering?_of_named named, ordering?_of_named also]
  unfold apply
  rw [first.equals_eq second, ordered, first.kind_eq, second.kind_eq]

end Comparison

namespace BinaryOperator

private theorem plain_checked (operator : BinaryOperator) (result : Option Int64) :
    PlainResult (operator.checked result) := by
  cases result <;> rfl

private theorem plain_repeatString (s : String) (count : Int64) :
    PlainResult ((repeatString s count).map .str) := by
  refine PlainResult.map .str (fun _ => rfl) fun fault failed => ?_
  unfold repeatString at failed
  simp only at failed
  split at failed
  · cases failed
  · split at failed <;> cases failed
    rfl

private theorem plain_onIntegers (operator : BinaryOperator) (a b : Int64) :
    PlainResult (operator.onIntegers a b) := by
  unfold onIntegers
  split
  · rfl
  · cases operator with
    | div => rfl
    | add | sub | mul | floorDiv | mod => exact plain_checked _ _

private theorem plain_onFloats (operator : BinaryOperator) (a b : Binary64) :
    PlainResult (operator.onFloats a b) := by
  unfold onFloats
  split <;> rfl

/-- The operators make numbers, strings and truth values, which name nothing. -/
theorem plain_apply (operator : BinaryOperator) (left right : Value) :
    PlainResult (operator.apply left right) := by
  unfold apply
  split
  · exact plain_onIntegers operator _ _
  · rfl
  · exact plain_repeatString _ _
  · exact plain_repeatString _ _
  · split
    · exact plain_onFloats operator _ _
    · rfl

private theorem apply_of_named {operator : BinaryOperator} {left right : Value}
    (named : left.isPlain = false ∨ right.isPlain = false) :
    operator.apply left right = .error (.unsupportedOperands operator left.kind right.kind) := by
  unfold apply
  split
  · rcases named with named | named <;> cases named
  · rcases named with named | named <;> cases named
  · rcases named with named | named <;> cases named
  · rcases named with named | named <;> cases named
  · rcases named with named | named
    · rw [Value.toBinary64?_of_named named]
    · rw [Value.toBinary64?_of_named named]
      split
      next missing => cases missing
      next => rfl

theorem apply_renamed {names : Renaming} {left right left' right' : Value}
    (operator : BinaryOperator) (first : left.Renamed names left')
    (second : right.Renamed names right') :
    operator.apply left' right' = operator.apply left right := by
  cases plain : left.isPlain && right.isPlain with
  | true =>
    rw [Bool.and_eq_true] at plain
    rw [first.eq_of_plain plain.1, second.eq_of_plain plain.2]
  | false =>
    have named := Bool.and_eq_false_iff.mp plain
    have also := named
    rw [← first.isPlain_eq, ← second.isPlain_eq] at also
    rw [apply_of_named named, apply_of_named also, first.kind_eq, second.kind_eq]

end BinaryOperator

namespace Value

theorem plain_negate (value : Value) : PlainResult value.negate := by
  cases value with
  | int n =>
    simp only [negate]
    split <;> rfl
  | _ => rfl

theorem negate_renamed {names : Renaming} {value other : Value} (same : value.Renamed names other) :
    other.negate = value.negate := by
  cases same <;> rfl

end Value

namespace Builtin
variable {names : Renaming} {arguments others : List Value}

private theorem length_others (same : List.Forall₂ (Value.Renamed names) arguments others) :
    others.length = arguments.length := same.length_eq.symm

theorem plain_abs (arguments : List Value) : PlainResult (abs arguments) := by
  unfold abs
  split
  · split <;> rfl
  all_goals rfl

theorem abs_renamed (same : List.Forall₂ (Value.Renamed names) arguments others) :
    abs others = abs arguments := by
  cases same with
  | nil => rfl
  | cons first rest =>
    cases rest with
    | nil => cases first <;> rfl
    | cons second rest => simp only [abs, List.length_cons, length_others rest]

theorem plain_len (arguments : List Value) : PlainResult (len arguments) := by
  unfold len
  split <;> rfl

theorem len_renamed (same : List.Forall₂ (Value.Renamed names) arguments others) :
    len others = len arguments := by
  cases same with
  | nil => rfl
  | cons first rest =>
    cases rest with
    | nil => cases first <;> rfl
    | cons second rest => simp only [len, List.length_cons, length_others rest]

theorem plain_str (heap : Heap) (arguments : List Value) : PlainResult (str heap arguments) := by
  unfold str
  split <;> rfl

private theorem exceeds?_renamed {candidate best candidate' best' : Value}
    (first : candidate.Renamed names candidate') (second : best.Renamed names best') :
    exceeds? candidate' best' = exceeds? candidate best := by
  cases first with
  | plain _ =>
    cases second with
    | plain _ => rfl
    | code _ | function _ | cell _ => cases candidate <;> rfl
  | code _ | function _ | cell _ =>
    cases second with
    | plain _ => cases best <;> rfl
    | code _ | function _ | cell _ => rfl

private theorem maxFrom_renamed {best best' : Value} {rest rest' : List Value}
    (first : best.Renamed names best') (same : List.Forall₂ (Value.Renamed names) rest rest') :
    RenamedResult names (maxFrom best rest) (maxFrom best' rest') := by
  induction same generalizing best best' with
  | nil => exact .ok first
  | @cons candidate candidate' rest rest' second later ih =>
    simp only [maxFrom, exceeds?_renamed second first]
    split
    · exact ih second
    · exact ih first
    · rw [second.kind_eq, first.kind_eq]
      exact .error (.own rfl)

theorem max_renamed (same : List.Forall₂ (Value.Renamed names) arguments others) :
    RenamedResult names (max arguments) (max others) := by
  cases same with
  | nil => exact .error (.own rfl)
  | cons first rest => exact maxFrom_renamed first rest

end Builtin

end Interpose
