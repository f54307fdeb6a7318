import Interpose.Cache
import Interpose.Fault
import Interpose.Table

/-! Room on every unit for the values of others. A registry hands out indices, one to each user, up
to a fixed number; an index names one slot of every unit. -/

namespace Interpose

def extraCapacity : Nat := 255

structure ExtraIndex where
  number : Nat
deriving DecidableEq, Repr

structure ExtraRegistry where
  issued : Nat
  bounded : issued ≤ extraCapacity
deriving DecidableEq

namespace ExtraRegistry

def empty : ExtraRegistry := ⟨0, Nat.zero_le extraCapacity⟩

instance : Inhabited ExtraRegistry := ⟨empty⟩

/-- Hands out the next index, or refuses when all are in use. -/
def request (registry : ExtraRegistry) : Except Fault (ExtraIndex × ExtraRegistry) :=
  if free : registry.issued < extraCapacity then
    .ok (⟨registry.issued⟩, { issued := registry.issued + 1, bounded := free })
  else .error (.slotsExhausted extraCapacity)

end ExtraRegistry

/-- A value in a slot. Each kind is read back only as itself. -/
inductive ExtraValue where
  | text (content : String)
  | number (n : Int64)
  | cache (state : CacheState)
  /-- A value of a type that only the host knows, both by their numbers. -/
  | hosted (type content : Nat)
deriving DecidableEq

namespace ExtraValue

def text? : ExtraValue → Option String
  | .text content => some content
  | _ => none

def number? : ExtraValue → Option Int64
  | .number n => some n
  | _ => none

def cache? : ExtraValue → Option CacheState
  | .cache state => some state
  | _ => none

def hosted? (type : Nat) : ExtraValue → Option Nat
  | .hosted other content => if other = type then some content else none
  | _ => none

end ExtraValue

/-- The slots of one unit. They come to be when a value is first written. -/
structure Slots where
  values : Table (Option ExtraValue) := .empty
deriving DecidableEq, Inhabited

namespace Slots

def get (slots : Slots) (index : ExtraIndex) : Option ExtraValue := slots.values.get index.number

/-- Writes or clears a slot and returns what it held. Clearing a slot that never came to be changes
nothing. -/
def exchange (slots : Slots) (index : ExtraIndex) (value : Option ExtraValue) :
    Option ExtraValue × Slots :=
  if slots.values.size ≤ index.number then
    if value = none then (none, slots) else (none, ⟨slots.values.set index.number value⟩)
  else (slots.values.get index.number, ⟨slots.values.set index.number value⟩)

def set (slots : Slots) (index : ExtraIndex) (value : Option ExtraValue) : Slots :=
  (slots.exchange index value).2

theorem fst_exchange (slots : Slots) (index : ExtraIndex) (value : Option ExtraValue) :
    (slots.exchange index value).1 = slots.get index := by
  unfold exchange get
  split
  next outside =>
    rw [Table.get_of_size_le outside]
    split <;> rfl
  next => rfl

/-- A slot holds what was last written to it, and writing it changes no other. -/
theorem get_set (slots : Slots) (index other : ExtraIndex) (value : Option ExtraValue) :
    (slots.set index value).get other = if other = index then value else slots.get other := by
  have number : other = index ↔ other.number = index.number := by
    cases other; cases index; simp
  unfold set exchange
  split
  next outside =>
    split
    next cleared =>
      split
      next same =>
        subst same
        rw [cleared]
        exact Table.get_of_size_le outside
      next => rfl
    next => simp only [get, Table.get_set, number]
  next => simp only [get, Table.get_set, number]

end Slots

end Interpose
