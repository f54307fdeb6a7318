/-! A table gives every index a row: the rows that were written, and the default row beyond them.
Writing past the end grows the table, so reading a table is reading a total map. -/

namespace Interpose

/-- Rows by index; an index past the last one reads as the default row. -/
structure Table (α : Type) where
  rows : Array α
deriving DecidableEq, Repr

namespace Table
variable {α : Type}

instance : Inhabited (Table α) := ⟨⟨#[]⟩⟩

def empty : Table α := ⟨#[]⟩

def size (table : Table α) : Nat := table.rows.size

def push (table : Table α) (row : α) : Table α := ⟨table.rows.push row⟩

@[simp] theorem size_push (table : Table α) (row : α) :
    (table.push row).size = table.size + 1 := by
  simp [push, size]

variable [Inhabited α]

def get (table : Table α) (index : Nat) : α := table.rows[index]?.getD default

/-- Replaces one row, growing the table up to it when it lies past the end. -/
def set (table : Table α) (index : Nat) (row : α) : Table α :=
  if index < table.rows.size then ⟨table.rows.setIfInBounds index row⟩
  else ⟨(table.rows ++ Array.replicate (index - table.rows.size) default).push row⟩

@[simp] theorem get_empty (index : Nat) : (empty : Table α).get index = default := by
  simp [empty, get]

theorem get_of_size_le {table : Table α} {index : Nat} (outside : table.size ≤ index) :
    table.get index = default := by
  unfold size at outside
  simp [get, Array.getElem?_eq_none outside]

/-- A pushed row is found at the former size, and no other row changes. -/
theorem get_push (table : Table α) (row : α) (index : Nat) :
    (table.push row).get index = if index = table.size then row else table.get index := by
  simp only [get, push, size, Array.getElem?_push]
  split <;> simp_all

theorem size_set (table : Table α) (index : Nat) (row : α) :
    (table.set index row).size = max table.size (index + 1) := by
  unfold set size
  split <;> simp only [Array.size_setIfInBounds, Array.size_push, Array.size_append,
    Array.size_replicate] <;> omega

/-- A write is seen at its own index and nowhere else, whatever growth it causes. -/
theorem get_set (table : Table α) (index other : Nat) (row : α) :
    (table.set index row).get other = if other = index then row else table.get other := by
  unfold set get
  split
  next inside =>
    rw [Array.getElem?_setIfInBounds]
    by_cases same : other = index
    · rw [if_pos same.symm, if_pos inside, if_pos same, Option.getD_some]
    · rw [if_neg (Ne.symm same), if_neg same]
  next outside =>
    rw [Array.getElem?_push, Array.getElem?_append, Array.size_append, Array.size_replicate,
      Array.getElem?_replicate]
    by_cases same : other = index
    · have last : other = table.rows.size + (index - table.rows.size) := by omega
      rw [if_pos last, if_pos same, Option.getD_some]
    · have before : other ≠ table.rows.size + (index - table.rows.size) := by omega
      rw [if_neg before, if_neg same]
      split
      next => rfl
      next past =>
        have missing : table.rows[other]? = none := Array.getElem?_eq_none (by omega)
        rw [missing]
        split <;> rfl

end Table

end Interpose
