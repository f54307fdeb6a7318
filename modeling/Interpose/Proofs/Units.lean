import Interpose.Code.Builder
import Interpose.Heap

/-! Units that passed the check, and heaps that differ by further units. A unit is built exactly when
it is well-formed, and none of the edits of a heap touches it. -/

namespace Interpose

theorem Blueprint.fault?_eq_none_iff {unit : Blueprint} {position : Nat}
    {instruction : Instruction} :
    unit.fault? position instruction = none ↔ unit.Admits instruction := by
  cases instruction with
  | makeFunction code freeCount =>
    simp only [fault?]
    constructor
    · intro faultless
      split at faultless
      next id constant => exact ⟨id, constant⟩
      · cases faultless
      · cases faultless
    · rintro ⟨id, constant⟩
      rw [constant]
  | _ =>
    constructor
    · intro faultless operand index operated
      simp only [fault?, operated] at faultless
      split at faultless
      next inside => exact inside
      · cases faultless
    · intro admitted
      simp only [fault?]
      split
      next operand index operated => exact if_pos (admitted operand index operated)
      next => rfl

theorem Blueprint.firstFault?_eq_none_iff {unit : Blueprint} {body : List Instruction}
    (position : Nat) :
    unit.firstFault? position body = none ↔ ∀ instruction ∈ body, unit.Admits instruction := by
  induction body generalizing position with
  | nil => exact iff_of_true rfl fun _ member => absurd member List.not_mem_nil
  | cons first rest ih =>
    have here : unit.fault? position first = none ↔ unit.Admits first := fault?_eq_none_iff
    have later := ih (position + 1)
    rw [List.forall_mem_cons, ← here, ← later, firstFault?]
    cases unit.fault? position first with
    | some fault => exact iff_of_false nofun nofun
    | none => exact ⟨fun faultless => ⟨rfl, faultless⟩, fun both => both.2⟩

/-- A unit passes the check as it is if it is well-formed and its parameters are locals. -/
theorem Blueprint.build_eq_ok_iff {unit made : Blueprint} :
    unit.build = .ok made ↔
      made = unit ∧ unit.WellFormed ∧ unit.argumentCount ≤ unit.locals.length := by
  have checked : unit.firstFault? 0 unit.instructions.toList = none ↔
      ∀ instruction ∈ unit.instructions, unit.Admits instruction := by
    rw [firstFault?_eq_none_iff]
    simp only [Array.mem_toList_iff]
  unfold build
  split
  next exceeds => exact iff_of_false nofun fun fits => Nat.not_le.mpr exceeds fits.2.2
  next fits =>
    split
    next empty =>
      refine iff_of_false nofun fun accepted => accepted.2.1.nonempty ?_
      exact Array.isEmpty_iff.mp empty
    next nonempty =>
      have filled : unit.instructions ≠ #[] := fun empty => nonempty (Array.isEmpty_iff.mpr empty)
      split
      next fault found =>
        refine iff_of_false nofun fun accepted => ?_
        rw [checked.mpr accepted.2.1.admits] at found
        cases found
      next faultless =>
        constructor
        · rintro ⟨⟩
          exact ⟨rfl, ⟨filled, checked.mp faultless⟩, Nat.not_lt.mp fits⟩
        · rintro ⟨rfl, _⟩
          rfl

theorem Blueprint.of_build {unit made : Blueprint} (built : unit.build = .ok made) :
    made = unit ∧ unit.WellFormed ∧ unit.argumentCount ≤ unit.locals.length :=
  build_eq_ok_iff.mp built

namespace Heap

structure Grows (heap other : Heap) : Prop where
  cells : other.cells = heap.cells
  namespaces : other.namespaces = heap.namespaces
  functions : other.functions = heap.functions
  size : heap.codes.size ≤ other.codes.size
  codes : ∀ id < heap.codes.size, other.codes.get id = heap.codes.get id

variable {heap other : Heap}

namespace Grows

theorem refl (heap : Heap) : heap.Grows heap :=
  ⟨rfl, rfl, rfl, Nat.le_refl _, fun _ _ => rfl⟩

theorem addCode (heap : Heap) (unit : Blueprint) : heap.Grows (heap.addCode unit) where
  cells := rfl
  namespaces := rfl
  functions := rfl
  size := by simp [Heap.addCode]
  codes id known := by
    rw [Heap.addCode, Table.get_push, if_neg (Nat.ne_of_lt known)]

theorem cell? (grows : heap.Grows other) (cell : CellId) : other.cell? cell = heap.cell? cell := by
  rw [Heap.cell?, Heap.cell?, grows.cells]

theorem names (grows : heap.Grows other) (space : NamespaceId) :
    other.names space = heap.names space := by
  rw [Heap.names, Heap.names, grows.namespaces]

end Grows

@[simp] theorem codes_edit (heap : Heap) (change : HeapEdit) :
    (heap.edit change).codes = heap.codes := by
  cases change <;> rfl

@[simp] theorem codes_editAll (heap : Heap) (edits : List HeapEdit) :
    (heap.editAll edits).codes = heap.codes := by
  induction edits generalizing heap with
  | nil => rfl
  | cons change rest ih => exact (ih _).trans (heap.codes_edit change)

end Heap

end Interpose
