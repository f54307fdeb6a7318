import Interpose.Proofs.Entry
import Interpose.Proofs.Safety
import Interpose.Proofs.Variables

/-! Cells over a run. Nothing but a write to a cell changes what it contains, so what is read is
what was written last. A call makes its cells behind all that are there, and none ever goes, so a
cell is made for one activation only. -/

namespace Interpose
variable {σ α : Type}

namespace Heap
variable {heap : Heap} {cell : CellId}

theorem size_le_edit (heap : Heap) (change : HeapEdit) :
    heap.cells.size ≤ (heap.edit change).cells.size := by
  cases change with
  | newCell content =>
    rw [edit, Table.size_push]
    exact Nat.le_succ _
  | writeCell place value =>
    rw [edit, Table.size_set]
    exact Nat.le_max_left _ _
  | newNamespace | bind space name value | newFunction => exact Nat.le_refl _

theorem size_le_editAll (heap : Heap) (edits : List HeapEdit) :
    heap.cells.size ≤ (heap.editAll edits).cells.size := by
  induction edits generalizing heap with
  | nil => exact Nat.le_refl _
  | cons change rest ih => exact Nat.le_trans (size_le_edit heap change) (ih (heap.edit change))

theorem lt_size_of_filled {value : Value} (filled : heap.cell? cell = some value) :
    cell < heap.cells.size := by
  rcases Nat.lt_or_ge cell heap.cells.size with there | outside
  · exact there
  · rw [cell?, Table.get_of_size_le outside] at filled
    cases filled

/-- A new cell is not one of those that are there. -/
theorem cell?_edit_of_unwritten (there : cell < heap.cells.size) {change : HeapEdit}
    (spared : ∀ value, change ≠ .writeCell cell value) :
    (heap.edit change).cell? cell = heap.cell? cell := by
  rw [cell?_edit]
  cases change with
  | newCell content =>
    cases content with
    | none => rfl
    | some value => exact if_neg (Nat.ne_of_lt there)
  | writeCell place value =>
    refine if_neg ?_
    rintro rfl
    exact spared value rfl
  | newNamespace | bind space name value | newFunction => rfl

theorem cell?_editAll_of_unwritten (there : cell < heap.cells.size) {edits : List HeapEdit}
    (spared : ∀ value, .writeCell cell value ∉ edits) :
    (heap.editAll edits).cell? cell = heap.cell? cell := by
  induction edits generalizing heap with
  | nil => rfl
  | cons change rest ih =>
    have first : (heap.edit change).cell? cell = heap.cell? cell := by
      refine cell?_edit_of_unwritten there ?_
      rintro value rfl
      exact spared value List.mem_cons_self
    have others (value : Value) : HeapEdit.writeCell cell value ∉ rest :=
      fun member => spared value (List.mem_cons_of_mem _ member)
    exact (ih (Nat.lt_of_lt_of_le there (size_le_edit heap change)) others).trans first

end Heap

namespace Machine
variable {host : Host σ} {start before after machine : Machine σ α} {cell : CellId}

theorem Move.operable (move : Move host before after) (units : before.world.heap.Operable) :
    after.world.heap.Operable := by
  cases move with
  | entered | ran => exact units.editAll _
  | performed applied => exact Action.operable_apply applied units
  | _ => exact units

theorem operable_of_met (units : start.world.heap.Operable)
    (met : Transition.Meets (step host) start machine) : machine.world.heap.Operable :=
  met_keeps (fun _ _ _ units move => move.operable units) units met

theorem Move.size_le (move : Move host before after) :
    before.world.heap.cells.size ≤ after.world.heap.cells.size := by
  rw [move.grows.cells]
  exact Heap.size_le_editAll _ _

theorem size_le_of_met (met : Transition.Meets (step host) start machine) :
    start.world.heap.cells.size ≤ machine.world.heap.cells.size := by
  have kept (before after : Machine σ α) (_ : Transition.Meets (step host) start before)
      (grown : start.world.heap.cells.size ≤ before.world.heap.cells.size)
      (move : Move host before after) :
      start.world.heap.cells.size ≤ after.world.heap.cells.size :=
    Nat.le_trans grown move.size_le
  exact met_keeps kept (Nat.le_refl _) met

def Unwritten (host : Host σ) (start : Machine σ α) (cell : CellId) (fuel : Nat) : Prop :=
  ∀ earlier < fuel, ∀ machine value, run host earlier start = .next machine →
    .writeCell cell value ∉ machine.edits

theorem cell?_of_unwritten {fuel : Nat} (there : cell < start.world.heap.cells.size)
    (met : run host fuel start = .next machine) (spared : Unwritten host start cell fuel) :
    machine.world.heap.cell? cell = start.world.heap.cell? cell := by
  induction fuel generalizing machine with
  | zero =>
    cases met
    rfl
  | succ fuel ih =>
    obtain ⟨before, reached, move⟩ := exists_move_of_run met
    have sooner : Unwritten host start cell fuel :=
      fun earlier early => spared earlier (Nat.lt_succ_of_lt early)
    have still := Nat.lt_of_lt_of_le there (size_le_of_met ⟨fuel, reached⟩)
    have last (value : Value) : .writeCell cell value ∉ before.edits :=
      spared fuel (Nat.lt_succ_self fuel) before value reached
    rw [move.grows.cell?, Heap.cell?_editAll_of_unwritten still last, ih reached sooner]

/-- The machine is about to call a function, for a frame or for a program that asks for the frame
of the call. -/
inductive Invokes (id : ThreadId) (function : Function) (arguments : List Value) :
    Machine σ α → Prop
  | called {stack world} :
      Invokes id function arguments ⟨.enter id (.call (.function function) arguments), stack, world⟩
  | requested {role next stack world} :
      Invokes id function arguments
        ⟨.program role (.perform (.enter id function arguments) next), stack, world⟩

def Activates (machine : Machine σ α) (frame : Frame) : Prop :=
  ∃ id function arguments edits, machine.Invokes id function arguments ∧
    Frame.enter machine.world.heap (machine.world.builtins id) function arguments =
      .ok (frame, edits)

/-- The cell is made for a variable of the frame of a call, after so many steps. -/
def MadeFor (host : Host σ) (start : Machine σ α) (fuel : Nat) (cell : CellId) : Prop :=
  ∃ machine frame index, run host fuel start = .next machine ∧ machine.Activates frame ∧
    index < frame.code.cells.length ∧ frame.derefCell? index = some cell

variable {frame : Frame}

/-- The own cells of a frame lie behind those that are there. -/
theorem Activates.derefCell? (activates : machine.Activates frame)
    (units : machine.world.heap.Operable) {index : Nat}
    (inside : index < frame.code.cells.length) :
    frame.derefCell? index = some (machine.world.heap.cells.size + index) := by
  obtain ⟨id, function, arguments, edits, _, fits⟩ := activates
  obtain ⟨given, _, rfl⟩ := Frame.enter_eq_ok fits
  have room : arguments.length ≤ (machine.world.heap.code function.code).locals.length :=
    given ▸ (units function.code).parameters
  rw [Frame.derefCell?, Frame.slot?, Frame.entrySlots_cell room inside]
  rfl

theorem Activates.size_eq (activates : machine.Activates frame) (move : Move host machine after) :
    after.world.heap.cells.size = machine.world.heap.cells.size + frame.code.cells.length := by
  obtain ⟨id, function, arguments, edits, invokes, fits⟩ := activates
  have made : machine.edits = edits := by
    cases invokes <;> simp only [Machine.edits, Action.edits, World.entryEdits, fits]
  obtain ⟨_, _, rfl⟩ := Frame.enter_eq_ok fits
  rw [move.grows.cells, made, Frame.edits_of_enter fits, Heap.size_newCells, Frame.cellContents,
    List.length_map]

section
variable {early late : Nat}

theorem met_of_le {later : Machine σ α} (order : early ≤ late)
    (met : run host early start = .next machine) (after : run host late start = .next later) :
    Transition.Meets (step host) machine later := by
  obtain ⟨more, rfl⟩ := Nat.exists_eq_add_of_le order
  refine ⟨more, ?_⟩
  rwa [run, Transition.run_add, ← run, met] at after

theorem exists_move_of_lt {later : Machine σ α} (order : early < late)
    (met : run host early start = .next machine) (after : run host late start = .next later) :
    ∃ next, Move host machine next ∧ Transition.Meets (step host) next later := by
  obtain ⟨more, rfl⟩ := Nat.exists_eq_add_of_lt order
  rw [run, Nat.add_assoc, Transition.run_add, ← run, met] at after
  simp only [run, Transition.run] at after
  cases stepped : step host machine with
  | halt outcome =>
    rw [stepped] at after
    cases after
  | next next =>
    rw [stepped] at after
    exact ⟨next, step_eq_next_iff.mp stepped, more, after⟩

theorem MadeFor.absent (units : start.world.heap.Operable) (made : MadeFor host start late cell)
    (met : run host early start = .next machine) (order : early ≤ late) :
    machine.world.heap.cells.size ≤ cell := by
  obtain ⟨before, frame, index, reached, activates, inside, held⟩ := made
  rw [activates.derefCell? (operable_of_met units ⟨late, reached⟩) inside] at held
  cases held
  exact Nat.le_add_right_of_le (size_le_of_met (met_of_le order met reached))

theorem MadeFor.present (units : start.world.heap.Operable) (made : MadeFor host start early cell)
    (met : run host late start = .next machine) (order : early < late) :
    cell < machine.world.heap.cells.size := by
  obtain ⟨before, frame, index, reached, activates, inside, held⟩ := made
  rw [activates.derefCell? (operable_of_met units ⟨early, reached⟩) inside] at held
  cases held
  obtain ⟨next, move, onward⟩ := exists_move_of_lt order reached met
  have grown := size_le_of_met onward
  rw [activates.size_eq move] at grown
  exact Nat.lt_of_lt_of_le (Nat.add_lt_add_left inside _) grown

/-- A cell is made for one activation only. -/
theorem MadeFor.unique (units : start.world.heap.Operable) (one : MadeFor host start early cell)
    (other : MadeFor host start late cell) : early = late := by
  have apart {first second : Nat} (one : MadeFor host start first cell)
      (other : MadeFor host start second cell) : second ≤ first := by
    refine Nat.not_lt.mp fun order => ?_
    obtain ⟨machine, _, _, reached, _⟩ := id other
    have there := one.present units reached order
    exact absurd (other.absent units reached (Nat.le_refl _)) (Nat.not_le.mpr there)
  exact Nat.le_antisymm (apart other one) (apart one other)

end

end Machine

end Interpose
