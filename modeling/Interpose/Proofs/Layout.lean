import Interpose.Frame.Entry
import Interpose.Frame.Migration
import Interpose.Frame.Step
import Interpose.Proofs.Division
import Interpose.Proofs.Units

/-! A frame has the slots of its unit and a position in its body. The check of a unit, made once when
it is built, is then enough for every instruction: no operand misses its table, and what an
instruction does not find on the operand stack or in a slot is a failure of the program. -/

namespace Interpose

/-- A unit that the builder gave, from whatever parts. -/
def Blueprint.Accepted (unit : Blueprint) : Prop :=
  ∃ name parts, (Blueprint.assemble name parts).build = .ok unit

/-- What an evaluator that checks no index relies on. -/
structure Blueprint.Operable (unit : Blueprint) : Prop where
  parameters : unit.argumentCount ≤ unit.locals.length
  admits : ∀ instruction ∈ unit.instructions, unit.Admits instruction

theorem Blueprint.operable_of_build {unit made : Blueprint} (built : unit.build = .ok made) :
    made.Operable := by
  obtain ⟨rfl, wellFormed, parameters⟩ := Blueprint.of_build built
  exact ⟨parameters, wellFormed.admits⟩

theorem Blueprint.Accepted.operable {unit : Blueprint} (accepted : unit.Accepted) :
    unit.Operable := by
  obtain ⟨name, parts, built⟩ := accepted
  exact operable_of_build built

theorem Blueprint.slotCount_eq (unit : Blueprint) :
    unit.slotCount = unit.locals.length + unit.derefNames.length := by
  rw [slotCount, derefNames, List.length_append, Nat.add_assoc]

namespace Heap

/-- Every unit can be run, also the empty one that stands for a unit that is not there. -/
def Operable (heap : Heap) : Prop := ∀ id, (heap.codes.get id).Operable

theorem operable_of_accepted {heap : Heap}
    (accepted : ∀ unit ∈ heap.codes.rows, unit.Accepted) : heap.Operable := by
  intro id
  unfold Table.get
  cases found : heap.codes.rows[id]? with
  | some unit => exact (accepted unit (Array.mem_of_getElem? found)).operable
  | none => exact ⟨Nat.le_refl 0, fun _ member => absurd member (Array.not_mem_empty _)⟩

theorem Operable.editAll {heap : Heap} (operable : heap.Operable) (edits : List HeapEdit) :
    (heap.editAll edits).Operable := by
  intro id
  rw [codes_editAll]
  exact operable id

theorem Operable.addCode {heap : Heap} (operable : heap.Operable) {unit : Blueprint}
    (fits : unit.Operable) : (heap.addCode unit).Operable := by
  intro id
  rw [Heap.addCode, Table.get_push]
  split
  · exact fits
  · exact operable id

end Heap

namespace Instruction

def takes : Instruction → Nat
  | .storeLocal _ | .storeCell _ | .storeGlobal _ => 1
  | .binary _ | .compare _ => 2
  | .not | .neg | .pop | .duplicate => 1
  | .popJumpIfFalse _ | .popJumpIfTrue _ => 1
  | .call argumentCount => argumentCount + 1
  | .makeFunction _ freeCount => freeCount
  | .raise | .returnValue => 1
  | _ => 0

def gives : Instruction → Nat
  | .loadConst _ | .loadLocal _ | .loadCell _ | .loadClosure _ | .loadGlobal _ => 1
  | .binary _ | .compare _ | .not | .neg => 1
  | .duplicate => 2
  | .makeFunction _ _ => 1
  | _ => 0

end Instruction

namespace Frame

/-- A frame that an evaluator can run without checking an index. -/
structure Sturdy (frame : Frame) : Prop where
  unit : frame.code.Operable
  slots : frame.slots.length = frame.code.slotCount
  pc : frame.pc ≤ frame.code.instructions.size

inductive Made : Frame → Prop
  | blank {code : Code} (accepted : code.Accepted) (globals builtins : NamespaceId) :
      Made (.blank code globals builtins)
  | entered {heap : Heap} {function : Function} {arguments : List Value} {frame : Frame}
      {edits : List HeapEdit} (accepted : (heap.code function.code).Accepted)
      (builtins : NamespaceId)
      (fits : Frame.enter heap builtins function arguments = .ok (frame, edits)) : Made frame
  | migrated {original shadow : Frame} {code : Code} (made : Made original)
      (accepted : code.Accepted) (builtins : NamespaceId)
      (fits : original.shadow code builtins = .ok shadow) : Made shadow
  | materialized {frame : Frame} (made : Made frame) (heap : Heap) : Made (frame.materialize heap)

namespace Sturdy
variable {frame : Frame}

theorem withStack (sturdy : frame.Sturdy) (stack : List Value) :
    Sturdy { frame with stack } :=
  ⟨sturdy.unit, sturdy.slots, sturdy.pc⟩

theorem push (sturdy : frame.Sturdy) (value : Value) : (frame.push value).Sturdy :=
  sturdy.withStack _

theorem materialize (sturdy : frame.Sturdy) (heap : Heap) : (frame.materialize heap).Sturdy :=
  ⟨sturdy.unit, sturdy.slots, sturdy.pc⟩

theorem jump (sturdy : frame.Sturdy) {target : Nat}
    (inside : target < frame.code.instructions.size) : (frame.jump target).Sturdy :=
  ⟨sturdy.unit, sturdy.slots, Nat.le_of_lt inside⟩

theorem shadow (sturdy : frame.Sturdy) {replacement : Code} (unit : replacement.Operable)
    {builtins : NamespaceId} {moved : Frame}
    (fits : frame.shadow replacement builtins = .ok moved) : moved.Sturdy := by
  obtain ⟨locals, cells, frees, rfl⟩ := shadow_eq_ok_iff.mp fits
  refine ⟨unit, ?_, Nat.zero_le _⟩
  have slots := sturdy.slots
  simp only [migratedSlots, Blueprint.slotCount, List.length_append, List.length_take,
    List.length_drop, List.length_replicate] at slots ⊢
  omega

end Sturdy

theorem enter_eq_ok {heap : Heap} {builtins : NamespaceId} {function : Function}
    {arguments : List Value} {frame : Frame} {edits : List HeapEdit}
    (fits : Frame.enter heap builtins function arguments = .ok (frame, edits)) :
    arguments.length = (heap.code function.code).argumentCount ∧
    function.closure.length = (heap.code function.code).frees.length ∧
    frame = { code := heap.code function.code, globals := function.globals, builtins,
              slots := entrySlots (heap.code function.code) arguments heap.freshCell
                function.closure } := by
  simp only [Frame.enter] at fits
  split at fits
  · cases fits
  next given =>
    split at fits
    · cases fits
    next closed =>
      cases fits
      exact ⟨Decidable.not_not.mp given, Decidable.not_not.mp closed, rfl⟩

theorem edits_of_enter {heap : Heap} {builtins : NamespaceId} {function : Function}
    {arguments : List Value} {frame : Frame} {edits : List HeapEdit}
    (fits : Frame.enter heap builtins function arguments = .ok (frame, edits)) :
    edits = (cellContents (heap.code function.code) arguments).map .newCell := by
  simp only [Frame.enter] at fits
  split at fits
  · cases fits
  · split at fits <;> cases fits
    rfl

theorem sturdy_enter {heap : Heap} {builtins : NamespaceId} {function : Function}
    {arguments : List Value} {frame : Frame} {edits : List HeapEdit}
    (unit : (heap.code function.code).Operable)
    (fits : Frame.enter heap builtins function arguments = .ok (frame, edits)) :
    frame.Sturdy := by
  obtain ⟨given, closed, rfl⟩ := enter_eq_ok fits
  refine ⟨unit, ?_, Nat.zero_le _⟩
  have parameters := unit.parameters
  simp only [entrySlots, Blueprint.slotCount, List.length_append, List.length_map,
    List.length_replicate, List.length_range']
  omega

theorem sturdy_blank {code : Code} (unit : code.Operable) (globals builtins : NamespaceId) :
    (blank code globals builtins).Sturdy :=
  ⟨unit, List.length_replicate, Nat.zero_le _⟩

theorem Made.sturdy {frame : Frame} (made : frame.Made) : frame.Sturdy := by
  induction made with
  | blank accepted globals builtins => exact sturdy_blank accepted.operable globals builtins
  | entered accepted builtins fits => exact sturdy_enter accepted.operable fits
  | migrated made accepted builtins fits ih => exact ih.shadow accepted.operable fits
  | materialized made heap ih => exact ih.materialize heap

end Frame

end Interpose
