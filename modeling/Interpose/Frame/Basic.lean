import Interpose.Heap
import Interpose.Rendering

/-! A frame is one run of a unit: its slots, its operand stack, and its position. -/

namespace Interpose

structure Frame where
  code : Code
  globals : NamespaceId
  builtins : NamespaceId
  /-- The locals, then the cells, then the free variables; an unbound slot holds nothing. -/
  slots : List (Option Value)
  /-- The variables by name, once they have been materialized. -/
  locals? : Option (Bindings Value) := none
  /-- The operand stack, its top first. -/
  stack : List Value := []
  pc : Nat := 0
deriving DecidableEq

namespace Frame

def blank (code : Code) (globals builtins : NamespaceId) : Frame :=
  { code, globals, builtins, slots := List.replicate code.slotCount none }

def slot? (frame : Frame) (index : Nat) : Option Value := (frame.slots[index]?).join

def local? (frame : Frame) (name : String) : Option Value :=
  (frame.code.locals.idxOf? name).bind frame.slot?

def derefCell? (frame : Frame) (index : Nat) : Option CellId :=
  match frame.slot? (frame.code.locals.length + index) with
  | some (.cell id) => some id
  | _ => none

/-- The variables that locals show: the bound ones. -/
def visibleLocals (frame : Frame) : List (String × Value) :=
  (frame.code.locals.zip frame.slots).filterMap fun (name, slot) => slot.map (name, ·)

/-- The variables that cells and free variables show: the contents of filled cells. -/
def visibleCells (heap : Heap) (frame : Frame) : List (String × Value) :=
  (frame.code.derefNames.zip (frame.slots.drop frame.code.locals.length)).filterMap
    fun (name, slot) =>
      match slot with
      | some (.cell id) => (heap.cell? id).map (name, ·)
      | _ => none

/-- Materializes the variables by name. Where a name is visible more than once, the last slot in
slot order counts; nothing of an earlier materialization remains. -/
def materialize (heap : Heap) (frame : Frame) : Frame :=
  { frame with
    locals? := some ((frame.visibleLocals ++ frame.visibleCells heap).foldl
      (fun bindings (name, value) => bindings.set name value) .empty) }

def detail? (heap : Heap) (frame : Frame) : Option String :=
  (frame.slots.mapM heap.slotDetail?).map fun slots =>
    "Frame \x7b code: " ++ Text.quote frame.code.name ++ ", pc: " ++ Decimal.ofNat frame.pc ++
      ", slots: " ++ listText slots ++ " \x7d"

end Frame

end Interpose
