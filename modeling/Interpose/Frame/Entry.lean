import Interpose.Fault
import Interpose.Frame.Basic

/-! Entering a function: its arguments become the first locals, every cell variable gets a new cell,
and the free variables are the cells of its closure. -/

namespace Interpose.Frame

/-- What the new cell of a variable contains: the argument of the first parameter of that name, or
nothing. -/
def captured (code : Code) (arguments : List Value) (name : String) : Option Value :=
  (code.parameters.idxOf? name).bind (arguments[·]?)

def cellContents (code : Code) (arguments : List Value) : List (Option Value) :=
  code.cells.map (captured code arguments)

def entrySlots (code : Code) (arguments : List Value) (firstCell : CellId)
    (closure : List CellId) : List (Option Value) :=
  arguments.map some ++
    List.replicate (code.locals.length - arguments.length) none ++
    (List.range' firstCell code.cells.length).map (fun cell => some (.cell cell)) ++
    closure.map (fun cell => some (.cell cell))

/-- The frame of a call, and the edits that make its new cells. A call with the wrong number of
arguments, or of a function with the wrong number of cells, makes nothing. -/
def enter (heap : Heap) (builtins : NamespaceId) (function : Function) (arguments : List Value) :
    Except Fault (Frame × List HeapEdit) :=
  let code := heap.code function.code
  if arguments.length ≠ code.argumentCount then
    .error (.argumentMismatch code.name code.argumentCount arguments.length)
  else if function.closure.length ≠ code.frees.length then
    .error (.closureMismatch code.name function.closure.length code.frees.length)
  else
    .ok ({ code, globals := function.globals, builtins,
           slots := entrySlots code arguments heap.freshCell function.closure },
      (cellContents code arguments).map .newCell)

end Interpose.Frame
