import Interpose.Instruction
import Interpose.Value

/-! Code units: a body of instructions and the tables that their operands index. -/

namespace Interpose

/-- The contents of a unit. The slots of a frame that runs it are its locals, then its cells, then
its free variables; the parameters are the first locals. -/
structure Blueprint where
  name : String
  filename : String := "<unknown>"
  argumentCount : Nat := 0
  locals : List String := []
  cells : List String := []
  frees : List String := []
  constants : Array Value := #[]
  names : Array String := #[]
  instructions : Array Instruction := #[]
deriving DecidableEq, Inhabited

namespace Blueprint

/-- The variables of the cell region: cells first, then free variables. -/
def derefNames (unit : Blueprint) : List String := unit.cells ++ unit.frees

def derefName? (unit : Blueprint) (index : Nat) : Option String := unit.derefNames[index]?

def slotCount (unit : Blueprint) : Nat :=
  unit.locals.length + unit.cells.length + unit.frees.length

def parameters (unit : Blueprint) : List String := unit.locals.take unit.argumentCount

end Blueprint

structure Code extends Blueprint where
  id : CodeId
deriving DecidableEq, Inhabited

end Interpose
