import Interpose.Code.Basic

/-! Building units: a unit is put together from parts, and checked once when it is complete. A unit
that passes the check has every operand in the range of its own table. -/

namespace Interpose

inductive Part where
  | filename (name : String)
  /-- Declares all parameters; they go before the locals declared so far. -/
  | parameters (names : List String)
  | locals (names : List String)
  | cells (names : List String)
  | frees (names : List String)
  | names (names : List String)
  | constants (values : List Value)
  | instructions (body : List Instruction)

namespace Blueprint

def extend (unit : Blueprint) : Part → Blueprint
  | .filename name => { unit with filename := name }
  | .parameters names =>
    { unit with argumentCount := names.length, locals := names ++ unit.locals }
  | .locals names => { unit with locals := unit.locals ++ names }
  | .cells names => { unit with cells := unit.cells ++ names }
  | .frees names => { unit with frees := unit.frees ++ names }
  | .names names => { unit with names := unit.names ++ names }
  | .constants values => { unit with constants := unit.constants ++ values }
  | .instructions body => { unit with instructions := unit.instructions ++ body }

def assemble (name : String) (parts : List Part) : Blueprint := parts.foldl extend { name }

end Blueprint

inductive Operand where
  | constant
  | localSlot
  | deref
  | name
  | target
deriving DecidableEq, Repr

def Operand.description : Operand → String
  | .constant => "constant"
  | .localSlot => "local"
  | .deref => "deref slot"
  | .name => "name"
  | .target => "jump target"

def Blueprint.available (unit : Blueprint) : Operand → Nat
  | .constant => unit.constants.size
  | .localSlot => unit.locals.length
  | .deref => unit.derefNames.length
  | .name => unit.names.size
  | .target => unit.instructions.size

def Instruction.operand? : Instruction → Option (Operand × Nat)
  | .loadConst index => some (.constant, index)
  | .loadLocal index => some (.localSlot, index)
  | .storeLocal index => some (.localSlot, index)
  | .loadCell index => some (.deref, index)
  | .storeCell index => some (.deref, index)
  | .loadClosure index => some (.deref, index)
  | .loadGlobal index => some (.name, index)
  | .storeGlobal index => some (.name, index)
  | .jump target => some (.target, target)
  | .popJumpIfFalse target => some (.target, target)
  | .popJumpIfTrue target => some (.target, target)
  | _ => none

/-- Why a unit was not built. The position is that of the instruction at fault. -/
inductive BuildFault where
  | parametersExceedLocals (unit : String) (parameters locals : Nat)
  | emptyBody (unit : String)
  | outOfRange (unit : String) (position : Nat) (operand : Operand) (index available : Nat)
  | constantOutOfRange (unit : String) (position index : Nat)
  | constantNotCode (unit : String) (position : Nat) (found : Kind)
deriving DecidableEq, Repr

namespace Blueprint

/-- Whether every operand of an instruction is in its table, and the constant of a function to be
made is code. -/
def Admits (unit : Blueprint) : Instruction → Prop
  | .makeFunction code _ => ∃ id, unit.constants[code]? = some (.code id)
  | instruction =>
    ∀ operand index,
      instruction.operand? = some (operand, index) → index < unit.available operand

/-- What the engine relies on in a unit that it runs. -/
structure WellFormed (unit : Blueprint) : Prop where
  nonempty : unit.instructions ≠ #[]
  admits : ∀ instruction ∈ unit.instructions, unit.Admits instruction

def fault? (unit : Blueprint) (position : Nat) : Instruction → Option BuildFault
  | .makeFunction code _ =>
    match unit.constants[code]? with
    | some (.code _) => none
    | some other => some (.constantNotCode unit.name position other.kind)
    | none => some (.constantOutOfRange unit.name position code)
  | instruction =>
    match instruction.operand? with
    | some (operand, index) =>
      if index < unit.available operand then none
      else some (.outOfRange unit.name position operand index (unit.available operand))
    | none => none

def firstFault? (unit : Blueprint) (position : Nat) : List Instruction → Option BuildFault
  | [] => none
  | instruction :: rest =>
    match unit.fault? position instruction with
    | some fault => some fault
    | none => unit.firstFault? (position + 1) rest

def build (unit : Blueprint) : Except BuildFault Blueprint :=
  if unit.locals.length < unit.argumentCount then
    .error (.parametersExceedLocals unit.name unit.argumentCount unit.locals.length)
  else if unit.instructions.isEmpty then .error (.emptyBody unit.name)
  else
    match unit.firstFault? 0 unit.instructions.toList with
    | some fault => .error fault
    | none => .ok unit

end Blueprint

end Interpose
