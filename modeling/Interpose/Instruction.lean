/-! The instructions of the stack machine. -/

namespace Interpose

inductive BinaryOperator where
  | add
  | sub
  | mul
  | div
  | floorDiv
  | mod
deriving DecidableEq, Repr

inductive Comparison where
  | eq
  | ne
  | lt
  | le
  | gt
  | ge
deriving DecidableEq, Repr

/-- One instruction. An operand is an index into one of the tables of the unit: its constants, its
locals, its cells followed by its free variables, its global names, or its instructions. -/
inductive Instruction where
  | loadConst (index : Nat)
  | loadLocal (index : Nat)
  | storeLocal (index : Nat)
  | loadCell (index : Nat)
  | storeCell (index : Nat)
  /-- Pushes the cell itself, for a function that is about to be made. -/
  | loadClosure (index : Nat)
  | loadGlobal (index : Nat)
  | storeGlobal (index : Nat)
  | binary (operator : BinaryOperator)
  | compare (comparison : Comparison)
  | not
  | neg
  | pop
  | duplicate
  | jump (target : Nat)
  | popJumpIfFalse (target : Nat)
  | popJumpIfTrue (target : Nat)
  | call (argumentCount : Nat)
  /-- Pops so many cells, in the order in which they were pushed, and pushes a function of them and
  a code constant. -/
  | makeFunction (code : Nat) (freeCount : Nat)
  | raise
  | returnValue
deriving DecidableEq, Repr

end Interpose
