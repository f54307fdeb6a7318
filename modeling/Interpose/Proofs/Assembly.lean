import Interpose.Proofs.Units
import Mathlib.Data.List.Induction

/-! Units from parts, whatever their order. Each table collects what the parts declare for it; the
last parameters come first among the locals, and the earlier ones and all other locals behind them.
A unit is built exactly when it has a body and every operand is in the range of its own table. -/

namespace Interpose

namespace Part

def filename? : Part → Option String
  | .filename name => some name
  | _ => none

def parameterNames? : Part → Option (List String)
  | .parameters declared => some declared
  | _ => none

def localNames : Part → List String
  | .locals declared => declared
  | _ => []

def cellNames : Part → List String
  | .cells declared => declared
  | _ => []

def freeNames : Part → List String
  | .frees declared => declared
  | _ => []

def globalNames : Part → List String
  | .names declared => declared
  | _ => []

def values : Part → List Value
  | .constants declared => declared
  | _ => []

def body : Part → List Instruction
  | .instructions body => body
  | _ => []

def lastParameters (parts : List Part) : List String :=
  (parts.filterMap parameterNames?).getLast?.getD []

/-- The parameters that were declared before those, a later declaration before an earlier one. -/
def earlierParameters (parts : List Part) : List String :=
  (parts.filterMap parameterNames?).dropLast.reverse.flatten

def slotNames (parts : List Part) : List String :=
  lastParameters parts ++ earlierParameters parts ++ parts.flatMap localNames

end Part

/-- The operand of an instruction is in the range of its own table among those that the parts
declare, and a function is made of a constant that is code. -/
inductive Instruction.InRange (parts : List Part) : Instruction → Prop
  | loadConst {index} (inside : index < (parts.flatMap Part.values).length) :
      InRange parts (.loadConst index)
  | loadLocal {index} (inside : index < (Part.slotNames parts).length) :
      InRange parts (.loadLocal index)
  | storeLocal {index} (inside : index < (Part.slotNames parts).length) :
      InRange parts (.storeLocal index)
  | loadCell {index}
      (inside : index <
        (parts.flatMap Part.cellNames).length + (parts.flatMap Part.freeNames).length) :
      InRange parts (.loadCell index)
  | storeCell {index}
      (inside : index <
        (parts.flatMap Part.cellNames).length + (parts.flatMap Part.freeNames).length) :
      InRange parts (.storeCell index)
  | loadClosure {index}
      (inside : index <
        (parts.flatMap Part.cellNames).length + (parts.flatMap Part.freeNames).length) :
      InRange parts (.loadClosure index)
  | loadGlobal {index} (inside : index < (parts.flatMap Part.globalNames).length) :
      InRange parts (.loadGlobal index)
  | storeGlobal {index} (inside : index < (parts.flatMap Part.globalNames).length) :
      InRange parts (.storeGlobal index)
  | binary (operator) : InRange parts (.binary operator)
  | compare (comparison) : InRange parts (.compare comparison)
  | not : InRange parts .not
  | neg : InRange parts .neg
  | pop : InRange parts .pop
  | duplicate : InRange parts .duplicate
  | jump {target} (inside : target < (parts.flatMap Part.body).length) :
      InRange parts (.jump target)
  | popJumpIfFalse {target} (inside : target < (parts.flatMap Part.body).length) :
      InRange parts (.popJumpIfFalse target)
  | popJumpIfTrue {target} (inside : target < (parts.flatMap Part.body).length) :
      InRange parts (.popJumpIfTrue target)
  | call (count) : InRange parts (.call count)
  | makeFunction {code id} (constant : (parts.flatMap Part.values)[code]? = some (.code id))
      (count) : InRange parts (.makeFunction code count)
  | raise : InRange parts .raise
  | returnValue : InRange parts .returnValue

namespace Blueprint

structure Declares (name : String) (parts : List Part) (unit : Blueprint) : Prop where
  name : unit.name = name
  filename : unit.filename = (parts.filterMap Part.filename?).getLast?.getD "<unknown>"
  argumentCount : unit.argumentCount = (Part.lastParameters parts).length
  parameters : unit.parameters = Part.lastParameters parts
  locals : unit.locals =
    Part.lastParameters parts ++ Part.earlierParameters parts ++ parts.flatMap Part.localNames
  enough : unit.argumentCount ≤ unit.locals.length
  cells : unit.cells = parts.flatMap Part.cellNames
  frees : unit.frees = parts.flatMap Part.freeNames
  names : unit.names.toList = parts.flatMap Part.globalNames
  constants : unit.constants.toList = parts.flatMap Part.values
  instructions : unit.instructions.toList = parts.flatMap Part.body

structure BuildsExactly (name : String) (parts : List Part) : Prop where
  accepts : (∃ made, (assemble name parts).build = .ok made) ↔
    parts.flatMap Part.body ≠ [] ∧
      ∀ instruction ∈ parts.flatMap Part.body, instruction.InRange parts
  /-- There is a local for every parameter, so the check for that never fails. -/
  enough : ∀ unit parameters locals,
    (assemble name parts).build ≠ .error (.parametersExceedLocals unit parameters locals)
  declares : ∀ made, (assemble name parts).build = .ok made → made.Declares name parts

private theorem flatten_reverse (lists : List (List String)) :
    lists.reverse.flatten = lists.getLast?.getD [] ++ lists.dropLast.reverse.flatten := by
  rcases lists.eq_nil_or_concat with rfl | ⟨rest, last, rfl⟩
  · rfl
  · simp

/-- A further part is added to what was assembled before. -/
theorem assemble_concat (name : String) (parts : List Part) (part : Part) :
    assemble name (parts ++ [part]) = (assemble name parts).extend part := by
  rw [assemble, List.foldl_append, List.foldl_cons, List.foldl_nil, assemble]

theorem slotNames_eq (parts : List Part) :
    Part.slotNames parts =
      (parts.filterMap Part.parameterNames?).reverse.flatten ++ parts.flatMap Part.localNames := by
  rw [Part.slotNames, flatten_reverse, Part.lastParameters, Part.earlierParameters]

/-- The unit that the parts declare, whether or not it passes the check. -/
theorem assemble_eq (name : String) (parts : List Part) :
    assemble name parts =
      { name
        filename := (parts.filterMap Part.filename?).getLast?.getD "<unknown>"
        argumentCount := (Part.lastParameters parts).length
        locals := Part.slotNames parts
        cells := parts.flatMap Part.cellNames
        frees := parts.flatMap Part.freeNames
        constants := (parts.flatMap Part.values).toArray
        names := (parts.flatMap Part.globalNames).toArray
        instructions := (parts.flatMap Part.body).toArray } := by
  induction parts using List.reverseRecOn with
  | nil => rfl
  | append_singleton parts part ih =>
    rw [assemble_concat, ih]
    cases part <;>
      simp [extend, Part.lastParameters, slotNames_eq, Part.filename?, Part.parameterNames?,
        Part.localNames, Part.cellNames, Part.freeNames, Part.globalNames, Part.values, Part.body]

theorem declares_assemble (name : String) (parts : List Part) :
    (assemble name parts).Declares name parts := by
  rw [assemble_eq]
  constructor
  case parameters =>
    rw [parameters, Part.slotNames, List.append_assoc, List.take_left]
  case enough =>
    simp only [Part.slotNames, List.length_append]
    omega
  all_goals rfl

/-- The size of each table, from the parts. -/
theorem available_assemble (name : String) (parts : List Part) (operand : Operand) :
    (assemble name parts).available operand =
      match operand with
      | .constant => (parts.flatMap Part.values).length
      | .localSlot => (Part.slotNames parts).length
      | .deref => (parts.flatMap Part.cellNames).length + (parts.flatMap Part.freeNames).length
      | .name => (parts.flatMap Part.globalNames).length
      | .target => (parts.flatMap Part.body).length := by
  rw [assemble_eq]
  cases operand with
  | deref => exact List.length_append
  | _ => rfl

theorem admits_iff_of_operand {unit : Blueprint} {instruction : Instruction} {operand : Operand}
    {index : Nat} (operated : instruction.operand? = some (operand, index)) :
    unit.Admits instruction ↔ index < unit.available operand := by
  cases instruction with
  | makeFunction code count => cases operated
  | _ =>
    constructor
    · intro admitted
      exact admitted operand index operated
    · intro inside other place same
      rw [operated] at same
      cases same
      exact inside

theorem admits_assemble_iff (name : String) (parts : List Part) (instruction : Instruction) :
    (assemble name parts).Admits instruction ↔ instruction.InRange parts := by
  cases instruction with
  | loadConst index | loadLocal index | storeLocal index | loadCell index | storeCell index
  | loadClosure index | loadGlobal index | storeGlobal index | jump target
  | popJumpIfFalse target | popJumpIfTrue target =>
    rw [admits_iff_of_operand rfl, available_assemble]
    constructor
    · intro inside
      constructor
      exact inside
    · intro ranged
      cases ranged
      assumption
  | makeFunction code count =>
    have constants :
        (assemble name parts).constants[code]? = (parts.flatMap Part.values)[code]? := by
      rw [assemble_eq, List.getElem?_toArray]
    rw [Admits, constants]
    constructor
    · rintro ⟨id, constant⟩
      exact .makeFunction constant count
    · intro ranged
      cases ranged with
      | makeFunction constant => exact ⟨_, constant⟩
  | _ =>
    refine iff_of_true (fun _ _ => nofun) ?_
    constructor

/-- No instruction is at fault for too many parameters. -/
theorem fault?_ne_parametersExceedLocals {unit : Blueprint} {position : Nat}
    {instruction : Instruction} {fault : BuildFault}
    (found : unit.fault? position instruction = some fault) (owner : String)
    (parameters locals : Nat) : fault ≠ .parametersExceedLocals owner parameters locals := by
  rintro rfl
  cases instruction with
  | makeFunction code count =>
    simp only [fault?] at found
    split at found <;> cases found
  | _ =>
    simp only [fault?] at found
    split at found
    · split at found <;> cases found
    · cases found

theorem firstFault?_ne_parametersExceedLocals {unit : Blueprint} {position : Nat}
    {body : List Instruction} {fault : BuildFault}
    (found : unit.firstFault? position body = some fault) (owner : String)
    (parameters locals : Nat) : fault ≠ .parametersExceedLocals owner parameters locals := by
  induction body generalizing position with
  | nil => cases found
  | cons first rest ih =>
    rw [firstFault?] at found
    split at found
    next other here =>
      cases found
      exact fault?_ne_parametersExceedLocals here owner parameters locals
    next => exact ih found

/-- A unit is built exactly when it has a body all of whose operands are in range, and then it is
what its parts declare. -/
theorem builds_exactly (name : String) (parts : List Part) : BuildsExactly name parts := by
  have declares := declares_assemble name parts
  have nonempty : (assemble name parts).instructions ≠ #[] ↔ parts.flatMap Part.body ≠ [] := by
    rw [← declares.instructions, ne_eq, ne_eq, Array.toList_eq_nil_iff]
  have admits : (∀ instruction ∈ (assemble name parts).instructions,
        (assemble name parts).Admits instruction) ↔
      ∀ instruction ∈ parts.flatMap Part.body, instruction.InRange parts := by
    simp only [← declares.instructions, Array.mem_toList_iff, admits_assemble_iff]
  constructor
  case accepts =>
    constructor
    · rintro ⟨made, built⟩
      obtain ⟨rfl, wellFormed, _⟩ := build_eq_ok_iff.mp built
      exact ⟨nonempty.mp wellFormed.nonempty, admits.mp wellFormed.admits⟩
    · rintro ⟨filled, ranged⟩
      refine ⟨_, build_eq_ok_iff.mpr ⟨rfl, ?_, declares.enough⟩⟩
      exact ⟨nonempty.mpr filled, admits.mpr ranged⟩
  case enough =>
    intro unit parameters locals refused
    have fits : ¬(assemble name parts).locals.length < (assemble name parts).argumentCount :=
      Nat.not_lt.mpr declares.enough
    rw [build, if_neg fits] at refused
    split at refused
    · cases refused
    · split at refused
      next fault found =>
        cases refused
        exact firstFault?_ne_parametersExceedLocals found unit parameters locals rfl
      next => cases refused
  case declares =>
    intro made built
    obtain ⟨rfl, _⟩ := build_eq_ok_iff.mp built
    exact declares

end Blueprint

end Interpose
