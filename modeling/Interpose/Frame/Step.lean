import Interpose.Frame.Basic
import Interpose.Operation

/-! One instruction of a frame. A step reads the heap and returns the edits it makes; calls leave
the frame to whoever runs it. -/

namespace Interpose.Frame

inductive Progress where
  | next (frame : Frame) (edits : List HeapEdit)
  | call (frame : Frame) (callee : Value) (arguments : List Value)
  | leave (result : Except Fault Value)
  /-- An operand is outside its table. No frame of a well-formed unit gets here. -/
  | broken

namespace Progress

def fail (fault : Fault) : Progress := .leave (.error fault)

end Progress

def push (frame : Frame) (value : Value) : Frame := { frame with stack := value :: frame.stack }

def pushing (frame : Frame) (value : Value) : Progress := .next (frame.push value) []

/-- Pops a value. The position has already moved past the instruction that pops. -/
def popping (frame : Frame) (go : Value → Frame → Progress) : Progress :=
  match frame.stack with
  | value :: rest => go value { frame with stack := rest }
  | [] => .fail (.stackUnderflow frame.code.name (frame.pc - 1))

/-- Pops so many values, which come in the order in which they were pushed. -/
def poppingMany (frame : Frame) (count : Nat) (go : List Value → Frame → Progress) :
    Progress :=
  if frame.stack.length < count then .fail (.stackUnderflow frame.code.name (frame.pc - 1))
  else
    go (frame.stack.take count).reverse { frame with stack := frame.stack.drop count }

def derefName (frame : Frame) (index : Nat) : String := (frame.code.derefName? index).getD "?"

def finding (frame : Frame) (index : Nat) (go : CellId → Progress) : Progress :=
  match frame.derefCell? index with
  | some cell => go cell
  | none => .fail (.noCell frame.code.name index (frame.derefName index))

def cells? : List Value → Except Fault (List CellId)
  | [] => .ok []
  | .cell id :: rest => (cells? rest).map (id :: ·)
  | other :: _ => .error (.closureOfNonCell other.kind)

def pushingResult (frame : Frame) : Except Fault Value → Progress
  | .ok value => frame.pushing value
  | .error fault => .fail fault

section
variable {motive : Progress → Prop} {frame : Frame}

/-- What holds of failures and of what goes on with the value on top holds of popping. -/
@[elab_as_elim]
theorem popping_elim {go : Value → Frame → Progress} (failed : ∀ fault, motive (.fail fault))
    (goes : ∀ value rest, frame.stack = value :: rest →
      motive (go value { frame with stack := rest })) :
    motive (frame.popping go) := by
  unfold popping
  split
  next value rest held => exact goes value rest held
  next => exact failed _

@[elab_as_elim]
theorem poppingMany_elim {count : Nat} {go : List Value → Frame → Progress}
    (failed : ∀ fault, motive (.fail fault))
    (goes : count ≤ frame.stack.length →
      motive (go (frame.stack.take count).reverse
        { frame with stack := frame.stack.drop count })) :
    motive (frame.poppingMany count go) := by
  unfold poppingMany
  split
  next => exact failed _
  next enough => exact goes (Nat.not_lt.mp enough)

@[elab_as_elim]
theorem finding_elim {index : Nat} {go : CellId → Progress}
    (failed : ∀ fault, motive (.fail fault)) (goes : ∀ cell, motive (go cell)) :
    motive (frame.finding index go) := by
  unfold finding
  split
  · exact goes _
  · exact failed _

@[elab_as_elim]
theorem pushingResult_elim {result : Except Fault Value} (failed : ∀ fault, motive (.fail fault))
    (goes : ∀ value, motive (frame.pushing value)) : motive (frame.pushingResult result) := by
  cases result with
  | ok value => exact goes value
  | error fault => exact failed fault

end

theorem noncell_of_cells? {values : List Value} {fault : Fault}
    (failed : cells? values = .error fault) :
    ∃ value ∈ values, (∀ id, value ≠ .cell id) ∧ fault = .closureOfNonCell value.kind := by
  induction values with
  | nil => cases failed
  | cons value rest ih =>
    cases value with
    | cell id =>
      simp only [cells?] at failed
      cases inner : cells? rest with
      | ok closure =>
        rw [inner] at failed
        cases failed
      | error cause =>
        rw [inner] at failed
        cases failed
        obtain ⟨other, member, foreign, same⟩ := ih inner
        exact ⟨other, List.mem_cons_of_mem _ member, foreign, same⟩
    | _ =>
      cases failed
      exact ⟨_, List.mem_cons_self, nofun, rfl⟩

def jump (frame : Frame) (target : Nat) : Frame := { frame with pc := target }

/-- Carries out an instruction. The position has already moved past it. -/
def execute (heap : Heap) (frame : Frame) : Instruction → Progress
  | .loadConst index =>
    match frame.code.constants[index]? with
    | some value => frame.pushing value
    | none => .broken
  | .loadLocal index =>
    match frame.slot? index with
    | some value => frame.pushing value
    | none =>
      match frame.code.locals[index]? with
      | some name => .fail (.unboundLocal name)
      | none => .broken
  | .storeLocal index =>
    frame.popping fun value frame =>
      if index < frame.slots.length then
        .next { frame with slots := frame.slots.set index (some value) } []
      else .broken
  | .loadCell index =>
    frame.finding index fun cell =>
      match heap.cell? cell with
      | some value => frame.pushing value
      | none => .fail (.unboundCell (frame.derefName index))
  | .storeCell index =>
    frame.popping fun value frame =>
      frame.finding index fun cell => .next frame [.writeCell cell value]
  | .loadClosure index => frame.finding index fun cell => frame.pushing (.cell cell)
  | .loadGlobal index =>
    match frame.code.names[index]? with
    | some name =>
      match heap.resolve? frame.globals frame.builtins name with
      | some value => frame.pushing value
      | none => .fail (.undefinedName name)
    | none => .broken
  | .storeGlobal index =>
    frame.popping fun value frame =>
      match frame.code.names[index]? with
      | some name => .next frame [.bind frame.globals name value]
      | none => .broken
  | .binary operator =>
    frame.popping fun right frame =>
      frame.popping fun left frame => frame.pushingResult (operator.apply left right)
  | .compare comparison =>
    frame.popping fun right frame =>
      frame.popping fun left frame =>
        frame.pushingResult ((comparison.apply left right).map .bool)
  | .not => frame.popping fun value frame => frame.pushing (.bool !value.isTruthy)
  | .neg => frame.popping fun value frame => frame.pushingResult value.negate
  | .pop => frame.popping fun _ frame => .next frame []
  | .duplicate =>
    match frame.stack with
    | value :: _ => frame.pushing value
    | [] => .fail (.nothingToDuplicate frame.code.name)
  | .jump target => .next (frame.jump target) []
  | .popJumpIfFalse target =>
    frame.popping fun value frame => .next (if value.isTruthy then frame else frame.jump target) []
  | .popJumpIfTrue target =>
    frame.popping fun value frame => .next (if value.isTruthy then frame.jump target else frame) []
  | .call argumentCount =>
    frame.poppingMany argumentCount fun arguments frame =>
      frame.popping fun callee frame => .call frame callee arguments
  | .makeFunction code freeCount =>
    frame.poppingMany freeCount fun values frame =>
      match cells? values with
      | .error fault => .fail fault
      | .ok closure =>
        match frame.code.constants[code]? with
        | some (.code id) =>
          .next (frame.push (.function (heap.freshFunction id frame.globals closure)))
            [.newFunction]
        | some _ => .fail (.functionOfNonCode frame.code.name)
        | none => .broken
  | .raise => frame.popping fun value _ => .fail (.raised value)
  | .returnValue => frame.popping fun value _ => .leave (.ok value)

def step (heap : Heap) (frame : Frame) : Progress :=
  match frame.code.instructions[frame.pc]? with
  | some instruction => execute heap { frame with pc := frame.pc + 1 } instruction
  | none => .fail (.ranPastEnd frame.code.name)

end Interpose.Frame
