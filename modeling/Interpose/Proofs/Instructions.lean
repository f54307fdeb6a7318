import Interpose.Code.Builder
import Interpose.Frame.Step

/-! What one instruction can do to its frame. It keeps the unit, the namespaces and the slots,
except that one instruction stores a local; and when it fails for want of a variable, then because
the slot or the cell that it reads is empty, or because its slot holds no cell. -/

namespace Interpose

/-- A variable was read that has no value, or has no cell to hold one. -/
def Fault.isVariable : Fault → Bool
  | .unboundLocal _ => true
  | .unboundCell _ => true
  | .noCell _ _ _ => true
  | _ => false

section operators
variable {fault : Fault}

private theorem checked_plain {operator : BinaryOperator} {result : Option Int64}
    (failed : operator.checked result = .error fault) : fault.isVariable = false := by
  cases result <;> cases failed
  rfl

private theorem repeatString_plain {s : String} {count : Int64}
    (failed : (repeatString s count).map Value.str = .error fault) : fault.isVariable = false := by
  unfold repeatString at failed
  dsimp only at failed
  split at failed
  · cases failed
  · split at failed <;> cases failed
    rfl

private theorem onIntegers_plain {operator : BinaryOperator} {a b : Int64}
    (failed : operator.onIntegers a b = .error fault) : fault.isVariable = false := by
  unfold BinaryOperator.onIntegers at failed
  split at failed
  · cases failed
    rfl
  · cases operator with
    | div => cases failed
    | add | sub | mul | floorDiv | mod => exact checked_plain failed

private theorem onFloats_plain {operator : BinaryOperator} {a b : Binary64}
    (failed : operator.onFloats a b = .error fault) : fault.isVariable = false := by
  unfold BinaryOperator.onFloats at failed
  split at failed <;> cases failed
  rfl

/-- The operators know nothing of variables. -/
theorem BinaryOperator.apply_plain {operator : BinaryOperator} {left right : Value}
    (failed : operator.apply left right = .error fault) : fault.isVariable = false := by
  unfold apply at failed
  split at failed
  · exact onIntegers_plain failed
  · cases failed
  · exact repeatString_plain failed
  · exact repeatString_plain failed
  · split at failed
    · exact onFloats_plain failed
    · cases failed
      rfl

theorem Comparison.apply_plain {comparison : Comparison} {left right : Value}
    (failed : (comparison.apply left right).map Value.bool = .error fault) :
    fault.isVariable = false := by
  unfold apply at failed
  split at failed
  · cases failed
  · cases failed
  · split at failed <;> cases failed
    rfl

theorem Value.negate_plain {value : Value} (failed : value.negate = .error fault) :
    fault.isVariable = false := by
  cases value with
  | int n =>
    simp only [negate] at failed
    split at failed <;> cases failed
    rfl
  | float x => cases failed
  | _ =>
    cases failed
    rfl

end operators

namespace Frame

structure SameBody (first second : Frame) : Prop where
  code : second.code = first.code
  globals : second.globals = first.globals
  builtins : second.builtins = first.builtins
  slots : second.slots = first.slots

structure Advances (frame : Frame) (instruction : Instruction) (after : Frame) : Prop where
  code : after.code = frame.code
  globals : after.globals = frame.globals
  builtins : after.builtins = frame.builtins
  slots : after.slots = frame.slots ∨
    ∃ index value, instruction = .storeLocal index ∧ index < frame.slots.length ∧
      after.slots = frame.slots.set index (some value)

inductive Misses (heap : Heap) (frame : Frame) : Instruction → Fault → Prop
  | unbound {index name} (empty : frame.slot? index = none)
      (named : frame.code.locals[index]? = some name) :
      Misses heap frame (.loadLocal index) (.unboundLocal name)
  | empty {index cell} (held : frame.derefCell? index = some cell)
      (empty : heap.cell? cell = none) :
      Misses heap frame (.loadCell index) (.unboundCell (frame.derefName index))
  | cellless {instruction : Instruction} {index}
      (operand : instruction.operand? = some (.deref, index))
      (none : frame.derefCell? index = none) :
      Misses heap frame instruction
        (.noCell frame.code.name index (frame.derefName index))

def Progress.Accords (heap : Heap) (home : Frame) (instruction : Instruction) : Progress → Prop
  | .next after _ => home.Advances instruction after
  | .call after _ _ => home.Advances instruction after
  | .leave (.error fault) => fault.isVariable = true → home.Misses heap instruction fault
  | .leave (.ok _) => True
  | .broken => True

/-- The next step of a frame leads to another point of it, at once or when a call returns. -/
def GoesOn (heap : Heap) (frame after : Frame) : Prop :=
  (∃ edits, frame.step heap = .next after edits) ∨
    ∃ callee arguments, frame.step heap = .call after callee arguments

theorem SameBody.refl (frame : Frame) : frame.SameBody frame := ⟨rfl, rfl, rfl, rfl⟩

section
variable {heap : Heap} {home frame : Frame} {instruction : Instruction}

theorem SameBody.withStack (same : home.SameBody frame) (stack : List Value) :
    home.SameBody { frame with stack } :=
  ⟨same.code, same.globals, same.builtins, same.slots⟩

theorem SameBody.jump (same : home.SameBody frame) (target : Nat) :
    home.SameBody (frame.jump target) :=
  ⟨same.code, same.globals, same.builtins, same.slots⟩

theorem SameBody.advances (same : home.SameBody frame) : home.Advances instruction frame :=
  ⟨same.code, same.globals, same.builtins, .inl same.slots⟩

theorem SameBody.slot? (same : home.SameBody frame) (index : Nat) :
    frame.slot? index = home.slot? index := by
  rw [Frame.slot?, Frame.slot?, same.slots]

theorem SameBody.derefCell? (same : home.SameBody frame) (index : Nat) :
    frame.derefCell? index = home.derefCell? index := by
  rw [Frame.derefCell?, Frame.derefCell?, same.slot?, same.code]

theorem SameBody.derefName (same : home.SameBody frame) (index : Nat) :
    frame.derefName index = home.derefName index := by
  rw [Frame.derefName, Frame.derefName, same.code]

private theorem accords_fail {fault : Fault} (plain : fault.isVariable = false) :
    (Progress.fail fault).Accords heap home instruction := by
  intro missed
  rw [plain] at missed
  cases missed

private theorem accords_pushing (same : home.SameBody frame) (value : Value) :
    (frame.pushing value).Accords heap home instruction :=
  (same.withStack _).advances

private theorem accords_pushingResult (same : home.SameBody frame) {result : Except Fault Value}
    (plain : ∀ fault, result = .error fault → fault.isVariable = false) :
    (frame.pushingResult result).Accords heap home instruction := by
  cases result with
  | ok value => exact accords_pushing same value
  | error fault => exact accords_fail (plain fault rfl)

private theorem accords_popping (same : home.SameBody frame) {go : Value → Frame → Progress}
    (goes : ∀ value after, home.SameBody after → (go value after).Accords heap home instruction) :
    (frame.popping go).Accords heap home instruction := by
  unfold popping
  split
  next value rest held => exact goes value _ (same.withStack rest)
  next => exact accords_fail rfl

private theorem accords_poppingMany (same : home.SameBody frame) (count : Nat)
    {go : List Value → Frame → Progress}
    (goes : ∀ values after, home.SameBody after →
      (go values after).Accords heap home instruction) :
    (frame.poppingMany count go).Accords heap home instruction := by
  unfold poppingMany
  split
  next => exact accords_fail rfl
  next => exact goes _ _ (same.withStack _)

private theorem accords_finding (same : home.SameBody frame) {index : Nat} {go : CellId → Progress}
    (operand : instruction.operand? = some (.deref, index))
    (goes : ∀ cell, home.derefCell? index = some cell →
      (go cell).Accords heap home instruction) :
    (frame.finding index go).Accords heap home instruction := by
  unfold finding
  split
  next cell held => exact goes cell ((same.derefCell? index).symm.trans held)
  next none =>
    intro _
    rw [same.code, same.derefName]
    exact .cellless operand ((same.derefCell? index).symm.trans none)

private theorem accords_storing (same : home.SameBody frame) {index : Nat} (value : Value)
    (inside : index < frame.slots.length) :
    home.Advances (.storeLocal index)
      { frame with slots := frame.slots.set index (some value) } := by
  refine ⟨same.code, same.globals, same.builtins, .inr ⟨index, value, rfl, ?_, ?_⟩⟩
  · rw [← same.slots]
    exact inside
  · rw [← same.slots]

private theorem accords_execute (heap : Heap) (frame : Frame) (instruction : Instruction) :
    (frame.execute heap instruction).Accords heap frame instruction := by
  have here : frame.SameBody frame := .refl frame
  unfold execute
  cases instruction with
  | loadConst index =>
    dsimp only
    split
    · exact accords_pushing here _
    · trivial
  | loadLocal index =>
    dsimp only
    split
    · exact accords_pushing here _
    next empty =>
      split
      next name named => exact fun _ => .unbound empty named
      next => trivial
  | storeLocal index =>
    apply accords_popping here
    intro value after same
    split
    next inside => exact accords_storing same value inside
    next => trivial
  | loadCell index =>
    apply accords_finding here rfl
    intro cell held
    split
    next => exact accords_pushing here _
    next empty => exact fun _ => .empty held empty
  | storeCell index =>
    apply accords_popping here
    intro value after same
    exact accords_finding same rfl fun _ _ => same.advances
  | loadClosure index =>
    exact accords_finding here rfl fun cell _ => accords_pushing here _
  | loadGlobal index =>
    dsimp only
    split
    · split
      · exact accords_pushing here _
      · exact accords_fail rfl
    · trivial
  | storeGlobal index =>
    apply accords_popping here
    intro value after same
    split
    · exact same.advances
    · trivial
  | binary operator =>
    apply accords_popping here
    intro right below same
    apply accords_popping same
    intro left after same
    exact accords_pushingResult same fun _ => BinaryOperator.apply_plain
  | compare comparison =>
    apply accords_popping here
    intro right below same
    apply accords_popping same
    intro left after same
    exact accords_pushingResult same fun _ => Comparison.apply_plain
  | not => exact accords_popping here fun value after same => accords_pushing same _
  | neg =>
    apply accords_popping here
    intro value after same
    exact accords_pushingResult same fun _ => Value.negate_plain
  | pop => exact accords_popping here fun value after same => same.advances
  | duplicate =>
    dsimp only
    split
    · exact accords_pushing here _
    · exact accords_fail rfl
  | jump target => exact (here.jump target).advances
  | popJumpIfFalse target =>
    apply accords_popping here
    intro value after same
    split
    · exact same.advances
    · exact (same.jump target).advances
  | popJumpIfTrue target =>
    apply accords_popping here
    intro value after same
    split
    · exact (same.jump target).advances
    · exact same.advances
  | call count =>
    apply accords_poppingMany here
    intro arguments after same
    exact accords_popping same fun callee after same => same.advances
  | makeFunction code count =>
    apply accords_poppingMany here
    intro values after same
    split
    next fault given =>
      obtain ⟨value, _, _, rfl⟩ := noncell_of_cells? given
      exact accords_fail rfl
    next =>
      split
      · exact (same.withStack _).advances
      · exact accords_fail rfl
      · trivial
  | raise => exact accords_popping here fun value after same => accords_fail rfl
  | returnValue => exact accords_popping here fun value after same => trivial

end

theorem Misses.fetched {heap : Heap} {frame : Frame} {instruction : Instruction} {fault : Fault}
    {pc : Nat} (misses : Misses heap { frame with pc } instruction fault) :
    frame.Misses heap instruction fault := by
  cases misses with
  | unbound empty named => exact .unbound empty named
  | empty held empty => exact .empty held empty
  | cellless operand none => exact .cellless operand none

/-- What the next step can do in a frame, by its instruction, or that there is no instruction. -/
theorem accords_step (heap : Heap) (frame : Frame) :
    (∃ instruction, frame.code.instructions[frame.pc]? = some instruction ∧
      (frame.step heap).Accords heap frame instruction) ∨
    frame.step heap = .fail (.ranPastEnd frame.code.name) := by
  unfold step
  split
  next instruction fetched =>
    refine .inl ⟨instruction, fetched, ?_⟩
    have accords := accords_execute heap { frame with pc := frame.pc + 1 } instruction
    generalize execute heap { frame with pc := frame.pc + 1 } instruction = progress at accords ⊢
    cases progress with
    | next after edits | call after callee arguments =>
      exact ⟨accords.code, accords.globals, accords.builtins, accords.slots⟩
    | leave result =>
      cases result with
      | ok value => trivial
      | error fault => exact fun missed => (accords missed).fetched
    | broken => trivial
  next => exact .inr rfl

/-- A frame that goes on does so by its instruction. -/
theorem GoesOn.advances {heap : Heap} {frame after : Frame} (goesOn : frame.GoesOn heap after) :
    ∃ instruction, frame.code.instructions[frame.pc]? = some instruction ∧
      frame.Advances instruction after := by
  rcases accords_step heap frame with ⟨instruction, fetched, accords⟩ | past
  · refine ⟨instruction, fetched, ?_⟩
    rcases goesOn with ⟨edits, progress⟩ | ⟨callee, arguments, progress⟩
    · rwa [progress] at accords
    · rwa [progress] at accords
  · rcases goesOn with ⟨_, progress⟩ | ⟨_, _, progress⟩ <;> cases past.symm.trans progress

theorem misses_of_step {heap : Heap} {frame : Frame} {fault : Fault}
    (progress : frame.step heap = .fail fault) (missed : fault.isVariable = true) :
    ∃ instruction, frame.code.instructions[frame.pc]? = some instruction ∧
      frame.Misses heap instruction fault := by
  rcases accords_step heap frame with ⟨instruction, fetched, accords⟩ | past
  · rw [progress] at accords
    exact ⟨instruction, fetched, accords missed⟩
  · rw [progress] at past
    cases past
    cases missed

end Frame

end Interpose
