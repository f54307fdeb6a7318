import Interpose.Proofs.Layout

/-! One instruction of a frame that has the slots of its unit. It finds its operand in its table and
takes from the operand stack exactly what it needs; when the stack holds less, or a slot no cell, it
fails and says where. -/

namespace Interpose.Frame
variable {heap : Heap} {frame : Frame}

namespace Progress

/-- What goes on is a sturdy frame, from whose operand stack an instruction took what it takes and
put what it gives. A call gets its arguments in the order in which they were pushed. -/
def Balances (stack : List Value) (instruction : Instruction) : Progress → Prop
  | .next after _ =>
    after.Sturdy ∧ after.stack.length + instruction.takes = stack.length + instruction.gives
  | .call after callee arguments =>
    after.Sturdy ∧ instruction = .call arguments.length ∧
      stack = arguments.reverse ++ callee :: after.stack
  | .leave _ => True
  | .broken => False

end Progress

section
variable {stack : List Value} {instruction : Instruction}

private theorem balances_pushing (sturdy : frame.Sturdy) (value : Value)
    (counted : frame.stack.length + 1 + instruction.takes = stack.length + instruction.gives) :
    (frame.pushing value).Balances stack instruction :=
  ⟨sturdy.push value, counted⟩

private theorem balances_pushingResult (sturdy : frame.Sturdy) (result : Except Fault Value)
    (counted : frame.stack.length + 1 + instruction.takes = stack.length + instruction.gives) :
    (frame.pushingResult result).Balances stack instruction :=
  pushingResult_elim (fun _ => trivial) fun value => balances_pushing sturdy value counted

private theorem balances_popping {go : Value → Frame → Progress}
    (goes : ∀ value rest, frame.stack = value :: rest →
      (go value { frame with stack := rest }).Balances stack instruction) :
    (frame.popping go).Balances stack instruction :=
  popping_elim (fun _ => trivial) goes

private theorem balances_poppingMany {count : Nat} {go : List Value → Frame → Progress}
    (goes : count ≤ frame.stack.length →
      (go (frame.stack.take count).reverse
        { frame with stack := frame.stack.drop count }).Balances stack instruction) :
    (frame.poppingMany count go).Balances stack instruction :=
  poppingMany_elim (fun _ => trivial) goes

private theorem balances_finding {index : Nat} {go : CellId → Progress}
    (goes : ∀ cell, (go cell).Balances stack instruction) :
    (frame.finding index go).Balances stack instruction :=
  finding_elim (fun _ => trivial) goes

end

private theorem balances_execute (sturdy : frame.Sturdy) {instruction : Instruction}
    (admitted : frame.code.Admits instruction) :
    (frame.execute heap instruction).Balances frame.stack instruction := by
  unfold execute
  cases instruction with
  | loadConst index =>
    have inside : index < frame.code.constants.size := admitted .constant index rfl
    simp only [Array.getElem?_eq_getElem inside]
    exact balances_pushing sturdy _ rfl
  | loadLocal index =>
    have inside : index < frame.code.locals.length := admitted .localSlot index rfl
    simp only [List.getElem?_eq_getElem inside]
    split
    · exact balances_pushing sturdy _ rfl
    · exact trivial
  | storeLocal index =>
    have inside : index < frame.code.locals.length := admitted .localSlot index rfl
    have there : index < frame.slots.length := by
      rw [sturdy.slots, Blueprint.slotCount]
      omega
    refine balances_popping fun value rest held => ?_
    rw [if_pos there, held]
    exact ⟨⟨sturdy.unit, by rw [List.length_set]; exact sturdy.slots, sturdy.pc⟩, rfl⟩
  | loadCell index =>
    refine balances_finding fun cell => ?_
    split
    · exact balances_pushing sturdy _ rfl
    · exact trivial
  | storeCell index =>
    refine balances_popping fun value rest held => ?_
    rw [held]
    exact balances_finding fun cell => ⟨sturdy.withStack rest, rfl⟩
  | loadClosure index => exact balances_finding fun cell => balances_pushing sturdy _ rfl
  | loadGlobal index =>
    have inside : index < frame.code.names.size := admitted .name index rfl
    simp only [Array.getElem?_eq_getElem inside]
    split
    · exact balances_pushing sturdy _ rfl
    · exact trivial
  | storeGlobal index =>
    have inside : index < frame.code.names.size := admitted .name index rfl
    refine balances_popping fun value rest held => ?_
    simp only [Array.getElem?_eq_getElem inside, held]
    exact ⟨sturdy.withStack rest, rfl⟩
  | binary operator | compare comparison =>
    refine balances_popping fun right below held => ?_
    refine balances_popping fun left rest held' => ?_
    have held' : below = left :: rest := held'
    rw [held, held']
    exact balances_pushingResult (sturdy.withStack rest) _ rfl
  | not =>
    refine balances_popping fun value rest held => ?_
    rw [held]
    exact balances_pushing (sturdy.withStack rest) _ rfl
  | neg =>
    refine balances_popping fun value rest held => ?_
    rw [held]
    exact balances_pushingResult (sturdy.withStack rest) _ rfl
  | pop =>
    refine balances_popping fun value rest held => ?_
    rw [held]
    exact ⟨sturdy.withStack rest, rfl⟩
  | duplicate =>
    cases held : frame.stack with
    | nil => exact trivial
    | cons value rest => exact balances_pushing sturdy _ (by rw [held]; rfl)
  | jump target =>
    exact ⟨sturdy.jump (admitted .target target rfl), rfl⟩
  | popJumpIfFalse target =>
    have inside : target < frame.code.instructions.size := admitted .target target rfl
    refine balances_popping fun value rest held => ?_
    rw [held]
    split
    · exact ⟨sturdy.withStack rest, rfl⟩
    · exact ⟨(sturdy.withStack rest).jump inside, rfl⟩
  | popJumpIfTrue target =>
    have inside : target < frame.code.instructions.size := admitted .target target rfl
    refine balances_popping fun value rest held => ?_
    rw [held]
    split
    · exact ⟨(sturdy.withStack rest).jump inside, rfl⟩
    · exact ⟨sturdy.withStack rest, rfl⟩
  | call count =>
    refine balances_poppingMany fun enough => ?_
    refine balances_popping fun callee rest held => ?_
    have held : frame.stack.drop count = callee :: rest := held
    refine ⟨sturdy.withStack rest, ?_, ?_⟩
    · rw [List.length_reverse, List.length_take, Nat.min_eq_left enough]
    · rw [List.reverse_reverse, ← held, List.take_append_drop]
  | makeFunction code count =>
    obtain ⟨id, constant⟩ := admitted
    refine balances_poppingMany fun enough => ?_
    split
    · exact trivial
    next closure given =>
      simp only [constant]
      refine ⟨(sturdy.withStack _).push _, ?_⟩
      simp only [push, List.length_cons, List.length_drop, Instruction.takes, Instruction.gives]
      omega
  | raise | returnValue => exact balances_popping fun value rest held => trivial

def shortage (unit : String) (position : Nat) : Instruction → Fault
  | .duplicate => .nothingToDuplicate unit
  | _ => .stackUnderflow unit position

private theorem popping_nil (empty : frame.stack = []) (go : Value → Frame → Progress) :
    frame.popping go = .fail (.stackUnderflow frame.code.name (frame.pc - 1)) := by
  simp only [popping, empty]

private theorem popping_two {go : Value → Value → Frame → Progress}
    (short : frame.stack.length < 2) :
    (frame.popping fun right frame => frame.popping fun left frame => go right left frame) =
      .fail (.stackUnderflow frame.code.name (frame.pc - 1)) := by
  match held : frame.stack with
  | [] => exact popping_nil held _
  | [value] => simp only [popping, held]
  | _ :: _ :: _ =>
    simp only [held, List.length_cons] at short
    omega

private theorem execute_of_short {instruction : Instruction}
    (short : frame.stack.length < instruction.takes) :
    frame.execute heap instruction = .fail (shortage frame.code.name (frame.pc - 1) instruction) := by
  have none_of_one (one : instruction.takes = 1) : frame.stack = [] := by
    rw [one] at short
    exact List.length_eq_zero_iff.mp (Nat.lt_one_iff.mp short)
  cases instruction with
  | loadConst | loadLocal | loadCell | loadClosure | loadGlobal | jump =>
    exact absurd short (Nat.not_lt_zero _)
  | storeLocal | storeCell | storeGlobal | not | neg | pop | popJumpIfFalse | popJumpIfTrue | raise
  | returnValue =>
    unfold execute
    exact popping_nil (none_of_one rfl) _
  | duplicate =>
    simp only [execute, none_of_one rfl]
    rfl
  | binary operator | compare comparison => exact popping_two short
  | call count =>
    simp only [execute, poppingMany]
    split
    next => rfl
    next enough =>
      have last : frame.stack.length ≤ count := Nat.le_of_lt_succ short
      exact popping_nil (List.drop_eq_nil_of_le last) _
  | makeFunction code count =>
    have short : frame.stack.length < count := short
    simp only [execute, poppingMany, if_pos short]
    rfl

/-- Of the steps of a division only the first can leave the range of words, and it is checked. -/
def Unwrapped (operator : BinaryOperator) (left right : Int64) : Prop :=
  operator.divides = true →
    if right = 0 then operator.onIntegers left right = .error .divisionByZero
    else Integer.Divides left right

theorem unwrapped (operator : BinaryOperator) (left right : Int64) :
    Unwrapped operator left right := by
  intro divides
  split
  next zero =>
    subst zero
    simp only [BinaryOperator.onIntegers, divides]
    rfl
  next nonzero => exact Integer.divides left nonzero

structure StepsSafely (frame : Frame) (heap : Heap) : Prop where
  unbroken : frame.step heap ≠ .broken
  /-- The operand of the instruction is in its table, and its slot is there. -/
  operands : ∀ instruction, frame.code.instructions[frame.pc]? = some instruction →
    frame.code.Admits instruction ∧
    ∀ index, (instruction.operand? = some (.localSlot, index) → index < frame.slots.length) ∧
      (instruction.operand? = some (.deref, index) →
        frame.code.locals.length + index < frame.slots.length)
  next : ∀ after edits, frame.step heap = .next after edits →
    ∃ instruction, frame.code.instructions[frame.pc]? = some instruction ∧ after.Sturdy ∧
      after.stack.length + instruction.takes = frame.stack.length + instruction.gives
  called : ∀ after callee arguments, frame.step heap = .call after callee arguments →
    frame.code.instructions[frame.pc]? = some (.call arguments.length) ∧ after.Sturdy ∧
      frame.stack = arguments.reverse ++ callee :: after.stack
  ended : frame.pc = frame.code.instructions.size →
    frame.step heap = .fail (.ranPastEnd frame.code.name)
  /-- Too few values are a failure at the position of the instruction. -/
  short : ∀ instruction, frame.code.instructions[frame.pc]? = some instruction →
    frame.stack.length < instruction.takes →
    frame.step heap = .fail (shortage frame.code.name frame.pc instruction)
  cellless : ∀ instruction index, frame.code.instructions[frame.pc]? = some instruction →
    instruction.operand? = some (.deref, index) → instruction.takes ≤ frame.stack.length →
    frame.derefCell? index = none →
    frame.step heap = .fail (.noCell frame.code.name index (frame.derefName index))
  /-- A function is made of a code constant and of cells, or something else was given for a cell. -/
  closes : ∀ code count,
    frame.code.instructions[frame.pc]? = some (.makeFunction code count) →
    count ≤ frame.stack.length →
    (∃ id closure, frame.code.constants[code]? = some (.code id) ∧
      cells? (frame.stack.take count).reverse = .ok closure ∧
      frame.step heap = .next
        { frame with
          pc := frame.pc + 1
          stack := .function (heap.freshFunction id frame.globals closure) ::
            frame.stack.drop count }
        [.newFunction]) ∨
    ∃ value ∈ frame.stack.take count, (∀ id, value ≠ .cell id) ∧
      frame.step heap = .fail (.closureOfNonCell value.kind)
  divides : ∀ operator left right rest,
    frame.code.instructions[frame.pc]? = some (.binary operator) →
    frame.stack = .int right :: .int left :: rest → Unwrapped operator left right

private theorem step_eq {instruction : Instruction}
    (fetched : frame.code.instructions[frame.pc]? = some instruction) :
    frame.step heap = execute heap { frame with pc := frame.pc + 1 } instruction := by
  simp only [step, fetched]

private theorem advanced (sturdy : frame.Sturdy) {instruction : Instruction}
    (fetched : frame.code.instructions[frame.pc]? = some instruction) :
    Sturdy { frame with pc := frame.pc + 1 } := by
  obtain ⟨inside, _⟩ := Array.getElem?_eq_some_iff.mp fetched
  exact ⟨sturdy.unit, sturdy.slots, inside⟩

/-- What an instruction does with the operand stack, or that there is none. -/
theorem balances_step (sturdy : frame.Sturdy) (heap : Heap) :
    (∃ instruction, frame.code.instructions[frame.pc]? = some instruction ∧
      (frame.step heap).Balances frame.stack instruction) ∨
    frame.pc = frame.code.instructions.size ∧
      frame.step heap = .fail (.ranPastEnd frame.code.name) := by
  cases fetched : frame.code.instructions[frame.pc]? with
  | none =>
    have past := Array.getElem?_eq_none_iff.mp fetched
    exact .inr ⟨Nat.le_antisymm sturdy.pc past, by simp only [step, fetched]⟩
  | some instruction =>
    have admitted := sturdy.unit.admits instruction (Array.mem_of_getElem? fetched)
    refine .inl ⟨instruction, rfl, ?_⟩
    rw [step_eq fetched]
    exact balances_execute (advanced sturdy fetched) admitted

theorem step_of_cellless {instruction : Instruction} {index : Nat}
    (fetched : frame.code.instructions[frame.pc]? = some instruction)
    (operand : instruction.operand? = some (.deref, index))
    (enough : instruction.takes ≤ frame.stack.length) (cellless : frame.derefCell? index = none) :
    frame.step heap = .fail (.noCell frame.code.name index (frame.derefName index)) := by
  have missing (go : CellId → Progress) (frame' : Frame) (same : frame'.derefCell? index = none) :
      frame'.finding index go =
        .fail (.noCell frame'.code.name index (frame'.derefName index)) := by
    simp only [finding, same]
  rw [step_eq fetched]
  cases instruction with
  | loadCell place | loadClosure place =>
    cases operand
    unfold execute
    exact missing _ _ cellless
  | storeCell place =>
    cases operand
    match held : frame.stack with
    | [] =>
      rw [held] at enough
      exact absurd enough (Nat.not_succ_le_zero 0)
    | value :: rest =>
      simp only [execute, popping]
      exact missing _ _ cellless
  | _ => cases operand

theorem step_makeFunction (sturdy : frame.Sturdy) {code count : Nat}
    (fetched : frame.code.instructions[frame.pc]? = some (.makeFunction code count))
    (enough : count ≤ frame.stack.length) :
    (∃ id closure, frame.code.constants[code]? = some (.code id) ∧
      cells? (frame.stack.take count).reverse = .ok closure ∧
      frame.step heap = .next
        { frame with
          pc := frame.pc + 1
          stack := .function (heap.freshFunction id frame.globals closure) ::
            frame.stack.drop count }
        [.newFunction]) ∨
    ∃ value ∈ frame.stack.take count, (∀ id, value ≠ .cell id) ∧
      frame.step heap = .fail (.closureOfNonCell value.kind) := by
  obtain ⟨id, constant⟩ := sturdy.unit.admits _ (Array.mem_of_getElem? fetched)
  have constant : frame.code.constants[code]? = some (.code id) := constant
  simp only [step_eq fetched, execute, poppingMany, if_neg (Nat.not_lt.mpr enough)]
  cases given : cells? (frame.stack.take count).reverse with
  | ok closure =>
    refine .inl ⟨id, closure, constant, rfl, ?_⟩
    simp only [constant]
    rfl
  | error fault =>
    obtain ⟨value, member, foreign, rfl⟩ := noncell_of_cells? given
    exact .inr ⟨value, List.mem_reverse.mp member, foreign, rfl⟩

private theorem ranged {unit : Blueprint} {instruction : Instruction} {operand : Operand}
    {index : Nat} (admitted : unit.Admits instruction)
    (operated : instruction.operand? = some (operand, index)) : index < unit.available operand := by
  cases instruction with
  | makeFunction code count => cases operated
  | _ => exact admitted operand index operated

theorem Sturdy.stepsSafely (sturdy : frame.Sturdy) (heap : Heap) : frame.StepsSafely heap where
  unbroken broken := by
    rcases balances_step sturdy heap with ⟨_, _, balances⟩ | ⟨_, past⟩
    · rw [broken] at balances
      exact balances
    · rw [broken] at past
      cases past
  operands instruction fetched := by
    have admitted := sturdy.unit.admits instruction (Array.mem_of_getElem? fetched)
    have slots := sturdy.slots
    refine ⟨admitted, fun index => ⟨?_, ?_⟩⟩
    · intro operand
      have inside : index < frame.code.locals.length := ranged admitted operand
      rw [slots, Blueprint.slotCount]
      omega
    · intro operand
      have inside : index < frame.code.derefNames.length := ranged admitted operand
      rw [slots, Blueprint.slotCount_eq]
      omega
  next after edits progress := by
    rcases balances_step sturdy heap with ⟨instruction, fetched, balances⟩ | ⟨_, past⟩
    · rw [progress] at balances
      exact ⟨instruction, fetched, balances.1, balances.2⟩
    · rw [progress] at past
      cases past
  called after callee arguments progress := by
    rcases balances_step sturdy heap with ⟨instruction, fetched, balances⟩ | ⟨_, past⟩
    · rw [progress] at balances
      obtain ⟨kept, rfl, held⟩ := balances
      exact ⟨fetched, kept, held⟩
    · rw [progress] at past
      cases past
  ended last := by
    have none : frame.code.instructions[frame.pc]? = none :=
      Array.getElem?_eq_none_iff.mpr (Nat.le_of_eq last.symm)
    simp only [step, none]
  short instruction fetched short := by
    rw [step_eq fetched]
    exact execute_of_short short
  cellless _ _ fetched operand enough cellless := step_of_cellless fetched operand enough cellless
  closes _ _ fetched enough := step_makeFunction sturdy fetched enough
  divides operator left right _ _ _ := unwrapped operator left right

def Progress.edits : Progress → List HeapEdit
  | .next _ edits => edits
  | _ => []

private theorem edits_pushingResult (frame : Frame) (result : Except Fault Value) :
    (frame.pushingResult result).edits = [] :=
  pushingResult_elim (fun _ => rfl) fun _ => rfl

private theorem edits_popping {go : Value → Frame → Progress}
    (quiet : ∀ value after, (go value after).edits = []) : (frame.popping go).edits = [] :=
  popping_elim (fun _ => rfl) fun value _ _ => quiet value _

private theorem edits_finding {index : Nat} {go : CellId → Progress}
    (quiet : ∀ cell, (go cell).edits = []) : (frame.finding index go).edits = [] :=
  finding_elim (fun _ => rfl) quiet

private theorem edits_poppingMany {count : Nat} {go : List Value → Frame → Progress}
    (quiet : ∀ values after, (go values after).edits = []) :
    (frame.poppingMany count go).edits = [] :=
  poppingMany_elim (fun _ => rfl) fun _ => quiet _ _

/-- The instructions that write to the heap: one stores into a cell, one binds a global name, and one
counts a function. -/
inductive Writes (heap : Heap) (frame : Frame) : Instruction → List HeapEdit → Prop
  | none (instruction : Instruction) : Writes heap frame instruction []
  | cell {index cell value rest} (found : frame.derefCell? index = some cell)
      (held : frame.stack = value :: rest) :
      Writes heap frame (.storeCell index) [.writeCell cell value]
  | name {index name value rest} (named : frame.code.names[index]? = some name)
      (held : frame.stack = value :: rest) :
      Writes heap frame (.storeGlobal index) [.bind frame.globals name value]
  | function (code count : Nat) : Writes heap frame (.makeFunction code count) [.newFunction]

private theorem writes_of_quiet {instruction : Instruction} {progress : Progress}
    (quiet : progress.edits = []) : Writes heap frame instruction progress.edits := by
  rw [quiet]
  exact .none instruction

private theorem writes_execute (heap : Heap) (frame : Frame) (instruction : Instruction) :
    Writes heap frame instruction (frame.execute heap instruction).edits := by
  unfold execute
  cases instruction with
  | loadConst | duplicate =>
    apply writes_of_quiet
    dsimp only
    split <;> rfl
  | loadLocal =>
    apply writes_of_quiet
    dsimp only
    split
    · rfl
    · split <;> rfl
  | loadGlobal =>
    apply writes_of_quiet
    dsimp only
    split
    · split <;> rfl
    · rfl
  | storeLocal =>
    apply writes_of_quiet
    apply edits_popping
    intro value after
    split <;> rfl
  | loadCell =>
    apply writes_of_quiet
    apply edits_finding
    intro cell
    split <;> rfl
  | storeCell index =>
    unfold popping finding
    dsimp only
    split
    next value rest held =>
      split
      next cell found => exact .cell found held
      next => exact .none _
    next => exact .none _
  | loadClosure => exact writes_of_quiet (edits_finding fun cell => rfl)
  | storeGlobal index =>
    unfold popping
    dsimp only
    split
    next value rest held =>
      split
      next name named => exact .name named held
      next => exact .none _
    next => exact .none _
  | binary | compare =>
    apply writes_of_quiet
    apply edits_popping
    intro right after
    exact edits_popping fun left after => edits_pushingResult _ _
  | not | pop | popJumpIfFalse | popJumpIfTrue | raise | returnValue =>
    exact writes_of_quiet (edits_popping fun value after => rfl)
  | neg => exact writes_of_quiet (edits_popping fun value after => edits_pushingResult _ _)
  | jump => exact writes_of_quiet rfl
  | call =>
    apply writes_of_quiet
    apply edits_poppingMany
    intro arguments after
    exact edits_popping fun callee after => rfl
  | makeFunction code count =>
    unfold poppingMany
    dsimp only
    split
    next => exact .none _
    next =>
      split
      next => exact .none _
      next =>
        split
        next => exact .function code count
        next => exact .none _
        next => exact .none _

theorem writes_step {instruction : Instruction}
    (fetched : frame.code.instructions[frame.pc]? = some instruction) (heap : Heap) :
    Writes heap frame instruction (frame.step heap).edits := by
  rw [step_eq fetched]
  have writes := writes_execute heap { frame with pc := frame.pc + 1 } instruction
  generalize (execute heap { frame with pc := frame.pc + 1 } instruction).edits = edits at writes ⊢
  cases writes with
  | none => exact .none _
  | cell found held => exact .cell found held
  | name named held => exact .name named held
  | function => exact .function _ _

end Interpose.Frame
