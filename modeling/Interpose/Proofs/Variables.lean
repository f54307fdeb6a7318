import Interpose.Proofs.Cycles
import Interpose.Proofs.Instructions
import Interpose.Proofs.Resolution

/-! The variables of a frame while it is evaluated, whatever runs in between. Its slots keep their
layout and every cell its slot; a variable that has a value never loses it. So a variable is found
without a value only before it was given its first one. -/

namespace Interpose
variable {σ α : Type}

namespace Frame

/-- A frame that can be run without checking an index, in which every cell and free variable has its
cell. -/
structure Wired (frame : Frame) : Prop where
  sturdy : frame.Sturdy
  cells : ∀ slot ∈ frame.slots.drop frame.code.locals.length, ∃ cell, slot = some (.cell cell)

/-- The frames that come from calls of built functions: as they are made, migrated to a built unit,
and at any point of their evaluation. -/
inductive Entered : Frame → Prop
  | entered {heap : Heap} {function : Function} {arguments : List Value} {frame : Frame}
      {edits : List HeapEdit} (accepted : (heap.code function.code).Accepted)
      (builtins : NamespaceId)
      (fits : Frame.enter heap builtins function arguments = .ok (frame, edits)) : Entered frame
  | migrated {original shadow : Frame} {code : Code} (entered : Entered original)
      (accepted : code.Accepted) (builtins : NamespaceId)
      (fits : original.shadow code builtins = .ok shadow) : Entered shadow
  | materialized {frame : Frame} (entered : Entered frame) (heap : Heap) :
      Entered (frame.materialize heap)
  | reached {frame later : Frame} (entered : Entered frame) (reaches : frame.Reaches later) :
      Entered later

structure Keeps (first later : Frame) : Prop where
  code : later.code = first.code
  length : later.slots.length = first.slots.length
  cells : later.slots.drop first.code.locals.length = first.slots.drop first.code.locals.length
  bound : ∀ index, (first.slot? index).isSome → (later.slot? index).isSome

variable {frame after : Frame} {heap : Heap}

theorem Keeps.refl (frame : Frame) : frame.Keeps frame := ⟨rfl, rfl, rfl, fun _ bound => bound⟩

theorem Keeps.trans {first second third : Frame} (before : first.Keeps second)
    (after : second.Keeps third) : first.Keeps third where
  code := after.code.trans before.code
  length := after.length.trans before.length
  cells := by
    have later := after.cells
    rw [before.code] at later
    exact later.trans before.cells
  bound index bound := after.bound index (before.bound index bound)

theorem Keeps.push (frame : Frame) (value : Value) : frame.Keeps (frame.push value) :=
  ⟨rfl, rfl, rfl, fun _ bound => bound⟩

theorem slot?_deref (frame : Frame) (index : Nat) :
    frame.slot? (frame.code.locals.length + index) =
      ((frame.slots.drop frame.code.locals.length)[index]?).join := by
  rw [slot?, List.getElem?_drop]

theorem Keeps.derefCell? {first later : Frame} (keeps : first.Keeps later) (index : Nat) :
    later.derefCell? index = first.derefCell? index := by
  have same : later.slot? (later.code.locals.length + index) =
      first.slot? (first.code.locals.length + index) := by
    rw [slot?_deref, slot?_deref, keeps.code, keeps.cells]
  rw [Frame.derefCell?, Frame.derefCell?, same]

theorem Wired.push (wired : frame.Wired) (value : Value) : (frame.push value).Wired :=
  ⟨wired.sturdy.push value, wired.cells⟩

theorem Wired.materialize (wired : frame.Wired) (heap : Heap) : (frame.materialize heap).Wired :=
  ⟨wired.sturdy.materialize heap, wired.cells⟩

/-- No cell or free variable is without its cell. -/
theorem Wired.derefCell? (wired : frame.Wired) {index : Nat}
    (inside : index < frame.code.derefNames.length) :
    ∃ cell, frame.derefCell? index = some cell := by
  have there : index < (frame.slots.drop frame.code.locals.length).length := by
    rw [List.length_drop, wired.sturdy.slots, Blueprint.slotCount_eq]
    omega
  obtain ⟨cell, held⟩ := wired.cells _ (List.getElem_mem there)
  refine ⟨cell, ?_⟩
  simp only [Frame.derefCell?, slot?_deref, List.getElem?_eq_getElem there, held, Option.join_some]

theorem wired_enter {function : Function} {arguments : List Value} {builtins : NamespaceId}
    {edits : List HeapEdit} (unit : (heap.code function.code).Operable)
    (fits : Frame.enter heap builtins function arguments = .ok (frame, edits)) : frame.Wired := by
  refine ⟨sturdy_enter unit fits, ?_⟩
  obtain ⟨given, _, rfl⟩ := enter_eq_ok fits
  have parameters := unit.parameters
  have locals : (arguments.map some ++ List.replicate
      ((heap.code function.code).locals.length - arguments.length) (none : Option Value)).length =
      (heap.code function.code).locals.length := by
    rw [List.length_append, List.length_map, List.length_replicate]
    omega
  intro slot member
  simp only [entrySlots, List.append_assoc] at member
  rw [← List.append_assoc, List.drop_left' locals] at member
  rcases List.mem_append.mp member with own | free
  · obtain ⟨cell, _, rfl⟩ := List.mem_map.mp own
    exact ⟨cell, rfl⟩
  · obtain ⟨cell, _, rfl⟩ := List.mem_map.mp free
    exact ⟨cell, rfl⟩

/-- A migrated frame has the cells of the original behind its own locals. -/
theorem Wired.shadow (wired : frame.Wired) {replacement : Code} (unit : replacement.Operable)
    {builtins : NamespaceId} {moved : Frame}
    (fits : frame.shadow replacement builtins = .ok moved) : moved.Wired := by
  refine ⟨wired.sturdy.shadow unit fits, ?_⟩
  obtain ⟨wide, _, _, rfl⟩ := shadow_eq_ok_iff.mp fits
  have slots := wired.sturdy.slots
  have locals : (frame.slots.take frame.code.locals.length ++ List.replicate
      (replacement.locals.length - frame.code.locals.length) (none : Option Value)).length =
      replacement.locals.length := by
    rw [Blueprint.slotCount] at slots
    rw [List.length_append, List.length_take, List.length_replicate]
    omega
  intro slot member
  simp only [migratedSlots] at member
  rw [List.drop_left' locals] at member
  exact wired.cells slot member

/-- The one instruction that writes a slot writes that of a local, and binds it. -/
theorem Advances.keeps {instruction : Instruction} (advances : frame.Advances instruction after)
    (admitted : frame.code.Admits instruction) : frame.Keeps after := by
  refine ⟨advances.code, ?length, ?cells, ?bound⟩ <;>
    rcases advances.slots with same | ⟨index, value, rfl, inside, stored⟩
  case length.inl => rw [same]
  case length.inr => rw [stored, List.length_set]
  case cells.inl => rw [same]
  case cells.inr =>
    have own : index < frame.code.locals.length := admitted .localSlot index rfl
    rw [stored, List.drop_set_of_lt own]
  case bound.inl =>
    intro place bound
    rwa [slot?, same]
  case bound.inr =>
    intro place bound
    rw [slot?, stored, List.getElem?_set]
    split
    next => rfl
    next => exact bound

theorem Sturdy.goesOn (sturdy : frame.Sturdy) (goesOn : frame.GoesOn heap after) :
    after.Sturdy ∧ frame.Keeps after := by
  obtain ⟨instruction, fetched, advances⟩ := goesOn.advances
  have admitted := sturdy.unit.admits instruction (Array.mem_of_getElem? fetched)
  refine ⟨?_, advances.keeps admitted⟩
  have safe := sturdy.stepsSafely heap
  rcases goesOn with ⟨edits, progress⟩ | ⟨callee, arguments, progress⟩
  · obtain ⟨_, _, sturdy, _⟩ := safe.next after edits progress
    exact sturdy
  · exact (safe.called after callee arguments progress).2.1

theorem Sturdy.reaches {later : Frame} (sturdy : frame.Sturdy) (reaches : frame.Reaches later) :
    later.Sturdy ∧ frame.Keeps later := by
  induction reaches with
  | refl => exact ⟨sturdy, .refl frame⟩
  | next before progress ih =>
    obtain ⟨sturdy, keeps⟩ := ih.1.goesOn (.inl ⟨_, progress⟩)
    exact ⟨sturdy, ih.2.trans keeps⟩
  | resumed before progress value ih =>
    obtain ⟨sturdy, keeps⟩ := ih.1.goesOn (.inr ⟨_, _, progress⟩)
    exact ⟨sturdy.push value, (ih.2.trans keeps).trans (.push _ value)⟩

theorem Keeps.wired {later : Frame} (keeps : frame.Keeps later) (wired : frame.Wired)
    (sturdy : later.Sturdy) : later.Wired := by
  refine ⟨sturdy, ?_⟩
  intro slot member
  rw [keeps.code, keeps.cells] at member
  exact wired.cells slot member

theorem Wired.goesOn (wired : frame.Wired) (goesOn : frame.GoesOn heap after) :
    after.Wired ∧ frame.Keeps after := by
  obtain ⟨sturdy, keeps⟩ := wired.sturdy.goesOn goesOn
  exact ⟨keeps.wired wired sturdy, keeps⟩

/-- What was not bound at some point was not bound before. -/
theorem Keeps.unbound {first later : Frame} (keeps : first.Keeps later) {index : Nat}
    (empty : later.slot? index = none) : first.slot? index = none := by
  cases held : first.slot? index with
  | none => rfl
  | some value =>
    have bound := keeps.bound index (Option.isSome_of_eq_some held)
    rw [empty] at bound
    cases bound

theorem Wired.step_ne_noCell (wired : frame.Wired) (heap : Heap) (unit : String) (index : Nat)
    (name : String) : frame.step heap ≠ .fail (.noCell unit index name) := by
  intro failed
  obtain ⟨instruction, fetched, misses⟩ := misses_of_step failed rfl
  cases misses with
  | cellless operand none =>
    have safe := wired.sturdy.stepsSafely heap
    have inside := ((safe.operands instruction fetched).2 index).2 operand
    rw [wired.sturdy.slots, Blueprint.slotCount_eq] at inside
    obtain ⟨cell, held⟩ := wired.derefCell? (Nat.lt_of_add_lt_add_left inside)
    rw [none] at held
    cases held

theorem unbound_of_step {name : String} (failed : frame.step heap = .fail (.unboundLocal name)) :
    ∃ index, frame.code.instructions[frame.pc]? = some (.loadLocal index) ∧
      frame.code.locals[index]? = some name ∧ frame.slot? index = none := by
  obtain ⟨instruction, fetched, misses⟩ := misses_of_step failed rfl
  cases misses with
  | unbound empty named => exact ⟨_, fetched, named, empty⟩

theorem empty_of_step {name : String} (failed : frame.step heap = .fail (.unboundCell name)) :
    ∃ index cell, frame.code.instructions[frame.pc]? = some (.loadCell index) ∧
      name = frame.derefName index ∧ frame.derefCell? index = some cell ∧
      heap.cell? cell = none := by
  obtain ⟨instruction, fetched, misses⟩ := misses_of_step failed rfl
  cases misses with
  | empty held empty => exact ⟨_, _, fetched, rfl, held, empty⟩

theorem Wired.reaches {later : Frame} (wired : frame.Wired) (reaches : frame.Reaches later) :
    later.Wired := by
  obtain ⟨sturdy, keeps⟩ := wired.sturdy.reaches reaches
  exact keeps.wired wired sturdy

theorem Entered.wired (entered : frame.Entered) : frame.Wired := by
  induction entered with
  | entered accepted builtins fits => exact wired_enter accepted.operable fits
  | migrated entered accepted builtins fits ih => exact ih.shadow accepted.operable fits
  | materialized entered heap ih => exact ih.materialize heap
  | reached entered reaches ih => exact ih.reaches reaches

end Frame

namespace Heap
variable {heap : Heap} {cell : CellId}

theorem filled_edit (filled : (heap.cell? cell).isSome) (change : HeapEdit) :
    ((heap.edit change).cell? cell).isSome := by
  rw [cell?_edit]
  split
  · split
    · rfl
    · exact filled
  · exact filled

theorem filled_editAll (filled : (heap.cell? cell).isSome) (edits : List HeapEdit) :
    ((heap.editAll edits).cell? cell).isSome := by
  induction edits generalizing heap with
  | nil => exact filled
  | cons change rest ih => exact ih (filled_edit filled change)

end Heap

namespace Machine
variable {host : Host σ} {start before after machine : Machine σ α} {id : ThreadId}
  {below : List (Activation σ α)} {first frame : Frame}

theorem Move.filled (move : Move host before after) {cell : CellId}
    (filled : (before.world.heap.cell? cell).isSome) :
    (after.world.heap.cell? cell).isSome := by
  have kept := Heap.filled_editAll filled (before.edits)
  rwa [Heap.cell?, move.grows.cells]

/-- No step of a run empties a cell. -/
theorem filled_of_met (met : Transition.Meets (step host) start machine) {cell : CellId}
    (filled : (start.world.heap.cell? cell).isSome) :
    (machine.world.heap.cell? cell).isSome := by
  have kept (before after : Machine σ α) (_ : Transition.Meets (step host) start before)
      (filled : (before.world.heap.cell? cell).isSome) (move : Move host before after) :
      (after.world.heap.cell? cell).isSome := move.filled filled
  exact met_keeps kept filled met

theorem empty_of_met (met : Transition.Meets (step host) start machine) {cell : CellId}
    (empty : machine.world.heap.cell? cell = none) : start.world.heap.cell? cell = none := by
  cases held : start.world.heap.cell? cell with
  | none => rfl
  | some value =>
    have filled := filled_of_met met (Option.isSome_of_eq_some held)
    rw [empty] at filled
    cases filled

/-- A step keeps the stack, puts something on it, or takes the top from it; a frame on top goes on
with a value or is left with a failure. -/
theorem Move.stack_cases (move : Move host before after) :
    after.stack = before.stack ∨ (∃ top, after.stack = top :: before.stack) ∨
    ∃ top, before.stack = top :: after.stack ∧
      ∀ thread frame, top = .frame thread frame →
        (∃ value, after.control = .run thread (frame.push value)) ∨
        ∃ fault, after.control = .give (.error fault) := by
  cases move with
  | called | launched => exact .inr (.inl ⟨_, rfl⟩)
  | resumed =>
    refine .inr (.inr ⟨_, rfl, ?_⟩)
    rintro thread frame ⟨⟩
    exact .inl ⟨_, rfl⟩
  | unwound =>
    refine .inr (.inr ⟨_, rfl, ?_⟩)
    rintro thread frame ⟨⟩
    exact .inr ⟨_, rfl⟩
  | replied => exact .inr (.inr ⟨_, rfl, fun _ _ => nofun⟩)
  | _ => exact .inl rfl

/-- The frame that is evaluated on top of a stack: it runs, or waits for a call. -/
def Carries (id : ThreadId) (below : List (Activation σ α)) (frame : Frame)
    (machine : Machine σ α) : Prop :=
  (machine.control = .run id frame ∧ machine.stack = below) ∨
    ∃ above, machine.stack = above ++ .frame id frame :: below

theorem Carries.unique {other : Frame} (carries : machine.Carries id below frame)
    (also : machine.Carries id below other) : other = frame := by
  have apart (above : List (Activation σ α)) (held : Frame) :
      below ≠ above ++ .frame id held :: below := by
    intro same
    have length := congrArg List.length same
    rw [List.length_append, List.length_cons] at length
    omega
  rcases carries with ⟨control, stack⟩ | ⟨above, stack⟩
  · rcases also with ⟨alsoControl, _⟩ | ⟨above, alsoStack⟩
    · cases control.symm.trans alsoControl
      rfl
    · exact absurd (stack.symm.trans alsoStack) (apart above other)
  · rcases also with ⟨_, alsoStack⟩ | ⟨others, alsoStack⟩
    · exact absurd (alsoStack.symm.trans stack) (apart above frame)
    · have same := stack.symm.trans alsoStack
      have tops := List.append_inj_right' same rfl
      cases tops
      rfl

/-- A step of an evaluation leads to a later point of its frame, or gives the result. -/
theorem Move.carries (move : Move host before after) (carries : before.Carries id below frame)
    (wired : frame.Wired) :
    (∃ later, after.Carries id below later ∧ frame.Keeps later ∧ later.Wired) ∨
    ∃ result world, after = ⟨.give result, below, world⟩ := by
  rcases carries with ⟨control, stack⟩ | ⟨above, stack⟩
  · obtain ⟨_, _, world⟩ := before
    cases control
    cases stack
    cases move with
    | ran progress =>
      obtain ⟨later, keeps⟩ := wired.goesOn (.inl ⟨_, progress⟩)
      exact .inl ⟨_, .inl ⟨rfl, rfl⟩, keeps, later⟩
    | called progress =>
      obtain ⟨later, keeps⟩ := wired.goesOn (.inr ⟨_, _, progress⟩)
      exact .inl ⟨_, .inr ⟨[], rfl⟩, keeps, later⟩
    | left progress => exact .inr ⟨_, _, rfl⟩
  · have waits (others : List (Activation σ α))
        (same : after.stack = others ++ .frame id frame :: below) :
        ∃ later, after.Carries id below later ∧ frame.Keeps later ∧ later.Wired :=
      ⟨frame, .inr ⟨others, same⟩, .refl frame, wired⟩
    rcases move.stack_cases with same | ⟨top, pushed⟩ | ⟨top, popped, resumes⟩
    · exact .inl (waits above (same.trans stack))
    · refine .inl (waits (top :: above) ?_)
      rw [pushed, stack]
      rfl
    · rw [stack] at popped
      cases above with
      | cons other above =>
        obtain ⟨_, rest⟩ := List.cons.inj popped
        exact .inl (waits above rest.symm)
      | nil =>
        obtain ⟨rfl, rfl⟩ := List.cons.inj popped
        rcases resumes id frame rfl with ⟨value, control⟩ | ⟨fault, control⟩
        · exact .inl ⟨_, .inl ⟨control, rfl⟩, .push frame value, wired.push value⟩
        · obtain ⟨_, _, world⟩ := after
          cases control
          exact .inr ⟨_, world, rfl⟩

def Lasts (host : Host σ) (start : Machine σ α) (below : List (Activation σ α)) (fuel : Nat) :
    Prop :=
  ∀ earlier ≤ fuel, ∀ result world, run host earlier start ≠ .next ⟨.give result, below, world⟩

structure Evaluating (host : Host σ) (start : Machine σ α) (id : ThreadId)
    (below : List (Activation σ α)) (fuel : Nat) (frame : Frame) (machine : Machine σ α) :
    Prop where
  met : run host fuel start = .next machine
  lasts : Lasts host start below fuel
  carries : machine.Carries id below frame

theorem carries_of_run {fuel : Nat} (carries : start.Carries id below first) (wired : first.Wired)
    (met : run host fuel start = .next machine) (lasts : Lasts host start below fuel) :
    ∃ last, machine.Carries id below last ∧ first.Keeps last ∧ last.Wired := by
  induction fuel generalizing machine with
  | zero =>
    cases met
    exact ⟨first, carries, .refl first, wired⟩
  | succ fuel ih =>
    obtain ⟨before, reached, move⟩ := exists_move_of_run met
    have sooner : Lasts host start below fuel :=
      fun earlier early => lasts earlier (Nat.le_succ_of_le early)
    obtain ⟨middle, carries, keeps, wired⟩ := ih reached sooner
    rcases move.carries carries wired with ⟨last, carries, more, wired⟩ | ⟨result, world, rfl⟩
    · exact ⟨last, carries, keeps.trans more, wired⟩
    · exact absurd met (lasts (fuel + 1) (Nat.le_refl _) result world)

/-- From one point of an evaluation to a later one its frame is kept. -/
theorem Evaluating.keeps {early late : Nat} {last : Frame} {later : Machine σ α}
    (carries : start.Carries id below frame) (wired : frame.Wired) (order : early ≤ late)
    (one : Evaluating host start id below early first machine)
    (other : Evaluating host start id below late last later) : first.Keeps last := by
  obtain ⟨more, rfl⟩ := Nat.exists_eq_add_of_le order
  obtain ⟨same, also, _, wired⟩ := carries_of_run carries wired one.met one.lasts
  cases one.carries.unique also
  have onward (fuel : Nat) : run host (early + fuel) start = run host fuel machine := by
    rw [run, Transition.run_add, ← run, one.met]
  have lasts : Lasts host machine below more := by
    intro earlier within result world
    rw [← onward]
    exact other.lasts (early + earlier) (by omega) result world
  have met := other.met
  rw [onward] at met
  obtain ⟨same, also, keeps, _⟩ := carries_of_run also wired met lasts
  cases other.carries.unique also
  exact keeps

structure KeepsVariables (host : Host σ) (start : Machine σ α) (id : ThreadId) (entry : Frame)
    (below : List (Activation σ α)) : Prop where
  /-- Until the result is given, the frame is there. -/
  carried : ∀ fuel machine, run host fuel start = .next machine → Lasts host start below fuel →
    ∃ frame, machine.Carries id below frame
  slots : ∀ fuel frame machine, Evaluating host start id below fuel frame machine →
    frame.code = entry.code ∧ frame.slots.length = entry.code.slotCount
  /-- Every cell and free variable has the cell that it had from the start. -/
  cells : ∀ fuel frame machine index, Evaluating host start id below fuel frame machine →
    index < entry.code.derefNames.length →
    ∃ cell, entry.derefCell? index = some cell ∧ frame.derefCell? index = some cell
  bound : ∀ early late first last machine later index,
    Evaluating host start id below early first machine →
    Evaluating host start id below late last later → early ≤ late →
    (first.slot? index).isSome → (last.slot? index).isSome
  /-- No cell of the heap is ever emptied. -/
  filled : ∀ machine later cell, Transition.Meets (step host) start machine →
    Transition.Meets (step host) machine later →
    (machine.world.heap.cell? cell).isSome → (later.world.heap.cell? cell).isSome
  celled : ∀ fuel frame world unit index name,
    Evaluating host start id below fuel frame ⟨.run id frame, below, world⟩ →
    frame.step world.heap ≠ .fail (.noCell unit index name)
  /-- A local is found unbound only if it was so at every earlier point of the evaluation. -/
  unboundLocal : ∀ fuel frame world name,
    Evaluating host start id below fuel frame ⟨.run id frame, below, world⟩ →
    frame.step world.heap = .fail (.unboundLocal name) →
    ∃ index, frame.code.instructions[frame.pc]? = some (.loadLocal index) ∧
      entry.code.locals[index]? = some name ∧
      ∀ early first machine, early ≤ fuel →
        Evaluating host start id below early first machine → first.slot? index = none
  /-- A cell or free variable is found without a value only if nothing ever filled its cell. -/
  unboundCell : ∀ fuel frame world name,
    Evaluating host start id below fuel frame ⟨.run id frame, below, world⟩ →
    frame.step world.heap = .fail (.unboundCell name) →
    ∃ index cell, frame.code.instructions[frame.pc]? = some (.loadCell index) ∧
      name = entry.derefName index ∧ entry.derefCell? index = some cell ∧
      ∀ earlier : Machine σ α,
        Transition.Meets (step host) earlier ⟨.run id frame, below, world⟩ →
        earlier.world.heap.cell? cell = none

/-- The frames of built functions keep their variables, whatever runs while they are evaluated. -/
theorem keepsVariables_of_entered (host : Host σ) (id : ThreadId) {entry : Frame}
    (entered : entry.Entered) (below : List (Activation σ α)) (world : World σ) :
    KeepsVariables host ⟨.run id entry, below, world⟩ id entry below := by
  have wired := entered.wired
  have carries : Carries id below entry (⟨.run id entry, below, world⟩ : Machine σ α) :=
    .inl ⟨rfl, rfl⟩
  have kept {fuel : Nat} {frame : Frame} {machine : Machine σ α}
      (evaluating : Evaluating host ⟨.run id entry, below, world⟩ id below fuel frame machine) :
      entry.Keeps frame ∧ frame.Wired := by
    obtain ⟨last, also, keeps, wired⟩ :=
      carries_of_run carries wired evaluating.met evaluating.lasts
    cases evaluating.carries.unique also
    exact ⟨keeps, wired⟩
  constructor
  case carried =>
    intro fuel machine met lasts
    obtain ⟨last, carries, _, _⟩ := carries_of_run carries wired met lasts
    exact ⟨last, carries⟩
  case slots =>
    intro fuel frame machine evaluating
    obtain ⟨keeps, _⟩ := kept evaluating
    exact ⟨keeps.code, keeps.length.trans wired.sturdy.slots⟩
  case cells =>
    intro fuel frame machine index evaluating inside
    obtain ⟨cell, held⟩ := wired.derefCell? inside
    exact ⟨cell, held, ((kept evaluating).1.derefCell? index).trans held⟩
  case bound =>
    intro early late first last machine later index one other order
    exact (Evaluating.keeps carries wired order one other).bound index
  case filled =>
    intro machine later cell _ met filled
    exact filled_of_met met filled
  case celled =>
    intro fuel frame present unit index name evaluating
    exact (kept evaluating).2.step_ne_noCell present.heap unit index name
  case unboundLocal =>
    intro fuel frame present name evaluating failed
    obtain ⟨index, fetched, named, empty⟩ := Frame.unbound_of_step failed
    rw [(kept evaluating).1.code] at named
    refine ⟨index, fetched, named, ?_⟩
    intro early first machine order one
    exact (Evaluating.keeps carries wired order one evaluating).unbound empty
  case unboundCell =>
    intro fuel frame present name evaluating failed
    obtain ⟨index, cell, fetched, named, held, empty⟩ := Frame.empty_of_step failed
    obtain ⟨keeps, _⟩ := kept evaluating
    rw [keeps.derefCell?] at held
    refine ⟨index, cell, fetched, ?_, held, fun earlier met => empty_of_met met empty⟩
    rw [named, Frame.derefName, Frame.derefName, keeps.code]

def mixed : Blueprint :=
  { name := "mixed", argumentCount := 1, locals := ["a", "b"], cells := ["c"], frees := ["d"],
    instructions := #[.loadLocal 0, .storeLocal 1, .loadLocal 1, .storeCell 0, .loadCell 0,
      .storeCell 1, .loadCell 1, .returnValue] }

def mixedHeap : Heap := { codes := ⟨#[mixed]⟩, cells := ⟨#[none]⟩ }

theorem keepsVariables_of_mixed :
    ∃ frame edits, Frame.enter mixedHeap 0 ⟨0, 0, 0, [0]⟩ [.int 1] = .ok (frame, edits) ∧
      frame.Entered ∧
      KeepsVariables passive
        (⟨.run 0 frame, [.program .client .done],
          { heap := mixedHeap.editAll edits, host := () }⟩ : Machine Unit (Except Fault Value))
        0 frame [.program .client .done] := by
  have accepted : (mixedHeap.code 0).Accepted :=
    ⟨"mixed", [.parameters ["a"], .locals ["b"], .cells ["c"], .frees ["d"],
      .instructions mixed.instructions.toList], rfl⟩
  have fits : Frame.enter mixedHeap 0 ⟨0, 0, 0, [0]⟩ [.int 1] = .ok (_, _) := rfl
  have entered := Frame.Entered.entered accepted 0 fits
  exact ⟨_, _, fits, entered, keepsVariables_of_entered passive 0 entered _ _⟩

end Machine

end Interpose
