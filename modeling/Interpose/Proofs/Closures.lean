import Interpose.Proofs.Calls
import Interpose.Proofs.Cells
import Interpose.Proofs.Migration

/-! Functions and the cells they close over. A function holds the cells that were on the operand
stack when it was made, in the order in which they were pushed, and its frames find them behind
their own cells, wherever they are migrated to. What is stored into a cell through one frame is
loaded through all that hold the cell, and the cells of no other activation change. -/

namespace Interpose
variable {σ α : Type}

namespace Frame

/-- The frames that come of a frame: later points of it, as it is, materialized, or migrated to
units that can be run. -/
inductive Continues (first : Frame) : Frame → Prop
  | refl : Continues first first
  | reached {frame later : Frame} (before : Continues first frame)
      (reaches : frame.Reaches later) : Continues first later
  | materialized {frame : Frame} (before : Continues first frame) (heap : Heap) :
      Continues first (frame.materialize heap)
  | migrated {frame shadow : Frame} {replacement : Code} (before : Continues first frame)
      (unit : replacement.Operable) (builtins : NamespaceId)
      (fits : frame.shadow replacement builtins = .ok shadow) : Continues first shadow

structure Refers (frame : Frame) (index : Nat) (cell : CellId) : Prop where
  held : frame.derefCell? index = some cell
  loads : ∀ heap, frame.code.instructions[frame.pc]? = some (.loadCell index) →
    frame.step heap =
      match heap.cell? cell with
      | some value => .next (frame.past (value :: frame.stack)) []
      | none => .fail (.unboundCell (frame.derefName index))
  stores : ∀ heap value rest, frame.code.instructions[frame.pc]? = some (.storeCell index) →
    frame.stack = value :: rest →
    frame.step heap = .next (frame.past rest) [.writeCell cell value]
  /-- What is closed over is the cell, not its content. -/
  closes : ∀ heap, frame.code.instructions[frame.pc]? = some (.loadClosure index) →
    frame.step heap = .next (frame.past (.cell cell :: frame.stack)) []

variable {frame : Frame} {heap : Heap}

theorem refers_of_held {index : Nat} {cell : CellId} (held : frame.derefCell? index = some cell) :
    frame.Refers index cell := by
  have found : derefCell? { frame with pc := frame.pc + 1 } index = some cell := held
  constructor
  case held => exact held
  case loads =>
    intro heap fetched
    simp only [step, fetched, execute, finding, found]
    cases heap.cell? cell <;> rfl
  case stores =>
    intro heap value rest fetched top
    have found : derefCell? { frame with stack := rest, pc := frame.pc + 1 } index = some cell :=
      held
    simp only [step, fetched, execute, popping, top, finding, found, past]
  case closes =>
    intro heap fetched
    simp only [step, fetched, execute, finding, found]
    rfl

/-- Whatever comes of a frame has its cells at the same places. -/
theorem Continues.derefCell? {later : Frame} (continues : frame.Continues later)
    (sturdy : frame.Sturdy) :
    later.Sturdy ∧ ∀ index, later.derefCell? index = frame.derefCell? index := by
  induction continues with
  | refl => exact ⟨sturdy, fun _ => rfl⟩
  | reached before reaches ih =>
    obtain ⟨later, keeps⟩ := ih.1.reaches reaches
    exact ⟨later, fun index => (keeps.derefCell? index).trans (ih.2 index)⟩
  | materialized before heap ih => exact ⟨ih.1.materialize heap, ih.2⟩
  | migrated before unit builtins fits ih =>
    refine ⟨ih.1.shadow unit fits, fun index => ?_⟩
    exact (derefCell?_shadow ih.1.slots fits index).trans (ih.2 index)

theorem cells?_map (cells : List CellId) : cells? (cells.map .cell) = .ok cells := by
  induction cells with
  | nil => rfl
  | cons cell rest ih => rw [List.map_cons, cells?, ih, Except.map]

theorem step_makeFunction_of_cells {index : Nat} {unit : CodeId} {cells : List CellId}
    {rest : List Value}
    (fetched : frame.code.instructions[frame.pc]? = some (.makeFunction index cells.length))
    (held : frame.stack = (cells.map .cell).reverse ++ rest)
    (constant : frame.code.constants[index]? = some (.code unit)) (heap : Heap) :
    frame.step heap =
      .next (frame.past (.function (heap.freshFunction unit frame.globals cells) :: rest))
        [.newFunction] := by
  have popped := @poppingMany_eq { frame with pc := frame.pc + 1 } _ _ held
  rw [List.length_map] at popped
  simp only [step, fetched, execute, popped, cells?_map, constant]
  rfl

/-- The free variables of a function are the cells of its closure. -/
theorem derefCell?_free {function : Function} {arguments : List Value} {builtins : NamespaceId}
    {edits : List HeapEdit} (unit : (heap.code function.code).Operable)
    (fits : Frame.enter heap builtins function arguments = .ok (frame, edits)) (index : Nat) :
    frame.derefCell? (frame.code.cells.length + index) = function.closure[index]? := by
  obtain ⟨given, _, rfl⟩ := enter_eq_ok fits
  have room : arguments.length ≤ (heap.code function.code).locals.length :=
    given ▸ unit.parameters
  rw [derefCell?, slot?, ← Nat.add_assoc, entrySlots_free room]
  cases function.closure[index]? <;> rfl

/-- A function can be called with an argument for every parameter, and whatever comes of its frame
has the cells of the closure behind its own. -/
theorem enter_refers {arguments : List Value} (function : Function)
    (unit : (heap.code function.code).Operable)
    (given : arguments.length = (heap.code function.code).argumentCount)
    (closed : (heap.code function.code).frees.length = function.closure.length)
    (builtins : NamespaceId) :
    ∃ frame edits, Frame.enter heap builtins function arguments = .ok (frame, edits) ∧
      frame.code = heap.code function.code ∧
      ∀ later, frame.Continues later → ∀ place cell, function.closure[place]? = some cell →
        later.Refers (frame.code.cells.length + place) cell := by
  obtain ⟨frame, edits, fits⟩ : ∃ frame edits,
      Frame.enter heap builtins function arguments = .ok (frame, edits) := by
    simp only [Frame.enter, given, closed, ne_eq, not_true_eq_false, if_false]
    exact ⟨_, _, rfl⟩
  refine ⟨frame, edits, fits, ?code, ?cells⟩
  case code =>
    obtain ⟨_, _, rfl⟩ := enter_eq_ok fits
    rfl
  case cells =>
    intro later continues place cell listed
    have still := (continues.derefCell? (sturdy_enter unit fits)).2
      (frame.code.cells.length + place)
    rw [derefCell?_free unit fits place, listed] at still
    exact refers_of_held still

end Frame

namespace Machine

/-- What is stored into a cell is loaded by the next step that loads it, through whatever frame. -/
theorem step_load_of_stored {host : Host σ} {after : Machine σ α} {fuel : Nat} {thread : ThreadId}
    {reader : Frame} {stack : List (Activation σ α)} {present : World σ} {cell : CellId}
    {value : Value} {place : Nat}
    (met : run host fuel after = .next ⟨.run thread reader, stack, present⟩)
    (stored : after.world.heap.cell? cell = some value) (spared : Unwritten host after cell fuel)
    (fetched : reader.code.instructions[reader.pc]? = some (.loadCell place))
    (held : reader.derefCell? place = some cell) :
    step host ⟨.run thread reader, stack, present⟩ =
      .next ⟨.run thread (reader.past (value :: reader.stack)), stack, present⟩ := by
  have content : present.heap.cell? cell = some value :=
    (cell?_of_unwritten (Heap.lt_size_of_filled stored) met spared).trans stored
  have progress := (Frame.refers_of_held held).loads present.heap fetched
  rw [content] at progress
  exact (Move.ran progress).step_eq

structure WiresClosures (host : Host σ) (start : Machine σ α) : Prop where
  /-- A call with values on top of a callee calls it with these values, in the order in which they
  were pushed, and leaves the rest of the stack alone. -/
  calls : ∀ id frame callee arguments rest (below : List (Activation σ α)) world,
    frame.code.instructions[frame.pc]? = some (.call arguments.length) →
    frame.stack = arguments.reverse ++ callee :: rest →
    WiresCall host id frame callee arguments rest below world
  /-- The cells on top of a stack become the closure of a function. Whenever it is called with an
  argument for every parameter of its unit, and the unit has as many free variables as there were
  cells, it gets a frame, and whatever comes of the frame has these cells behind its own. -/
  functions : ∀ {id frame below world index unit cells rest},
    Transition.Meets (step host) start ⟨.run id frame, below, world⟩ →
    frame.code.instructions[frame.pc]? = some (.makeFunction index cells.length) →
    frame.stack = (cells.map .cell).reverse ++ rest →
    frame.code.constants[index]? = some (.code unit) →
    ∃ function after,
      step host ⟨.run id frame, below, world⟩ =
        .next ⟨.run id (frame.past (.function function :: rest)), below, after⟩ ∧
      function.code = unit ∧ function.closure = cells ∧
      ∀ machine builtins arguments,
        Transition.Meets (step host)
          ⟨.run id (frame.past (.function function :: rest)), below, after⟩ machine →
        arguments.length = (machine.world.heap.code unit).argumentCount →
        (machine.world.heap.code unit).frees.length = cells.length →
        ∃ made edits,
          Frame.enter machine.world.heap builtins function arguments = .ok (made, edits) ∧
          made.code = machine.world.heap.code unit ∧
          ∀ later, made.Continues later → ∀ place cell, cells[place]? = some cell →
            later.Refers (made.code.cells.length + place) cell
  /-- A frame of a call refers to the same cells for as long as it lasts. -/
  activations : ∀ {machine frame}, Transition.Meets (step host) start machine →
    machine.Activates frame → ∀ later, frame.Continues later →
    ∀ index cell, frame.derefCell? index = some cell → later.Refers index cell
  /-- What is stored into a cell is loaded through all that hold it, until something else is stored
  into it, and no other cell changes. -/
  shared : ∀ {id writer below world index cell value rest},
    writer.code.instructions[writer.pc]? = some (.storeCell index) →
    writer.derefCell? index = some cell → writer.stack = value :: rest →
    ∃ after,
      step host ⟨.run id writer, below, world⟩ =
        .next (⟨.run id (writer.past rest), below, after⟩ : Machine σ α) ∧
      (∀ other, other ≠ cell → after.heap.cell? other = world.heap.cell? other) ∧
      ∀ fuel thread reader stack present place,
        run host fuel (⟨.run id (writer.past rest), below, after⟩ : Machine σ α) =
          .next ⟨.run thread reader, stack, present⟩ →
        Unwritten host (⟨.run id (writer.past rest), below, after⟩ : Machine σ α) cell fuel →
        reader.code.instructions[reader.pc]? = some (.loadCell place) →
        reader.derefCell? place = some cell →
        step host ⟨.run thread reader, stack, present⟩ =
          .next ⟨.run thread (reader.past (value :: reader.stack)), stack, present⟩
  /-- The cells that are made for an activation are not those of another. -/
  apart : ∀ {early late cell other}, MadeFor host start early cell →
    MadeFor host start late other → early ≠ late → cell ≠ other
  /-- Nor are they cells that were there before. -/
  fresh : ∀ {early late machine cell}, run host early start = .next machine →
    cell < machine.world.heap.cells.size → early ≤ late → ¬MadeFor host start late cell

/-- Calls and closures are wired so in every run that starts with built units. -/
theorem wiresClosures_of_accepted (host : Host σ) {start : Machine σ α}
    (accepted : ∀ unit ∈ start.world.heap.codes.rows, unit.Accepted) :
    WiresClosures host start := by
  have units := Heap.operable_of_accepted accepted
  constructor
  case calls =>
    intro id frame callee arguments rest below world fetched held
    exact wiresCall_of_fetched host id fetched held below world
  case functions =>
    intro id frame below world index unit cells rest met fetched held constant
    have move : Move host ⟨.run id frame, below, world⟩ _ :=
      .ran (Frame.step_makeFunction_of_cells fetched held constant world.heap)
    refine ⟨_, _, move.step_eq, rfl, rfl, ?_⟩
    intro machine builtins arguments onward given closed
    have there := operable_of_met units ((met.tail move.step_eq).trans onward)
    exact Frame.enter_refers (world.heap.freshFunction unit frame.globals cells) (there unit) given
      closed builtins
  case activations =>
    intro machine frame met activates later continues index cell held
    obtain ⟨_, function, _, _, _, fits⟩ := activates
    have sturdy := Frame.sturdy_enter (operable_of_met units met function.code) fits
    exact Frame.refers_of_held (((continues.derefCell? sturdy).2 index).trans held)
  case shared =>
    intro id writer below world index cell value rest fetched held top
    have move : Move host ⟨.run id writer, below, world⟩ _ :=
      .ran ((Frame.refers_of_held held).stores world.heap value rest fetched top)
    have content (other : CellId) :
        (world.edit [.writeCell cell value]).heap.cell? other =
          if other = cell then some value else world.heap.cell? other :=
      Heap.cell?_edit world.heap (.writeCell cell value) other
    refine ⟨_, move.step_eq, fun other apart => ?_, ?_⟩
    · exact (content other).trans (if_neg apart)
    · intro fuel thread reader stack present place met spared fetched held
      have stored := (content cell).trans (if_pos rfl)
      exact step_load_of_stored met stored spared fetched held
  case apart =>
    rintro early late cell _ made also different rfl
    exact different (made.unique units also)
  case fresh =>
    intro early late machine cell met there order made
    exact absurd (made.absent units met order) (Nat.not_le.mpr there)

def bump : Blueprint :=
  { name := "bump", frees := ["x"], constants := #[.int 1],
    instructions := #[.loadCell 0, .loadConst 0, .binary .add, .duplicate, .storeCell 0,
      .returnValue] }

/-- A function that makes one of its parameter, calls it twice, and returns the parameter. -/
def bumping : Blueprint :=
  { name := "bumping", argumentCount := 1, locals := ["x", "f"], cells := ["x"],
    constants := #[.code 0],
    instructions := #[.loadClosure 0, .makeFunction 0 1, .storeLocal 1, .loadLocal 1, .call 0,
      .pop, .loadLocal 1, .call 0, .pop, .loadCell 0, .returnValue] }

def callingBumping : Machine Unit (Except Fault Value) :=
  ofProgram (World.single #[bump, bumping] {})
    (Program.run 0 (.call (.function ⟨0, 1, 0, []⟩) [.int 40]))

theorem wiresClosures_of_bumping :
    WiresClosures passive callingBumping ∧
      ∃ world, Transition.Ends (step passive) callingBumping
        (.finished (.ok (.int 42)) world) := by
  refine ⟨wiresClosures_of_accepted passive ?_, _, ⟨60, rfl⟩⟩
  intro unit member
  rcases List.mem_cons.mp (Array.mem_toList_iff.mpr member) with rfl | member
  · exact ⟨"bump", [.frees ["x"], .constants [.int 1],
      .instructions bump.instructions.toList], rfl⟩
  · rw [List.mem_singleton.mp member]
    exact ⟨"bumping", [.parameters ["x"], .locals ["f"], .cells ["x"], .constants [.code 0],
      .instructions bumping.instructions.toList], rfl⟩

end Machine

end Interpose
