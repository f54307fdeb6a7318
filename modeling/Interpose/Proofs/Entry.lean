import Interpose.Proofs.Layout
import Interpose.Proofs.Worlds

/-! The frame of a call, slot by slot: the arguments, the locals that are not bound yet, a new cell
for every cell variable, and the cells of the closure. A cell variable that is a parameter starts
with its argument, whatever names the unit repeats; a call that is refused makes nothing. -/

namespace Interpose
variable {σ : Type}

namespace Heap

/-- New cells lie behind those that are there, in the order of their contents. -/
theorem editAll_newCells (heap : Heap) (contents : List (Option Value)) :
    heap.editAll (contents.map .newCell) =
      { heap with cells := ⟨heap.cells.rows ++ contents.toArray⟩ } := by
  induction contents generalizing heap with
  | nil => simp [editAll]
  | cons content rest ih =>
    have first : heap.editAll ((content :: rest).map .newCell) =
        (heap.edit (.newCell content)).editAll (rest.map .newCell) := rfl
    rw [first, ih]
    simp [edit, Table.push]

theorem size_newCells (heap : Heap) (contents : List (Option Value)) :
    (heap.editAll (contents.map .newCell)).cells.size = heap.cells.size + contents.length := by
  rw [editAll_newCells]
  simp [Table.size]

theorem cell?_newCells_of_lt {heap : Heap} {cell : CellId} (old : cell < heap.cells.size)
    (contents : List (Option Value)) :
    (heap.editAll (contents.map .newCell)).cell? cell = heap.cell? cell := by
  unfold Table.size at old
  rw [editAll_newCells, cell?, cell?, Table.get, Table.get, Array.getElem?_append_left old]

theorem cell?_newCells (heap : Heap) {contents : List (Option Value)} {index : Nat}
    {content : Option Value} (listed : contents[index]? = some content) :
    (heap.editAll (contents.map .newCell)).cell? (heap.freshCell + index) = content := by
  have behind : heap.cells.rows.size ≤ heap.freshCell + index := Nat.le_add_right _ _
  have place : heap.freshCell + index - heap.cells.rows.size = index := Nat.add_sub_cancel_left _ _
  rw [editAll_newCells, cell?, Table.get, Array.getElem?_append_right behind, place,
    List.getElem?_toArray, listed, Option.getD_some]

end Heap

namespace Frame

/-- What the cell of a variable starts with: the argument of the first parameter of its name, and
nothing when no parameter has the name. -/
inductive Captures (code : Code) (arguments : List Value) (name : String) : Option Value → Prop
  | parameter {position value} (inside : position < code.argumentCount)
      (named : code.locals[position]? = some name)
      (first : ∀ earlier < position, code.locals[earlier]? ≠ some name)
      (given : arguments[position]? = some value) : Captures code arguments name (some value)
  | other (absent : ∀ position < code.argumentCount, code.locals[position]? ≠ some name) :
      Captures code arguments name none

variable {code : Code} {arguments : List Value} {closure : List CellId} {firstCell : CellId}

theorem captures_captured (given : arguments.length = code.argumentCount) (name : String) :
    Captures code arguments name (captured code arguments name) := by
  have parameter {position : Nat} (inside : position < code.argumentCount) :
      code.parameters[position]? = code.locals[position]? := by
    rw [Blueprint.parameters, List.getElem?_take, if_pos inside]
  unfold captured
  cases found : code.parameters.idxOf? name with
  | none =>
    have absent := List.idxOf?_eq_none_iff.mp found
    apply Captures.other
    intro position inside named
    rw [← parameter inside] at named
    exact absent (List.mem_of_getElem? named)
  | some position =>
    obtain ⟨within, same, first⟩ := List.idxOf?_eq_some_iff.mp found
    have inside : position < code.argumentCount := by
      rw [Blueprint.parameters, List.length_take] at within
      omega
    rw [Option.bind_some, List.getElem?_eq_getElem (by omega)]
    refine .parameter inside ?named ?first (List.getElem?_eq_getElem _)
    case named => rw [← parameter inside, List.getElem?_eq_getElem within, same]
    case first =>
      intro earlier before named
      rw [← parameter (by omega), List.getElem?_eq_getElem (by omega)] at named
      exact first earlier before (Option.some.inj named)

theorem entrySlots_argument {index : Nat} (given : index < arguments.length) :
    (entrySlots code arguments firstCell closure)[index]? = arguments[index]?.map some := by
  simp only [entrySlots, List.append_assoc]
  rw [List.getElem?_append_left (by rw [List.length_map]; exact given), List.getElem?_map]

theorem entrySlots_unbound {index : Nat} (behind : arguments.length ≤ index)
    (inside : index < code.locals.length) :
    (entrySlots code arguments firstCell closure)[index]? = some none := by
  simp only [entrySlots, List.append_assoc]
  rw [List.getElem?_append_right (by rw [List.length_map]; exact behind), List.length_map,
    List.getElem?_append_left (by rw [List.length_replicate]; omega), List.getElem?_replicate,
    if_pos (by omega)]

section
variable (room : arguments.length ≤ code.locals.length)
include room

private theorem length_locals :
    (arguments.map some ++
      List.replicate (code.locals.length - arguments.length) (none : Option Value)).length =
      code.locals.length := by
  rw [List.length_append, List.length_map, List.length_replicate]
  omega

theorem entrySlots_cell {index : Nat} (inside : index < code.cells.length) :
    (entrySlots code arguments firstCell closure)[code.locals.length + index]? =
      some (some (.cell (firstCell + index))) := by
  have locals := length_locals room
  rw [entrySlots, List.append_assoc, List.getElem?_append_right (by omega), locals,
    Nat.add_sub_cancel_left, List.getElem?_append_left (by simp [inside]), List.getElem?_map,
    List.getElem?_range' inside, Option.map_some, Nat.one_mul]

theorem entrySlots_free (index : Nat) :
    (entrySlots code arguments firstCell closure)[
      code.locals.length + code.cells.length + index]? =
      closure[index]?.map fun cell => some (.cell cell) := by
  have locals := length_locals room
  have cells : ((List.range' firstCell code.cells.length).map
      fun cell => some (Value.cell cell)).length = code.cells.length := by
    rw [List.length_map, List.length_range']
  rw [entrySlots, List.append_assoc, List.getElem?_append_right (by omega), locals, Nat.add_assoc,
    Nat.add_sub_cancel_left, List.getElem?_append_right (by rw [cells]; omega), cells,
    Nat.add_sub_cancel_left, List.getElem?_map]

end

end Frame

namespace World
variable {before after : World σ} {id : ThreadId} {function : Function} {arguments : List Value}
  {frame : Frame}

structure Prepares (before : World σ) (id : ThreadId) (function : Function)
    (arguments : List Value) (frame : Frame) (after : World σ) : Prop where
  code : frame.code = before.heap.code function.code
  globals : frame.globals = function.globals
  builtins : frame.builtins = before.builtins id
  unstarted : frame.pc = 0 ∧ frame.stack = [] ∧ frame.locals? = none
  length : frame.slots.length = frame.code.slotCount
  given : ∀ index < frame.code.argumentCount,
    ∃ value, arguments[index]? = some value ∧ frame.slots[index]? = some (some value)
  unbound : ∀ index, frame.code.argumentCount ≤ index → index < frame.code.locals.length →
    frame.slots[index]? = some none
  /-- A cell variable has a cell that was not there before. -/
  cells : ∀ index name, frame.code.cells[index]? = some name →
    ∃ cell, frame.slots[frame.code.locals.length + index]? = some (some (.cell cell)) ∧
      before.heap.cells.size ≤ cell ∧ cell < after.heap.cells.size ∧
      Frame.Captures frame.code arguments name (after.heap.cell? cell)
  distinct : ∀ first second cell, first < frame.code.cells.length →
    second < frame.code.cells.length →
    frame.slots[frame.code.locals.length + first]? = some (some (.cell cell)) →
    frame.slots[frame.code.locals.length + second]? = some (some (.cell cell)) → first = second
  frees : ∀ index < frame.code.frees.length, ∃ cell, function.closure[index]? = some cell ∧
    frame.slots[frame.code.locals.length + frame.code.cells.length + index]? =
      some (some (.cell cell))
  kept : ∀ cell < before.heap.cells.size, after.heap.cell? cell = before.heap.cell? cell
  grown : after.heap.cells.size = before.heap.cells.size + frame.code.cells.length
  rest : after = { before with heap := { before.heap with cells := after.heap.cells } }

/-- What making the frame of a call comes to. The number of arguments is looked at first. -/
structure EntersExactly (world : World σ) (id : ThreadId) (function : Function)
    (arguments : List Value) : Prop where
  accepts : (∃ frame after, world.enter id function arguments = (.ok frame, after)) ↔
    arguments.length = (world.heap.code function.code).argumentCount ∧
      function.closure.length = (world.heap.code function.code).frees.length
  refuses : ∀ fault after, world.enter id function arguments = (.error fault, after) →
    after = world ∧ fault =
      if arguments.length ≠ (world.heap.code function.code).argumentCount then
        .argumentMismatch (world.heap.code function.code).name
          (world.heap.code function.code).argumentCount arguments.length
      else
        .closureMismatch (world.heap.code function.code).name function.closure.length
          (world.heap.code function.code).frees.length
  prepares : ∀ frame after, world.enter id function arguments = (.ok frame, after) →
    world.Prepares id function arguments frame after

theorem enter_eq (world : World σ) (id : ThreadId) (function : Function)
    (arguments : List Value) :
    world.enter id function arguments =
      if arguments.length ≠ (world.heap.code function.code).argumentCount then
        (.error (.argumentMismatch (world.heap.code function.code).name
          (world.heap.code function.code).argumentCount arguments.length), world)
      else if function.closure.length ≠ (world.heap.code function.code).frees.length then
        (.error (.closureMismatch (world.heap.code function.code).name function.closure.length
          (world.heap.code function.code).frees.length), world)
      else
        (.ok { code := world.heap.code function.code, globals := function.globals,
               builtins := world.builtins id,
               slots := Frame.entrySlots (world.heap.code function.code) arguments
                 world.heap.freshCell function.closure },
          world.edit ((Frame.cellContents (world.heap.code function.code) arguments).map
            .newCell)) := by
  simp only [enter, Frame.enter]
  by_cases given : arguments.length ≠ (world.heap.code function.code).argumentCount
  · rw [if_pos given, if_pos given]
  · rw [if_neg given, if_neg given]
    by_cases closed : function.closure.length ≠ (world.heap.code function.code).frees.length
    · rw [if_pos closed, if_pos closed]
    · rw [if_neg closed, if_neg closed]

private theorem prepares_of_fits (before : World σ) (id : ThreadId)
    (unit : (before.heap.code function.code).Operable)
    (given : arguments.length = (before.heap.code function.code).argumentCount)
    (closed : function.closure.length = (before.heap.code function.code).frees.length) :
    before.Prepares id function arguments
      { code := before.heap.code function.code, globals := function.globals,
        builtins := before.builtins id,
        slots := Frame.entrySlots (before.heap.code function.code) arguments before.heap.freshCell
          function.closure }
      (before.edit ((Frame.cellContents (before.heap.code function.code) arguments).map
        .newCell)) := by
  have parameters := unit.parameters
  have room : arguments.length ≤ (before.heap.code function.code).locals.length := by omega
  have contents : (Frame.cellContents (before.heap.code function.code) arguments).length =
      (before.heap.code function.code).cells.length := List.length_map _
  constructor
  case code | globals | builtins => rfl
  case unstarted => exact ⟨rfl, rfl, rfl⟩
  case length =>
    simp only [Frame.entrySlots, Blueprint.slotCount, List.length_append, List.length_map,
      List.length_replicate, List.length_range']
    omega
  case given =>
    intro index inside
    have there : index < arguments.length := Nat.lt_of_lt_of_eq inside given.symm
    refine ⟨arguments[index], List.getElem?_eq_getElem there, ?_⟩
    rw [Frame.entrySlots_argument there, List.getElem?_eq_getElem there, Option.map_some]
  case unbound =>
    intro index behind inside
    exact Frame.entrySlots_unbound (given ▸ behind) inside
  case cells =>
    intro index name named
    have inside := (List.getElem?_eq_some_iff.mp named).1
    refine ⟨_, Frame.entrySlots_cell room inside, Nat.le_add_right _ _, ?_, ?_⟩
    · rw [heap_edit, Heap.size_newCells, contents]
      exact Nat.add_lt_add_left inside _
    · have listed : (Frame.cellContents (before.heap.code function.code) arguments)[index]? =
          some (Frame.captured (before.heap.code function.code) arguments name) := by
        rw [Frame.cellContents, List.getElem?_map, named, Option.map_some]
      rw [heap_edit, Heap.cell?_newCells before.heap listed]
      exact Frame.captures_captured given name
  case distinct =>
    intro first second cell inside alsoInside held alsoHeld
    rw [Frame.entrySlots_cell room inside] at held
    rw [Frame.entrySlots_cell room alsoInside] at alsoHeld
    have same := held.trans alsoHeld.symm
    simp only [Option.some.injEq, Value.cell.injEq] at same
    exact Nat.add_left_cancel same
  case frees =>
    intro index inside
    have there : index < function.closure.length := Nat.lt_of_lt_of_eq inside closed.symm
    refine ⟨function.closure[index], List.getElem?_eq_getElem there, ?_⟩
    rw [Frame.entrySlots_free room, List.getElem?_eq_getElem there, Option.map_some]
  case kept =>
    intro cell old
    exact Heap.cell?_newCells_of_lt old _
  case grown => rw [heap_edit, Heap.size_newCells, contents]
  case rest => rw [heap_edit, edit, Heap.editAll_newCells]

private theorem entersExactly_of_refusal {fault : Fault}
    (made : before.enter id function arguments = (.error fault, before))
    (misfits : ¬(arguments.length = (before.heap.code function.code).argumentCount ∧
      function.closure.length = (before.heap.code function.code).frees.length))
    (cause : fault =
      if arguments.length ≠ (before.heap.code function.code).argumentCount then
        .argumentMismatch (before.heap.code function.code).name
          (before.heap.code function.code).argumentCount arguments.length
      else
        .closureMismatch (before.heap.code function.code).name function.closure.length
          (before.heap.code function.code).frees.length) :
    before.EntersExactly id function arguments := by
  refine ⟨iff_of_false ?_ misfits, ?refuses, ?prepares⟩
  case refuses =>
    intro fault after refused
    rw [made] at refused
    cases refused
    exact ⟨rfl, cause⟩
  case prepares =>
    intro frame after entered
    rw [made] at entered
    cases entered
  · rintro ⟨frame, after, entered⟩
    rw [made] at entered
    cases entered

/-- The frame of a call is made exactly when there is an argument for every parameter and a cell for
every free variable, for all names that a unit can have. -/
theorem enters_exactly (world : World σ) (id : ThreadId) (function : Function)
    (arguments : List Value) (accepted : (world.heap.code function.code).Accepted) :
    world.EntersExactly id function arguments := by
  have made := world.enter_eq id function arguments
  by_cases given : arguments.length = (world.heap.code function.code).argumentCount
  · rw [if_neg (not_not_intro given)] at made
    by_cases closed : function.closure.length = (world.heap.code function.code).frees.length
    · rw [if_neg (not_not_intro closed)] at made
      have prepares := prepares_of_fits world id accepted.operable given closed
      refine ⟨iff_of_true ⟨_, _, made⟩ ⟨given, closed⟩, ?refuses, ?prepares⟩
      case refuses =>
        intro fault after refused
        rw [made] at refused
        cases refused
      case prepares =>
        intro frame after entered
        rw [made] at entered
        cases entered
        exact prepares
    · rw [if_pos closed] at made
      refine entersExactly_of_refusal made ?_ (if_neg (not_not_intro given)).symm
      exact fun fits => closed fits.2
  · rw [if_pos given] at made
    refine entersExactly_of_refusal made ?_ (if_pos given).symm
    exact fun fits => given fits.1

def sharing : Blueprint :=
  { name := "sharing", argumentCount := 3, locals := ["a", "b", "a", "c"],
    cells := ["c", "a", "a"], frees := ["a"], constants := #[.int 1],
    instructions := #[.loadConst 0, .returnValue] }

def holding : World Unit :=
  { single #[sharing] {} with heap := { codes := ⟨#[sharing]⟩, cells := ⟨#[some (.int 7)]⟩ } }

theorem enters_exactly_of_sharing :
    sharing.Accepted ∧
      holding.EntersExactly 0 ⟨0, 0, 0, [0]⟩ [.int 1, .int 2, .int 3] ∧
      ∃ frame after,
        holding.enter 0 ⟨0, 0, 0, [0]⟩ [.int 1, .int 2, .int 3] = (.ok frame, after) ∧
        frame.slots = [some (.int 1), some (.int 2), some (.int 3), none, some (.cell 1),
          some (.cell 2), some (.cell 3), some (.cell 0)] ∧
        after.heap.cells.rows.toList = [some (.int 7), none, some (.int 1), some (.int 1)] := by
  have accepted : sharing.Accepted :=
    ⟨"sharing", [.parameters ["a", "b", "a"], .locals ["c"], .cells ["c", "a", "a"],
      .frees ["a"], .constants [.int 1], .instructions [.loadConst 0, .returnValue]], rfl⟩
  refine ⟨accepted, enters_exactly holding 0 _ _ accepted, ?_⟩
  exact ⟨_, _, rfl, rfl, rfl⟩

end World

end Interpose
