import Interpose.Frame.Migration
import Interpose.Frame.Step
import Interpose.Frame.Entry
import Interpose.Proofs.Matching

/-! A frame in a wider unit. A unit with the same body and further locals runs instruction by
instruction like the unit it extends: the further locals are never read or written, and the cells
lie behind them. The two frames belong to engines that are the same under a renaming. -/

namespace Interpose

/-- A unit with the same body and tables, and further locals behind its own. -/
structure Blueprint.Extends (wide narrow : Blueprint) : Prop where
  name : wide.name = narrow.name
  constants : wide.constants = narrow.constants
  names : wide.names = narrow.names
  cells : wide.cells = narrow.cells
  frees : wide.frees = narrow.frees
  instructions : wide.instructions = narrow.instructions
  locals : narrow.locals <+: wide.locals

structure Blueprint.Widened (names : Renaming) (narrow wide : Blueprint) : Prop where
  name : wide.name = narrow.name
  constants : List.Forall₂ (Value.Renamed names) narrow.constants.toList wide.constants.toList
  names : wide.names = narrow.names
  cells : wide.cells = narrow.cells
  frees : wide.frees = narrow.frees
  instructions : wide.instructions = narrow.instructions
  locals : narrow.locals <+: wide.locals

namespace Blueprint

theorem Renamed.widened {names : Renaming} {unit other : Blueprint}
    (same : unit.Renamed names other) : unit.Widened names other where
  name := same.name
  constants := same.constants
  names := same.names_eq
  cells := same.cells
  frees := same.frees
  instructions := same.instructions
  locals := ⟨[], by rw [List.append_nil, same.locals]⟩

namespace Widened
variable {names wider : Renaming} {narrow wide wider' : Blueprint}

theorem mono (widened : narrow.Widened names wide) (within : names.Within wider) :
    narrow.Widened wider wide :=
  { widened with constants := widened.constants.imp fun _ _ same => same.mono within }

theorem extends_ (widened : narrow.Widened names wide) (extended : wider'.Extends wide) :
    narrow.Widened names wider' where
  name := extended.name.trans widened.name
  constants := by
    rw [extended.constants]
    exact widened.constants
  names := extended.names.trans widened.names
  cells := extended.cells.trans widened.cells
  frees := extended.frees.trans widened.frees
  instructions := extended.instructions.trans widened.instructions
  locals := widened.locals.trans extended.locals

theorem constant (widened : narrow.Widened names wide) (index : Nat) :
    Option.Rel (Value.Renamed names) narrow.constants[index]? wide.constants[index]? := by
  rw [← Array.getElem?_toList, ← Array.getElem?_toList]
  exact rel_getElem? widened.constants index

end Widened

end Blueprint

abbrev RenamedSlot (names : Renaming) : Option Value → Option Value → Prop :=
  Option.Rel (Value.Renamed names)

private theorem join_renamed {names : Renaming} {slot other : Option (Option Value)}
    (same : Option.Rel (RenamedSlot names) slot other) : RenamedSlot names slot.join other.join := by
  cases same with
  | none => exact .none
  | some same => exact same

namespace Frame

/-- Two frames at the same point that hold the same values, the second in a unit that extends that of
the first. -/
structure Twins (names : Renaming) (narrow wide : Frame) : Prop where
  code : narrow.code.Widened names wide.code.toBlueprint
  globals : names.spaces.maps narrow.globals wide.globals
  builtins : names.spaces.maps narrow.builtins wide.builtins
  stack : List.Forall₂ (Value.Renamed names) narrow.stack wide.stack
  pc : wide.pc = narrow.pc
  /-- The own locals are there, and the slots of the further ones lie behind them. -/
  room : narrow.code.locals.length ≤ narrow.slots.length
  slots : ∃ own gap behind,
    List.Forall₂ (RenamedSlot names) (narrow.slots.take narrow.code.locals.length) own ∧
    narrow.code.locals.length + gap.length = wide.code.locals.length ∧
    List.Forall₂ (RenamedSlot names) (narrow.slots.drop narrow.code.locals.length) behind ∧
    wide.slots = own ++ gap ++ behind
  wellFormed : narrow.code.WellFormed

namespace Twins
variable {names wider : Renaming} {narrow wide : Frame}

theorem mono (twins : Twins names narrow wide) (within : names.Within wider) :
    Twins wider narrow wide := by
  have slot {first second : Option Value} (same : RenamedSlot names first second) :
      RenamedSlot wider first second := relOption_mono same within
  obtain ⟨own, gap, behind, front, width, back, slots⟩ := twins.slots
  exact { twins with
    code := twins.code.mono within
    globals := within.spaces twins.globals
    builtins := within.spaces twins.builtins
    stack := twins.stack.imp fun _ _ same => same.mono within
    slots := ⟨own, gap, behind, front.imp fun _ _ => slot, width, back.imp fun _ _ => slot, slots⟩ }

theorem slot? (twins : Twins names narrow wide) {index : Nat}
    (own : index < narrow.code.locals.length) :
    RenamedSlot names (narrow.slot? index) (wide.slot? index) := by
  obtain ⟨first, gap, behind, front, _, _, slots⟩ := twins.slots
  have room := twins.room
  have length := front.length_eq
  rw [List.length_take] at length
  have here := rel_getElem? front index
  rw [List.getElem?_take, if_pos own] at here
  rw [Frame.slot?, Frame.slot?, slots, List.append_assoc,
    List.getElem?_append_left (by omega)]
  exact join_renamed here

theorem wideRoom (twins : Twins names narrow wide) :
    narrow.code.locals.length ≤ wide.slots.length := by
  obtain ⟨own, gap, behind, front, _, _, slots⟩ := twins.slots
  have room := twins.room
  have length := front.length_eq
  rw [List.length_take] at length
  rw [slots, List.length_append, List.length_append]
  omega

theorem derefCell? (twins : Twins names narrow wide) (index : Nat) :
    Option.Rel names.cells.maps (narrow.derefCell? index) (wide.derefCell? index) := by
  obtain ⟨own, gap, behind, front, width, back, slots⟩ := twins.slots
  have room := twins.room
  have length := front.length_eq
  rw [List.length_take] at length
  have same : RenamedSlot names (narrow.slot? (narrow.code.locals.length + index))
      (wide.slot? (wide.code.locals.length + index)) := by
    have there := rel_getElem? back index
    have before : (own ++ gap).length = wide.code.locals.length := by
      rw [List.length_append]
      omega
    rw [List.getElem?_drop] at there
    rw [Frame.slot?, Frame.slot?, slots, List.getElem?_append_right (by omega), before,
      Nat.add_sub_cancel_left]
    exact join_renamed there
  simp only [Frame.derefCell?]
  generalize narrow.slot? (narrow.code.locals.length + index) = first at same
  generalize wide.slot? (wide.code.locals.length + index) = second at same
  cases same with
  | none => exact .none
  | @some value other same =>
    cases same with
    | cell same => exact .some same
    | plain plain =>
      cases value with
      | cell => cases plain
      | _ => exact .none
    | code | function => exact .none

theorem derefName (twins : Twins names narrow wide) (index : Nat) :
    wide.derefName index = narrow.derefName index := by
  simp only [Frame.derefName, Blueprint.derefName?, Blueprint.derefNames, twins.code.cells,
    twins.code.frees]

/-- Where there are no further locals, the slots are the same in their order. -/
theorem aligned (twins : Twins names narrow wide) (same : wide.code.locals = narrow.code.locals) :
    List.Forall₂ (RenamedSlot names) narrow.slots wide.slots := by
  obtain ⟨own, gap, behind, front, width, back, slots⟩ := twins.slots
  have none : gap = [] := by
    rw [same] at width
    exact List.length_eq_zero_iff.mp (Nat.add_eq_left.mp width)
  have whole : List.Forall₂ (RenamedSlot names)
      (narrow.slots.take narrow.code.locals.length ++ narrow.slots.drop narrow.code.locals.length)
      (own ++ behind) := List.rel_append front back
  rw [List.take_append_drop] at whole
  rwa [slots, none, List.append_nil]

theorem withStack (twins : Twins names narrow wide) {stack other : List Value}
    (same : List.Forall₂ (Value.Renamed names) stack other) :
    Twins names { narrow with stack } { wide with stack := other } :=
  { twins with stack := same }

theorem withPc (twins : Twins names narrow wide) (pc : Nat) :
    Twins names { narrow with pc } { wide with pc } :=
  { twins with pc := rfl }

theorem push (twins : Twins names narrow wide) {value other : Value}
    (same : value.Renamed names other) : Twins names (narrow.push value) (wide.push other) :=
  twins.withStack (.cons same twins.stack)

theorem store (twins : Twins names narrow wide) {index : Nat} {value other : Value}
    (own : index < narrow.code.locals.length) (same : value.Renamed names other) :
    Twins names { narrow with slots := narrow.slots.set index (some value) }
      { wide with slots := wide.slots.set index (some other) } := by
  obtain ⟨first, gap, behind, front, width, back, slots⟩ := twins.slots
  have room := twins.room
  have length := front.length_eq
  rw [List.length_take] at length
  refine { twins with
    room := by rw [List.length_set]; exact room
    slots := ⟨first.set index (some other), gap, behind, ?front, width, ?back, ?slots⟩ }
  case front =>
    rw [List.take_set]
    exact forall₂_set front index (.some same)
  case back =>
    rw [List.drop_set, if_pos own]
    exact back
  case slots =>
    rw [slots, List.append_assoc, List.set_append_left _ _ (by omega), List.append_assoc]

end Twins

namespace Progress

inductive Agrees (names : Renaming) : Progress → Progress → Prop
  | next {narrow wide edits others after} (same : RenamedEdits names edits others after)
      (twins : Twins after narrow wide) : Agrees names (.next narrow edits) (.next wide others)
  | call {narrow wide callee callee' arguments arguments'} (twins : Twins names narrow wide)
      (called : callee.Renamed names callee')
      (given : List.Forall₂ (Value.Renamed names) arguments arguments') :
      Agrees names (.call narrow callee arguments) (.call wide callee' arguments')
  | leave {result other} (same : RenamedResult names result other) :
      Agrees names (.leave result) (.leave other)

end Progress

section
variable {names : Renaming} {narrow wide : Frame}

private theorem agrees_fail {fault : Fault} (own : fault.isRaised = false) :
    Progress.Agrees names (.fail fault) (.fail fault) :=
  .leave (.error (.own own))

private theorem agrees_still (twins : Twins names narrow wide) :
    Progress.Agrees names (.next narrow []) (.next wide []) :=
  .next (.nil names) twins

private theorem agrees_pushing (twins : Twins names narrow wide) {value other : Value}
    (same : value.Renamed names other) :
    Progress.Agrees names (narrow.pushing value) (wide.pushing other) :=
  agrees_still (twins.push same)

private theorem agrees_pushingPlain (twins : Twins names narrow wide)
    {result : Except Fault Value} (plain : PlainResult result) :
    Progress.Agrees names (narrow.pushingResult result) (wide.pushingResult result) := by
  cases result with
  | ok value => exact agrees_pushing twins (.plain plain)
  | error fault => exact agrees_fail plain

private theorem agrees_popping (twins : Twins names narrow wide)
    {go other : Value → Frame → Progress}
    (goes : ∀ value value' below above, below.code = narrow.code → Twins names below above →
      value.Renamed names value' → Progress.Agrees names (go value below) (other value' above)) :
    Progress.Agrees names (narrow.popping go) (wide.popping other) := by
  have stack := twins.stack
  unfold popping
  generalize held : narrow.stack = first at stack
  generalize wide.stack = second at stack
  cases stack with
  | nil =>
    rw [twins.pc, twins.code.name]
    exact agrees_fail rfl
  | cons same rest => exact goes _ _ _ _ rfl (twins.withStack rest) same

private theorem agrees_poppingMany (twins : Twins names narrow wide) (count : Nat)
    {go other : List Value → Frame → Progress}
    (goes : ∀ values values' below above, below.code = narrow.code → Twins names below above →
      List.Forall₂ (Value.Renamed names) values values' →
      Progress.Agrees names (go values below) (other values' above)) :
    Progress.Agrees names (narrow.poppingMany count go) (wide.poppingMany count other) := by
  have stack := twins.stack
  unfold poppingMany
  rw [← stack.length_eq]
  split
  · rw [twins.pc, twins.code.name]
    exact agrees_fail rfl
  · refine goes _ _ _ _ rfl (twins.withStack (List.forall₂_drop count stack)) ?_
    exact List.rel_reverse (List.forall₂_take count stack)

private theorem agrees_finding (twins : Twins names narrow wide) (index : Nat)
    {go other : CellId → Progress}
    (goes : ∀ cell cell', names.cells.maps cell cell' →
      Progress.Agrees names (go cell) (other cell')) :
    Progress.Agrees names (narrow.finding index go) (wide.finding index other) := by
  have found := twins.derefCell? index
  unfold finding
  rw [twins.derefName, twins.code.name]
  generalize narrow.derefCell? index = first at found
  generalize wide.derefCell? index = second at found
  cases found with
  | none => exact agrees_fail rfl
  | some same => exact goes _ _ same

variable {heap other : Heap}

private theorem cells?_renamed {values values' : List Value}
    (same : List.Forall₂ (Value.Renamed names) values values') :
    (∃ cells cells', cells? values = .ok cells ∧ cells? values' = .ok cells' ∧
        List.Forall₂ names.cells.maps cells cells') ∨
      ∃ kind, cells? values = .error (.closureOfNonCell kind) ∧
        cells? values' = .error (.closureOfNonCell kind) := by
  induction same with
  | nil => exact .inl ⟨[], [], rfl, rfl, .nil⟩
  | @cons value value' _ _ first rest ih =>
    cases first with
    | cell first =>
      simp only [cells?]
      rcases ih with ⟨cells, cells', found, also, mapped⟩ | ⟨kind, failed, also⟩
      · rw [found, also]
        exact .inl ⟨_, _, rfl, rfl, .cons first mapped⟩
      · rw [failed, also]
        exact .inr ⟨kind, rfl, rfl⟩
    | plain plain =>
      cases value with
      | cell => cases plain
      | _ => exact .inr ⟨_, rfl, rfl⟩
    | code | function => exact .inr ⟨_, rfl, rfl⟩

private theorem agrees_loadConst (heap other : Heap) (twins : Twins names narrow wide) {index : Nat}
    (admitted : narrow.code.Admits (.loadConst index)) :
    Progress.Agrees names (narrow.execute heap (.loadConst index))
      (wide.execute other (.loadConst index)) := by
  have constant := twins.code.constant index
  have inside : index < narrow.code.constants.size := admitted .constant index rfl
  simp only [execute]
  rw [Array.getElem?_eq_getElem inside] at constant ⊢
  generalize wide.code.constants[index]? = second at constant
  cases constant with
  | some same => exact agrees_pushing twins same

private theorem agrees_loadLocal (heap other : Heap) (twins : Twins names narrow wide) {index : Nat}
    (admitted : narrow.code.Admits (.loadLocal index)) :
    Progress.Agrees names (narrow.execute heap (.loadLocal index))
      (wide.execute other (.loadLocal index)) := by
  have inside : index < narrow.code.locals.length := admitted .localSlot index rfl
  have name : wide.code.locals[index]? = narrow.code.locals[index]? := by
    obtain ⟨further, extended⟩ := twins.code.locals
    rw [← extended, List.getElem?_append_left inside]
  have held := twins.slot? inside
  simp only [execute, name]
  generalize narrow.slot? index = first at held
  generalize wide.slot? index = second at held
  cases held with
  | some same => exact agrees_pushing twins same
  | none =>
    rw [List.getElem?_eq_getElem inside]
    exact agrees_fail rfl

private theorem agrees_loadGlobal (twins : Twins names narrow wide)
    (matched : heap.Matches names other) {index : Nat}
    (admitted : narrow.code.Admits (.loadGlobal index)) :
    Progress.Agrees names (narrow.execute heap (.loadGlobal index))
      (wide.execute other (.loadGlobal index)) := by
  have inside : index < narrow.code.names.size := admitted .name index rfl
  simp only [execute, twins.code.names, Array.getElem?_eq_getElem inside]
  have means := matched.resolve? twins.globals twins.builtins narrow.code.names[index]
  generalize heap.resolve? narrow.globals narrow.builtins narrow.code.names[index] = first at means
  generalize other.resolve? wide.globals wide.builtins narrow.code.names[index] = second at means
  cases means with
  | some same => exact agrees_pushing twins same
  | none => exact agrees_fail rfl

private theorem agrees_makeFunction (twins : Twins names narrow wide)
    (matched : heap.Matches names other) {code freeCount : Nat}
    (admitted : narrow.code.Admits (.makeFunction code freeCount)) :
    Progress.Agrees names (narrow.execute heap (.makeFunction code freeCount))
      (wide.execute other (.makeFunction code freeCount)) := by
  unfold execute
  refine agrees_poppingMany twins freeCount fun values values' below above same twins held => ?_
  rw [← same] at admitted
  obtain ⟨id, constant⟩ := admitted
  have also := twins.code.constant code
  rw [constant] at also
  rcases cells?_renamed held with ⟨cells, cells', found, alike, mapped⟩ | ⟨kind, failed, alike⟩
  · simp only [found, alike, constant]
    generalize above.code.constants[code]? = second at also
    cases also with
    | some unit =>
      cases unit with
      | plain plain => cases plain
      | code unit =>
        have made := matched.freshFunction unit twins.globals mapped
        exact .next (.single .newFunction)
          ((twins.mono names.grows_addFunction.within).push (.function made))
  · simp only [failed, alike]
    exact agrees_fail rfl

private theorem agrees_execute (twins : Twins names narrow wide)
    (matched : heap.Matches names other) {instruction : Instruction}
    (admitted : narrow.code.Admits instruction) :
    Progress.Agrees names (narrow.execute heap instruction) (wide.execute other instruction) := by
  unfold execute
  cases instruction with
  | loadConst index => exact agrees_loadConst heap other twins admitted
  | loadLocal index => exact agrees_loadLocal heap other twins admitted
  | loadGlobal index => exact agrees_loadGlobal twins matched admitted
  | makeFunction code freeCount => exact agrees_makeFunction twins matched admitted
  | storeLocal index =>
    have inside : index < narrow.code.locals.length := admitted .localSlot index rfl
    refine agrees_popping twins fun value value' below above code twins same => ?_
    rw [← code] at inside
    rw [if_pos (Nat.lt_of_lt_of_le inside twins.room),
      if_pos (Nat.lt_of_lt_of_le inside twins.wideRoom)]
    exact agrees_still (twins.store inside same)
  | loadCell index =>
    refine agrees_finding twins index fun cell cell' same => ?_
    have content := matched.cells same
    rw [twins.derefName]
    generalize heap.cell? cell = first at content
    generalize other.cell? cell' = second at content
    cases content with
    | some same => exact agrees_pushing twins same
    | none => exact agrees_fail rfl
  | storeCell index =>
    refine agrees_popping twins fun value value' below above _ twins written => ?_
    exact agrees_finding twins index fun cell cell' same =>
      .next (.single (.writeCell same written)) twins
  | loadClosure index =>
    exact agrees_finding twins index fun cell cell' same => agrees_pushing twins (.cell same)
  | storeGlobal index =>
    have inside : index < narrow.code.names.size := admitted .name index rfl
    refine agrees_popping twins fun value value' below above code twins bound => ?_
    rw [← code] at inside
    simp only [twins.code.names, Array.getElem?_eq_getElem inside]
    exact .next (.single (.bind twins.globals bound)) twins
  | binary operator =>
    refine agrees_popping twins fun right right' below above _ twins second => ?_
    refine agrees_popping twins fun left left' below above _ twins first => ?_
    rw [operator.apply_renamed first second]
    exact agrees_pushingPlain twins (operator.plain_apply left right)
  | compare comparison =>
    refine agrees_popping twins fun right right' below above _ twins second => ?_
    refine agrees_popping twins fun left left' below above _ twins first => ?_
    rw [comparison.apply_renamed first second]
    exact agrees_pushingPlain twins (comparison.plain_apply left right)
  | not =>
    refine agrees_popping twins fun value value' below above _ twins same => ?_
    rw [same.isTruthy_eq]
    exact agrees_pushing twins (.plain rfl)
  | neg =>
    refine agrees_popping twins fun value value' below above _ twins same => ?_
    rw [Value.negate_renamed same]
    exact agrees_pushingPlain twins value.plain_negate
  | pop => exact agrees_popping twins fun _ _ _ _ _ twins _ => agrees_still twins
  | duplicate =>
    have stack := twins.stack
    dsimp only
    generalize narrow.stack = first at stack
    generalize wide.stack = second at stack
    cases stack with
    | nil =>
      rw [twins.code.name]
      exact agrees_fail rfl
    | cons same rest => exact agrees_pushing twins same
  | jump target => exact agrees_still (twins.withPc target)
  | popJumpIfFalse target =>
    refine agrees_popping twins fun value value' below above _ twins same => ?_
    rw [same.isTruthy_eq]
    split
    · exact agrees_still twins
    · exact agrees_still (twins.withPc target)
  | popJumpIfTrue target =>
    refine agrees_popping twins fun value value' below above _ twins same => ?_
    rw [same.isTruthy_eq]
    split
    · exact agrees_still (twins.withPc target)
    · exact agrees_still twins
  | call argumentCount =>
    refine agrees_poppingMany twins argumentCount fun _ _ below above _ twins given => ?_
    exact agrees_popping twins fun _ _ below above _ twins called => .call twins called given
  | raise => exact agrees_popping twins fun _ _ _ _ _ _ same => .leave (.error (.raised same))
  | returnValue => exact agrees_popping twins fun _ _ _ _ _ _ same => .leave (.ok same)

/-- Twin frames take the same step. -/
theorem Twins.agrees_step (twins : Twins names narrow wide) (matched : heap.Matches names other) :
    Progress.Agrees names (narrow.step heap) (wide.step other) := by
  unfold step
  rw [twins.code.instructions, twins.pc]
  cases fetched : narrow.code.instructions[narrow.pc]? with
  | none =>
    rw [twins.code.name]
    exact agrees_fail rfl
  | some instruction =>
    exact agrees_execute (twins.withPc _) matched
      (twins.wellFormed.admits instruction (Array.mem_of_getElem? fetched))

/-- What two frames can be at the start of their units. -/
structure Fresh (names : Renaming) (frame other : Frame) : Prop where
  twins : Twins names frame other
  unit : names.units.maps frame.code.id other.code.id
  locals : other.code.locals = frame.code.locals
  started : frame.stack = [] ∧ frame.pc = 0

structure EnteredTogether (names : Renaming) (first second : Frame × List HeapEdit)
    (after : Renaming) : Prop where
  edits : RenamedEdits names first.2 second.2 after
  fresh : Fresh after first.1 second.1

private theorem cellContents_renamed {code : Code} {code' : Code} {arguments arguments' : List Value}
    (same : code.Renamed names code'.toBlueprint)
    (given : List.Forall₂ (Value.Renamed names) arguments arguments') :
    List.Forall₂ (RenamedSlot names) (cellContents code arguments)
      (cellContents code' arguments') := by
  have captured (name : String) :
      RenamedSlot names (captured code arguments name) (captured code' arguments' name) := by
    simp only [Frame.captured, Blueprint.parameters, same.locals, same.argumentCount]
    cases (List.take code.argumentCount code.locals).idxOf? name with
    | none => exact .none
    | some index => exact rel_getElem? given index
  simp only [cellContents, same.cells, List.forall₂_map_left_iff, List.forall₂_map_right_iff,
    List.forall₂_same]
  exact fun name _ => captured name

/-- A call puts its arguments, its new cells and those of its closure into slots that are the same. -/
private theorem entrySlots_renamed {code code' : Code} {arguments arguments' : List Value}
    {closure closure' : List CellId} (same : code.Renamed names code'.toBlueprint)
    (given : List.Forall₂ (Value.Renamed names) arguments arguments')
    (closed : List.Forall₂ names.cells.maps closure closure') :
    List.Forall₂ (RenamedSlot (names.addCells code.cells.length))
      (entrySlots code arguments names.cells.here closure)
      (entrySlots code' arguments' names.cells.there closure') := by
  have within := (names.grows_addCells code.cells.length).within
  rw [entrySlots, entrySlots, same.locals, same.cells, ← given.length_eq]
  refine List.rel_append (List.rel_append (List.rel_append ?front ?unbound) ?cells) ?back
  case front =>
    simp only [List.forall₂_map_left_iff, List.forall₂_map_right_iff]
    exact given.imp fun _ _ same => .some (same.mono within)
  case unbound =>
    refine List.forall₂_same.mpr fun _ member => ?_
    rw [List.eq_of_mem_replicate member]
    exact .none
  case cells =>
    rw [List.range'_eq_map_range, List.range'_eq_map_range]
    simp only [List.map_map, List.forall₂_map_left_iff, List.forall₂_map_right_iff,
      List.forall₂_same, List.mem_range]
    exact fun i inside => .some (.cell (names.cells.maps_extend inside))
  case back =>
    simp only [List.forall₂_map_left_iff, List.forall₂_map_right_iff]
    exact closed.imp fun _ _ same => .some (.cell (within.cells same))

/-- A call makes frames that are the same, or fails alike. -/
theorem enter_renamed (matched : heap.Matches names other) {builtins builtins' : NamespaceId}
    {function function' : Function} {arguments arguments' : List Value}
    (space : names.spaces.maps builtins builtins') (called : function.Renamed names function')
    (given : List.Forall₂ (Value.Renamed names) arguments arguments') :
    (∃ made made' after, enter heap builtins function arguments = .ok made ∧
        enter other builtins' function' arguments' = .ok made' ∧
        EnteredTogether names made made' after) ∨
      ∃ fault, fault.isRaised = false ∧ enter heap builtins function arguments = .error fault ∧
        enter other builtins' function' arguments' = .error fault := by
  have unit : (heap.code function.code).Renamed names (other.code function'.code).toBlueprint :=
    matched.units called.code
  have checked : (heap.code function.code).Checked := matched.checked called.code
  simp only [enter, ← given.length_eq, ← called.closure.length_eq, unit.argumentCount, unit.frees,
    unit.name]
  split
  · exact .inr ⟨_, rfl, rfl, rfl⟩
  next counted =>
    split
    · exact .inr ⟨_, rfl, rfl, rfl⟩
    next closed =>
      have within := (names.grows_addCells (heap.code function.code).cells.length).within
      have parameters := checked.parameters
      rw [ne_eq, Decidable.not_not] at counted
      refine .inl ⟨_, _, names.addCells (heap.code function.code).cells.length, rfl, rfl, ?_, ?_⟩
      · have contents := cellContents_renamed unit given
        have edits := RenamedEdits.newCells contents
        simpa only [cellContents, List.length_map] using edits
      · have slots := entrySlots_renamed unit given called.closure
        rw [matched.sized.cells.1, matched.sized.cells.2] at slots
        refine ⟨⟨unit.widened.mono within, within.spaces called.globals, within.spaces space, .nil,
          rfl, ?_, ⟨_, [], _, List.forall₂_take _ slots, ?_, List.forall₂_drop _ slots, ?_⟩,
          checked.wellFormed⟩, within.units called.code, unit.locals, rfl, rfl⟩
        · simp only [entrySlots, List.length_append, List.length_map, List.length_replicate]
          omega
        · rw [List.length_nil, Nat.add_zero, unit.locals]
        · rw [List.append_nil, List.take_append_drop, Heap.freshCell]

/-- A frame that is its own twin has a twin in any unit that it can be migrated to. -/
theorem Twins.migrated {frame shadow : Frame} {replacement : Code} {builtins : NamespaceId}
    (twins : Twins names frame frame) (unit : replacement.Renamed names replacement.toBlueprint)
    (checked : replacement.Checked) (space : names.spaces.maps builtins builtins)
    (fits : frame.shadow replacement builtins = .ok shadow) : Twins names shadow shadow := by
  obtain ⟨longer, _, _, rfl⟩ := shadow_eq_ok_iff.mp fits
  have held := List.forall₂_same.mp (twins.aligned rfl)
  have room := twins.room
  have slots : List.Forall₂ (RenamedSlot names) (frame.migratedSlots replacement.locals.length)
      (frame.migratedSlots replacement.locals.length) := by
    refine List.forall₂_same.mpr fun slot member => ?_
    simp only [migratedSlots, List.mem_append, List.mem_replicate] at member
    rcases member with (own | ⟨_, rfl⟩) | behind
    · exact held slot (List.mem_of_mem_take own)
    · exact .none
    · exact held slot (List.mem_of_mem_drop behind)
  refine ⟨unit.widened, twins.globals, space, .nil, rfl, ?_,
    ⟨_, [], _, List.forall₂_take _ slots, rfl, List.forall₂_drop _ slots, ?_⟩, checked.wellFormed⟩
  · simp only [migratedSlots, List.length_append, List.length_take, List.length_replicate]
    omega
  · rw [List.append_nil, List.take_append_drop]

theorem Twins.materialize (twins : Twins names narrow wide) (heap : Heap) :
    Twins names narrow (wide.materialize heap) :=
  { twins with }

/-- A fresh frame can always be migrated to a unit that extends its own, and then runs like it. -/
theorem Fresh.shadow {frame other : Frame} (fresh : Fresh names frame other) (heap : Heap)
    {replacement : Code} (extended : replacement.toBlueprint.Extends other.code.toBlueprint) :
    ∃ shadow, (other.materialize heap).shadow replacement other.builtins = .ok shadow ∧
      Twins names frame shadow := by
  have longer := extended.locals.length_le
  let shadow : Frame :=
    { code := replacement, globals := other.globals, builtins := other.builtins,
      slots := other.migratedSlots replacement.locals.length }
  have twins := fresh.twins
  have aligned := twins.aligned fresh.locals
  have shadowed : Twins names frame shadow :=
    { twins with
      code := twins.code.extends_ extended
      stack := by rw [fresh.started.1]; exact .nil
      pc := fresh.started.2.symm
      slots := by
        refine ⟨_, List.replicate (replacement.locals.length - other.code.locals.length) none, _,
          List.forall₂_take _ aligned, ?_, List.forall₂_drop _ aligned, ?_⟩
        · rw [List.length_replicate, fresh.locals]
          rw [fresh.locals] at longer
          exact Nat.add_sub_cancel' longer
        · change other.migratedSlots replacement.locals.length = _
          rw [migratedSlots, fresh.locals] }
  refine ⟨shadow, ?_, shadowed⟩
  change other.shadow replacement other.builtins = .ok shadow
  simp only [Frame.shadow]
  rw [if_neg (Nat.not_lt.mpr longer), if_neg (by simp [extended.cells, extended.frees])]

end

end Frame

end Interpose
