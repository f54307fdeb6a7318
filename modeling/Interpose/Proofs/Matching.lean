import Interpose.Proofs.Following
import Interpose.Proofs.Units
import Interpose.Proofs.Renaming

/-! Heaps that are the same under a renaming. The second may hold further things that the first has
nothing of. Edits that are the same keep them so, and what is read of them is the same: the meaning of
a name, and every text. -/

namespace Interpose

namespace Blueprint

/-- Two units that are the same but for the numbers in their constants. -/
structure Renamed (names : Renaming) (unit other : Blueprint) : Prop where
  rest : other = { unit with constants := other.constants }
  constants : List.Forall₂ (Value.Renamed names) unit.constants.toList other.constants.toList

namespace Renamed
variable {names wider : Renaming} {unit other : Blueprint}

theorem mono (same : unit.Renamed names other) (within : names.Within wider) :
    unit.Renamed wider other :=
  ⟨same.rest, same.constants.imp fun _ _ same => same.mono within⟩

theorem name (same : unit.Renamed names other) : other.name = unit.name := by rw [same.rest]

theorem filename (same : unit.Renamed names other) : other.filename = unit.filename := by
  rw [same.rest]

theorem locals (same : unit.Renamed names other) : other.locals = unit.locals := by rw [same.rest]

theorem argumentCount (same : unit.Renamed names other) :
    other.argumentCount = unit.argumentCount := by rw [same.rest]

theorem cells (same : unit.Renamed names other) : other.cells = unit.cells := by rw [same.rest]

theorem frees (same : unit.Renamed names other) : other.frees = unit.frees := by rw [same.rest]

theorem names_eq (same : unit.Renamed names other) : other.names = unit.names := by rw [same.rest]

theorem instructions (same : unit.Renamed names other) :
    other.instructions = unit.instructions := by rw [same.rest]

theorem constant (same : unit.Renamed names other) (index : Nat) :
    Option.Rel (Value.Renamed names) unit.constants[index]? other.constants[index]? := by
  rw [← Array.getElem?_toList, ← Array.getElem?_toList]
  exact rel_getElem? same.constants index

theorem available (same : unit.Renamed names other) (operand : Operand) :
    other.available operand = unit.available operand := by
  cases operand with
  | constant =>
    have lengths := same.constants.length_eq
    simp only [Array.length_toList] at lengths
    exact lengths.symm
  | localSlot => exact congrArg List.length same.locals
  | deref => simp only [Blueprint.available, derefNames, same.cells, same.frees]
  | name => exact congrArg Array.size same.names_eq
  | target => exact congrArg Array.size same.instructions

private theorem fault?_eq (same : unit.Renamed names other) (position : Nat)
    (instruction : Instruction) :
    other.fault? position instruction = unit.fault? position instruction := by
  cases instruction with
  | makeFunction code freeCount =>
    have constant := same.constant code
    simp only [fault?, same.name]
    generalize unit.constants[code]? = first at constant
    generalize other.constants[code]? = second at constant
    cases constant with
    | none => rfl
    | some same => cases same <;> rfl
  | _ => simp only [fault?, same.name, same.available]

private theorem firstFault?_eq (same : unit.Renamed names other) (position : Nat)
    (body : List Instruction) :
    other.firstFault? position body = unit.firstFault? position body := by
  induction body generalizing position with
  | nil => rfl
  | cons instruction rest ih => simp only [firstFault?, same.fault?_eq, ih]

/-- Such units pass the check or fail it alike. -/
theorem build (same : unit.Renamed names other) :
    (unit.build = .ok unit ∧ other.build = .ok other) ∨
      ∃ fault, unit.build = .error fault ∧ other.build = .error fault := by
  unfold Blueprint.build
  rw [same.locals, same.argumentCount, same.instructions, same.name, same.firstFault?_eq]
  split
  · exact .inr ⟨_, rfl, rfl⟩
  · split
    · exact .inr ⟨_, rfl, rfl⟩
    · cases unit.firstFault? 0 unit.instructions.toList with
      | some fault => exact .inr ⟨fault, rfl, rfl⟩
      | none => exact .inl ⟨rfl, rfl⟩

end Renamed

structure Checked (unit : Blueprint) : Prop where
  wellFormed : unit.WellFormed
  parameters : unit.argumentCount ≤ unit.locals.length

end Blueprint

namespace Heap

/-- There are as many things in two heaps as a renaming has numbers for. -/
structure Sized (heap : Heap) (names : Renaming) (other : Heap) : Prop where
  units : names.units.here = heap.codes.size ∧ names.units.there = other.codes.size
  cells : names.cells.here = heap.cells.size ∧ names.cells.there = other.cells.size
  spaces : names.spaces.here = heap.namespaces.size ∧ names.spaces.there = other.namespaces.size
  functions : names.functions.here = heap.functions ∧ names.functions.there = other.functions

/-- Two heaps that contain the same under a renaming, as far as the first goes. -/
structure Matches (heap : Heap) (names : Renaming) (other : Heap) : Prop where
  sized : heap.Sized names other
  units : ∀ {a b}, names.units.maps a b → (heap.codes.get a).Renamed names (other.codes.get b)
  checked : ∀ {a b}, names.units.maps a b → (heap.codes.get a).Checked
  cells : ∀ {a b}, names.cells.maps a b →
    Option.Rel (Value.Renamed names) (heap.cell? a) (other.cell? b)
  spaces : ∀ {a b}, names.spaces.maps a b → ∀ name,
    Option.Rel (Value.Renamed names) ((heap.names a).get? name) ((other.names b).get? name)

end Heap

inductive HeapEdit.Renamed (names : Renaming) : HeapEdit → HeapEdit → Renaming → Prop
  | newCell {content other} (same : Option.Rel (Value.Renamed names) content other) :
      Renamed names (.newCell content) (.newCell other) (names.addCells 1)
  | writeCell {a b value other} (same : names.cells.maps a b)
      (written : value.Renamed names other) :
      Renamed names (.writeCell a value) (.writeCell b other) names
  | newNamespace : Renamed names .newNamespace .newNamespace names.addSpace
  | bind {a b name value other} (same : names.spaces.maps a b)
      (bound : value.Renamed names other) :
      Renamed names (.bind a name value) (.bind b name other) names
  | newFunction : Renamed names .newFunction .newFunction names.addFunction

inductive RenamedEdits : Renaming → List HeapEdit → List HeapEdit → Renaming → Prop
  | nil (names : Renaming) : RenamedEdits names [] [] names
  | cons {names after last : Renaming} {change other rest others}
      (first : change.Renamed names other after) (later : RenamedEdits after rest others last) :
      RenamedEdits names (change :: rest) (other :: others) last

section
variable {names wider after : Renaming}

theorem relOption_mono {first second : Option Value}
    (same : Option.Rel (Value.Renamed names) first second) (within : names.Within wider) :
    Option.Rel (Value.Renamed wider) first second := by
  cases same with
  | none => exact .none
  | some same => exact .some (same.mono within)

theorem HeapEdit.Renamed.grows {change other : HeapEdit} (same : change.Renamed names other after) :
    names.Grows after := by
  cases same with
  | newCell => exact names.grows_addCells 1
  | newNamespace => exact names.grows_addSpace
  | newFunction => exact names.grows_addFunction
  | writeCell | bind => exact .refl names

/-- Edits make no interpreters and no threads. -/
theorem HeapEdit.Renamed.outside {change other : HeapEdit}
    (same : change.Renamed names other after) :
    after.interpreters = names.interpreters ∧ after.threads = names.threads := by
  cases same <;> exact ⟨rfl, rfl⟩

theorem HeapEdit.Renamed.units_eq {change other : HeapEdit}
    (same : change.Renamed names other after) : after.units = names.units := by
  cases same <;> rfl

namespace RenamedEdits
variable {edits others : List HeapEdit}

theorem single {change other : HeapEdit} (same : change.Renamed names other after) :
    RenamedEdits names [change] [other] after :=
  .cons same (.nil after)

theorem grows (same : RenamedEdits names edits others after) : names.Grows after := by
  induction same with
  | nil => exact .refl _
  | cons first _ ih => exact first.grows.trans ih

theorem outside (same : RenamedEdits names edits others after) :
    after.interpreters = names.interpreters ∧ after.threads = names.threads := by
  induction same with
  | nil => exact ⟨rfl, rfl⟩
  | cons first _ ih => exact ⟨ih.1.trans first.outside.1, ih.2.trans first.outside.2⟩

theorem units_eq (same : RenamedEdits names edits others after) : after.units = names.units := by
  induction same with
  | nil => rfl
  | cons first _ ih => exact ih.trans first.units_eq

theorem newCells {contents others : List (Option Value)}
    (same : List.Forall₂ (Option.Rel (Value.Renamed names)) contents others) :
    RenamedEdits names (contents.map .newCell) (others.map .newCell)
      (names.addCells contents.length) := by
  induction contents generalizing names others with
  | nil =>
    cases same
    rw [List.length_nil, Renaming.addCells, Naming.extend_zero]
    exact .nil names
  | cons content rest ih =>
    cases same with
    | cons here later =>
      have add : (names.addCells 1).addCells rest.length = names.addCells (rest.length + 1) := by
        simp only [Renaming.addCells, Naming.extend_extend, Nat.add_comm 1]
      refine .cons (.newCell here) ?_
      rw [List.length_cons, ← add]
      exact ih (later.imp fun _ _ same => relOption_mono same (names.grows_addCells 1).within)

end RenamedEdits

end

namespace Heap.Matches
variable {names : Renaming} {heap other : Heap}

theorem edit {change change' : HeapEdit} {after : Renaming} (matched : heap.Matches names other)
    (same : change.Renamed names change' after) :
    (heap.edit change).Matches after (other.edit change') := by
  have within := same.grows.within
  have sized := matched.sized
  have units : ∀ {a b}, names.units.maps a b →
      (heap.codes.get a).Renamed after (other.codes.get b) :=
    fun named => (matched.units named).mono within
  have cells : names.cells.Rows (Option.Rel (Value.Renamed after)) heap.cells other.cells :=
    ⟨sized.cells, fun named => relOption_mono (matched.cells named) within⟩
  have spaces : names.spaces.Rows
      (fun bound also => ∀ name, Option.Rel (Value.Renamed after) (bound.get? name) (also.get? name))
      heap.namespaces other.namespaces :=
    ⟨sized.spaces, fun named name => relOption_mono (matched.spaces named name) within⟩
  cases same with
  | newCell same =>
    have cells := cells.push (relOption_mono same within)
    exact ⟨{ sized with cells := cells.size }, units, matched.checked, cells.get, spaces.get⟩
  | writeCell named written =>
    have cells := cells.set named (.some written)
    exact ⟨{ sized with cells := cells.size }, units, matched.checked, cells.get, spaces.get⟩
  | newNamespace =>
    have unbound : ∀ name, Option.Rel (Value.Renamed names.addSpace)
        ((.empty : Bindings Value).get? name) ((.empty : Bindings Value).get? name) :=
      fun _ => .none
    have spaces := spaces.push unbound
    exact ⟨{ sized with spaces := spaces.size }, units, matched.checked, cells.get, spaces.get⟩
  | @bind place place' label value value' named bound =>
    have rebound : ∀ name, Option.Rel (Value.Renamed names)
        (((heap.names place).set label value).get? name)
        (((other.names place').set label value').get? name) := by
      intro name
      rw [Bindings.get?_set, Bindings.get?_set]
      split
      · exact .some bound
      · exact spaces.get named name
    have spaces := spaces.set named rebound
    exact ⟨{ sized with spaces := spaces.size }, units, matched.checked, cells.get, spaces.get⟩
  | newFunction =>
    have functions : names.addFunction.functions.here = heap.functions + 1 ∧
        names.addFunction.functions.there = other.functions + 1 :=
      ⟨congrArg (· + 1) sized.functions.1, congrArg (· + 1) sized.functions.2⟩
    exact ⟨{ sized with functions }, units, matched.checked, cells.get, spaces.get⟩

/-- Heaps contain no interpreters and no threads. -/
theorem renumber (matched : heap.Matches names other) {interpreters threads : Naming}
    (within : names.Within { names with interpreters, threads }) :
    heap.Matches { names with interpreters, threads } other where
  sized := { matched.sized with }
  units named := (matched.units named).mono within
  checked := matched.checked
  cells named := relOption_mono (matched.cells named) within
  spaces named name := relOption_mono (matched.spaces named name) within

theorem editAll {edits edits' : List HeapEdit} {after : Renaming}
    (matched : heap.Matches names other) (same : RenamedEdits names edits edits' after) :
    (heap.editAll edits).Matches after (other.editAll edits') := by
  induction same generalizing heap other with
  | nil => exact matched
  | cons first _ ih => exact ih (matched.edit first)

theorem addCode {unit unit' : Blueprint} (matched : heap.Matches names other)
    (same : unit.Renamed names unit') (checked : unit.Checked) :
    (heap.addCode unit).Matches names.addUnit (other.addCode unit') := by
  have within := names.grows_addUnit.within
  have units : names.units.Rows
      (fun unit unit' => Blueprint.Renamed names.addUnit unit unit' ∧ Blueprint.Checked unit)
      heap.codes other.codes :=
    ⟨matched.sized.units, fun named => ⟨(matched.units named).mono within, matched.checked named⟩⟩
  have units := units.push ⟨same.mono within, checked⟩
  exact {
    sized := { matched.sized with units := units.size }
    units := fun named => (units.get named).1
    checked := fun named => (units.get named).2
    cells := fun named => relOption_mono (matched.cells named) within
    spaces := fun named name => relOption_mono (matched.spaces named name) within }

theorem resolve? (matched : heap.Matches names other) {globals builtins globals' builtins' : Nat}
    (first : names.spaces.maps globals globals') (second : names.spaces.maps builtins builtins')
    (name : String) :
    Option.Rel (Value.Renamed names) (heap.resolve? globals builtins name)
      (other.resolve? globals' builtins' name) := by
  have own := matched.spaces first name
  have shared := matched.spaces second name
  unfold Heap.resolve?
  generalize (heap.names globals).get? name = here at own
  generalize (other.names globals').get? name = there at own
  cases own with
  | none => exact shared
  | some same => exact .some same

variable {value value' : Value}

theorem display_eq (matched : heap.Matches names other) (same : value.Renamed names value') :
    other.display value' = heap.display value := by
  cases same with
  | plain plain =>
    cases value with
    | bool b => cases b <;> rfl
    | nil | int | float | str | native => rfl
    | code | function | cell => cases plain
  | code same =>
    have unit := matched.units same
    simp only [Heap.display, Heap.code, unit.name, unit.filename]
  | function same => simp only [Heap.display, Heap.codeName, (matched.units same.code).name]
  | cell => rfl

theorem str_eq (matched : heap.Matches names other) {arguments others : List Value}
    (same : List.Forall₂ (Value.Renamed names) arguments others) :
    Builtin.str other others = Builtin.str heap arguments := by
  cases same with
  | nil => rfl
  | cons first rest =>
    cases rest with
    | nil => simp only [Builtin.str, matched.display_eq first]
    | cons second rest => simp only [Builtin.str, List.length_cons, rest.length_eq]

private theorem detailWithin_eq_of_noCell (matched : heap.Matches names other) {fuel : Nat}
    (same : value.Renamed names value') (noCell : ∀ cell, value ≠ .cell cell) :
    other.detailWithin fuel value' = heap.detailWithin fuel value := by
  have display := matched.display_eq same
  cases same with
  | plain =>
    cases value with
    | str s => cases fuel <;> rfl
    | cell cell => exact absurd rfl (noCell cell)
    | _ => cases fuel <;> exact congrArg some display
  | code | function => cases fuel <;> exact congrArg some display
  | cell => exact absurd rfl (noCell _)

private theorem detailWithin_eq (matched : heap.Matches names other) (fuel : Nat) :
    ∀ {value value'}, Value.Renamed names value value' →
      other.detailWithin fuel value' = heap.detailWithin fuel value := by
  induction fuel with
  | zero =>
    intro value value' same
    by_cases noCell : ∀ cell, value ≠ .cell cell
    · exact matched.detailWithin_eq_of_noCell same noCell
    · obtain ⟨cell, rfl⟩ := not_forall_not.mp noCell
      obtain ⟨cell', rfl, _⟩ := same.exists_cell
      rfl
  | succ fuel ih =>
    intro value value' same
    by_cases noCell : ∀ cell, value ≠ .cell cell
    · exact matched.detailWithin_eq_of_noCell same noCell
    · obtain ⟨cell, rfl⟩ := not_forall_not.mp noCell
      obtain ⟨cell', rfl, named⟩ := same.exists_cell
      have content := matched.cells named
      simp only [Heap.detailWithin]
      generalize heap.cell? cell = first at content
      generalize other.cell? cell' = second at content
      cases content with
      | none => rfl
      | some inner => simp only [ih inner]

/-- The bounds differ, as there may be more cells in the second heap; but neither cuts a text short. -/
theorem detail?_eq (matched : heap.Matches names other) (same : value.Renamed names value') :
    other.detail? value' = heap.detail? value := by
  ext text
  constructor
  · intro found
    have within : heap.detailWithin _ value = some text :=
      (matched.detailWithin_eq _ same).symm.trans found
    exact heap.detail?_eq_some_iff.mpr (Heap.details_of_detailWithin within)
  · intro found
    have within : other.detailWithin _ value' = some text :=
      (matched.detailWithin_eq _ same).trans found
    exact other.detail?_eq_some_iff.mpr (Heap.details_of_detailWithin within)

theorem message?_eq (matched : heap.Matches names other) {fault fault' : Fault}
    (same : fault.Renamed names fault') : fault'.message? other = fault.message? heap := by
  cases same with
  | own own => cases fault <;> first | rfl | cases own
  | raised same => simp only [Fault.message?, matched.detail?_eq same]

theorem freshFunction (matched : heap.Matches names other) {code code' globals globals' : Nat}
    {closure closure' : List CellId} (unit : names.units.maps code code')
    (space : names.spaces.maps globals globals')
    (cells : List.Forall₂ names.cells.maps closure closure') :
    (heap.freshFunction code globals closure).Renamed names.addFunction
      (other.freshFunction code' globals' closure') := by
  refine ⟨?_, unit, space, cells⟩
  simp only [Heap.freshFunction, ← matched.sized.functions.1, ← matched.sized.functions.2]
  exact names.functions.maps_next

end Heap.Matches

end Interpose
