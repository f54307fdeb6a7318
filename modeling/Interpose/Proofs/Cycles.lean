import Interpose.Proofs.Following
import Interpose.Proofs.History
import Interpose.Proofs.Operands
import Interpose.Proofs.Scope

/-! Cycles through cells. Nothing but a store into a cell can close one, and only of a value from which
that cell is reached; so a run that started without cycles has a text for every value at every point
exactly as long as there is no such store. -/

namespace Interpose
variable {σ α : Type}

namespace Heap
variable {heap other : Heap} {change : HeapEdit}

def Grounded (heap : Heap) : Prop := ∀ value, heap.Ends value

theorem grounded_iff : heap.Grounded ↔ ∀ cell, ¬ heap.Cyclic cell := by
  constructor
  · intro grounded cell
    exact (grounded (.cell cell)).acyclic (.here cell)
  · intro acyclic value
    exact ends_iff_acyclic.mpr fun cell _ => acyclic cell

/-- There is a text for everything that shows values: the values themselves, failures, frames and
units. -/
structure Renders (heap : Heap) : Prop where
  values : ∀ value, ∃ text, heap.detail? value = some text
  faults : ∀ fault : Fault, ∃ text, fault.message? heap = some text
  frames : ∀ frame : Frame, ∃ text, frame.detail? heap = some text
  listings : ∀ unit : Blueprint, ∃ text, unit.listing? heap = some text

private theorem exists_mapM {β γ : Type} {f : β → Option γ} (total : ∀ item, ∃ result, f item = some result)
    (items : List β) : ∃ results, items.mapM f = some results := by
  induction items with
  | nil => exact ⟨[], rfl⟩
  | cons item rest ih =>
    obtain ⟨result, first⟩ := total item
    obtain ⟨results, others⟩ := ih
    exact ⟨result :: results, by simp [List.mapM_cons, first, others]⟩

theorem renders_iff : heap.Renders ↔ heap.Grounded := by
  constructor
  · intro renders value
    obtain ⟨text, found⟩ := renders.values value
    exact (detail?_eq_some_iff.mp found).ends
  · intro grounded
    have total (value : Value) : ∃ text, heap.detail? value = some text := by
      obtain ⟨text, details⟩ := (grounded value).exists_details
      exact ⟨text, detail?_eq_some_iff.mpr details⟩
    refine ⟨total, fun fault => ?_, fun frame => ?_, fun unit => ?_⟩
    · cases fault with
      | raised value =>
        obtain ⟨text, found⟩ := total value
        exact ⟨_, by rw [Fault.message?, found, Option.map_some]⟩
      | _ => exact ⟨_, rfl⟩
    · have slots : ∃ texts, frame.slots.mapM heap.slotDetail? = some texts := by
        refine exists_mapM (fun slot => ?_) frame.slots
        cases slot with
        | none => exact ⟨_, rfl⟩
        | some value =>
          obtain ⟨text, found⟩ := total value
          exact ⟨_, by rw [slotDetail?, found, Option.map_some]⟩
      obtain ⟨texts, found⟩ := slots
      exact ⟨_, by rw [Frame.detail?, found, Option.map_some]⟩
    · exact Blueprint.exists_listing fun value _ => grounded value

end Heap

def HeapEdit.filled? (heap : Heap) : HeapEdit → Option (CellId × Value)
  | .writeCell cell value => some (cell, value)
  | .newCell (some value) => some (heap.freshCell, value)
  | _ => none

/-- An edit fills a cell with a value from which the cell is reached. -/
def HeapEdit.Closes (heap : Heap) (change : HeapEdit) : Prop :=
  ∃ cell value, change.filled? heap = some (cell, value) ∧ heap.Leads value cell

namespace Heap
variable {heap other : Heap} {change : HeapEdit}

theorem cell?_edit (heap : Heap) (change : HeapEdit) (cell : CellId) :
    (heap.edit change).cell? cell =
      match change.filled? heap with
      | some (place, value) => if cell = place then some value else heap.cell? cell
      | none => heap.cell? cell := by
  cases change with
  | newCell content =>
    cases content with
    | some value => exact Table.get_push _ _ _
    | none =>
      simp only [edit, cell?, Table.get_push, HeapEdit.filled?]
      split
      next same => rw [same, Table.get_of_size_le (Nat.le_refl _)]; rfl
      next => rfl
  | writeCell place value => exact Table.get_set _ _ _ _
  | newNamespace | bind space name value | newFunction => rfl

section
variable {start value : Value} {place : CellId}

theorem Leads.kept (leads : heap.Leads start place)
    (agree : ∀ cell, cell ≠ place → other.cell? cell = heap.cell? cell) :
    other.Leads start place := by
  induction leads with
  | here cell => exact .here cell
  | @there cell content target held inner ih =>
    by_cases same : cell = target
    · rw [same]
      exact .here target
    · exact .there ((agree cell same).trans held) (ih agree)

/-- What is not reached can change. -/
theorem Ends.elsewhere (ends : heap.Ends start)
    (agree : ∀ cell, cell ≠ place → other.cell? cell = heap.cell? cell)
    (apart : ¬ heap.Leads start place) : other.Ends start := by
  induction ends with
  | plain noCell => exact .plain noCell
  | @empty cell none =>
    have elsewhere : cell ≠ place := by
      rintro rfl
      exact apart (.here cell)
    exact .empty ((agree cell elsewhere).trans none)
  | @filled cell content held inner ih =>
    have elsewhere : cell ≠ place := by
      rintro rfl
      exact apart (.here cell)
    exact .filled ((agree cell elsewhere).trans held) (ih fun leads => apart (.there held leads))

/-- Filling a cell leaves following ended unless the new content leads back to it. -/
theorem Grounded.fill (grounded : heap.Grounded) (held : other.cell? place = some value)
    (agree : ∀ cell, cell ≠ place → other.cell? cell = heap.cell? cell) :
    other.Grounded ↔ ¬ heap.Leads value place := by
  constructor
  · intro after leads
    exact grounded_iff.mp after place ⟨value, held, leads.kept agree⟩
  · intro apart start
    have content : other.Ends value := (grounded value).elsewhere agree apart
    induction grounded start with
    | plain noCell => exact .plain noCell
    | @empty cell none =>
      by_cases same : cell = place
      · rw [same]
        exact .filled held content
      · exact .empty ((agree cell same).trans none)
    | @filled cell former present inner ih =>
      by_cases same : cell = place
      · rw [same]
        exact .filled held content
      · exact .filled ((agree cell same).trans present) ih

end

theorem Grounded.congr (grounded : heap.Grounded)
    (same : ∀ cell, other.cell? cell = heap.cell? cell) : other.Grounded := by
  intro value
  induction grounded value with
  | plain noCell => exact .plain noCell
  | empty none => exact .empty ((same _).trans none)
  | filled held inner ih => exact .filled ((same _).trans held) ih

theorem Grounded.edit_iff (grounded : heap.Grounded) (change : HeapEdit) :
    (heap.edit change).Grounded ↔ ¬ change.Closes heap := by
  cases filled : change.filled? heap with
  | none =>
    have same (cell : CellId) : (heap.edit change).cell? cell = heap.cell? cell := by
      rw [cell?_edit, filled]
    refine iff_of_true (grounded.congr same) ?_
    rintro ⟨cell, value, fills, _⟩
    rw [filled] at fills
    cases fills
  | some fill =>
    obtain ⟨place, value⟩ := fill
    have held : (heap.edit change).cell? place = some value := by
      rw [cell?_edit, filled]
      exact if_pos rfl
    have agree (cell : CellId) (apart : cell ≠ place) :
        (heap.edit change).cell? cell = heap.cell? cell := by
      rw [cell?_edit, filled]
      exact if_neg apart
    refine (grounded.fill held agree).trans (not_congr ?_)
    constructor
    · intro leads
      exact ⟨place, value, filled, leads⟩
    · rintro ⟨cell, content, fills, leads⟩
      cases filled.symm.trans fills
      exact leads

theorem Grounded.editAll {edits : List HeapEdit} (grounded : heap.Grounded)
    (opened : ∀ early change late, edits = early ++ change :: late →
      ¬ change.Closes (heap.editAll early)) : (heap.editAll edits).Grounded := by
  induction edits generalizing heap with
  | nil => exact grounded
  | cons change rest ih =>
    have first : (heap.edit change).Grounded :=
      (grounded.edit_iff change).mpr (opened [] change rest rfl)
    refine ih first fun early later late same => ?_
    exact opened (change :: early) later late (congrArg (change :: ·) same)

end Heap

def World.entryEdits (world : World σ) (id : ThreadId) (function : Function)
    (arguments : List Value) : List HeapEdit :=
  match Frame.enter world.heap (world.builtins id) function arguments with
  | .ok (_, edits) => edits
  | .error _ => []

def Action.edits (world : World σ) : Action σ → List HeapEdit
  | .edit change => [change]
  | .newInterpreter =>
    .newNamespace :: Builtin.table.map fun native =>
      .bind world.heap.freshNamespace native.name (.native native)
  | .enter thread function arguments => world.entryEdits thread function arguments
  | _ => []

/-- A request edits the heap and may build one more unit. -/
theorem Action.grows_apply {world after : World σ} {action : Action σ} {reply : action.Reply}
    (applied : action.apply world = .ok (reply, after)) :
    (world.heap.editAll (action.edits world)).Grows after.heap := by
  cases action with
  | newInterpreter =>
    cases applied
    rw [World.heap_addInterpreter]
    exact .refl _
  | build unit =>
    simp only [apply, World.build] at applied
    split at applied <;> cases applied
    · exact .addCode _ _
    · exact .refl _
  | enter thread function arguments =>
    simp only [apply, World.enter] at applied
    simp only [edits, World.entryEdits]
    cases entered : Frame.enter world.heap (world.builtins thread) function arguments <;>
      rw [entered] at applied <;> cases applied <;> exact .refl _
  | requestIndex owner =>
    simp only [apply, World.requestIndex] at applied
    split at applied <;> cases applied <;> exact .refl _
  | install thread module callback? =>
    simp only [apply, World.install] at applied
    split at applied <;> cases applied <;> exact .refl _
  | _ =>
    cases applied
    exact .refl _

namespace Machine

def edits : Machine σ α → List HeapEdit
  | ⟨.enter id (.call (.function function) arguments), _, world⟩ =>
    world.entryEdits id function arguments
  | ⟨.run _ frame, _, world⟩ => (frame.step world.heap).edits
  | ⟨.program _ (.perform action _), _, world⟩ => action.edits world
  | _ => []

variable {host : Host σ} {start before after machine : Machine σ α}

theorem Move.grows (move : Move host before after) :
    (before.world.heap.editAll (before.edits)).Grows after.world.heap := by
  cases move with
  | entered fits | mismatched fits =>
    simp only [edits, World.entryEdits, fits]
    exact .refl _
  | @uncallable id callee arguments stack world foreign =>
    cases callee with
    | function | native => cases foreign
    | _ => exact .refl _
  | ran progress | called progress | left progress =>
    simp only [edits, progress, Frame.Progress.edits]
    exact .refl _
  | @replied result role next stack world =>
    cases role <;> cases result <;> exact .refl _
  | @performed role action next stack world reply result applied =>
    have grown := Action.grows_apply applied
    cases role <;> exact grown
  | @launched role id entry next stack world => cases role <;> exact .refl _
  | _ => exact .refl _

/-- Some step of a run makes an edit of this heap. -/
def Makes (host : Host σ) (start : Machine σ α) (heap : Heap) (change : HeapEdit) : Prop :=
  ∃ machine early late, Transition.Meets (step host) start machine ∧
    machine.edits = early ++ change :: late ∧ heap = machine.world.heap.editAll early

/-- A run goes through a heap, between two steps or in the middle of one. -/
def Passes (host : Host σ) (start : Machine σ α) (heap : Heap) : Prop :=
  ∃ machine early late, Transition.Meets (step host) start machine ∧
    machine.edits = early ++ late ∧ heap = machine.world.heap.editAll early

theorem Makes.passes {heap : Heap} {change : HeapEdit} (makes : Makes host start heap change) :
    Passes host start heap ∧ Passes host start (heap.edit change) := by
  obtain ⟨machine, early, late, met, split, rfl⟩ := makes
  refine ⟨⟨machine, early, change :: late, met, split, rfl⟩,
    ⟨machine, early ++ [change], late, met, ?_, ?_⟩⟩
  · rw [split, List.append_assoc, List.singleton_append]
  · rw [Heap.editAll, Heap.editAll, List.foldl_append]
    rfl

theorem grounded_of_passes (grounded : start.world.heap.Grounded)
    (opened : ∀ heap change, Makes host start heap change → ¬ change.Closes heap) {heap : Heap}
    (passes : Passes host start heap) : heap.Grounded := by
  -- Every prefix of the edits of a step leaves following ended; so does the whole step.
  have prefixed {machine : Machine σ α} {early late : List HeapEdit}
      (met : Transition.Meets (step host) start machine)
      (split : machine.edits = early ++ late) (before : machine.world.heap.Grounded) :
      (machine.world.heap.editAll early).Grounded := by
    refine before.editAll fun first change rest same => ?_
    refine opened _ change ⟨machine, first, rest ++ late, met, ?_, rfl⟩
    rw [split, same, List.append_assoc, List.cons_append]
  have kept (before after : Machine σ α) (met : Transition.Meets (step host) start before)
      (grounded : before.world.heap.Grounded) (move : Move host before after) :
      after.world.heap.Grounded := by
    have whole := prefixed met (List.append_nil _).symm grounded
    exact whole.congr fun cell => by rw [Heap.cell?, Heap.cell?, move.grows.cells]
  obtain ⟨machine, early, late, met, split, rfl⟩ := passes
  exact prefixed met split (met_keeps kept grounded met)

structure Rendered (host : Host σ) (start : Machine σ α) : Prop where
  /-- A value has a text exactly if following cells from it ends. -/
  texts : ∀ (heap : Heap) value, heap.Rendered value
  /-- Everything has a text at every point of the run exactly if no edit closes a cycle. -/
  always : (∀ heap, Passes host start heap → heap.Renders) ↔
    ∀ heap change, Makes host start heap change → ¬ change.Closes heap
  /-- Of all instructions only one stores into a cell that is there, the value on top of the operand
  stack into the cell of a slot. -/
  stores : ∀ id frame stack world change cell value,
    Transition.Meets (step host) start ⟨.run id frame, stack, world⟩ →
    change ∈ (frame.step world.heap).edits → change.filled? world.heap = some (cell, value) →
    ∃ index, frame.code.instructions[frame.pc]? = some (.storeCell index) ∧
      frame.derefCell? index = some cell ∧ frame.stack.head? = some value

private theorem storeCell_of_filled {frame : Frame} {heap : Heap} {change : HeapEdit}
    {cell : CellId} {value : Value} (member : change ∈ (frame.step heap).edits)
    (filled : change.filled? heap = some (cell, value)) :
    ∃ index, frame.code.instructions[frame.pc]? = some (.storeCell index) ∧
      frame.derefCell? index = some cell ∧ frame.stack.head? = some value := by
  cases fetched : frame.code.instructions[frame.pc]? with
  | none =>
    simp only [Frame.step, fetched] at member
    exact absurd member List.not_mem_nil
  | some instruction =>
    have writes := Frame.writes_step fetched heap
    generalize (frame.step heap).edits = edits at member writes
    cases writes with
    | none => exact absurd member List.not_mem_nil
    | @cell index place held rest found top =>
      rw [List.mem_singleton.mp member] at filled
      cases filled
      exact ⟨index, rfl, found, by rw [top, List.head?_cons]⟩
    | name | function =>
      rw [List.mem_singleton.mp member] at filled
      cases filled

/-- From a state without cyclic cells, all texts of a run can be written exactly if no cell is filled
with a value from which it is reached. -/
theorem rendered_of_acyclic (acyclic : ∀ cell, ¬ start.world.heap.Cyclic cell) :
    Rendered host start where
  texts := Heap.rendered
  always := by
    have grounded := Heap.grounded_iff.mpr acyclic
    constructor
    · intro renders heap change makes
      have before := Heap.renders_iff.mp (renders heap makes.passes.1)
      have after := Heap.renders_iff.mp (renders _ makes.passes.2)
      exact (before.edit_iff change).mp after
    · intro opened heap passes
      exact Heap.renders_iff.mpr (grounded_of_passes grounded opened passes)
  stores _ _ _ _ _ _ _ _ member filled := storeCell_of_filled member filled

/-- A unit that stores a cell in itself, and then compares the cell with its content. -/
def knot : Blueprint :=
  { name := "knot", cells := ["x"],
    instructions := #[.loadClosure 0, .storeCell 0, .loadClosure 0, .loadCell 0, .compare .eq,
      .returnValue] }

def callingKnot : Machine Unit (Except Fault Value) :=
  ofProgram (World.single #[knot] {}) (Program.run 0 (.call (.function .first) []))

private theorem callingKnot_acyclic (cell : CellId) : ¬ callingKnot.world.heap.Cyclic cell := by
  rintro ⟨content, held, _⟩
  have empty : callingKnot.world.heap.cell? cell = none := Table.get_empty cell
  rw [empty] at held
  cases held

theorem rendered_of_callingKnot : Rendered passive callingKnot :=
  rendered_of_acyclic callingKnot_acyclic

/-- From a state without cells, a unit that was built makes a cell from which following does not
end. -/
theorem callingKnot_endless :
    knot.Accepted ∧
    (∀ cell, ¬ callingKnot.world.heap.Cyclic cell) ∧
    ∃ world,
      Transition.Ends (step passive) callingKnot (.finished (.ok (.bool true)) world) ∧
      ¬ world.heap.Ends (.cell 0) ∧ world.heap.detail? (.cell 0) = none := by
  refine ⟨⟨"knot", [.cells ["x"], .instructions knot.instructions.toList], rfl⟩,
    callingKnot_acyclic, _, ⟨20, rfl⟩, ?_, rfl⟩
  intro ends
  exact ends.acyclic (.here 0) ⟨.cell 0, rfl, .here 0⟩

end Machine

end Interpose
