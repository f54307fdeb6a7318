import Interpose.Proofs.Moves
import Mathlib.Data.List.Induction

/-! The variables of a frame by name. A name means what the last visible slot of that name shows,
whatever names a unit repeats, and nothing else is bound. Materializing again starts from
nothing. -/

namespace Interpose
variable {α : Type}

namespace Bindings

def bindAll (entries : List (String × α)) : Bindings α :=
  entries.foldl (fun bindings (name, value) => bindings.set name value) .empty

theorem get?_bindAll_concat (entries : List (String × α)) (name other : String) (value : α) :
    (bindAll (entries ++ [(name, value)])).get? other =
      if other = name then some value else (bindAll entries).get? other := by
  rw [bindAll, List.foldl_append, List.foldl_cons, List.foldl_nil, get?_set, bindAll]

theorem contains_bindAll_iff (entries : List (String × α)) (name : String) :
    (bindAll entries).contains name ↔ ∃ value, (name, value) ∈ entries := by
  induction entries using List.reverseRecOn with
  | nil => simp [bindAll, contains]
  | append_singleton entries last ih =>
    obtain ⟨key, last⟩ := last
    rw [contains] at ih ⊢
    rw [get?_bindAll_concat]
    split
    next same => simp [same]
    next other => simp [ih, other]

/-- The last place that binds a name binds it to the value. -/
def LastAt (places : List (Option (String × α))) (name : String) (value : α) (index : Nat) : Prop :=
  places[index]? = some (some (name, value)) ∧
    ∀ later other, places[later]? = some (some (name, other)) → later ≤ index

private theorem getElem?_concat_eq_some {β : Type} {items : List β} {last item : β}
    {index : Nat} :
    (items ++ [last])[index]? = some item ↔
      items[index]? = some item ∨ index = items.length ∧ last = item := by
  rcases Nat.lt_trichotomy index items.length with inside | rfl | outside
  · rw [List.getElem?_append_left inside]
    simp [Nat.ne_of_lt inside]
  · simp
  · have beyond : (items ++ [last]).length ≤ index := by
      rw [List.length_append, List.length_singleton]
      omega
    simp [List.getElem?_eq_none beyond, List.getElem?_eq_none (Nat.le_of_lt outside),
      Nat.ne_of_gt outside]

private theorem lastAt_concat_none {places : List (Option (String × α))} {name : String}
    {value : α} {index : Nat} :
    LastAt (places ++ [none]) name value index ↔ LastAt places name value index := by
  simp [LastAt, getElem?_concat_eq_some]

private theorem lastAt_concat_some {places : List (Option (String × α))} {key name : String}
    {last value : α} {index : Nat} :
    LastAt (places ++ [some (key, last)]) name value index ↔
      if name = key then index = places.length ∧ last = value
      else LastAt places name value index := by
  have inside {index : Nat} {entry : Option (String × α)} (held : places[index]? = some entry) :
      index < places.length := (List.getElem?_eq_some_iff.mp held).1
  split
  next same =>
    subst same
    simp only [LastAt, getElem?_concat_eq_some, Option.some.injEq, Prod.mk.injEq, true_and]
    constructor
    · rintro ⟨held | there, latest⟩
      · have early := inside held
        have := latest places.length last (.inr ⟨rfl, rfl⟩)
        omega
      · exact there
    · rintro ⟨rfl, rfl⟩
      refine ⟨.inr ⟨rfl, rfl⟩, ?_⟩
      rintro later other (held | ⟨rfl, -⟩)
      · exact Nat.le_of_lt (inside held)
      · exact Nat.le_refl _
  next other => simp [LastAt, getElem?_concat_eq_some, Ne.symm other]

/-- A name is bound by the last place that has it. -/
theorem get?_bindAll_iff (places : List (Option (String × α))) (name : String) (value : α) :
    (bindAll (places.filterMap id)).get? name = some value ↔
      ∃ index, LastAt places name value index := by
  induction places using List.reverseRecOn with
  | nil => simp [bindAll, LastAt]
  | append_singleton places last ih =>
    rw [List.filterMap_append]
    cases last with
    | none => simpa [lastAt_concat_none] using ih
    | some entry =>
      obtain ⟨key, last⟩ := entry
      simp only [List.filterMap_cons, id_eq, List.filterMap_nil, get?_bindAll_concat,
        lastAt_concat_some]
      split
      next same => simp
      next other => exact ih

end Bindings

namespace Frame
variable {heap : Heap} {frame : Frame}

private theorem slot?_eq_some_iff {index : Nat} {value : Value} :
    frame.slot? index = some value ↔ frame.slots[index]? = some (some value) := by
  rw [slot?, Option.join_eq_some_iff]

private theorem derefCell?_eq_some_iff {index : Nat} {cell : CellId} :
    frame.derefCell? index = some cell ↔
      frame.slot? (frame.code.locals.length + index) = some (.cell cell) := by
  unfold derefCell?
  split
  next other held => rw [held, Option.some.injEq, Option.some.injEq, Value.cell.injEq]
  next foreign => exact ⟨nofun, fun held => absurd held (foreign cell)⟩

/-- A slot shows a value under a name: a local that is bound, or a variable whose cell is filled. -/
inductive Visible (heap : Heap) (frame : Frame) : Nat → String → Value → Prop
  | bound {index name value} (named : frame.code.locals[index]? = some name)
      (held : frame.slot? index = some value) : Visible heap frame index name value
  | cell {index name cell value} (named : frame.code.cells[index]? = some name)
      (held : frame.slot? (frame.code.locals.length + index) = some (.cell cell))
      (filled : heap.cell? cell = some value) :
      Visible heap frame (frame.code.locals.length + index) name value
  | free {index name cell value} (named : frame.code.frees[index]? = some name)
      (held : frame.slot? (frame.code.locals.length + frame.code.cells.length + index) =
        some (.cell cell))
      (filled : heap.cell? cell = some value) :
      Visible heap frame (frame.code.locals.length + frame.code.cells.length + index) name value

/-- Before the variables of cells are the locals, and no others. -/
theorem visible_local_iff {index : Nat} (inside : index < frame.code.locals.length) {name : String}
    {value : Value} :
    frame.Visible heap index name value ↔
      frame.code.locals[index]? = some name ∧ frame.slot? index = some value := by
  constructor
  · intro visible
    cases visible with
    | bound named held => exact ⟨named, held⟩
    | cell | free => omega
  · rintro ⟨named, held⟩
    exact .bound named held

/-- Behind the locals a variable shows what its cell contains, under the name of its place among the
cells and free variables. -/
theorem visible_deref_iff {index : Nat} {name : String} {value : Value} :
    frame.Visible heap (frame.code.locals.length + index) name value ↔
      frame.code.derefName? index = some name ∧
        ∃ cell, frame.derefCell? index = some cell ∧ heap.cell? cell = some value := by
  rw [Blueprint.derefName?, Blueprint.derefNames]
  constructor
  · intro visible
    generalize place : frame.code.locals.length + index = slot at visible
    cases visible with
    | bound named held =>
      have inside := (List.getElem?_eq_some_iff.mp named).1
      omega
    | @cell own name cell value named held filled =>
      obtain rfl : index = own := by omega
      have inside := (List.getElem?_eq_some_iff.mp named).1
      rw [List.getElem?_append_left inside]
      exact ⟨named, cell, derefCell?_eq_some_iff.mpr held, filled⟩
    | @free own name cell value named held filled =>
      obtain rfl : index = frame.code.cells.length + own := by omega
      rw [List.getElem?_append_right (Nat.le_add_right _ _), Nat.add_sub_cancel_left]
      rw [Nat.add_assoc] at held
      exact ⟨named, cell, derefCell?_eq_some_iff.mpr held, filled⟩
  · rintro ⟨named, cell, held, filled⟩
    rw [derefCell?_eq_some_iff] at held
    rcases Nat.lt_or_ge index frame.code.cells.length with inside | behind
    · rw [List.getElem?_append_left inside] at named
      exact .cell named held filled
    · rw [List.getElem?_append_right behind] at named
      obtain ⟨own, rfl⟩ := Nat.exists_eq_add_of_le behind
      rw [Nat.add_sub_cancel_left] at named
      rw [← Nat.add_assoc] at held ⊢
      exact .free named held filled

def places (heap : Heap) (frame : Frame) : List (Option (String × Value)) :=
  (frame.code.locals.zip frame.slots).map (fun (name, slot) => slot.map (name, ·)) ++
    (frame.code.derefNames.zip (frame.slots.drop frame.code.locals.length)).map
      fun (name, slot) =>
        match slot with
        | some (.cell id) => (heap.cell? id).map (name, ·)
        | _ => none

theorem locals?_materialize (heap : Heap) (frame : Frame) :
    (frame.materialize heap).locals? =
      some (Bindings.bindAll ((frame.places heap).filterMap id)) := by
  rw [places, List.filterMap_append, List.filterMap_map, List.filterMap_map]
  rfl

private theorem getElem?_zip_map {β γ δ : Type} (names : List β) (items : List γ) (f : β × γ → δ)
    (index : Nat) (result : δ) :
    ((names.zip items).map f)[index]? = some result ↔
      ∃ name item, names[index]? = some name ∧ items[index]? = some item ∧
        f (name, item) = result := by
  simp only [List.getElem?_map, Option.map_eq_some_iff, Prod.exists, List.getElem?_zip_eq_some,
    and_assoc]

/-- The locals come first, and the variables of cells stand behind as many places as there are
locals. -/
private theorem getElem?_places (heap : Heap) (frame : Frame) (index : Nat) :
    (frame.places heap)[index]? =
      if index < frame.code.locals.length then
        ((frame.code.locals.zip frame.slots).map
          fun (name, slot) => slot.map (name, ·))[index]?
      else
        ((frame.code.derefNames.zip (frame.slots.drop frame.code.locals.length)).map
          fun (name, slot) =>
            match slot with
            | some (.cell id) => (heap.cell? id).map (name, ·)
            | _ => none)[index - frame.code.locals.length]? := by
  rw [places]
  rcases Nat.lt_or_ge frame.slots.length frame.code.locals.length with short | enough
  · simp only [List.drop_eq_nil_of_le (Nat.le_of_lt short), List.zip_nil_right, List.map_nil,
      List.append_nil, List.getElem?_nil]
    split
    next => rfl
    next behind =>
      refine List.getElem?_eq_none ?_
      rw [List.length_map, List.length_zip]
      omega
  · rw [List.getElem?_append, List.length_map, List.length_zip, Nat.min_eq_left enough]

theorem getElem?_places_iff {index : Nat} {name : String} {value : Value} :
    (frame.places heap)[index]? = some (some (name, value)) ↔
      frame.Visible heap index name value := by
  rw [getElem?_places]
  split
  next inside =>
    rw [visible_local_iff inside, getElem?_zip_map]
    constructor
    · rintro ⟨key, slot, named, held, same⟩
      obtain ⟨_, rfl, entry⟩ := Option.map_eq_some_iff.mp same
      cases entry
      exact ⟨named, slot?_eq_some_iff.mpr held⟩
    · rintro ⟨named, held⟩
      exact ⟨name, some value, named, slot?_eq_some_iff.mp held, rfl⟩
  next behind =>
    obtain ⟨place, rfl⟩ := Nat.exists_eq_add_of_le (Nat.not_lt.mp behind)
    rw [visible_deref_iff, Nat.add_sub_cancel_left, getElem?_zip_map]
    simp only [List.getElem?_drop, derefCell?_eq_some_iff, slot?_eq_some_iff]
    constructor
    · rintro ⟨key, slot, named, held, same⟩
      split at same
      next cell =>
        obtain ⟨_, filled, entry⟩ := Option.map_eq_some_iff.mp same
        cases entry
        exact ⟨named, cell, held, filled⟩
      next => cases same
    · rintro ⟨named, cell, held, filled⟩
      exact ⟨name, some (.cell cell), named, held, by simp only [filled, Option.map_some]⟩

def VisibleLast (heap : Heap) (frame : Frame) (name : String) (value : Value) : Prop :=
  ∃ index, frame.Visible heap index name value ∧
    ∀ later other, frame.Visible heap later name other → later ≤ index

theorem contains_materialize_iff {bindings : Bindings Value}
    (made : (frame.materialize heap).locals? = some bindings) (name : String) :
    bindings.contains name ↔ ∃ index value, frame.Visible heap index name value := by
  rw [locals?_materialize] at made
  cases made
  simp only [Bindings.contains_bindAll_iff, List.mem_filterMap, id_eq, exists_eq_right]
  simp only [List.mem_iff_getElem?, getElem?_places_iff]
  exact exists_comm

theorem get?_materialize_iff {bindings : Bindings Value}
    (made : (frame.materialize heap).locals? = some bindings) (name : String) (value : Value) :
    bindings.get? name = some value ↔ frame.VisibleLast heap name value := by
  rw [locals?_materialize] at made
  cases made
  simp only [Bindings.get?_bindAll_iff, Bindings.LastAt, getElem?_places_iff, VisibleLast]

/-- What slots show depends on the cells that they hold, and on no others. -/
theorem places_congr {other : Frame} {later : Heap} (locals : other.code.locals = frame.code.locals)
    (derefs : other.code.derefNames = frame.code.derefNames) (slots : other.slots = frame.slots)
    (alike : ∀ cell, some (.cell cell) ∈ frame.slots → later.cell? cell = heap.cell? cell) :
    other.places later = frame.places heap := by
  rw [places, places, locals, derefs, slots]
  congr 1
  refine List.map_congr_left ?_
  rintro ⟨name, slot⟩ member
  have held := List.mem_of_mem_drop (List.of_mem_zip member).2
  cases slot with
  | none => rfl
  | some value =>
    cases value with
    | cell id => exact congrArg (Option.map _) (alike id held)
    | _ => rfl

structure MaterializesExactly (heap : Heap) (frame : Frame) : Prop where
  /-- A name is bound when a slot shows something under it, and means what the last such slot
  shows. -/
  shown : ∃ bindings, (frame.materialize heap).locals? = some bindings ∧
    (∀ name, bindings.contains name ↔ ∃ index value, frame.Visible heap index name value) ∧
    ∀ name value, bindings.get? name = some value ↔ frame.VisibleLast heap name value
  /-- Behind the locals, names are those by which instructions refer to cells. -/
  named : ∀ index name value,
    frame.Visible heap (frame.code.locals.length + index) name value ↔
      frame.code.derefName? index = some name ∧
        ∃ cell, frame.derefCell? index = some cell ∧ heap.cell? cell = some value
  untouched : frame.materialize heap = { frame with locals? := (frame.materialize heap).locals? }
  /-- Only the names and slots of a frame count, and what the cells in its slots contain. -/
  current : ∀ (other : Frame) later, other.code.locals = frame.code.locals →
    other.code.derefNames = frame.code.derefNames → other.slots = frame.slots →
    (∀ cell, some (.cell cell) ∈ frame.slots → later.cell? cell = heap.cell? cell) →
    (other.materialize later).locals? = (frame.materialize heap).locals?
  /-- Whatever was stored in between, nothing remains of an earlier materialization. -/
  again : ∀ later,
    (frame.materialize heap).materialize later =
      Frame.materialize later { frame with locals? := none }
  /-- A callback is given the frame with the variables as they are when it is asked. -/
  consulted : ∀ {σ α : Type} {host : Host σ} {stack rest : List (Activation σ α)}
    {world after : World σ} {id given module cached program},
    Machine.Move host ⟨.enter id (.intercept frame), stack, world⟩
      ⟨.program (.consulted id given module cached) program, rest, after⟩ →
    given = frame.materialize world.heap ∧ after.heap = world.heap ∧
      ∃ callback, program = host.callback callback id (frame.materialize world.heap) cached.length

theorem materializes_exactly (heap : Heap) (frame : Frame) : frame.MaterializesExactly heap where
  shown :=
    have made := locals?_materialize heap frame
    ⟨_, made, contains_materialize_iff made, get?_materialize_iff made⟩
  named _ _ _ := visible_deref_iff
  untouched := rfl
  current other later locals derefs slots alike := by
    rw [locals?_materialize, locals?_materialize, places_congr locals derefs slots alike]
  again _ := rfl
  consulted := by
    intro σ α host stack rest world after id given module cached program move
    cases move with
    | asked installed present wanted => exact ⟨rfl, rfl, _, rfl⟩

/-- A parameter that is captured shows its argument while its cell is empty, and the content of the
cell once there is one. -/
example (content : Option Value) :
    let heap : Heap := { cells := ⟨#[content]⟩ }
    let frame : Frame :=
      { code := { name := "f", argumentCount := 1, locals := ["x"], cells := ["x"], id := 0 }
        globals := 0, builtins := 0, slots := [some .nil, some (.cell 0)] }
    (frame.materialize heap).locals?.bind (·.get? "x") = some (content.getD .nil) := by
  cases content <;> rfl

end Frame
end Interpose
