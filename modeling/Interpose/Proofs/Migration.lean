import Interpose.Proofs.Variables

/-! The migration of a frame, slot by slot: the locals stay, new locals are unbound, and every cell
and free variable is the cell that it was, for as long as the two frames run. A replacement that
does not fit is refused before anything is done. -/

namespace Interpose
variable {σ : Type}

namespace Frame

/-- A replacement has room for the locals of a frame, and as many cells and free variables. -/
def Fits (frame : Frame) (replacement : Code) : Prop :=
  frame.code.locals.length ≤ replacement.locals.length ∧
    replacement.cells.length = frame.code.cells.length ∧
    replacement.frees.length = frame.code.frees.length

/-- Why a replacement does not fit. The locals are compared first. -/
def misfit (frame : Frame) (replacement : Code) : Fault :=
  if replacement.locals.length < frame.code.locals.length then
    .fewerLocals replacement.name replacement.locals.length frame.code.locals.length
      frame.code.name
  else
    .otherCells replacement.name replacement.cells.length replacement.frees.length
      frame.code.name frame.code.cells.length frame.code.frees.length

/-- Whatever a frame stores into one of its cells, another loads from one of its own. -/
def Shows (writer : Frame) (index : Nat) (reader : Frame) (place : Nat) : Prop :=
  ∀ heap value rest, writer.stack = value :: rest →
    ∃ after edits, writer.execute heap (.storeCell index) = .next after edits ∧
      reader.execute (heap.editAll edits) (.loadCell place) = reader.pushing value

/-- What a frame for a replacement has of the original, and what it starts with. -/
structure Migrated (original shadow : Frame) (replacement : Code) (builtins : NamespaceId) :
    Prop where
  code : shadow.code = replacement
  globals : shadow.globals = original.globals
  builtins : shadow.builtins = builtins
  unstarted : shadow.pc = 0 ∧ shadow.stack = [] ∧ shadow.locals? = none
  length : shadow.slots.length = replacement.slotCount
  locals : ∀ index < original.code.locals.length,
    ∃ slot, original.slots[index]? = some slot ∧ shadow.slots[index]? = some slot
  unbound : ∀ index, original.code.locals.length ≤ index → index < replacement.locals.length →
    shadow.slots[index]? = some none
  cells : ∀ index, shadow.derefCell? index = original.derefCell? index
  /-- So it is at all later points of the two frames, however their evaluations alternate. -/
  lasting : replacement.Accepted → ∀ later moved index,
    original.Reaches later → shadow.Reaches moved →
    moved.derefCell? index = later.derefCell? index
  /-- What any holder of a cell stores, both frames load, and the other way round. -/
  shared : ∀ index cell, original.derefCell? index = some cell →
    ∀ holder place, holder.derefCell? place = some cell →
      holder.Shows place original index ∧ holder.Shows place shadow index ∧
      original.Shows index holder place ∧ shadow.Shows index holder place

variable {original shadow : Frame} {replacement : Code} {builtins : NamespaceId}

theorem shadow_of_misfit (misfits : ¬original.Fits replacement) :
    original.shadow replacement builtins = .error (original.misfit replacement) := by
  unfold Frame.shadow misfit
  dsimp only
  split
  next => rfl
  next enough =>
    refine if_pos (Decidable.not_and_iff_not_or_not.mp ?_)
    intro same
    exact misfits ⟨Nat.not_lt.mp enough, same⟩

theorem fits_of_shadow (fits : original.shadow replacement builtins = .ok shadow) :
    original.Fits replacement := by
  obtain ⟨locals, cells, frees, -⟩ := shadow_eq_ok_iff.mp fits
  exact ⟨locals, cells, frees⟩

/-- Cells are written and read by identity, so all that hold one agree on its content. -/
theorem shows_of_same {writer reader : Frame} {index place : Nat} {cell : CellId}
    (written : writer.derefCell? index = some cell) (read : reader.derefCell? place = some cell) :
    writer.Shows index reader place := by
  intro heap value rest held
  have found : derefCell? { writer with stack := rest } index = some cell := written
  refine ⟨{ writer with stack := rest }, [.writeCell cell value], ?stores, ?loads⟩
  case stores => simp only [execute, popping, held, finding, found]
  case loads =>
    have content : (heap.editAll [.writeCell cell value]).cell? cell = some value := by
      simp [Heap.editAll, Heap.edit, Heap.cell?, Table.get_set]
    simp only [execute, finding, read, content]

theorem migratedSlots_local {index : Nat} (inside : index < original.code.locals.length)
    (there : index < original.slots.length) (count : Nat) :
    (original.migratedSlots count)[index]? = original.slots[index]? := by
  have own : index < (original.slots.take original.code.locals.length).length := by
    rw [List.length_take]
    omega
  rw [migratedSlots, List.append_assoc, List.getElem?_append_left own,
    List.getElem?_take_of_lt inside]

section
variable (room : original.code.locals.length ≤ original.slots.length)
include room

theorem migratedSlots_unbound {index count : Nat} (behind : original.code.locals.length ≤ index)
    (inside : index < count) : (original.migratedSlots count)[index]? = some none := by
  have own : (original.slots.take original.code.locals.length).length =
      original.code.locals.length := List.length_take_of_le room
  rw [migratedSlots, List.append_assoc, List.getElem?_append_right (by omega), own,
    List.getElem?_append_left (by rw [List.length_replicate]; omega), List.getElem?_replicate,
    if_pos (by omega)]

theorem migratedSlots_deref {count : Nat} (enough : original.code.locals.length ≤ count)
    (index : Nat) :
    (original.migratedSlots count)[count + index]? =
      original.slots[original.code.locals.length + index]? := by
  have locals : (original.slots.take original.code.locals.length ++
      List.replicate (count - original.code.locals.length) (none : Option Value)).length =
      count := by
    rw [List.length_append, List.length_take_of_le room, List.length_replicate]
    omega
  rw [migratedSlots, List.getElem?_append_right (by omega), locals, Nat.add_sub_cancel_left,
    List.getElem?_drop]

end

theorem derefCell?_shadow (slots : original.slots.length = original.code.slotCount)
    (fits : original.shadow replacement builtins = .ok shadow) (index : Nat) :
    shadow.derefCell? index = original.derefCell? index := by
  obtain ⟨enough, -, -, rfl⟩ := shadow_eq_ok_iff.mp fits
  have room : original.code.locals.length ≤ original.slots.length := by
    rw [slots, Blueprint.slotCount]
    omega
  simp only [derefCell?, slot?, migratedSlots_deref room enough]

theorem migrated_of_shadow (sturdy : original.Sturdy)
    (fits : original.shadow replacement builtins = .ok shadow) :
    original.Migrated shadow replacement builtins := by
  have cells := derefCell?_shadow sturdy.slots fits
  have slots := sturdy.slots
  have made := fits
  obtain ⟨enough, ownCells, ownFrees, rfl⟩ := shadow_eq_ok_iff.mp fits
  rw [Blueprint.slotCount] at slots
  have room : original.code.locals.length ≤ original.slots.length := by omega
  constructor
  case code | globals | builtins => rfl
  case unstarted => exact ⟨rfl, rfl, rfl⟩
  case length =>
    simp only [migratedSlots, Blueprint.slotCount, List.length_append, List.length_take,
      List.length_drop, List.length_replicate]
    omega
  case locals =>
    intro index inside
    have there : index < original.slots.length := by omega
    have held := List.getElem?_eq_getElem there
    exact ⟨_, held, (migratedSlots_local inside there _).trans held⟩
  case unbound =>
    intro index behind inside
    exact migratedSlots_unbound room behind inside
  case cells => exact cells
  case lasting =>
    intro accepted later moved index onward alsoOnward
    have kept := (sturdy.reaches onward).2
    have alsoKept := ((sturdy.shadow accepted.operable made).reaches alsoOnward).2
    rw [alsoKept.derefCell? index, kept.derefCell? index, cells index]
  case shared =>
    intro index cell held holder place alsoHeld
    have moved := (cells index).trans held
    exact ⟨shows_of_same alsoHeld held, shows_of_same alsoHeld moved, shows_of_same held alsoHeld,
      shows_of_same moved alsoHeld⟩

end Frame

namespace Machine

/-- A program gets to a later point of it while the world and all that waits stay as they are. -/
def Quietly {α : Type} (host : Host σ) (world : World σ) (stack : List (Activation σ α))
    (role : Role) (first last : Program σ (role.Result α)) : Prop :=
  ∃ steps, run host steps ⟨.program role first, stack, world⟩ =
      .next ⟨.program role last, stack, world⟩ ∧
    ∀ fuel ≤ steps, ∃ between, run host fuel ⟨.program role first, stack, world⟩ =
      .next ⟨.program role between, stack, world⟩

structure Migrates (host : Host σ) (world : World σ) (id : ThreadId) (frame : Frame)
    (replacement : CodeId) : Prop where
  accepts : (∃ shadow after,
      Transition.Ends (step host) (ofProgram world (Program.shadow id frame replacement))
        (.finished (.ok shadow) after)) ↔
    frame.Fits (world.heap.code replacement)
  migrated : ∀ shadow after,
    Transition.Ends (step host) (ofProgram world (Program.shadow id frame replacement))
      (.finished (.ok shadow) after) →
    after = world ∧
      frame.Migrated shadow (world.heap.code replacement) (world.builtins id)
  refuses : ¬frame.Fits (world.heap.code replacement) →
    Transition.Ends (step host) (ofProgram world (Program.shadow id frame replacement))
      (.finished (.error (frame.misfit (world.heap.code replacement))) world)
  /-- A program of any role that runs a replacement that does not fit gets the fault at once. -/
  unrun : ¬frame.Fits (world.heap.code replacement) →
    ∀ {α : Type} (stack : List (Activation σ α)) (role : Role)
      (next : Except Fault Value → Program σ (role.Result α)),
      Quietly host world stack role
        ((Program.evaluateReplacement id frame replacement).bind next)
        (next (.error (frame.misfit (world.heap.code replacement))))
  /-- One that fits is entered there, with all else as before. -/
  launched : ∀ shadow after,
    Transition.Ends (step host) (ofProgram world (Program.shadow id frame replacement))
      (.finished (.ok shadow) after) →
    ∀ {α : Type} (stack : List (Activation σ α)) (role : Role)
      (next : Except Fault Value → Program σ (role.Result α)),
      Quietly host world stack role
        ((Program.evaluateReplacement id frame replacement).bind next)
        (.launch id (.evaluate shadow) next)
  /-- The interceptor does the same with the answer of a callback, after it has noted the answer
  and is on again. -/
  answers : ∀ {α : Type} (module : HookModule) (cached : CacheState) (entry : Replacement)
      (control : Control σ α) after, entry.code = replacement →
    answer world id frame module cached (.ok (some entry)) = (control, after) →
    after = (world.storeCache module frame.code.id (cached.prepend entry)).setDispatch id
        .intercept ∧
      (¬frame.Fits (world.heap.code replacement) ∧
          control = .give (.error (frame.misfit (world.heap.code replacement))) ∨
        ∃ shadow, frame.Migrated shadow (world.heap.code replacement) (world.builtins id) ∧
          control = .enter id (.evaluate shadow))

variable (host : Host σ) (world : World σ) (id : ThreadId) {first frame : Frame}
  (replacement : CodeId)

/-- All requests come before the frames are compared, and they only read. -/
private theorem quietly_compared {α : Type} (frame : Frame) (stack : List (Activation σ α))
    (role : Role) (next : Except Fault Value → Program σ (role.Result α)) :
    Quietly host world stack role ((Program.evaluateReplacement id frame replacement).bind next)
      (Program.bind
        (match frame.shadow (world.heap.code replacement) (world.builtins id) with
          | .ok shadow => Program.run id (.evaluate shadow)
          | .error fault => .done (.error fault))
        next) := by
  refine ⟨3, rfl, ?_⟩
  intro fuel early
  match fuel with
  | 0 | 1 | 2 | 3 => exact ⟨_, rfl⟩
  | fuel + 4 => omega

private theorem answer_eq {α : Type} (module : HookModule) (cached : CacheState)
    (entry : Replacement) :
    answer world id frame module cached (.ok (some entry)) =
      ((match frame.shadow (world.heap.code entry.code) (world.builtins id) with
        | .ok shadow => .enter id (.evaluate shadow)
        | .error fault => .give (.error fault) : Control σ α),
        (world.storeCache module frame.code.id (cached.prepend entry)).setDispatch id
          .intercept) := by
  simp only [answer, World.heap_setDispatch, World.heap_storeCache, World.builtins_setDispatch,
    World.builtins_storeCache]
  cases frame.shadow (world.heap.code entry.code) (world.builtins id) <;> rfl

/-- A frame of a built unit, as it was made or at any later point. The frame for a replacement is
made exactly when the replacement fits, and then it is the frame that it should be; otherwise
nothing happens. -/
theorem migrates_of_made (made : first.Made) (reaches : first.Reaches frame) :
    Migrates host world id frame replacement := by
  have sturdy := (made.sturdy.reaches reaches).1
  have ends : Transition.Ends (step host) (ofProgram world (Program.shadow id frame replacement))
      (.finished (frame.shadow (world.heap.code replacement) (world.builtins id)) world) := ⟨4, rfl⟩
  have fitting {shadow : Frame} {after : World σ}
      (other : Transition.Ends (step host) (ofProgram world (Program.shadow id frame replacement))
        (.finished (.ok shadow) after)) :
      frame.shadow (world.heap.code replacement) (world.builtins id) = .ok shadow ∧
        after = world := by
    have same := ends.unique other
    simp only [Outcome.finished.injEq] at same
    exact ⟨same.1, same.2.symm⟩
  constructor
  case accepts =>
    constructor
    · rintro ⟨shadow, after, other⟩
      exact Frame.fits_of_shadow (fitting other).1
    · rintro ⟨locals, cells, frees⟩
      rw [Frame.shadow_eq_ok locals cells frees] at ends
      exact ⟨_, _, ends⟩
  case migrated =>
    intro shadow after other
    obtain ⟨fits, same⟩ := fitting other
    exact ⟨same, Frame.migrated_of_shadow sturdy fits⟩
  case refuses =>
    intro misfits
    rwa [Frame.shadow_of_misfit misfits] at ends
  case unrun =>
    intro misfits α stack role next
    have compared := quietly_compared host world id replacement frame stack role next
    rw [Frame.shadow_of_misfit misfits] at compared
    exact compared
  case launched =>
    intro shadow after other α stack role next
    have compared := quietly_compared host world id replacement frame stack role next
    rw [(fitting other).1] at compared
    exact compared
  case answers =>
    intro α module cached entry control after same answered
    subst same
    rw [answer_eq] at answered
    cases answered
    refine ⟨rfl, ?_⟩
    cases compared : frame.shadow (world.heap.code entry.code) (world.builtins id) with
    | ok shadow => exact .inr ⟨shadow, Frame.migrated_of_shadow sturdy compared, rfl⟩
    | error fault =>
      refine .inl ?_
      have misfits : ¬frame.Fits (world.heap.code entry.code) := by
        rintro ⟨locals, cells, frees⟩
        rw [Frame.shadow_eq_ok locals cells frees] at compared
        cases compared
      rw [Frame.shadow_of_misfit misfits] at compared
      cases compared
      exact ⟨misfits, rfl⟩

def stepping : Blueprint :=
  { name := "stepping", argumentCount := 1, locals := ["x"], cells := ["x"], frees := ["k"],
    constants := #[.int 1],
    instructions := #[.loadConst 0, .storeLocal 0, .loadCell 0, .returnValue] }

def stretched : Blueprint := { stepping with name := "stretched", locals := ["x", "y"] }

def migratory : World Unit :=
  { World.single #[stepping, stretched, .one] {} with
    heap := { codes := ⟨#[stepping, stretched, .one]⟩, cells := ⟨#[some (.int 7)]⟩ } }

def steppingFrame : Frame :=
  { code := migratory.heap.code 0, globals := 0, builtins := 0,
    slots := [some (.int 5), some (.cell 1), some (.cell 0)] }

def steppedFrame : Frame :=
  { steppingFrame with slots := [some (.int 1), some (.cell 1), some (.cell 0)], pc := 2 }

theorem migrates_of_stepped :
    steppingFrame.Made ∧ steppingFrame.Reaches steppedFrame ∧
      Migrates passive migratory 0 steppedFrame 1 ∧ Migrates passive migratory 0 steppedFrame 2 ∧
      (∃ shadow,
        Transition.Ends (step passive) (ofProgram migratory (Program.shadow 0 steppedFrame 1))
          (.finished (.ok shadow) migratory) ∧
        shadow.slots = [some (.int 1), none, some (.cell 1), some (.cell 0)]) ∧
      Transition.Ends (step passive)
        (ofProgram migratory (Program.evaluateReplacement 0 steppedFrame 2))
        (.finished (.error (.fewerLocals "one" 0 1 "stepping")) migratory) := by
  have accepted : stepping.Accepted :=
    ⟨"stepping", [.parameters ["x"], .cells ["x"], .frees ["k"], .constants [.int 1],
      .instructions [.loadConst 0, .storeLocal 0, .loadCell 0, .returnValue]], rfl⟩
  have fits : Frame.enter migratory.heap 0 ⟨0, 0, 0, [0]⟩ [.int 5] =
      .ok (steppingFrame, [.newCell (some (.int 5))]) := rfl
  have made : steppingFrame.Made := by
    apply Frame.Made.entered _ 0 fits
    exact accepted
  have loaded : steppingFrame.Reaches _ :=
    .next .refl (rfl : steppingFrame.step migratory.heap = .next _ [])
  have reaches : steppingFrame.Reaches steppedFrame :=
    .next loaded (rfl : Frame.step migratory.heap _ = .next steppedFrame [])
  exact ⟨made, reaches, migrates_of_made passive migratory 0 1 made reaches,
    migrates_of_made passive migratory 0 2 made reaches, ⟨_, ⟨4, rfl⟩, rfl⟩, ⟨4, rfl⟩⟩

end Machine

end Interpose
