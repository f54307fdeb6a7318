import Interpose.Proofs.Instructions
import Interpose.Proofs.Scope

/-! What global names mean in a migrated frame. A frame reads global names in its own two namespaces
for as long as it runs. A migrated frame has the globals of the original, but the builtins of the
interpreter whose thread migrates it. So a name means the same in both frames exactly when these are
the builtins of the original too, or when the globals, which never lose a name, bind it already. -/

namespace Interpose
variable {σ : Type}

namespace Heap
variable {heap : Heap} {space globals first second : NamespaceId} {name : String}

theorem names_bind (heap : Heap) (space other : NamespaceId) (name : String) (value : Value) :
    (heap.edit (.bind space name value)).names other =
      if other = space then (heap.names space).set name value else heap.names other :=
  Table.get_set heap.namespaces space other _

theorem contains_edit (bound : (heap.names space).contains name = true) (change : HeapEdit) :
    ((heap.edit change).names space).contains name = true := by
  cases change with
  | newNamespace =>
    have inside : space ≠ heap.namespaces.size := by
      rintro rfl
      rw [names, Table.get_of_size_le (Nat.le_refl _)] at bound
      cases bound
    have kept : (heap.edit .newNamespace).names space = heap.names space := by
      rw [names, edit, Table.get_push, if_neg inside, names]
    rw [kept, bound]
  | bind other added value =>
    rw [names_bind]
    split
    next same => rw [Bindings.contains_set, ← same, bound, Bool.or_true]
    next => exact bound
  | newCell content | writeCell cell value | newFunction => exact bound

theorem contains_editAll (bound : (heap.names space).contains name = true)
    (edits : List HeapEdit) : ((heap.editAll edits).names space).contains name = true := by
  induction edits generalizing heap with
  | nil => exact bound
  | cons change rest ih => exact ih (contains_edit bound change)

theorem resolve?_of_contains (bound : (heap.names globals).contains name = true)
    (builtins : NamespaceId) :
    heap.resolve? globals builtins name = (heap.names globals).get? name := by
  obtain ⟨value, found⟩ := Option.isSome_iff_exists.mp bound
  rw [resolve?, found, Option.some_or]

private theorem exists_other (known : Option Value) : ∃ value, known ≠ some value := by
  by_cases same : known = some .nil
  · exact ⟨.bool true, by rw [same]; exact nofun⟩
  · exact ⟨.nil, same⟩

/-- A name that the globals do not bind can be bound in one of two builtins, so that it has another
meaning there than in the other. -/
theorem exists_resolve?_ne (unbound : (heap.names globals).get? name = none)
    (apart : first ≠ second) (behind : second ≠ globals) :
    ∃ change, (heap.edit change).resolve? globals first name ≠
      (heap.edit change).resolve? globals second name := by
  obtain ⟨value, other⟩ := exists_other ((heap.names first).get? name)
  refine ⟨.bind second name value, ?_⟩
  have elsewhere : (heap.edit (.bind second name value)).resolve? globals first name =
      (heap.names first).get? name := by
    rw [resolve?, names_bind, names_bind, if_neg behind.symm, if_neg apart, unbound,
      Option.none_or]
  have there : (heap.edit (.bind second name value)).resolve? globals second name = some value := by
    rw [resolve?, names_bind, names_bind, if_neg behind.symm, if_pos rfl, unbound, Option.none_or,
      Bindings.get?_set, if_pos rfl]
  rwa [elsewhere, there]

/-- Over the same globals a name means the same in two builtins, now and whatever the heap becomes,
exactly when they are one or the globals bind it already. -/
theorem resolve?_alike_iff :
    (∀ edits, (heap.editAll edits).resolve? globals first name =
        (heap.editAll edits).resolve? globals second name) ↔
      first = second ∨ (heap.names globals).contains name = true := by
  constructor
  · intro alike
    by_cases apart : first = second
    · exact .inl apart
    · refine .inr ?_
      cases held : (heap.names globals).get? name with
      | some value => rw [Bindings.contains, held, Option.isSome_some]
      | none =>
        -- One of the two is not the globals themselves, and there the name can be bound.
        by_cases behind : second = globals
        · have ahead : first ≠ globals := fun same => apart (same.trans behind.symm)
          obtain ⟨change, differs⟩ := exists_resolve?_ne held (Ne.symm apart) ahead
          exact absurd (alike [change]).symm differs
        · obtain ⟨change, differs⟩ := exists_resolve?_ne held apart behind
          exact absurd (alike [change]) differs
  · rintro (rfl | bound) edits
    · rfl
    · have stays := contains_editAll bound edits
      rw [resolve?_of_contains stays, resolve?_of_contains stays]

end Heap

namespace Frame

/-- Two frames of one unit that read global names in the same namespaces. -/
structure SameScope (first second : Frame) : Prop where
  code : second.code = first.code
  globals : second.globals = first.globals
  builtins : second.builtins = first.builtins

theorem SameScope.refl (frame : Frame) : frame.SameScope frame := ⟨rfl, rfl, rfl⟩

theorem SameScope.trans {first second third : Frame} (before : first.SameScope second)
    (after : second.SameScope third) : first.SameScope third :=
  ⟨after.code.trans before.code, after.globals.trans before.globals,
    after.builtins.trans before.builtins⟩

theorem SameScope.push (frame : Frame) (value : Value) : frame.SameScope (frame.push value) :=
  ⟨rfl, rfl, rfl⟩

def Progress.Within (home : Frame) : Progress → Prop
  | .next after _ => home.SameScope after
  | .call after _ _ => home.SameScope after
  | .leave _ => True
  | .broken => True

variable {home frame : Frame} {heap : Heap}

theorem within_step (heap : Heap) (frame : Frame) : (frame.step heap).Within frame := by
  have goes {after : Frame} (goesOn : frame.GoesOn heap after) : frame.SameScope after := by
    obtain ⟨_, _, advances⟩ := goesOn.advances
    exact ⟨advances.code, advances.globals, advances.builtins⟩
  cases progress : frame.step heap with
  | next after edits => exact goes (.inl ⟨edits, progress⟩)
  | call after callee arguments => exact goes (.inr ⟨callee, arguments, progress⟩)
  | leave | broken => trivial

/-- What becomes of a frame while it runs, whatever the heap is at each of its steps and whatever
its calls return. -/
inductive Reaches (start : Frame) : Frame → Prop
  | refl : Reaches start start
  | next {frame after heap edits} (before : Reaches start frame)
      (progress : frame.step heap = .next after edits) : Reaches start after
  | resumed {frame after heap callee arguments} (before : Reaches start frame)
      (progress : frame.step heap = .call after callee arguments) (value : Value) :
      Reaches start (after.push value)

theorem Reaches.sameScope {start later : Frame} (reaches : start.Reaches later) :
    start.SameScope later := by
  induction reaches with
  | refl => exact .refl start
  | @next frame after heap edits before progress ih =>
    have within := frame.within_step heap
    rw [progress] at within
    exact ih.trans within
  | @resumed frame after heap callee arguments before progress value ih =>
    have within := frame.within_step heap
    rw [progress] at within
    exact (ih.trans within).trans (.push after value)

/-- Whatever the heap becomes, where both frames load a name they push the same value or fail with
the same fault. -/
def LoadsAlike (heap : Heap) (first second : Frame) (name : String) : Prop :=
  ∀ edits index place, first.code.names[index]? = some name →
    second.code.names[place]? = some name →
    ∃ result,
      first.execute (heap.editAll edits) (.loadGlobal index) = first.pushingResult result ∧
      second.execute (heap.editAll edits) (.loadGlobal place) = second.pushingResult result

def loaded (name : String) : Option Value → Except Fault Value
  | some value => .ok value
  | none => .error (.undefinedName name)

theorem loaded_inj {name : String} {first second : Option Value}
    (same : loaded name first = loaded name second) : first = second := by
  cases first <;> cases second <;> cases same <;> rfl

theorem pushingResult_inj {first second : Except Fault Value}
    (same : frame.pushingResult first = frame.pushingResult second) : first = second := by
  cases first <;> cases second <;> cases same <;> rfl

theorem execute_loadGlobal {index : Nat} {name : String}
    (named : frame.code.names[index]? = some name) :
    frame.execute heap (.loadGlobal index) =
      frame.pushingResult (loaded name (heap.resolve? frame.globals frame.builtins name)) := by
  simp only [execute, named]
  cases heap.resolve? frame.globals frame.builtins name <;> rfl

theorem loadsAlike_iff {first second : Frame} {name : String} (named : name ∈ first.code.names)
    (alsoNamed : name ∈ second.code.names) :
    LoadsAlike heap first second name ↔
      ∀ edits, (heap.editAll edits).resolve? first.globals first.builtins name =
        (heap.editAll edits).resolve? second.globals second.builtins name := by
  constructor
  · intro alike edits
    obtain ⟨index, loads⟩ := Array.mem_iff_getElem?.mp named
    obtain ⟨place, alsoLoads⟩ := Array.mem_iff_getElem?.mp alsoNamed
    obtain ⟨result, pushed, alsoPushed⟩ := alike edits index place loads alsoLoads
    rw [execute_loadGlobal loads] at pushed
    rw [execute_loadGlobal alsoLoads] at alsoPushed
    exact loaded_inj ((pushingResult_inj pushed).trans (pushingResult_inj alsoPushed).symm)
  · intro same edits index place loads alsoLoads
    refine ⟨_, execute_loadGlobal loads, ?_⟩
    rw [same edits]
    exact execute_loadGlobal alsoLoads

theorem shadow_eq_ok {frame : Frame} {replacement : Code}
    (locals : frame.code.locals.length ≤ replacement.locals.length)
    (cells : replacement.cells.length = frame.code.cells.length)
    (frees : replacement.frees.length = frame.code.frees.length) (builtins : NamespaceId) :
    frame.shadow replacement builtins =
      .ok { code := replacement, globals := frame.globals, builtins,
            slots := frame.migratedSlots replacement.locals.length } :=
  shadow_eq_ok_iff.mpr ⟨locals, cells, frees, rfl⟩

end Frame

namespace Machine

/-- The frame that a thread builds for a replacement that fits, out of a frame from anywhere. At
every later point of the two frames, a name that both units load means the same in both, whatever
the heap becomes, if and only if the original has the builtins of the thread, or the globals bind
the name already. -/
theorem shadow_loadsAlike_iff (host : Host σ) (world : World σ) (id : ThreadId) (frame : Frame)
    (replacement : CodeId)
    (locals : frame.code.locals.length ≤ (world.heap.code replacement).locals.length)
    (cells : (world.heap.code replacement).cells.length = frame.code.cells.length)
    (frees : (world.heap.code replacement).frees.length = frame.code.frees.length) :
    ∃ shadow,
      Transition.Ends (step host) (ofProgram world (Program.shadow id frame replacement))
        (.finished (.ok shadow) world) ∧
      shadow.code = world.heap.code replacement ∧ shadow.globals = frame.globals ∧
      shadow.builtins = world.builtins id ∧
      ∀ moved original, shadow.Reaches moved → frame.Reaches original →
      ∀ name ∈ shadow.code.names, name ∈ frame.code.names →
        (moved.LoadsAlike world.heap original name ↔
          frame.builtins = world.builtins id ∨
            (world.heap.names frame.globals).contains name = true) := by
  have built := Frame.shadow_eq_ok locals cells frees (world.builtins id)
  have ends : Transition.Ends (step host) (ofProgram world (Program.shadow id frame replacement))
      (.finished (frame.shadow (world.heap.code replacement) (world.builtins id)) world) := ⟨4, rfl⟩
  rw [built] at ends
  refine ⟨_, ends, rfl, rfl, rfl, ?_⟩
  intro moved original onward alsoOnward name named alsoNamed
  have scope := onward.sameScope
  have alsoScope := alsoOnward.sameScope
  rw [← scope.code] at named
  rw [← alsoScope.code] at alsoNamed
  rw [Frame.loadsAlike_iff named alsoNamed, scope.globals, scope.builtins, alsoScope.globals,
    alsoScope.builtins, Heap.resolve?_alike_iff, eq_comm]

def reading : Blueprint :=
  { name := "reading", names := #["x", "y"], instructions := #[.loadGlobal 0, .returnValue] }

/-- One name is bound in the globals, and the other in a namespace that is nobody's builtins. -/
def ownBuiltins : World Unit :=
  (World.single #[reading, reading] {}).edit [.bind 1 "y" .nil, .bind 2 "x" (.int 7)]

def readingFrame : Frame := .blank (ownBuiltins.heap.code 0) 1 2

theorem readingFrame_migrated_astray :
    ∃ shadow evaluated replaced,
      Transition.Ends (step passive) (ofProgram ownBuiltins (Program.shadow 0 readingFrame 1))
        (.finished (.ok shadow) ownBuiltins) ∧
      shadow.builtins ≠ readingFrame.builtins ∧
      Transition.Ends (step passive)
        (ofProgram ownBuiltins (Program.run 0 (.evaluate readingFrame)))
        (.finished (.ok (.int 7)) evaluated) ∧
      Transition.Ends (step passive)
        (ofProgram ownBuiltins (Program.evaluateReplacement 0 readingFrame 1))
        (.finished (.error (.undefinedName "x")) replaced) :=
  ⟨_, _, _, ⟨4, rfl⟩, by decide, ⟨10, rfl⟩, ⟨10, rfl⟩⟩

theorem readingFrame_loadsAlike :
    ∃ shadow,
      Transition.Ends (step passive) (ofProgram ownBuiltins (Program.shadow 0 readingFrame 1))
        (.finished (.ok shadow) ownBuiltins) ∧
      shadow.LoadsAlike ownBuiltins.heap readingFrame "y" ∧
      ¬shadow.LoadsAlike ownBuiltins.heap readingFrame "x" := by
  obtain ⟨shadow, ends, code, -, -, means⟩ :=
    shadow_loadsAlike_iff passive ownBuiltins 0 readingFrame 1 (by decide) rfl rfl
  have alike (name : String) (named : name ∈ reading.names) :=
    means shadow readingFrame .refl .refl name (by rw [code]; exact named) named
  have bound := alike "y" (by simp [reading])
  have unbound := alike "x" (by simp [reading])
  exact ⟨shadow, ends, bound.mpr (.inr rfl), fun same => absurd (unbound.mp same) (by decide)⟩

end Machine

end Interpose
