import Interpose.Proofs.Cycles
import Interpose.Proofs.Resolution
import Interpose.Proofs.Safety

/-! Which namespaces a run changes. One instruction binds a name, and it binds it in the globals of
its frame. A function is made with the globals of the frame that makes it, a call gives them to the
frame of the callee, and a migration to the frame of the replacement. So a run changes only the
globals of frames that it evaluates. -/

namespace Interpose
variable {σ α : Type}

def HeapEdit.binds? : HeapEdit → Option NamespaceId
  | .bind space _ _ => some space
  | _ => none

namespace Heap
variable {heap : Heap} {space : NamespaceId}

theorem names_edit_of_other {change : HeapEdit} (other : change.binds? ≠ some space) :
    (heap.edit change).names space = heap.names space := by
  cases change with
  | newNamespace =>
    rw [names, edit, Table.get_push]
    split
    next same =>
      rw [names, Table.get_of_size_le (Nat.le_of_eq same.symm)]
      rfl
    next => rfl
  | bind bound name value =>
    rw [names_bind]
    apply if_neg
    rintro rfl
    exact other rfl
  | newCell | writeCell | newFunction => rfl

theorem names_editAll_of_other {edits : List HeapEdit}
    (others : ∀ change ∈ edits, change.binds? ≠ some space) :
    (heap.editAll edits).names space = heap.names space := by
  induction edits generalizing heap with
  | nil => rfl
  | cons change rest ih =>
    have first : (heap.edit change).names space = heap.names space :=
      names_edit_of_other (others change List.mem_cons_self)
    have later (other : HeapEdit) (member : other ∈ rest) : other.binds? ≠ some space :=
      others other (List.mem_cons_of_mem _ member)
    exact (ih later).trans first

theorem spaces_le_editAll (heap : Heap) (edits : List HeapEdit) :
    heap.namespaces.size ≤ (heap.editAll edits).namespaces.size := by
  induction edits generalizing heap with
  | nil => exact Nat.le_refl _
  | cons change rest ih =>
    have first : heap.namespaces.size ≤ (heap.edit change).namespaces.size := by
      cases change with
      | newNamespace =>
        rw [edit, Table.size_push]
        omega
      | bind bound name value =>
        rw [edit, Table.size_set]
        omega
      | newCell | writeCell | newFunction => exact Nat.le_refl _
    exact Nat.le_trans first (ih _)

end Heap

theorem World.binds_entryEdits {world : World σ} {id : ThreadId} {function : Function}
    {arguments : List Value} {change : HeapEdit}
    (member : change ∈ world.entryEdits id function arguments) : change.binds? = none := by
  unfold entryEdits at member
  split at member
  next frame edits fits =>
    rw [Frame.edits_of_enter fits] at member
    obtain ⟨content, _, rfl⟩ := List.mem_map.mp member
    rfl
  next => exact absurd member List.not_mem_nil

namespace Frame
variable {heap : Heap} {frame after : Frame} {edits : List HeapEdit}

structure Binds (frame : Frame) (name : String) (value : Value) : Prop where
  fetched : ∃ index, frame.code.instructions[frame.pc]? = some (.storeGlobal index) ∧
    frame.code.names[index]? = some name
  held : frame.stack.head? = some value

theorem binds_of_step {change : HeapEdit} (member : change ∈ (frame.step heap).edits) :
    change.binds? = none ∨ ∃ name value, frame.Binds name value ∧
      (frame.step heap).edits = [.bind frame.globals name value] := by
  cases fetched : frame.code.instructions[frame.pc]? with
  | none =>
    simp only [Frame.step, fetched] at member
    exact absurd member List.not_mem_nil
  | some instruction =>
    have writes := Frame.writes_step fetched heap
    generalize (frame.step heap).edits = edits at member writes ⊢
    cases writes with
    | none => exact absurd member List.not_mem_nil
    | cell | function =>
      rw [List.mem_singleton.mp member]
      exact .inl rfl
    | @name index name value rest named held =>
      exact .inr ⟨name, value, ⟨⟨index, fetched, named⟩, by rw [held, List.head?_cons]⟩, rfl⟩

theorem function_of_step {code count : Nat}
    (fetched : frame.code.instructions[frame.pc]? = some (.makeFunction code count))
    (progress : frame.step heap = .next after edits) :
    ∃ function, after.stack = .function function :: frame.stack.drop count ∧
      function.id = heap.functions ∧ function.globals = frame.globals := by
  simp only [Frame.step, fetched, execute, poppingMany] at progress
  split at progress
  · cases progress
  · split at progress
    · cases progress
    · split at progress <;> cases progress
      exact ⟨_, rfl, rfl, rfl⟩

end Frame

def Outcome.world? : Outcome σ α → Option (World σ)
  | .finished _ world => some world
  | .given _ world => some world
  | _ => none

namespace Machine

/-- No program, be it a callback or a native function, binds a name in the next step. -/
def Storeless (machine : Machine σ α) : Prop :=
  ∀ change, machine.action? = some (.edit change) → change.binds? = none

def names (machine : Machine σ α) (space : NamespaceId) : Bindings Value :=
  machine.world.heap.names space

def spaces (machine : Machine σ α) : Nat := machine.world.heap.namespaces.size

def Evaluates (space : NamespaceId) (machine : Machine σ α) : Prop :=
  ∃ id frame, machine.control = .run id frame ∧ frame.globals = space

def Stores (space : NamespaceId) (name : String) (value : Value) (machine : Machine σ α) : Prop :=
  ∃ id frame, machine.control = .run id frame ∧ frame.globals = space ∧ frame.Binds name value

/-- A function with these globals is called, or a program hands in a frame with them. -/
def Brings (space : NamespaceId) (machine : Machine σ α) : Prop :=
  (∃ id function arguments, machine.control = .enter id (.call (.function function) arguments) ∧
    function.globals = space) ∨
  ∃ role id entry next frame, machine.control = .program role (.launch id entry next) ∧
    frame ∈ entry.held ∧ frame.globals = space

variable {host : Host σ} {start before after first last machine : Machine σ α}
  {space : NamespaceId}

theorem Move.spaces_le (move : Move host before after) : before.spaces ≤ after.spaces := by
  have grown := Heap.spaces_le_editAll before.world.heap (before.edits)
  rwa [← move.grows.namespaces] at grown

theorem Move.contains (move : Move host before after) {name : String}
    (bound : (before.names space).contains name = true) :
    (after.names space).contains name = true := by
  rw [names, move.grows.names]
  exact Heap.contains_editAll bound _

/-- An edit of a step binds a name in a namespace that the step makes, or in the globals of the
frame that runs. -/
theorem Move.stores_of_binds (move : Move host before after) (storeless : before.Storeless)
    {change : HeapEdit} (member : change ∈ before.edits)
    (bound : change.binds? = some space) :
    before.spaces ≤ space ∨ ∃ id frame name value, before.control = .run id frame ∧
      frame.Binds name value ∧ before.edits = [.bind frame.globals name value] := by
  have none (unbound : change.binds? = none) : False := by
    rw [bound] at unbound
    cases unbound
  have nothing (member : change ∈ ([] : List HeapEdit)) : False := List.not_mem_nil member
  cases move with
  | entered | mismatched => exact (none (World.binds_entryEdits member)).elim
  | @uncallable id callee arguments stack world foreign =>
    cases callee with
    | function | native => cases foreign
    | _ => exact (nothing member).elim
  | ran | called | left =>
    rcases Frame.binds_of_step member with unbound | ⟨name, value, binds, same⟩
    · exact (none unbound).elim
    · exact .inr ⟨_, _, name, value, rfl, binds, same⟩
  | @replied result role next stack world =>
    cases role <;> cases result <;> exact (nothing member).elim
  | @launched role id entry next stack world => cases role <;> exact (nothing member).elim
  | @performed role action next stack world reply after applied =>
    have requested : change ∈ action.edits world := by cases role <;> exact member
    cases action with
    | edit other =>
      rw [List.mem_singleton.mp requested] at bound none
      exact (none (storeless other rfl)).elim
    | newInterpreter =>
      left
      rcases List.mem_cons.mp requested with rfl | later
      · cases bound
      · obtain ⟨native, _, rfl⟩ := List.mem_map.mp later
        cases bound
        exact Nat.le_refl _
    | enter => exact (none (World.binds_entryEdits requested)).elim
    | _ => exact (nothing requested).elim
  | _ => exact (nothing member).elim

theorem Move.names_cases (move : Move host before after) (storeless : before.Storeless)
    (there : space < before.spaces) :
    after.names space = before.names space ∨ ∃ name value, before.Stores space name value ∧
      after.names space = (before.names space).set name value := by
  have grown : after.names space = (before.world.heap.editAll (before.edits)).names space :=
    move.grows.names space
  by_cases touched : ∃ change ∈ before.edits, change.binds? = some space
  case neg =>
    left
    rw [grown]
    apply Heap.names_editAll_of_other
    intro change member bound
    exact touched ⟨change, member, bound⟩
  case pos =>
    obtain ⟨change, member, bound⟩ := touched
    rcases move.stores_of_binds storeless member bound with
      fresh | ⟨id, frame, name, value, control, binds, same⟩
    · exact absurd there (Nat.not_lt.mpr fresh)
    · rw [same] at member grown
      rw [List.mem_singleton.mp member] at bound
      cases bound
      refine .inr ⟨name, value, ⟨id, frame, control, rfl, binds⟩, ?_⟩
      rw [grown]
      exact (Heap.names_bind _ _ _ _ _).trans (if_pos rfl)

theorem spaces_le_of_met (met : Transition.Meets (step host) start machine) :
    start.spaces ≤ machine.spaces := by
  have kept (before after : Machine σ α) (_ : Transition.Meets (step host) start before)
      (fewer : start.spaces ≤ before.spaces) (move : Move host before after) :
      start.spaces ≤ after.spaces := Nat.le_trans fewer move.spaces_le
  exact met_keeps kept (Nat.le_refl _) met

theorem contains_of_met {name : String} (met : Transition.Meets (step host) start machine)
    (bound : (start.names space).contains name = true) :
    (machine.names space).contains name = true := by
  have kept (before after : Machine σ α) (_ : Transition.Meets (step host) start before)
      (bound : (before.names space).contains name = true) (move : Move host before after) :
      (after.names space).contains name = true := move.contains bound
  exact met_keeps kept bound met

/-- A namespace that is not what it was has been the globals of a frame that ran meanwhile. -/
theorem evaluates_of_changed {fuel : Nat}
    (storeless : ∀ machine, Transition.Meets (step host) first machine → machine.Storeless)
    (there : space < first.spaces) (met : run host fuel first = .next last)
    (changed : last.names space ≠ first.names space) :
    ∃ count machine, count < fuel ∧ run host count first = .next machine ∧
      machine.Evaluates space := by
  induction fuel generalizing last with
  | zero =>
    cases met
    exact absurd rfl changed
  | succ fuel ih =>
    obtain ⟨before, reached, move⟩ := exists_move_of_run met
    by_cases same : before.names space = first.names space
    · have still : space < before.spaces :=
        Nat.lt_of_lt_of_le there (spaces_le_of_met ⟨fuel, reached⟩)
      rcases move.names_cases (storeless before ⟨fuel, reached⟩) still with
        kept | ⟨name, value, ⟨id, frame, control, globals, _⟩, _⟩
      · exact absurd (kept.trans same) changed
      · exact ⟨fuel, before, Nat.lt_succ_self _, reached, id, frame, control, globals⟩
    · obtain ⟨count, machine, early, met, evaluates⟩ := ih reached same
      exact ⟨count, machine, by omega, met, evaluates⟩

/-- A frame has its globals from a frame that is there, or from one that the step brings in. -/
def Provides (machine : Machine σ α) (frame : Frame) : Prop :=
  (∃ old ∈ machine.held, old.globals = frame.globals) ∨ machine.Brings frame.globals

private theorem provides_held {frame : Frame} (member : frame ∈ before.held) :
    before.Provides frame := .inl ⟨frame, member, rfl⟩

private theorem provides_onto {control : Control σ α} {stack : List (Activation σ α)}
    (world : World σ) (above : ∀ frame ∈ control.held, before.Provides frame)
    (within : ∀ activation ∈ stack, activation ∈ before.stack ∨
      ∀ frame ∈ activation.held, before.Provides frame) :
    ∀ frame ∈ held (⟨control, stack, world⟩ : Machine σ α), before.Provides frame := by
  intro frame member
  rcases mem_held_cases member with top | ⟨activation, waiting, there⟩
  · exact above frame top
  · rcases within activation waiting with old | new
    · exact provides_held (mem_held_of_waiting old there)
    · exact new frame there

theorem Move.provides (move : Move host before after) :
    ∀ frame ∈ after.held, before.Provides frame := by
  have top {frame : Frame} (member : frame ∈ before.control.held) : before.Provides frame :=
    provides_held (List.mem_append_left _ member)
  have none (frame : Frame) (member : frame ∈ ([] : List Frame)) : before.Provides frame :=
    absurd member List.not_mem_nil
  -- A frame in the control after the step, with the globals of one that is provided.
  have one {old later : Frame} (provided : before.Provides old)
      (same : later.globals = old.globals) (frame : Frame) (member : frame ∈ [later]) :
      before.Provides frame := by
    rw [List.mem_singleton.mp member, Provides, same]
    exact provided
  have same (activation : Activation σ α) (member : activation ∈ before.stack) :
      activation ∈ before.stack ∨ ∀ frame ∈ activation.held, before.Provides frame := .inl member
  cases move with
  | byEngine | byInterceptor | started | skipped | missed =>
    exact provides_onto _ (fun _ => top) same
  | byHost | byNative | refused | mismatched | native | uncallable | left | failed | rejected | dispatched =>
    exact provides_onto _ none same
  | asked => exact provides_onto _ (one (top List.mem_cons_self) rfl) same
  | @entered id function arguments stack world frame edits fits =>
    obtain ⟨_, _, rfl⟩ := Frame.enter_eq_ok fits
    refine provides_onto _ (fun frame member => ?_) same
    rw [List.mem_singleton.mp member]
    exact .inr (.inl ⟨id, function, arguments, rfl, rfl⟩)
  | @ran id frame stack world later edits progress =>
    have within := frame.within_step world.heap
    rw [progress] at within
    exact provides_onto _ (one (top List.mem_cons_self) within.globals) same
  | @called id frame stack world later callee arguments progress =>
    have within := frame.within_step world.heap
    rw [progress] at within
    refine provides_onto _ none fun activation member => ?_
    rcases List.mem_cons.mp member with rfl | below
    · exact .inr (one (top List.mem_cons_self) within.globals)
    · exact .inl below
  | @resumed value id frame stack world =>
    have waiting : Provides ⟨.give (.ok value), .frame id frame :: stack, world⟩ frame :=
      provides_held (mem_held_of_waiting List.mem_cons_self List.mem_cons_self)
    exact provides_onto _ (one waiting rfl) fun _ => .inl ∘ List.mem_cons_of_mem _
  | unwound => exact provides_onto _ none fun _ => .inl ∘ List.mem_cons_of_mem _
  | @replied result role next stack world =>
    refine provides_onto _ (fun frame member => ?_) fun _ => .inl ∘ List.mem_cons_of_mem _
    exact provides_held (mem_held_of_waiting List.mem_cons_self member)
  | replaced fits =>
    obtain ⟨_, _, _, rfl⟩ := Frame.shadow_eq_ok_iff.mp fits
    exact provides_onto _ (one (top List.mem_cons_self) rfl) same
  | performed => exact provides_onto _ (fun _ => top) same
  | @launched role id entry next stack world =>
    refine provides_onto _ (fun frame member => ?_) fun activation member => ?_
    · exact .inr (.inr ⟨role, id, entry, next, frame, rfl, member, rfl⟩)
    · rcases List.mem_cons.mp member with rfl | below
      · exact .inr fun _ => top
      · exact .inl below

/-- Every frame has the globals of a frame from the start, or of one that was called or handed in
before. -/
theorem provided_of_met (met : Transition.Meets (step host) start machine) :
    ∀ frame ∈ machine.held, (∃ old ∈ start.held, old.globals = frame.globals) ∨
      ∃ earlier, Transition.Meets (step host) start earlier ∧ earlier.Brings frame.globals := by
  have kept (before after : Machine σ α) (reached : Transition.Meets (step host) start before)
      (provided : ∀ frame ∈ before.held, (∃ old ∈ start.held, old.globals = frame.globals) ∨
        ∃ earlier, Transition.Meets (step host) start earlier ∧ earlier.Brings frame.globals)
      (move : Move host before after) :
      ∀ frame ∈ after.held, (∃ old ∈ start.held, old.globals = frame.globals) ∨
        ∃ earlier, Transition.Meets (step host) start earlier ∧ earlier.Brings frame.globals := by
    intro frame member
    rcases move.provides frame member with ⟨old, there, same⟩ | brings
    · rw [← same]
      exact provided old there
    · exact .inr ⟨before, reached, brings⟩
  exact met_keeps kept (fun frame member => .inl ⟨frame, member, rfl⟩) met

structure ChangesGlobals (host : Host σ) (start : Machine σ α) : Prop where
  stores : ∀ before after space, Transition.Meets (step host) start before →
    step host before = .next after → space < before.spaces →
    after.names space ≠ before.names space →
    ∃ name value, before.Stores space name value ∧
      after.names space = (before.names space).set name value
  /-- Between any two points, what changes are globals of frames that run from one to the other. -/
  changed : ∀ first last fuel space, Transition.Meets (step host) start first →
    run host fuel first = .next last → space < first.spaces →
    last.names space ≠ first.names space →
    ∃ count machine, count < fuel ∧ run host count first = .next machine ∧ machine.Evaluates space
  ended : ∀ outcome world space, Transition.Ends (step host) start outcome →
    outcome.world? = some world → space < start.spaces →
    world.heap.names space ≠ start.names space →
    ∃ machine, Transition.Meets (step host) start machine ∧ machine.Evaluates space
  kept : ∀ first last space name, Transition.Meets (step host) start first →
    Transition.Meets (step host) first last → (first.names space).contains name = true →
    (last.names space).contains name = true
  created : ∀ before after id frame later code count,
    Transition.Meets (step host) start before → before.control = .run id frame →
    frame.code.instructions[frame.pc]? = some (.makeFunction code count) →
    step host before = .next after → after.control = .run id later →
    ∃ function, later.stack = .function function :: frame.stack.drop count ∧
      function.id = before.world.heap.functions ∧ function.globals = frame.globals
  /-- A replacement runs with the globals of the frame that it replaces. -/
  replaced : ∀ before after id frame module cached replacement place shadow,
    Transition.Meets (step host) start before →
    before.control = .program (.consulted id frame module cached) (.done (.ok (some replacement))) →
    step host before = .next after → after.control = .enter place (.evaluate shadow) →
    place = id ∧ shadow.globals = frame.globals
  /-- The globals of a frame that runs come from a call, from a program, or from the start. -/
  sources : ∀ machine space, Transition.Meets (step host) start machine → machine.Evaluates space →
    (∃ frame ∈ start.held, frame.globals = space) ∨
      ∃ earlier, Transition.Meets (step host) start earlier ∧ earlier.Brings space
  builtins : ∀ id, start.world.builtins id < start.spaces →
    (∀ machine, Transition.Meets (step host) start machine →
      ¬machine.Evaluates (start.world.builtins id)) →
    (∀ machine, Transition.Meets (step host) start machine →
      machine.names (start.world.builtins id) = start.names (start.world.builtins id)) ∧
    ∀ outcome world, Transition.Ends (step host) start outcome → outcome.world? = some world →
      world.heap.names (start.world.builtins id) = start.names (start.world.builtins id)

private theorem world?_of_halt {outcome : Outcome σ α} {world : World σ}
    (halted : step host last = .halt outcome) (left : outcome.world? = some world) :
    world = last.world := by
  cases step_eq_halt_iff.mp halted with
  | finished | given =>
    cases left
    rfl
  | noModule | noCallback | broken | fatal => cases left

/-- Of the namespaces that are there, a run changes none but the globals of frames that it
evaluates, if its programs and native functions bind no names. -/
theorem changesGlobals_of_storeless
    (storeless : ∀ machine, Transition.Meets (step host) start machine → machine.Storeless) :
    ChangesGlobals host start := by
  have changed (first last : Machine σ α) (fuel : Nat) (space : NamespaceId)
      (met : Transition.Meets (step host) start first) (onward : run host fuel first = .next last)
      (there : space < first.spaces) (changed : last.names space ≠ first.names space) :
      ∃ count machine, count < fuel ∧ run host count first = .next machine ∧
        machine.Evaluates space :=
    evaluates_of_changed (fun machine later => storeless machine (met.trans later)) there onward
      changed
  have atPoint (machine : Machine σ α) (space : NamespaceId) (there : space < start.spaces)
      (met : Transition.Meets (step host) start machine)
      (other : machine.names space ≠ start.names space) :
      ∃ machine, Transition.Meets (step host) start machine ∧ machine.Evaluates space := by
    obtain ⟨fuel, reached⟩ := met
    obtain ⟨count, meanwhile, _, met, evaluates⟩ :=
      changed start machine fuel space (.refl start) reached there other
    exact ⟨meanwhile, ⟨count, met⟩, evaluates⟩
  have ended (outcome : Outcome σ α) (world : World σ) (space : NamespaceId)
      (ends : Transition.Ends (step host) start outcome) (left : outcome.world? = some world)
      (there : space < start.spaces) (other : world.heap.names space ≠ start.names space) :
      ∃ machine, Transition.Meets (step host) start machine ∧ machine.Evaluates space := by
    obtain ⟨last, met, halted⟩ := ends.last
    rw [world?_of_halt halted left] at other
    exact atPoint last space there met other
  refine ⟨?stores, changed, ended, ?kept, ?created, ?replaced, ?sources, ?builtins⟩
  case stores =>
    intro before after space met stepped there other
    have move := step_eq_next_iff.mp stepped
    exact (move.names_cases (storeless before met) there).resolve_left other
  case kept =>
    intro first last space name _ onward bound
    exact contains_of_met onward bound
  case created =>
    intro before after id frame later code count _ running fetched stepped goesOn
    obtain ⟨_, stack, world⟩ := before
    cases running
    cases step_eq_next_iff.mp stepped with
    | ran progress =>
      cases goesOn
      exact Frame.function_of_step fetched progress
    | called | left => cases goesOn
  case replaced =>
    intro before after id frame module cached replacement place shadow _ answered stepped entered
    obtain ⟨_, stack, world⟩ := before
    cases answered
    cases step_eq_next_iff.mp stepped with
    | replaced fits =>
      obtain ⟨_, _, _, rfl⟩ := Frame.shadow_eq_ok_iff.mp fits
      cases entered
      exact ⟨rfl, rfl⟩
    | rejected => cases entered
  case sources =>
    rintro machine space met ⟨id, frame, running, rfl⟩
    apply provided_of_met met
    apply List.mem_append_left
    rw [running]
    exact List.mem_cons_self
  case builtins =>
    intro id there spared
    constructor
    · intro machine met
      apply Decidable.byContradiction
      intro other
      obtain ⟨meanwhile, met, evaluates⟩ := atPoint machine _ there met other
      exact spared meanwhile met evaluates
    · intro outcome world ends left
      apply Decidable.byContradiction
      intro other
      obtain ⟨meanwhile, met, evaluates⟩ := ended outcome world _ ends left there other
      exact spared meanwhile met evaluates

end Machine

def Conduct.unbinding : Conduct σ where
  performs
    | .edit change => change.binds? = none
    | _ => True
  launches _ _ := True

namespace Machine
variable {host : Host σ} {machine : Machine σ α}

theorem storeless_of_met {start : World σ} {program : Program σ α}
    (client : program.Follows .unbinding) (served : host.Follows .unbinding)
    (met : Transition.Meets (step host) (ofProgram start program) machine) :
    machine.Storeless :=
  fun _ next => (follows_of_met client served met).performs next

def overriding (value : Value) : Blueprint :=
  { name := "overriding", constants := #[value], names := #["abs"],
    instructions := #[.loadConst 0, .storeGlobal 0, .loadGlobal 0, .returnValue] }

def overridden : World Unit :=
  (World.single #[overriding (.int 1), overriding (.int 2)]
    (.intercepting ⟨⟨0⟩⟩ 0)).addInterpreter.edit [.newNamespace]

def overrider : Host Unit := .ofCallbacks fun _ _ _ _ => .done (.ok (some ⟨0, 1⟩))

def overridingCall : Machine Unit (Except Fault Value) :=
  ofProgram overridden (Program.run 0 (.call (.function ⟨0, 0, 1, []⟩) []))

theorem changesGlobals_of_overriding :
    (∀ machine, Transition.Meets (step overrider) overridingCall machine →
      machine.Storeless) ∧
    ChangesGlobals overrider overridingCall ∧
    ∃ world,
      Transition.Ends (step overrider) overridingCall (.finished (.ok (.int 2)) world) ∧
      (world.heap.names 1).get? "abs" = some (.int 2) ∧
      world.heap.names 0 = overridden.heap.names 0 ∧
      ((world.heap.names 0).get? "abs").isSome := by
  have storeless (machine : Machine Unit (Except Fault Value))
      (met : Transition.Meets (step overrider) overridingCall machine) :
      machine.Storeless := by
    refine storeless_of_met ?client ?served met
    case client => exact ⟨trivial, fun _ => trivial⟩
    case served => exact Host.follows_ofCallbacks fun _ _ _ _ => trivial
  exact ⟨storeless, changesGlobals_of_storeless storeless, _, ⟨12, rfl⟩, rfl, rfl, rfl⟩

end Machine

end Interpose
