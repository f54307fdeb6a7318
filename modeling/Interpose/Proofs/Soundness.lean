import Interpose.Proofs.History
import Interpose.Proofs.Instructions
import Interpose.Proofs.Likeness

/-! Every engine that can be reached is sound: it is the same as itself under the renaming that
changes nothing. So all that its values, slots and threads refer to is there. Code itself brings
nothing into play that is missing, and a client or a host has nothing of the kind to hand in. -/

namespace Interpose
variable {σ α : Type}

def View.whole : View σ where
  slots _ := True
  shared := ⟨fun _ _ _ => True, fun _ _ => trivial⟩

/-- The renaming that leaves all that there is in an engine as it is. -/
def World.names (world : World σ) : Renaming where
  units := .identity world.heap.codes.size
  cells := .identity world.heap.cells.size
  spaces := .identity world.heap.namespaces.size
  functions := .identity world.heap.functions
  interpreters := .identity world.interpreters.size
  threads := .identity world.threads.size

abbrev World.Sound (world : World σ) : Prop := world.Renamed .whole world.names world

/-- Where both sides are one engine, what grows from its own renaming is its own renaming. -/
theorem World.Renamed.eq_names {view : View σ} {before after : World σ} {names : Renaming}
    (same : after.Renamed view names after) (grows : before.names.Grows names) :
    names = after.names := by
  have sized := same.heap.sized
  have units := grows.units.eq_identity
  have cells := grows.cells.eq_identity
  have spaces := grows.spaces.eq_identity
  have functions := grows.functions.eq_identity
  have interpreters := grows.interpreters.eq_identity
  have threads := grows.threads.eq_identity
  rw [sized.units.1] at units
  rw [sized.cells.1] at cells
  rw [sized.spaces.1] at spaces
  rw [sized.functions.1] at functions
  rw [same.sized.interpreters.1] at interpreters
  rw [same.sized.threads.1] at threads
  rw [World.names, ← units, ← cells, ← spaces, ← functions, ← interpreters, ← threads]

section
variable (names : Renaming)

abbrev Value.Known (value : Value) : Prop := value.Renamed names value

structure Frame.Known (frame : Frame) : Prop where
  twins : Frame.Twins names frame frame
  unit : names.units.maps frame.code.id frame.code.id

def Entry.Known : Entry → Prop
  | .dispatch frame => frame.Known names
  | .evaluate frame => frame.Known names
  | .intercept frame => frame.Known names
  | .call callee arguments =>
    callee.Known names ∧ List.Forall₂ (Value.Renamed names) arguments arguments

def Role.Known : Role → Prop
  | .consulted thread frame _ cached =>
    names.threads.maps thread thread ∧ frame.Known names ∧ cached.Renamed names cached
  | _ => True

def Control.Known : Control σ α → Prop
  | .enter id entry => names.threads.maps id id ∧ entry.Known names
  | .run id frame => names.threads.maps id id ∧ frame.Known names
  | .give result => RenamedResult names result result
  | .program role _ => role.Known names

def Activation.Known : Activation σ α → Prop
  | .frame id held => names.threads.maps id id ∧ held.Known names
  | .program role _ => role.Known names

/-- What a program hands to the engine at the end of its role refers to nothing that is missing. -/
def Role.Answers : (role : Role) → role.Result α → Prop
  | .client, _ => True
  | .consulted _ _ _ _, .error fault => fault.Renamed names fault
  | .consulted _ _ _ _, .ok none => True
  | .consulted _ _ _ _, .ok (some replacement) => replacement.Renamed names replacement
  | .hosted, result => RenamedResult names result result

/-- A request hands nothing to the engine that refers to something missing. -/
def Action.Truthful : Action σ → Prop
  | .edit change => ∃ after, change.Renamed names change after
  | .build unit => unit.Renamed names unit
  | .writeExtra code _ value => names.units.maps code code ∧ RenamedExtra names value value
  | .requestIndex owner => names.interpreters.maps owner owner
  | .newThread owner _ => names.interpreters.maps owner owner
  | .setDispatch thread _ => names.threads.maps thread thread
  | .install thread _ _ => names.threads.maps thread thread
  | .enter thread function arguments =>
    names.threads.maps thread thread ∧ function.Renamed names function ∧
      List.Forall₂ (Value.Renamed names) arguments arguments
  | _ => True

end

section
variable {names wider : Renaming}

theorem Frame.Known.mono {frame : Frame} (known : frame.Known names)
    (within : names.Within wider) : frame.Known wider :=
  ⟨known.twins.mono within, within.units known.unit⟩

theorem Frame.Known.materialize {frame : Frame} (known : frame.Known names) (heap : Heap) :
    (frame.materialize heap).Known names :=
  ⟨{ known.twins with }, known.unit⟩

theorem Frame.Known.later {frame after : Frame} {heap : Heap} (known : frame.Known names)
    (goesOn : frame.GoesOn heap after) (within : names.Within wider)
    (twins : Frame.Twins wider after after) : after.Known wider := by
  obtain ⟨_, _, advances⟩ := goesOn.advances
  refine ⟨twins, ?_⟩
  rw [advances.code]
  exact within.units known.unit

theorem Frame.Fresh.known {frame : Frame} (fresh : Frame.Fresh names frame frame) :
    frame.Known names :=
  ⟨fresh.twins, fresh.unit⟩

theorem Frame.Known.shadow {frame shadow : Frame} {heap : Heap} {replacement : CodeId}
    {builtins : NamespaceId} (known : frame.Known names) (matched : heap.Matches names heap)
    (unit : names.units.maps replacement replacement) (space : names.spaces.maps builtins builtins)
    (fits : frame.shadow (heap.code replacement) builtins = .ok shadow) : shadow.Known names := by
  refine ⟨known.twins.migrated (matched.units unit) (matched.checked unit) space fits, ?_⟩
  obtain ⟨_, _, _, rfl⟩ := Frame.shadow_eq_ok_iff.mp fits
  exact unit

private theorem role_mono {role : Role} (known : role.Known names) (within : names.Within wider) :
    role.Known wider := by
  cases role with
  | consulted id frame module cached =>
    obtain ⟨thread, held, state⟩ := known
    exact ⟨within.threads thread, held.mono within, state.mono within⟩
  | client | hosted => exact trivial

private theorem activation_mono {activation : Activation σ α} (known : activation.Known names)
    (within : names.Within wider) : activation.Known wider := by
  cases activation with
  | frame id held => exact ⟨within.threads known.1, known.2.mono within⟩
  | program role next => exact role_mono known within

end

theorem CacheState.Renamed.prepend {names : Renaming} {state other : CacheState}
    {replacement offered : Replacement} (same : state.Renamed names other)
    (newest : replacement.Renamed names offered) :
    (state.prepend replacement).Renamed names (other.prepend offered) := by
  have single := List.Forall₂.cons newest .nil
  cases same with
  | empty | skip => exact .entries single
  | entries same => exact .entries (List.rel_append same single)

theorem Frame.own_shadow {frame : Frame} {replacement : Code} {builtins : NamespaceId}
    {fault : Fault} (misfits : frame.shadow replacement builtins = .error fault) :
    fault.isRaised = false := by
  unfold Frame.shadow at misfits
  dsimp only at misfits
  split at misfits
  · cases misfits
    rfl
  · split at misfits <;> cases misfits
    rfl

namespace World.Renamed
variable {view : View σ} {names : Renaming} {first second : World σ}

/-- The hook of a thread is not compared. -/
theorem setDispatch (same : Renamed view names first second) {a b : ThreadId}
    (named : names.threads.maps a b) (dispatch other : Dispatch) :
    Renamed view names (first.setDispatch a dispatch) (second.setDispatch b other) :=
  same.setThread named { same.threads named with }

theorem hooked (same : Renamed view names first second) {a b : ThreadId}
    (named : names.threads.maps a b) (module : HookModule) (callback? : Option CallbackId) :
    Renamed view names (first.hooked a module callback?) (second.hooked b module callback?) := by
  cases callback? with
  | none => exact same.setDispatch named _ _
  | some callback => exact same.setThread named { same.threads named with }

end World.Renamed

private theorem sound_commit {world : World σ} (sound : world.Sound) {id : ThreadId}
    (thread : world.names.threads.maps id id) {code : CodeId}
    (unit : world.names.units.maps code code) (module : HookModule) {state : CacheState}
    (known : state.Renamed world.names state) :
    World.Renamed .whole world.names
      ((world.storeCache module code state).setDispatch id .intercept)
      ((world.storeCache module code state).setDispatch id .intercept) :=
  (sound.setExtra unit module.index (.some (.cache known))).setDispatch thread _ _

/-- A truthful request keeps an engine sound. -/
theorem Action.sound_apply {world after : World σ} {action : Action σ} {reply : action.Reply}
    (applied : action.apply world = .ok (reply, after)) (sound : world.Sound)
    (truthful : action.Truthful world.names) :
    ∃ names, world.names.Grows names ∧ after.Renamed .whole names after := by
  have renamed {answers} (alike : action.Renamed .whole world.names action answers) :
      ∃ names, world.names.Grows names ∧ after.Renamed .whole names after := by
    have agrees := sound.apply alike
    rw [applied] at agrees
    cases agrees with
    | ok _ grows same => exact ⟨_, grows, same⟩
  have unchanged (same : after = world) :
      ∃ names, world.names.Grows names ∧ after.Renamed .whole names after := by
    subst same
    exact ⟨_, .refl _, sound⟩
  cases action with
  | edit change =>
    obtain ⟨last, edited⟩ := truthful
    exact renamed (.edit edited)
  | build unit => exact renamed (.build truthful)
  | writeExtra code index value => exact renamed (.writeExtra truthful.1 truthful.2)
  | newInterpreter => exact renamed .newInterpreter
  | requestIndex owner => exact renamed (.requestIndex truthful)
  | newThread owner most => exact renamed (.newThread truthful most)
  | enter thread function arguments => exact renamed (.enter truthful.1 truthful.2.1 truthful.2.2)
  | writeHost state => exact renamed (.writeHost trivial)
  | setDispatch thread chosen =>
    cases applied
    exact ⟨_, .refl _, sound.setDispatch truthful _ _⟩
  | install thread module callback? =>
    cases World.hooked_of_install applied
    exact ⟨_, .refl _, sound.hooked truthful _ _⟩
  | readHeap | readExtra | interpreter | interpreterOf | depth | limit | dispatch | readHost =>
    cases applied
    exact unchanged rfl

namespace Machine

structure Sound (machine : Machine σ α) : Prop where
  world : machine.world.Sound
  control : machine.control.Known machine.world.names
  stack : ∀ activation ∈ machine.stack, activation.Known machine.world.names

def Truthful (machine : Machine σ α) : Prop :=
  match machine.control with
  | .program _ (.perform action _) => action.Truthful machine.world.names
  | .program _ (.launch id entry _) =>
    machine.world.names.threads.maps id id ∧ entry.Known machine.world.names
  | .program role (.done result) => role.Answers machine.world.names result
  | _ => True

private theorem Sound.onto {before : Machine σ α} (sound : before.Sound) {control : Control σ α}
    {stack : List (Activation σ α)} {world : World σ} {names : Renaming}
    (same : world.Renamed .whole names world) (grows : before.world.names.Grows names)
    (above : control.Known names) (within : stack ⊆ before.stack) :
    Sound (⟨control, stack, world⟩ : Machine σ α) := by
  obtain rfl := same.eq_names grows
  exact ⟨same, above, fun activation member =>
    activation_mono (sound.stack activation (within member)) grows.within⟩

private theorem Sound.push {before : Machine σ α} (sound : before.Sound) {control : Control σ α}
    {activation : Activation σ α} (above : control.Known before.world.names)
    (waiting : activation.Known before.world.names) :
    Sound (⟨control, activation :: before.stack, before.world⟩ : Machine σ α) := by
  refine ⟨sound.world, above, fun other member => ?_⟩
  rcases List.mem_cons.mp member with rfl | below
  · exact waiting
  · exact sound.stack other below

private theorem Sound.evolve {before : Machine σ α} (sound : before.Sound) {control : Control σ α}
    {stack : List (Activation σ α)} (above : control.Known before.world.names)
    (within : stack ⊆ before.stack) : Sound (⟨control, stack, before.world⟩ : Machine σ α) :=
  sound.onto sound.world (.refl _) above within

theorem Move.sound {host : Host σ} {before after : Machine σ α} (move : Move host before after)
    (truthful : before.Truthful) (sound : before.Sound) : after.Sound := by
  have same := List.Subset.refl before.stack
  have control := sound.control
  have world := sound.world
  have still := Renaming.Grows.refl before.world.names
  have agrees {id : ThreadId} {frame : Frame} (running : before.control = .run id frame) :
      Frame.Progress.Agrees before.world.names (frame.step before.world.heap)
        (frame.step before.world.heap) := by
    rw [running] at control
    exact control.2.twins.agrees_step world.heap
  cases move with
  | byEngine chosen => exact sound.evolve control same
  | byInterceptor chosen => exact sound.evolve control same
  | byHost chosen => exact sound.evolve trivial same
  | refused full => exact sound.evolve (.error (.own rfl)) same
  | started room => exact sound.onto (world.setDepth control.1 _) still control same
  | skipped installed skip => exact sound.evolve control same
  | @asked id frame stack world module callback installed present wanted =>
    have cached := sound.world.cache control.2.unit module trivial
    exact sound.onto (sound.world.setDispatch control.1 _ _) still
      ⟨control.1, control.2.materialize _, cached⟩ same
  | entered fits =>
    obtain ⟨thread, called, given⟩ := control
    obtain ⟨_, ⟨⟩, called⟩ := called.exists_function
    rcases Frame.enter_renamed world.heap (world.builtins thread) called given with
      ⟨made, made', names, entered, also, both⟩ | ⟨fault, _, failed, _⟩
    · cases fits.symm.trans entered
      cases fits.symm.trans also
      have grows := both.edits.grows
      exact sound.onto (world.edit both.edits) grows
        ⟨grows.within.threads thread, both.fresh.known⟩ same
    · cases fits.symm.trans failed
  | mismatched misfits =>
    obtain ⟨thread, called, given⟩ := control
    obtain ⟨_, ⟨⟩, called⟩ := called.exists_function
    rcases Frame.enter_renamed world.heap (world.builtins thread) called given with
      ⟨made, made', names, entered, also, both⟩ | ⟨fault, own, failed, _⟩
    · cases misfits.symm.trans entered
    · cases misfits.symm.trans failed
      exact sound.evolve (.error (.own own)) same
  | @native id native arguments stack world result own =>
    have answered := Builtin.answer?_renamed sound.world.heap control.2.2 native.routine
    rw [own] at answered
    cases answered with
    | some result => exact sound.evolve result same
  | byNative foreign => exact sound.evolve trivial same
  | uncallable foreign => exact sound.evolve (.error (.own rfl)) same
  | ran progress =>
    have agrees := agrees rfl
    rw [progress] at agrees
    cases agrees with
    | next edited twins =>
      have grows := edited.grows
      exact sound.onto (world.edit edited) grows
        ⟨grows.within.threads control.1,
          control.2.later (.inl ⟨_, progress⟩) grows.within twins⟩ same
  | called progress =>
    have agrees := agrees rfl
    rw [progress] at agrees
    cases agrees with
    | call twins called given =>
      exact sound.push ⟨control.1, called, given⟩
        ⟨control.1, control.2.later (.inr ⟨_, _, progress⟩) (.refl _) twins⟩
  | left progress =>
    have agrees := agrees rfl
    rw [progress] at agrees
    cases agrees with
    | leave result => exact sound.onto (world.leave control.1) still result same
  | @resumed value id frame stack world =>
    have waiting := sound.stack _ List.mem_cons_self
    cases control with
    | ok pushed =>
      exact sound.evolve ⟨waiting.1, waiting.2.twins.push pushed, waiting.2.unit⟩
        (List.subset_cons_self _ _)
  | unwound =>
    have waiting := sound.stack _ List.mem_cons_self
    exact sound.onto (world.leave waiting.1) still control (List.subset_cons_self _ _)
  | replied => exact sound.evolve (sound.stack _ List.mem_cons_self) (List.subset_cons_self _ _)
  | failed => exact sound.evolve (.error truthful) same
  | missed =>
    obtain ⟨thread, held, cached⟩ := control
    exact sound.onto (sound_commit sound.world thread held.unit _ .skip) still ⟨thread, held⟩ same
  | replaced fits =>
    obtain ⟨thread, held, cached⟩ := control
    exact sound.onto (sound_commit sound.world thread held.unit _ (cached.prepend truthful)) still
      ⟨thread, held.shadow sound.world.heap truthful.code (sound.world.builtins thread) fits⟩ same
  | rejected misfits =>
    obtain ⟨thread, held, cached⟩ := control
    exact sound.onto (sound_commit sound.world thread held.unit _ (cached.prepend truthful)) still
      (.error (.own (Frame.own_shadow misfits))) same
  | dispatched => exact sound.evolve truthful same
  | performed applied =>
    obtain ⟨names, grows, after⟩ := Action.sound_apply applied world truthful
    exact sound.onto after grows (role_mono control grows.within) same
  | launched => exact sound.push truthful control

/-- After a truthful request, the rest of the program decides. -/
theorem truthful_of_perform {host : Host σ} {role : Role} {action : Action σ}
    {next : action.Reply → Program σ (role.Result α)} {reply : action.Reply}
    {stack : List (Activation σ α)} {world after : World σ}
    (applied : action.apply world = .ok (reply, after)) (truthful : action.Truthful world.names)
    (later : ∀ machine, Transition.Meets (step host) ⟨.program role (next reply), stack, after⟩ machine →
      machine.Truthful)
    {machine : Machine σ α}
    (met : Transition.Meets (step host) ⟨.program role (.perform action next), stack, world⟩ machine) :
    machine.Truthful := by
  have performs : Move host ⟨.program role (.perform action next), stack, world⟩
      ⟨.program role (next reply), stack, after⟩ := .performed applied
  rcases Transition.Meets.start_or_later performs.step_eq met with rfl | rest
  · cases role <;> exact truthful
  · exact later machine rest

/-- An engine in which there is nothing. -/
private theorem sound_empty (state : σ) : World.Sound { host := state } := by
  have none {a b : Nat} (named : (Naming.identity 0).maps a b) : False := Nat.not_lt_zero a named.2
  constructor
  case heap =>
    constructor
    case sized => exact ⟨⟨rfl, rfl⟩, ⟨rfl, rfl⟩, ⟨rfl, rfl⟩, ⟨rfl, rfl⟩⟩
    all_goals exact fun named => (none named).elim
  case sized => exact ⟨⟨rfl, rfl⟩, ⟨rfl, rfl⟩⟩
  case unbuilt => exact fun index _ => ⟨fun _ _ => rfl, fun _ _ => rfl⟩
  case host => exact trivial
  all_goals exact fun named => (none named).elim

/-- Every engine that is reached from an empty one is sound, when nobody hands anything to it that
refers to something missing. -/
theorem sound_of_met {host : Host σ} {state : σ} {client : Program σ α} {machine : Machine σ α}
    (truthful : ∀ machine, Transition.Meets (step host) (ofProgram { host := state } client) machine →
      machine.Truthful)
    (met : Transition.Meets (step host) (ofProgram { host := state } client) machine) :
    machine.Sound := by
  have kept : ∀ before after,
      Transition.Meets (step host) (ofProgram { host := state } client) before →
      before.Sound → Move host before after → after.Sound :=
    fun before _ met sound move => move.sound (truthful before met) sound
  exact met_keeps kept
    ⟨sound_empty state, trivial, fun _ member => absurd member List.not_mem_nil⟩ met

end Machine

end Interpose
