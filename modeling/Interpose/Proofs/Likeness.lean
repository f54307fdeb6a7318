import Interpose.Proofs.Hooks
import Interpose.Proofs.Widening

/-! Engines that are the same under a renaming, and requests that keep them so. Two requests are the
same when what they name is; they are answered alike, and what is made on both sides belongs together
from then on. -/

namespace Interpose
variable {σ : Type}

/-- Which states of the host are the same, going by the names of things they contain. -/
structure Sharing (σ : Type) where
  related : Renaming → σ → σ → Prop
  mono : ∀ {names wider : Renaming} {state other : σ}, names.Within wider →
    related names state other → related wider state other

/-- What is compared of two engines beside heap, interpreters and threads: the slots at some indices,
and the states of the host. -/
structure View (σ : Type) where
  slots : ExtraIndex → Prop
  shared : Sharing σ

structure Replacement.Renamed (names : Renaming) (replacement other : Replacement) : Prop where
  guard : other.guard = replacement.guard
  code : names.units.maps replacement.code other.code

inductive CacheState.Renamed (names : Renaming) : CacheState → CacheState → Prop
  | empty : Renamed names .empty .empty
  | skip : Renamed names .skip .skip
  | entries {replacements others}
      (same : List.Forall₂ (Replacement.Renamed names) replacements others) :
      Renamed names (.entries replacements) (.entries others)

def ExtraValue.isPlain : ExtraValue → Bool
  | .cache _ => false
  | _ => true

inductive ExtraValue.Renamed (names : Renaming) : ExtraValue → ExtraValue → Prop
  | plain {value} (plain : value.isPlain = true) : Renamed names value value
  | cache {state other} (same : state.Renamed names other) :
      Renamed names (.cache state) (.cache other)

structure Interpreter.Renamed (names : Renaming) (interpreter other : Interpreter) : Prop where
  builtins : names.spaces.maps interpreter.builtins other.builtins
  registry : other.registry = interpreter.registry

/-- Two threads that are the same but for their hooks. -/
structure Thread.Renamed (names : Renaming) (thread other : Thread) : Prop where
  interpreter : names.interpreters.maps thread.interpreter other.interpreter
  depth : other.depth = thread.depth
  limit : other.limit = thread.limit

section
variable {names wider : Renaming}

theorem CacheState.Renamed.mono {state other : CacheState} (same : state.Renamed names other)
    (within : names.Within wider) : state.Renamed wider other := by
  cases same with
  | empty => exact .empty
  | skip => exact .skip
  | entries same =>
    exact .entries (same.imp fun _ _ same => { same with code := within.units same.code })

theorem ExtraValue.Renamed.mono {value other : ExtraValue} (same : value.Renamed names other)
    (within : names.Within wider) : value.Renamed wider other := by
  cases same with
  | plain plain => exact .plain plain
  | cache same => exact .cache (same.mono within)

theorem Interpreter.Renamed.mono {interpreter other : Interpreter}
    (same : interpreter.Renamed names other) (within : names.Within wider) :
    interpreter.Renamed wider other :=
  { same with builtins := within.spaces same.builtins }

theorem Thread.Renamed.mono {thread other : Thread} (same : thread.Renamed names other)
    (within : names.Within wider) : thread.Renamed wider other :=
  { same with interpreter := within.interpreters same.interpreter }

end

abbrev RenamedExtra (names : Renaming) : Option ExtraValue → Option ExtraValue → Prop :=
  Option.Rel (ExtraValue.Renamed names)

theorem renamedExtra_mono {names wider : Renaming} {value other : Option ExtraValue}
    (same : RenamedExtra names value other) (within : names.Within wider) :
    RenamedExtra wider value other := by
  cases same with
  | none => exact .none
  | some same => exact .some (same.mono within)

namespace World

structure Sized (first : World σ) (names : Renaming) (second : World σ) : Prop where
  interpreters : names.interpreters.here = first.interpreters.size ∧
    names.interpreters.there = second.interpreters.size
  threads : names.threads.here = first.threads.size ∧ names.threads.there = second.threads.size

/-- Two engines that are the same under a renaming, as far as the first goes. Their hooks are left
out. -/
structure Renamed (view : View σ) (names : Renaming) (first second : World σ) : Prop where
  heap : first.heap.Matches names second.heap
  sized : first.Sized names second
  interpreters : ∀ {a b}, names.interpreters.maps a b →
    (first.interpreter a).Renamed names (second.interpreter b)
  threads : ∀ {a b}, names.threads.maps a b → (first.thread a).Renamed names (second.thread b)
  slots : ∀ {a b}, names.units.maps a b → ∀ index, view.slots index →
    RenamedExtra names (first.extra a index) (second.extra b index)
  /-- No slot of a unit that is still to be built contains anything. -/
  unbuilt : ∀ index, view.slots index →
    (∀ a, names.units.here ≤ a → first.extra a index = none) ∧
      ∀ b, names.units.there ≤ b → second.extra b index = none
  host : view.shared.related names first.host second.host

namespace Renamed
variable {view : View σ} {names : Renaming} {first second : World σ}

theorem builtins (same : Renamed view names first second) {a b : ThreadId}
    (thread : names.threads.maps a b) :
    names.spaces.maps (first.builtins a) (second.builtins b) :=
  (same.interpreters (same.threads thread).interpreter).builtins

theorem cache (same : Renamed view names first second) {a b : CodeId}
    (named : names.units.maps a b) (module : HookModule) (shown : view.slots module.index) :
    (first.cache module a).Renamed names (second.cache module b) := by
  have extra := same.slots named module.index shown
  unfold World.cache
  generalize first.extra a module.index = value at extra
  generalize second.extra b module.index = other at extra
  cases extra with
  | none => exact .empty
  | @some value other alike =>
    cases alike with
    | cache alike => exact alike
    | plain plain =>
      cases value with
      | cache => cases plain
      | text | number | hosted => exact .empty

theorem edit (same : Renamed view names first second) {edits others : List HeapEdit}
    {after : Renaming} (edited : RenamedEdits names edits others after) :
    Renamed view after (first.edit edits) (second.edit others) := by
  have within := edited.grows.within
  have units := edited.units_eq
  obtain ⟨interpreters, threads⟩ := edited.outside
  constructor
  case heap => exact same.heap.editAll edited
  case sized =>
    constructor
    · rw [interpreters]
      exact same.sized.interpreters
    · rw [threads]
      exact same.sized.threads
  case interpreters =>
    rw [interpreters]
    exact fun named => (same.interpreters named).mono within
  case threads =>
    rw [threads]
    exact fun named => (same.threads named).mono within
  case slots =>
    rw [units]
    exact fun named index shown => renamedExtra_mono (same.slots named index shown) within
  case unbuilt =>
    rw [units]
    exact same.unbuilt
  case host => exact view.shared.mono within same.host

theorem setThread (same : Renamed view names first second) {a b : ThreadId}
    (named : names.threads.maps a b) {thread other : Thread}
    (alike : thread.Renamed names other) :
    Renamed view names (first.setThread a thread) (second.setThread b other) := by
  have threads : names.threads.Rows (Thread.Renamed names) first.threads second.threads :=
    ⟨same.sized.threads, same.threads⟩
  have threads := threads.set named alike
  exact { same with
    sized := { same.sized with threads := threads.size }
    threads := threads.get }

theorem setDepth (same : Renamed view names first second) {a b : ThreadId}
    (named : names.threads.maps a b) (depth : Nat) :
    Renamed view names (first.setThread a { first.thread a with depth })
      (second.setThread b { second.thread b with depth }) :=
  same.setThread named { same.threads named with depth := rfl }

theorem leave (same : Renamed view names first second) {a b : ThreadId}
    (named : names.threads.maps a b) :
    Renamed view names (Machine.leave first a) (Machine.leave second b) := by
  rw [Machine.leave, Machine.leave, (same.threads named).depth]
  exact same.setDepth named _

theorem setExtra (same : Renamed view names first second) {a b : CodeId}
    (named : names.units.maps a b) (index : ExtraIndex) {value other : Option ExtraValue}
    (written : RenamedExtra names value other) :
    Renamed view names (first.setExtra a index value) (second.setExtra b index other) := by
  have inside := names.units.bound named
  constructor
  case heap => exact same.heap
  case sized => exact ⟨same.sized.interpreters, same.sized.threads⟩
  case interpreters => exact same.interpreters
  case threads => exact same.threads
  case slots =>
    intro c d also place shown
    simp only [extra_setExtra, names.units.oneToOne also named]
    split
    · exact written
    · exact same.slots also place shown
  case unbuilt =>
    intro place shown
    constructor
    · intro c later
      have apart : ¬(c = a ∧ place = index) := fun here =>
        Nat.ne_of_gt (Nat.lt_of_lt_of_le inside.1 later) here.1
      rw [extra_setExtra, if_neg apart]
      exact (same.unbuilt place shown).1 c later
    · intro d later
      have apart : ¬(d = b ∧ place = index) := fun there =>
        Nat.ne_of_gt (Nat.lt_of_lt_of_le inside.2 later) there.1
      rw [extra_setExtra, if_neg apart]
      exact (same.unbuilt place shown).2 d later
  case host => exact same.host

theorem addUnit (same : Renamed view names first second) {unit other : Blueprint}
    (alike : unit.Renamed names other) (checked : unit.Checked) :
    Renamed view names.addUnit { first with heap := first.heap.addCode unit }
      { second with heap := second.heap.addCode other } := by
  have within := names.grows_addUnit.within
  constructor
  case heap => exact same.heap.addCode alike checked
  case sized => exact ⟨same.sized.interpreters, same.sized.threads⟩
  case interpreters => exact fun named => (same.interpreters named).mono within
  case threads => exact fun named => (same.threads named).mono within
  case slots =>
    intro a b named index shown
    rcases Naming.maps_extend_one named with ⟨old, _, _⟩ | ⟨rfl, rfl⟩
    · exact renamedExtra_mono (same.slots old index shown) within
    · have empty := same.unbuilt index shown
      have here : first.extra names.units.here index = none := empty.1 _ (Nat.le_refl _)
      have there : second.extra names.units.there index = none := empty.2 _ (Nat.le_refl _)
      simp only [extra] at here there ⊢
      rw [here, there]
      exact .none
  case unbuilt =>
    intro index shown
    have empty := same.unbuilt index shown
    exact ⟨fun a later => empty.1 a (Nat.le_of_succ_le later),
      fun b later => empty.2 b (Nat.le_of_succ_le later)⟩
  case host => exact view.shared.mono within same.host

private theorem builtins_bound {space other : NamespaceId} (named : names.spaces.maps space other)
    (natives : List Native) :
    RenamedEdits names (natives.map fun native => .bind space native.name (.native native))
      (natives.map fun native => .bind other native.name (.native native)) names := by
  induction natives with
  | nil => exact .nil names
  | cons native rest ih => exact .cons (.bind named (.plain rfl)) ih

private theorem pushInterpreter (same : Renamed view names first second)
    {interpreter other : Interpreter} (alike : interpreter.Renamed names other) :
    Renamed view names.addInterpreter
      { first with interpreters := first.interpreters.push interpreter }
      { second with interpreters := second.interpreters.push other } := by
  have within := names.grows_addInterpreter.within
  have interpreters : names.interpreters.Rows (Interpreter.Renamed names.addInterpreter)
      first.interpreters second.interpreters :=
    ⟨same.sized.interpreters, fun named => (same.interpreters named).mono within⟩
  have interpreters := interpreters.push (alike.mono within)
  constructor
  case heap => exact same.heap.renumber within
  case sized => exact { same.sized with interpreters := interpreters.size }
  case interpreters => exact interpreters.get
  case threads => exact fun named => (same.threads named).mono within
  case slots => exact fun named index shown => renamedExtra_mono (same.slots named index shown) within
  case unbuilt => exact same.unbuilt
  case host => exact view.shared.mono within same.host

theorem addInterpreter (same : Renamed view names first second) :
    Renamed view names.addSpace.addInterpreter first.addInterpreter second.addInterpreter := by
  have named : names.addSpace.spaces.maps first.heap.freshNamespace second.heap.freshNamespace := by
    rw [Heap.freshNamespace, Heap.freshNamespace, ← same.heap.sized.spaces.1,
      ← same.heap.sized.spaces.2]
    exact names.spaces.maps_next
  have alike : Interpreter.Renamed names.addSpace { builtins := first.heap.freshNamespace }
      { builtins := second.heap.freshNamespace } := ⟨named, rfl⟩
  have edits := RenamedEdits.cons .newNamespace (builtins_bound named Builtin.table)
  have pushed := (same.edit edits).pushInterpreter alike
  simpa only [World.addInterpreter, World.edit] using pushed

theorem addThread (same : Renamed view names first second) {owner other : InterpreterId}
    (named : names.interpreters.maps owner other) (most : Nat) :
    Renamed view names.addThread
      { first with threads := first.threads.push { interpreter := owner, limit := most } }
      { second with threads := second.threads.push { interpreter := other, limit := most } } := by
  have within := names.grows_addThread.within
  have alike : Thread.Renamed names.addThread { interpreter := owner, limit := most }
      { interpreter := other, limit := most } := ⟨named, rfl, rfl⟩
  have threads : names.threads.Rows (Thread.Renamed names.addThread) first.threads
      second.threads :=
    ⟨same.sized.threads, fun named => (same.threads named).mono within⟩
  have threads := threads.push alike
  constructor
  case heap => exact same.heap.renumber within
  case sized => exact { same.sized with threads := threads.size }
  case interpreters => exact fun named => (same.interpreters named).mono within
  case threads => exact threads.get
  case slots => exact fun named index shown => renamedExtra_mono (same.slots named index shown) within
  case unbuilt => exact same.unbuilt
  case host => exact view.shared.mono within same.host

/-- Two interpreters that are the same hand out the same index. -/
theorem requestIndex (same : Renamed view names first second) {a b : InterpreterId}
    (named : names.interpreters.maps a b) :
    (second.requestIndex b).1 = (first.requestIndex a).1 ∧
      Renamed view names (first.requestIndex a).2 (second.requestIndex b).2 := by
  have alike := same.interpreters named
  simp only [World.requestIndex, alike.registry]
  cases (first.interpreter a).registry.request with
  | error fault => exact ⟨rfl, same⟩
  | ok made =>
    obtain ⟨index, registry⟩ := made
    have handed : Interpreter.Renamed names { first.interpreter a with registry }
        { second.interpreter b with registry } := ⟨alike.builtins, rfl⟩
    have interpreters : names.interpreters.Rows (Interpreter.Renamed names) first.interpreters
        second.interpreters := ⟨same.sized.interpreters, same.interpreters⟩
    have interpreters := interpreters.set named handed
    exact ⟨rfl, { same with
      sized := { same.sized with interpreters := interpreters.size }
      interpreters := interpreters.get }⟩

end Renamed

end World

theorem Value.Renamed.isCallable_eq {names : Renaming} {value other : Value}
    (same : value.Renamed names other) : other.isCallable = value.isCallable := by
  cases same <;> rfl

theorem Builtin.answer?_renamed {names : Renaming} {heap other : Heap}
    (matched : heap.Matches names other) {arguments others : List Value}
    (given : List.Forall₂ (Value.Renamed names) arguments others) (routine : Routine) :
    Option.Rel (RenamedResult names) (answer? heap arguments routine)
      (answer? other others routine) := by
  cases routine with
  | abs =>
    rw [answer?, answer?, abs_renamed given]
    exact .some ((plain_abs arguments).renamed names)
  | len =>
    rw [answer?, answer?, len_renamed given]
    exact .some ((plain_len arguments).renamed names)
  | max => exact .some (max_renamed given)
  | str =>
    rw [answer?, answer?, matched.str_eq given]
    exact .some ((plain_str heap arguments).renamed names)
  | hosted index => exact .none

inductive RenamedUnit (names : Renaming) :
    Renaming → Except BuildFault CodeId → Except BuildFault CodeId → Prop
  | ok {a b} (same : names.addUnit.units.maps a b) : RenamedUnit names names.addUnit (.ok a) (.ok b)
  | error (fault : BuildFault) : RenamedUnit names names (.error fault) (.error fault)

inductive RenamedFrame (names : Renaming) :
    Renaming → Except Fault Frame → Except Fault Frame → Prop
  | ok {after frame other} (grows : names.Grows after) (fresh : Frame.Fresh after frame other) :
      RenamedFrame names after (.ok frame) (.ok other)
  | error {fault} (own : fault.isRaised = false) :
      RenamedFrame names names (.error fault) (.error fault)

/-- Two requests that are the same, with the replies to them that are and the renaming afterwards. A
hidden slot is read by none of them, and hooks are neither read nor changed. -/
inductive Action.Renamed (view : View σ) (names : Renaming) :
    (action other : Action σ) → (Renaming → action.Reply → other.Reply → Prop) → Prop
  | readHeap : Renamed view names .readHeap .readHeap
      fun after heap other => after = names ∧ heap.Matches names other
  | edit {change other last} (same : change.Renamed names other last) :
      Renamed view names (.edit change) (.edit other) fun after _ _ => after = last
  | build {unit other} (same : unit.Renamed names other) :
      Renamed view names (.build unit) (.build other) (RenamedUnit names)
  | readExtra {a b index} (same : names.units.maps a b) (shown : view.slots index) :
      Renamed view names (.readExtra a index) (.readExtra b index)
        fun after value other => after = names ∧ RenamedExtra names value other
  | writeExtra {a b index value other} (same : names.units.maps a b)
      (written : RenamedExtra names value other) :
      Renamed view names (.writeExtra a index value) (.writeExtra b index other)
        fun after _ _ => after = names
  | newInterpreter : Renamed view names .newInterpreter .newInterpreter
      fun after a b => after = names.addSpace.addInterpreter ∧ after.interpreters.maps a b
  | interpreter {a b} (same : names.interpreters.maps a b) :
      Renamed view names (.interpreter a) (.interpreter b)
        fun after interpreter other => after = names ∧ interpreter.Renamed names other
  | requestIndex {a b} (same : names.interpreters.maps a b) :
      Renamed view names (.requestIndex a) (.requestIndex b)
        fun after index other => after = names ∧ other = index
  | newThread {a b} (same : names.interpreters.maps a b) (most : Nat) :
      Renamed view names (.newThread a most) (.newThread b most)
        fun after a b => after = names.addThread ∧ after.threads.maps a b
  | interpreterOf {a b} (same : names.threads.maps a b) :
      Renamed view names (.interpreterOf a) (.interpreterOf b)
        fun after a b => after = names ∧ names.interpreters.maps a b
  | depth {a b} (same : names.threads.maps a b) :
      Renamed view names (.depth a) (.depth b) fun after depth other => after = names ∧ other = depth
  | limit {a b} (same : names.threads.maps a b) :
      Renamed view names (.limit a) (.limit b) fun after limit other => after = names ∧ other = limit
  | enter {a b function other arguments others} (same : names.threads.maps a b)
      (called : function.Renamed names other)
      (given : List.Forall₂ (Value.Renamed names) arguments others) :
      Renamed view names (.enter a function arguments) (.enter b other others) (RenamedFrame names)
  | readHost : Renamed view names .readHost .readHost
      fun after state other => after = names ∧ view.shared.related names state other
  | writeHost {state other} (same : view.shared.related names state other) :
      Renamed view names (.writeHost state) (.writeHost other) fun after _ _ => after = names

inductive Action.Agrees (view : View σ) (names : Renaming) {β γ : Type}
    (answers : Renaming → β → γ → Prop) :
    Except Fatal (β × World σ) → Except Fatal (γ × World σ) → Prop
  | ok {wider reply answer first second} (answered : answers wider reply answer)
      (grows : names.Grows wider) (same : World.Renamed view wider first second) :
      Agrees view names answers (.ok (reply, first)) (.ok (answer, second))

section
variable {view : View σ} {names : Renaming} {first second : World σ}

private theorem agrees_build (same : World.Renamed view names first second) {unit other : Blueprint}
    (alike : unit.Renamed names other) :
    Action.Agrees view names (RenamedUnit names) (Action.apply first (.build unit))
      (Action.apply second (.build other)) := by
  simp only [Action.apply, World.build]
  rcases alike.build with ⟨built, also⟩ | ⟨fault, failed, also⟩
  · have checked := Blueprint.of_build built
    have made : names.addUnit.units.maps first.heap.codes.size second.heap.codes.size := by
      rw [← same.heap.sized.units.1, ← same.heap.sized.units.2]
      exact names.units.maps_next
    rw [built, also]
    exact .ok (.ok made) names.grows_addUnit (same.addUnit alike ⟨checked.2.1, checked.2.2⟩)
  · rw [failed, also]
    exact .ok (.error fault) (.refl names) same

private theorem agrees_enter (same : World.Renamed view names first second) {a b : ThreadId}
    (named : names.threads.maps a b) {function other : Function} {arguments others : List Value}
    (called : function.Renamed names other)
    (given : List.Forall₂ (Value.Renamed names) arguments others) :
    Action.Agrees view names (RenamedFrame names) (Action.apply first (.enter a function arguments))
      (Action.apply second (.enter b other others)) := by
  simp only [Action.apply, World.enter]
  rcases Frame.enter_renamed same.heap (same.builtins named) called given with
    ⟨made, made', after, entered, also, both⟩ | ⟨fault, own, failed, also⟩
  · have grows := both.edits.grows
    rw [entered, also]
    exact .ok (.ok grows both.fresh) grows (same.edit both.edits)
  · rw [failed, also]
    exact .ok (.error own) (.refl names) same

/-- Requests that are the same keep engines the same. -/
theorem World.Renamed.apply (same : World.Renamed view names first second) {action other : Action σ}
    {answers : Renaming → action.Reply → other.Reply → Prop}
    (alike : action.Renamed view names other answers) :
    Action.Agrees view names answers (action.apply first) (other.apply second) := by
  have still := Renaming.Grows.refl names
  have sized := same.sized
  cases alike with
  | readHeap => exact .ok ⟨rfl, same.heap⟩ still same
  | edit edited => exact .ok rfl edited.grows (same.edit (.single edited))
  | build alike => exact agrees_build same alike
  | @readExtra a b index named shown => exact .ok ⟨rfl, same.slots named index shown⟩ still same
  | writeExtra named written => exact .ok rfl still (same.setExtra named _ written)
  | newInterpreter =>
    refine .ok ⟨rfl, ?_⟩ (names.grows_addSpace.trans (names.addSpace.grows_addInterpreter))
      same.addInterpreter
    rw [← sized.interpreters.1, ← sized.interpreters.2]
    exact names.interpreters.maps_next
  | interpreter named => exact .ok ⟨rfl, same.interpreters named⟩ still same
  | requestIndex named =>
    obtain ⟨answered, after⟩ := same.requestIndex named
    exact .ok ⟨rfl, answered⟩ still after
  | newThread named most =>
    refine .ok ⟨rfl, ?_⟩ names.grows_addThread (same.addThread named most)
    rw [← sized.threads.1, ← sized.threads.2]
    exact names.threads.maps_next
  | interpreterOf named => exact .ok ⟨rfl, (same.threads named).interpreter⟩ still same
  | depth named => exact .ok ⟨rfl, (same.threads named).depth⟩ still same
  | limit named => exact .ok ⟨rfl, (same.threads named).limit⟩ still same
  | enter named called given => exact agrees_enter same named called given
  | readHost => exact .ok ⟨rfl, same.host⟩ still same
  | writeHost alike =>
    exact .ok rfl still ⟨same.heap, ⟨sized.interpreters, sized.threads⟩, same.interpreters,
      same.threads, same.slots, same.unbuilt, alike⟩

theorem Action.Renamed.redirects_eq {action other : Action σ}
    {answers : Renaming → action.Reply → other.Reply → Prop}
    (alike : action.Renamed view names other answers) :
    action.redirects = false ∧ other.redirects = false := by
  cases alike <;> exact ⟨rfl, rfl⟩

end

inductive Entry.Renamed (names : Renaming) : Entry → Entry → Prop
  | call {callee other arguments others} (called : callee.Renamed names other)
      (given : List.Forall₂ (Value.Renamed names) arguments others) :
      Renamed names (.call callee arguments) (.call other others)
  | dispatch {frame other} (twins : Frame.Twins names frame other) :
      Renamed names (.dispatch frame) (.dispatch other)
  | evaluate {frame other} (twins : Frame.Twins names frame other) :
      Renamed names (.evaluate frame) (.evaluate other)

/-- Two programs that make the same requests, whatever they were answered before, and end with the
same result. They run code on no threads but new ones, which have this number or a greater one. -/
inductive Program.Renamed (view : View σ) (fresh : ThreadId) :
    Renaming → Program σ (Except Fault Value) → Program σ (Except Fault Value) → Prop
  | done {names result other} (same : RenamedResult names result other) :
      Renamed view fresh names (.done result) (.done other)
  | perform {names action other answers rest others} (same : action.Renamed view names other answers)
      (goes : ∀ after reply answer, names.Within after → answers after reply answer →
        Renamed view fresh after (rest reply) (others answer)) :
      Renamed view fresh names (.perform action rest) (.perform other others)
  | launch {names a b entry other rest others} (new : fresh ≤ a) (same : names.threads.maps a b)
      (entered : entry.Renamed names other)
      (goes : ∀ after result answer, names.Within after → RenamedResult after result answer →
        Renamed view fresh after (rest result) (others answer)) :
      Renamed view fresh names (.launch a entry rest) (.launch b other others)

theorem Program.Renamed.lower {view : View σ} {fresh lower : ThreadId} {names : Renaming}
    {program other : Program σ (Except Fault Value)}
    (same : Program.Renamed view fresh names program other) (less : lower ≤ fresh) :
    Program.Renamed view lower names program other := by
  induction same with
  | done same => exact .done same
  | perform same _ ih => exact .perform same ih
  | launch new same entered _ ih => exact .launch (Nat.le_trans less new) same entered ih

/-- Given the same, the native functions of the host do the same. So they read no hidden slot, leave
hooks alone, and run code on no threads but such as were made since they were called. All else is open
to them: they may write any slot, change the heap, build units and keep a state. -/
def Host.Discreet (host : Host σ) (view : View σ) : Prop :=
  ∀ index (names : Renaming) {arguments others : List Value},
    List.Forall₂ (Value.Renamed names) arguments others →
    Program.Renamed view names.threads.here names (host.native index arguments)
      (host.native index others)

end Interpose
