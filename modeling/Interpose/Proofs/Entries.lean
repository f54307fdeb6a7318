import Mathlib.Data.List.Forall2
import Interpose.Proofs.Conduct
import Interpose.Proofs.Worlds

/-! The engine looks at no entry of a cache. What it knows of a unit is whether to leave it alone and
how many replacements there are; so engines that differ in their entries run in lockstep, and what
runs in place of a frame is what its own callback gave. -/

namespace Interpose
variable {σ α : Type}

namespace CacheState

/-- Two caches that say the same about a unit, whatever their entries are. -/
structure Resembles (first second : CacheState) : Prop where
  skip : second.isSkip = first.isSkip
  length : second.length = first.length

theorem Resembles.refl (state : CacheState) : state.Resembles state := ⟨rfl, rfl⟩

theorem Resembles.prepend {first second : CacheState} (alike : first.Resembles second)
    (replacement another : Replacement) :
    (first.prepend replacement).Resembles (second.prepend another) where
  skip := rfl
  length := by rw [length_prepend, length_prepend, alike.length]

/-- Two caches that were read from slots at an index, where only hidden slots may have different
entries. -/
structure Matches (hidden : ExtraIndex → Prop) (index : ExtraIndex) (first second : CacheState) :
    Prop where
  resembles : first.Resembles second
  shown : ¬ hidden index → second = first

theorem Matches.refl (hidden : ExtraIndex → Prop) (index : ExtraIndex) (state : CacheState) :
    state.Matches hidden index state :=
  ⟨.refl state, fun _ => rfl⟩

theorem Matches.prepend {hidden : ExtraIndex → Prop} {index : ExtraIndex}
    {first second : CacheState} (alike : first.Matches hidden index second)
    (replacement : Replacement) :
    (first.prepend replacement).Matches hidden index (second.prepend replacement) :=
  ⟨alike.resembles.prepend replacement replacement, fun plain => by rw [alike.shown plain]⟩

end CacheState

namespace World

/-- Two engines that differ in nothing but the entries of caches in hidden slots. -/
structure Resembles (hidden : ExtraIndex → Prop) (first second : World σ) : Prop where
  heap : second.heap = first.heap
  interpreters : second.interpreters = first.interpreters
  threads : second.threads = first.threads
  host : second.host = first.host
  extras : ∀ code index, ¬ hidden index → second.extra code index = first.extra code index
  caches : ∀ module code, hidden module.index →
    (first.cache module code).Resembles (second.cache module code)

namespace Resembles
variable {hidden : ExtraIndex → Prop} {first second : World σ}

theorem refl (hidden : ExtraIndex → Prop) (world : World σ) : Resembles hidden world world :=
  ⟨rfl, rfl, rfl, rfl, fun _ _ _ => rfl, fun _ _ _ => .refl _⟩

theorem cache (alike : Resembles hidden first second) (module : HookModule) (code : CodeId) :
    (first.cache module code).Matches hidden module.index (second.cache module code) := by
  have shown (plain : ¬ hidden module.index) :
      second.cache module code = first.cache module code := by
    rw [World.cache, World.cache, alike.extras code module.index plain]
  refine ⟨?_, shown⟩
  by_cases covered : hidden module.index
  · exact alike.caches module code covered
  · rw [shown covered]
    exact .refl _

/-- Engines that resemble each other are one but for their extra slots. -/
theorem eq_withExtras (alike : Resembles hidden first second) :
    second = { first with extras := second.extras } := by
  obtain ⟨heap, extras, interpreters, threads, host⟩ := first
  obtain ⟨_, others, _, _, _⟩ := second
  obtain ⟨rfl, rfl, rfl, rfl, _, _⟩ := alike
  rfl

/-- Changes elsewhere, made in both engines, leave them alike. -/
theorem congr {after other : World σ} (alike : Resembles hidden first second)
    (same : other = { after with extras := other.extras })
    (kept : after.extras = first.extras) (alsoKept : other.extras = second.extras) :
    Resembles hidden after other where
  heap := by rw [same]
  interpreters := by rw [same]
  threads := by rw [same]
  host := by rw [same]
  extras code index plain := by
    have former := alike.extras code index plain
    simpa only [World.extra, kept, alsoKept] using former
  caches module code covered := by
    have former := alike.caches module code covered
    simpa only [World.cache, World.extra, kept, alsoKept] using former

theorem setExtra (alike : Resembles hidden first second) (code : CodeId) (index : ExtraIndex)
    (value : Option ExtraValue) :
    Resembles hidden (first.setExtra code index value) (second.setExtra code index value) where
  heap := alike.heap
  interpreters := alike.interpreters
  threads := alike.threads
  host := alike.host
  extras other place plain := by
    rw [extra_setExtra, extra_setExtra, alike.extras other place plain]
  caches module other covered := by
    simp only [World.cache, extra_setExtra]
    split
    next => exact .refl _
    next => exact alike.caches module other covered

theorem storeCache {state other : CacheState} (alike : Resembles hidden first second)
    (module : HookModule) (code : CodeId) (stored : state.Resembles other)
    (shown : ¬ hidden module.index → other = state) :
    Resembles hidden (first.storeCache module code state) (second.storeCache module code other) where
  heap := alike.heap
  interpreters := alike.interpreters
  threads := alike.threads
  host := alike.host
  extras unit index plain := by
    simp only [World.storeCache, extra_setExtra]
    split
    next same =>
      rw [shown (same.2 ▸ plain)]
    next => exact alike.extras unit index plain
  caches place unit covered := by
    simp only [cache_storeCache]
    split
    next => exact stored
    next => exact alike.caches place unit covered

theorem setDispatch (alike : Resembles hidden first second) (id : ThreadId)
    (dispatch : Dispatch) :
    Resembles hidden (first.setDispatch id dispatch) (second.setDispatch id dispatch) := by
  have same := alike.eq_withExtras
  generalize second.extras = extras at same
  subst same
  exact alike.congr rfl rfl rfl

theorem addInterpreter (alike : Resembles hidden first second) :
    Resembles hidden first.addInterpreter second.addInterpreter where
  heap := by rw [heap_addInterpreter, heap_addInterpreter, alike.heap]
  interpreters := by simp only [World.addInterpreter, alike.interpreters, alike.heap]
  threads := by rw [threads_addInterpreter, threads_addInterpreter, alike.threads]
  host := by simpa only [World.addInterpreter, World.edit] using alike.host
  extras code index plain := by
    have former := alike.extras code index plain
    simpa only [World.extra, extras_addInterpreter] using former
  caches module code covered := by
    have former := alike.caches module code covered
    simpa only [World.cache, World.extra, extras_addInterpreter] using former

theorem builtins (alike : Resembles hidden first second) (id : ThreadId) :
    second.builtins id = first.builtins id := by
  simp only [World.builtins, World.interpreter, World.thread, alike.interpreters, alike.threads]

end Resembles

end World

section requests
variable {hidden : ExtraIndex → Prop} {first second : World σ} {action : Action σ}

/-- A request that does not read a hidden slot is answered alike. -/
theorem Action.resembles_apply {after : World σ} {reply : action.Reply}
    (alike : World.Resembles hidden first second)
    (unread : ∀ code index, action = .readExtra code index → ¬ hidden index)
    (applied : action.apply first = .ok (reply, after)) :
    ∃ other, action.apply second = .ok (reply, other) ∧ World.Resembles hidden after other := by
  have same := alike.eq_withExtras
  generalize second.extras = extras at same
  subst same
  cases action with
  | readExtra code index =>
    cases applied
    refine ⟨_, ?_, alike⟩
    rw [apply, alike.extras code index (unread code index rfl)]
  | newInterpreter =>
    cases applied
    exact ⟨_, rfl, alike.addInterpreter⟩
  | writeExtra code index value =>
    cases applied
    exact ⟨_, rfl, alike.setExtra code index value⟩
  | build unit =>
    simp only [apply, World.build] at applied ⊢
    split at applied <;> cases applied
    · exact ⟨_, rfl, alike.congr rfl rfl rfl⟩
    · exact ⟨_, rfl, alike⟩
  | requestIndex owner =>
    simp only [apply, World.requestIndex, World.interpreter] at applied ⊢
    split at applied <;> cases applied
    · exact ⟨_, rfl, alike.congr rfl rfl rfl⟩
    · exact ⟨_, rfl, alike⟩
  | enter thread function arguments =>
    simp only [apply, World.enter, alike.builtins] at applied ⊢
    split at applied <;> cases applied
    · exact ⟨_, rfl, alike.congr rfl rfl rfl⟩
    · exact ⟨_, rfl, alike⟩
  | install thread module callback? =>
    simp only [apply, World.install, World.thread] at applied ⊢
    split at applied <;> cases applied <;> exact ⟨_, rfl, alike.congr rfl rfl rfl⟩
  | _ =>
    cases applied
    exact ⟨_, rfl, alike.congr rfl rfl rfl⟩

theorem Action.resembles_refused {cause : Fatal} (alike : World.Resembles hidden first second)
    (refused : action.apply first = .error cause) : action.apply second = .error cause := by
  cases action with
  | install thread module callback? =>
    have same : second.thread thread = first.thread thread :=
      congrArg (Table.get · thread) alike.threads
    simp only [apply, World.install] at refused ⊢
    rw [same]
    split at refused <;> cases refused
    rfl
  | _ => cases refused

end requests

inductive Control.Resembles (hidden : ExtraIndex → Prop) : Control σ α → Control σ α → Prop
  | same (control : Control σ α) : Resembles hidden control control
  | consulted {id frame module cached other body}
      (alike : CacheState.Matches hidden module.index cached other) :
      Resembles hidden (.program (.consulted id frame module cached) body)
        (.program (.consulted id frame module other) body)

inductive Activation.Resembles (hidden : ExtraIndex → Prop) :
    Activation σ α → Activation σ α → Prop
  | same (activation : Activation σ α) : Resembles hidden activation activation
  | consulted {id frame module cached other next}
      (alike : CacheState.Matches hidden module.index cached other) :
      Resembles hidden (.program (.consulted id frame module cached) next)
        (.program (.consulted id frame module other) next)

inductive Outcome.Resembles (hidden : ExtraIndex → Prop) : Outcome σ α → Outcome σ α → Prop
  | finished {result first second} (alike : World.Resembles hidden first second) :
      Resembles hidden (.finished result first) (.finished result second)
  | given {result first second} (alike : World.Resembles hidden first second) :
      Resembles hidden (.given result first) (.given result second)
  | fatal (cause : Fatal) : Resembles hidden (.fatal cause) (.fatal cause)
  | broken : Resembles hidden .broken .broken

namespace Machine

structure Resembles (hidden : ExtraIndex → Prop) (first second : Machine σ α) : Prop where
  control : first.control.Resembles hidden second.control
  stack : List.Forall₂ (Activation.Resembles hidden) first.stack second.stack
  world : World.Resembles hidden first.world second.world

inductive Agree (hidden : ExtraIndex → Prop) :
    Transition (Machine σ α) (Outcome σ α) → Transition (Machine σ α) (Outcome σ α) → Prop
  | next {first second} (alike : Resembles hidden first second) :
      Agree hidden (.next first) (.next second)
  | halt {first second} (alike : Outcome.Resembles hidden first second) :
      Agree hidden (.halt first) (.halt second)

/-- The next step reads no hidden slot, whoever takes it: the client, a callback, or a dispatch or a
native function of the host. -/
def Unread (hidden : ExtraIndex → Prop) (machine : Machine σ α) : Prop :=
  ∀ code index, machine.action? = some (.readExtra code index) → ¬ hidden index

variable {host : Host σ} {hidden : ExtraIndex → Prop} {first second : Machine σ α}

theorem Resembles.event?_eq (alike : Resembles hidden first second) :
    second.event? = first.event? := by
  obtain ⟨control, stack, world⟩ := first
  obtain ⟨_, _, other⟩ := second
  obtain ⟨above, _, worlds⟩ := alike
  have threads (id : ThreadId) : other.thread id = world.thread id :=
    congrArg (Table.get · id) worlds.threads
  have heap : other.heap = world.heap := worlds.heap
  cases above with
  | @consulted id frame module cached known body alike => cases body <;> rfl
  | same =>
    match control with
    | .enter id (.intercept frame) =>
      have skip module := (worlds.cache module frame.code.id).resembles.skip
      have length module := (worlds.cache module frame.code.id).resembles.length
      simp only [event?, threads, heap, skip, length]
    | .enter id (.dispatch frame) => simp only [event?, threads]
    | .enter id (.evaluate frame) | .enter id (.call callee arguments) | .run id frame
    | .give result => rfl
    | .program role body => cases role <;> cases body <;> rfl

private theorem consulted_of_resembles {id : ThreadId} {frame : Frame} {module : HookModule}
    {cached : CacheState} {body : Program σ (Except Fault (Option Replacement))}
    {control : Control σ α}
    (above : Control.Resembles hidden (.program (.consulted id frame module cached) body) control) :
    ∃ other, control = .program (.consulted id frame module other) body ∧
      cached.Matches hidden module.index other := by
  cases above with
  | same => exact ⟨cached, rfl, .refl hidden module.index cached⟩
  | consulted alike => exact ⟨_, rfl, alike⟩

/-- The next step of two machines that resemble each other is the same. -/
theorem Resembles.move {after : Machine σ α} (alike : Resembles hidden first second)
    (unread : first.Unread hidden) (move : Move host first after) :
    ∃ following, Move host second following ∧ Resembles hidden after following := by
  obtain ⟨_, below, other⟩ := second
  obtain ⟨above, stack, worlds⟩ := alike
  have same := worlds.eq_withExtras
  generalize other.extras = extras at same
  subst same
  cases move with
  | byEngine chosen =>
    cases above
    exact ⟨_, .byEngine chosen, .same _, stack, worlds⟩
  | byInterceptor chosen =>
    cases above
    exact ⟨_, .byInterceptor chosen, .same _, stack, worlds⟩
  | byHost chosen =>
    cases above
    exact ⟨_, .byHost chosen, .same _, stack, worlds⟩
  | refused full =>
    cases above
    exact ⟨_, .refused full, .same _, stack, worlds⟩
  | started room =>
    cases above
    exact ⟨_, .started room, .same _, stack, worlds.congr rfl rfl rfl⟩
  | @skipped id frame _ _ module installed skip =>
    cases above
    have cached := worlds.cache module frame.code.id
    exact ⟨_, .skipped installed (cached.resembles.skip.trans skip), .same _, stack, worlds⟩
  | @asked id frame _ world module callback installed present wanted =>
    cases above
    have cached := worlds.cache module frame.code.id
    refine ⟨_, .asked installed present (cached.resembles.skip.trans wanted), ?_, stack,
      worlds.setDispatch id .default⟩
    rw [cached.resembles.length]
    exact .consulted cached
  | entered fits =>
    cases above
    refine ⟨_, .entered ?_, .same _, stack, worlds.congr rfl rfl rfl⟩
    rw [worlds.builtins]
    exact fits
  | mismatched misfits =>
    cases above
    refine ⟨_, .mismatched ?_, .same _, stack, worlds⟩
    rw [worlds.builtins]
    exact misfits
  | native own =>
    cases above
    exact ⟨_, .native own, .same _, stack, worlds⟩
  | byNative foreign =>
    cases above
    exact ⟨_, .byNative foreign, .same _, stack, worlds⟩
  | uncallable foreign =>
    cases above
    exact ⟨_, .uncallable foreign, .same _, stack, worlds⟩
  | ran progress =>
    cases above
    exact ⟨_, .ran progress, .same _, stack, worlds.congr rfl rfl rfl⟩
  | called progress =>
    cases above
    exact ⟨_, .called progress, .same _, .cons (.same _) stack, worlds⟩
  | left progress =>
    cases above
    exact ⟨_, .left progress, .same _, stack, worlds.congr rfl rfl rfl⟩
  | resumed =>
    cases above
    cases stack with
    | cons top stack =>
      cases top
      exact ⟨_, .resumed, .same _, stack, worlds⟩
  | unwound =>
    cases above
    cases stack with
    | cons top stack =>
      cases top
      exact ⟨_, .unwound, .same _, stack, worlds.congr rfl rfl rfl⟩
  | replied =>
    cases above
    cases stack with
    | cons top stack =>
      cases top with
      | same => exact ⟨_, .replied, .same _, stack, worlds⟩
      | consulted cached => exact ⟨_, .replied, .consulted cached, stack, worlds⟩
  | failed =>
    cases above <;> exact ⟨_, .failed, .same _, stack, worlds⟩
  | @missed id frame module =>
    obtain ⟨_, rfl, cached⟩ := consulted_of_resembles above
    have stored := worlds.storeCache module frame.code.id (.refl .skip) fun _ => rfl
    exact ⟨_, .missed, .same _, stack, stored.setDispatch id .intercept⟩
  | @replaced id frame module _ replacement _ _ _ fits =>
    obtain ⟨_, rfl, cached⟩ := consulted_of_resembles above
    have grown := cached.prepend replacement
    have stored := worlds.storeCache module frame.code.id grown.resembles grown.shown
    refine ⟨_, .replaced ?_, .same _, stack, stored.setDispatch id .intercept⟩
    rw [worlds.builtins]
    exact fits
  | @rejected id frame module _ replacement _ _ _ misfits =>
    obtain ⟨_, rfl, cached⟩ := consulted_of_resembles above
    have grown := cached.prepend replacement
    have stored := worlds.storeCache module frame.code.id grown.resembles grown.shown
    refine ⟨_, .rejected ?_, .same _, stack, stored.setDispatch id .intercept⟩
    rw [worlds.builtins]
    exact misfits
  | dispatched =>
    cases above
    exact ⟨_, .dispatched, .same _, stack, worlds⟩
  | @performed role action next _ _ reply _ applied =>
    have reads (code : CodeId) (index : ExtraIndex) (read : action = .readExtra code index) :
        ¬ hidden index := unread code index (congrArg some read)
    obtain ⟨_, answered, changed⟩ := Action.resembles_apply worlds reads applied
    cases above with
    | same => exact ⟨_, .performed answered, .same _, stack, changed⟩
    | consulted cached => exact ⟨_, .performed answered, .consulted cached, stack, changed⟩
  | launched =>
    cases above with
    | same => exact ⟨_, .launched, .same _, .cons (.same _) stack, worlds⟩
    | consulted cached => exact ⟨_, .launched, .same _, .cons (.consulted cached) stack, worlds⟩

theorem Resembles.stop {outcome : Outcome σ α} (alike : Resembles hidden first second)
    (stop : Stop host first outcome) :
    ∃ result, Stop host second result ∧ outcome.Resembles hidden result := by
  obtain ⟨_, below, other⟩ := second
  obtain ⟨above, stack, worlds⟩ := alike
  have threads (id : ThreadId) : other.thread id = first.world.thread id :=
    congrArg (Table.get · id) worlds.threads
  have heap : other.heap = first.world.heap := worlds.heap
  cases stop with
  | finished =>
    cases above
    exact ⟨_, .finished, .finished worlds⟩
  | given =>
    cases above
    cases stack
    exact ⟨_, .given, .given worlds⟩
  | noModule missing =>
    cases above
    exact ⟨_, .noModule (by rw [threads]; exact missing), .fatal _⟩
  | @noCallback id frame _ _ module installed missing wanted =>
    cases above
    have cached := worlds.cache module frame.code.id
    exact ⟨_, .noCallback (by rw [threads]; exact installed) (by rw [threads]; exact missing)
      (cached.resembles.skip.trans wanted), .fatal _⟩
  | broken progress =>
    cases above
    exact ⟨_, .broken (by rw [heap]; exact progress), .broken⟩
  | fatal refused =>
    have refused := Action.resembles_refused worlds refused
    cases above with
    | same => exact ⟨_, .fatal refused, .fatal _⟩
    | consulted cached => exact ⟨_, .fatal refused, .fatal _⟩

theorem Resembles.step (alike : Resembles hidden first second) (unread : first.Unread hidden) :
    Agree hidden (step host first) (step host second) := by
  cases stepped : Machine.step host first with
  | next after =>
    obtain ⟨following, move, alike⟩ := alike.move unread (step_eq_next_iff.mp stepped)
    rw [move.step_eq]
    exact .next alike
  | halt outcome =>
    obtain ⟨result, stop, alike⟩ := alike.stop (step_eq_halt_iff.mp stepped)
    rw [step_eq_halt_iff.mpr stop]
    exact .halt alike

/-- Two runs in which the same frames are intercepted, the callbacks are asked the same, with the
same arguments, and answer the same, and the engine evaluates the same frames; after any number of
steps they resemble each other, and so they do in the end. -/
structure Lockstep (host : Host σ) (hidden : ExtraIndex → Prop) (first second : Machine σ α) :
    Prop where
  consults : ∀ fuel, history host fuel second = history host fuel first
  together : ∀ fuel, Agree hidden (run host fuel first) (run host fuel second)

theorem lockstep (alike : Resembles hidden first second)
    (unread : ∀ machine, Transition.Meets (Machine.step host) first machine →
      machine.Unread hidden) :
    Lockstep host hidden first second := by
  have both (fuel : Nat) : history host fuel second = history host fuel first ∧
      Agree hidden (run host fuel first) (run host fuel second) := by
    induction fuel generalizing first second with
    | zero => exact ⟨rfl, .next alike⟩
    | succ fuel ih =>
      have stepped : Agree hidden (Machine.step host first) (Machine.step host second) :=
        alike.step (unread first (.refl first))
      simp only [history, run, Transition.run, alike.event?_eq]
      generalize one : Machine.step host first = early at stepped
      generalize Machine.step host second = late at stepped
      cases stepped with
      | halt alike => exact ⟨rfl, .halt alike⟩
      | next alike =>
        obtain ⟨shown, reached⟩ := ih alike fun machine met => unread machine (met.head one)
        exact ⟨congrArg _ shown, reached⟩
  exact ⟨fun fuel => (both fuel).1, fun fuel => (both fuel).2⟩

structure Unswayed (host : Host σ) (hidden : ExtraIndex → Prop) (program : Program σ α)
    (first second : World σ) : Prop where
  lockstep : Lockstep host hidden (ofProgram first program) (ofProgram second program)
  /-- After a hit the replacement from this answer is evaluated, or does not fit the frame. -/
  replaced : ∀ id frame module cached guard code stack world after,
    Transition.Meets (step host) (ofProgram first program)
      ⟨.program (.consulted id frame module cached) (.done (.ok (some ⟨guard, code⟩))), stack,
        world⟩ →
    Move host
      ⟨.program (.consulted id frame module cached) (.done (.ok (some ⟨guard, code⟩))), stack,
        world⟩ after →
    (∃ shadow, after.control = .enter id (.evaluate shadow) ∧
      shadow.code = world.heap.code code) ∨
    ∃ fault, after.control = .give (.error fault) ∧
      frame.shadow (world.heap.code code) (world.builtins id) = .error fault
  /-- The run goes on alike if the unit is offered with another guard, whatever was cached. -/
  unguarded : ∀ id frame module cached guard code stack world after other another,
    Transition.Meets (step host) (ofProgram first program)
      ⟨.program (.consulted id frame module cached) (.done (.ok (some ⟨guard, code⟩))), stack,
        world⟩ →
    Move host
      ⟨.program (.consulted id frame module cached) (.done (.ok (some ⟨guard, code⟩))), stack,
        world⟩ after →
    hidden module.index → cached.Resembles other →
    ∃ following,
      Move host
        ⟨.program (.consulted id frame module other) (.done (.ok (some ⟨another, code⟩))), stack,
          world⟩ following ∧
      Lockstep host hidden after following

private theorem control_of_hit {id : ThreadId} {frame : Frame} {module : HookModule}
    {cached : CacheState} {replacement : Replacement} {stack : List (Activation σ α)}
    {world : World σ} {after : Machine σ α}
    (move : Move host
      ⟨.program (.consulted id frame module cached) (.done (.ok (some replacement))), stack, world⟩
      after) :
    (∃ shadow, after.control = .enter id (.evaluate shadow) ∧
      shadow.code = world.heap.code replacement.code) ∨
    ∃ fault, after.control = .give (.error fault) ∧
      frame.shadow (world.heap.code replacement.code) (world.builtins id) = .error fault := by
  cases move with
  | rejected misfits => exact .inr ⟨_, rfl, misfits⟩
  | @replaced _ _ _ _ _ _ _ shadow fits =>
    obtain ⟨_, _, _, made⟩ := Frame.shadow_eq_ok_iff.mp fits
    exact .inl ⟨shadow, rfl, congrArg Frame.code made⟩

private theorem resembles_of_hit {id : ThreadId} {frame : Frame} {module : HookModule}
    {cached other : CacheState} {guard another : GuardId} {code : CodeId}
    {stack : List (Activation σ α)} {world : World σ} {after : Machine σ α}
    (covered : hidden module.index) (alike : cached.Resembles other)
    (move : Move host
      ⟨.program (.consulted id frame module cached) (.done (.ok (some ⟨guard, code⟩))), stack,
        world⟩ after) :
    ∃ following,
      Move host
        ⟨.program (.consulted id frame module other) (.done (.ok (some ⟨another, code⟩))), stack,
          world⟩ following ∧
      Resembles hidden after following := by
  have beneath : List.Forall₂ (Activation.Resembles hidden) stack stack :=
    List.forall₂_same.mpr fun activation _ => .same activation
  have stored := (World.Resembles.refl hidden world).storeCache module frame.code.id
    (alike.prepend ⟨guard, code⟩ ⟨another, code⟩) fun plain => absurd covered plain
  cases move with
  | replaced fits =>
    exact ⟨_, .replaced fits, .same _, beneath, stored.setDispatch id .intercept⟩
  | rejected misfits =>
    exact ⟨_, .rejected misfits, .same _, beneath, stored.setDispatch id .intercept⟩

/-- Of caches the engine uses no more than whether a unit is skipped and how many replacements it
has, when neither callbacks nor native functions read them. -/
theorem unswayed_of_unread {program : Program σ α} {start other : World σ}
    (alike : World.Resembles hidden start other)
    (unread : ∀ machine, Transition.Meets (step host) (ofProgram start program) machine →
      machine.Unread hidden) :
    Unswayed host hidden program start other where
  lockstep := lockstep ⟨.same _, .nil, alike⟩ unread
  replaced _ _ _ _ _ _ _ _ _ _ move := control_of_hit move
  unguarded id frame module cached guard code stack world after other another met move covered
      resembles := by
    obtain ⟨following, moved, alike⟩ := resembles_of_hit covered resembles move
    exact ⟨following, moved, lockstep alike fun machine later =>
      unread machine ((met.tail move.step_eq).trans later)⟩

end Machine

def Conduct.unreading (hidden : ExtraIndex → Prop) : Conduct σ where
  performs
    | .readExtra _ index => ¬ hidden index
    | _ => True
  launches _ _ := True

namespace Machine
variable {hidden : ExtraIndex → Prop}

theorem Follows.unread {machine : Machine σ α} (follows : machine.Follows (.unreading hidden)) :
    machine.Unread hidden := by
  intro code index next
  exact follows.performs next

def stocked (replacements : List Replacement) : World Unit :=
  (World.single #[.handing, .handing] (.intercepting ⟨⟨0⟩⟩ 0)).storeCache ⟨⟨0⟩⟩ 0 (.entries replacements)

/-- A callback that always has a replacement, beside a native function that reads another slot. -/
def offering : Host Unit := .marking ⟨1⟩ fun _ _ _ size => .done (.ok (some ⟨size, 1⟩))

theorem unswayed_of_stocked :
    Unswayed offering (· = ⟨0⟩) (Program.run 0 (.call (.function .first) []))
      (stocked [⟨0, 0⟩, ⟨1, 1⟩]) (stocked [⟨2, 1⟩, ⟨3, 0⟩]) := by
  refine unswayed_of_unread ?_ fun machine met => Follows.unread ?_
  · exact (World.Resembles.refl _ _).storeCache ⟨⟨0⟩⟩ 0 ⟨rfl, rfl⟩ fun plain => absurd rfl plain
  · refine follows_of_met ?_ ?_ met
    · exact ⟨trivial, fun _ => trivial⟩
    · exact Host.follows_marking (fun _ _ _ _ => trivial) (fun _ same => nomatch same) fun _ _ => trivial

end Machine

end Interpose
