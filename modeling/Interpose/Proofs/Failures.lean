import Interpose.Proofs.Conduct
import Interpose.Proofs.Hooks

/-! When a call turns interception off. Only the failure of a callback does, and then the call is
over: the failure travels through all frames of the call, and nothing runs or is stored on the way.
A call goes through three phases: it runs, one of its callbacks is asked, or it unwinds. -/

namespace Interpose
variable {σ α : Type}

def Event.consults (id : ThreadId) : Event → Bool
  | .asked thread _ _ _ _ => thread = id
  | .answered thread _ _ _ => thread = id
  | _ => false

/-- Nothing was stored: namespaces, cells and extra slots, with the caches in them, are as before. -/
structure World.Untouched (before after : World σ) : Prop where
  heap : after.heap = before.heap
  extras : after.extras = before.extras

namespace World.Untouched
variable {before after last : World σ}

theorem refl (world : World σ) : world.Untouched world := ⟨rfl, rfl⟩

theorem trans (first : before.Untouched after) (second : after.Untouched last) :
    before.Untouched last :=
  ⟨second.heap.trans first.heap, second.extras.trans first.extras⟩

theorem leave (world : World σ) (id : ThreadId) : world.Untouched (Machine.leave world id) :=
  ⟨rfl, rfl⟩

end World.Untouched

theorem Action.hook_apply_of_other {world after : World σ} {action : Action σ}
    {reply : action.Reply} {id : ThreadId} (applied : action.apply world = .ok (reply, after))
    (undirected : ∀ dispatch, action ≠ .setDispatch id dispatch)
    (uninstalled : ∀ module callback?, action ≠ .install id module callback?) :
    after.hook id = world.hook id := by
  cases action with
  | setDispatch thread dispatch =>
    have apart : id ≠ thread := fun same => undirected dispatch (by rw [same])
    cases applied
    rw [World.hook_setDispatch, if_neg apart]
  | install thread module callback? =>
    have apart : id ≠ thread := fun same => uninstalled module callback? (by rw [same])
    cases World.hooked_of_install applied
    rw [World.hook_hooked, if_neg apart]
  | _ => exact Action.hook_apply applied rfl id

def Role.Foreign (id : ThreadId) : Role → Prop
  | .client => False
  | .consulted thread _ _ _ => thread ≠ id
  | .hosted => True

def Control.Foreign (id : ThreadId) : Control σ α → Prop
  | .enter thread (.intercept _) => thread ≠ id
  | .program role _ => role.Foreign id
  | _ => True

def Activation.Foreign (id : ThreadId) : Activation σ α → Prop
  | .program role _ => role.Foreign id
  | .frame _ _ => True

/-- Nothing of the thread: code on another one, or a program that is not given the thread. -/
def Control.Apart (id : ThreadId) : Control σ α → Prop
  | .enter thread _ => thread ≠ id
  | .run thread _ => thread ≠ id
  | .program role _ => role.Foreign id
  | .give _ => True

def Activation.Apart (id : ThreadId) : Activation σ α → Prop
  | .frame thread _ => thread ≠ id
  | .program role _ => role.Foreign id

theorem Control.Apart.foreign {control : Control σ α} {id : ThreadId} (apart : control.Apart id) :
    control.Foreign id := by
  cases control with
  | enter thread entry =>
    cases entry with
    | intercept frame => exact apart
    | _ => trivial
  | program role body => exact apart
  | _ => trivial

namespace Machine

/-- The thread whose dispatch the next step sets, or may come to set because a program hands the
interceptor a frame itself. -/
def redirected? (machine : Machine σ α) : Option ThreadId :=
  match machine.control with
  | .program _ (.perform (.setDispatch thread _) _) => some thread
  | .program _ (.perform (.install thread _ _) _) => some thread
  | .program _ (.launch thread (.intercept _) _) => some thread
  | _ => none

/-- The thread that the next step runs code on for another than the client. -/
def lent? (machine : Machine σ α) : Option ThreadId :=
  match machine.control with
  | .program .client _ => none
  | .program _ (.launch thread _ _) => some thread
  | _ => none

/-- Code on the thread is run by those alone that are given it: the client, and a callback that is asked
about a frame of the thread, with all that it calls. Native functions and what is done for other
threads are not given it. -/
def Exclusive (id : ThreadId) (machine : Machine σ α) : Prop :=
  machine.lent? ≠ some id ∨ machine.roles.any (Role.consults id) = true

instance (id : ThreadId) (machine : Machine σ α) : Decidable (machine.Exclusive id) :=
  inferInstanceAs (Decidable (¬machine.lent? = some id ∨ _ = true))

def Steady (id : ThreadId) (machine : Machine σ α) : Prop := machine.redirected? ≠ some id

instance (id : ThreadId) (machine : Machine σ α) : Decidable (machine.Steady id) :=
  inferInstanceAs (Decidable (¬machine.redirected? = some id))

private theorem Steady.hook_apply {id : ThreadId} {role : Role} {action : Action σ}
    {next : action.Reply → Program σ (role.Result α)} {stack : List (Activation σ α)}
    {world after : World σ} {reply : action.Reply}
    (steady : Steady id ⟨.program role (.perform action next), stack, world⟩)
    (applied : action.apply world = .ok (reply, after)) : after.hook id = world.hook id := by
  refine Action.hook_apply_of_other applied ?undirected ?uninstalled
  case undirected =>
    rintro dispatch rfl
    exact steady rfl
  case uninstalled =>
    rintro module callback? rfl
    exact steady rfl

private theorem Steady.foreign {id thread : ThreadId} {role : Role} {entry : Entry}
    {next : Except Fault Value → Program σ (role.Result α)} {stack : List (Activation σ α)}
    {world : World σ} (steady : Steady id ⟨.program role (.launch thread entry next), stack, world⟩) :
    (Control.enter thread entry : Control σ α).Foreign id := by
  cases entry with
  | intercept frame => exact fun same => steady (congrArg some same)
  | _ => trivial

/-- Steps of others leave the hook of a thread as it is. -/
private theorem Move.hook_of_foreign {host : Host σ} {before after : Machine σ α}
    (move : Move host before after) {id : ThreadId} (foreign : before.control.Foreign id)
    (steady : before.Steady id) : after.world.hook id = before.world.hook id := by
  have apart {thread : ThreadId} (other : thread ≠ id) (world : World σ) (dispatch : Dispatch) :
      (world.setDispatch thread dispatch).hook id = world.hook id := by
    rw [World.hook_setDispatch, if_neg (Ne.symm other)]
  cases move with
  | started room => exact World.hook_setDepth _ _ _ _
  | asked installed present wanted => exact apart foreign _ _
  | left progress => exact World.hook_leave _ _ _
  | unwound => exact World.hook_leave _ _ _
  | missed => exact apart foreign _ _
  | replaced fits => exact apart foreign _ _
  | rejected misfits => exact apart foreign _ _
  | performed applied => exact steady.hook_apply applied
  | _ => rfl

inductive Callers (id : ThreadId) : List (Activation σ (Except Fault Value)) → Prop
  | client : Callers id [.program .client .done]
  | frame {frame below} (rest : Callers id below) : Callers id (.frame id frame :: below)

/-- What waits while native functions run code on other threads: activations of others, and then the
callers of the frame that called a native function. -/
inductive Beside (id : ThreadId) : List (Activation σ (Except Fault Value)) → Prop
  | callers {below} (callers : Callers id below) : Beside id below
  | above {activation below} (apart : activation.Apart id) (rest : Beside id below) :
      Beside id (activation :: below)

private theorem Role.Foreign.not_consults {role : Role} {id : ThreadId} (foreign : role.Foreign id) :
    role.consults id = false := by
  cases role with
  | consulted => exact decide_eq_false foreign
  | _ => rfl

private theorem Callers.unconsulted {id : ThreadId}
    {stack : List (Activation σ (Except Fault Value))} (callers : Callers id stack) :
    (stack.filterMap Activation.role?).any (Role.consults id) = false := by
  induction callers with
  | client => rfl
  | frame _ ih => exact ih

private theorem Beside.unconsulted {id : ThreadId}
    {stack : List (Activation σ (Except Fault Value))} (beside : Beside id stack) :
    (stack.filterMap Activation.role?).any (Role.consults id) = false := by
  induction beside with
  | callers callers => exact callers.unconsulted
  | @above activation below apart _ ih =>
    cases activation with
    | frame thread frame => exact ih
    | program role next =>
      simp only [Activation.role?, List.filterMap_cons, List.any_cons, ih, Bool.or_false]
      exact Role.Foreign.not_consults apart

/-- What waits while a callback of the thread is asked: activations of others, then the consult, and
then the callers of the frame that it is about. -/
inductive Awaits (id : ThreadId) (frame : Frame) (module : HookModule) (cached : CacheState) :
    List (Activation σ (Except Fault Value)) → Prop
  | here {next below} (callers : Callers id below) :
      Awaits id frame module cached (.program (.consulted id frame module cached) next :: below)
  | above {activation below} (foreign : activation.Foreign id)
      (rest : Awaits id frame module cached below) :
      Awaits id frame module cached (activation :: below)

inductive Calling (id : ThreadId) : Machine σ (Except Fault Value) → Prop
  | launch {entry world} (on : (world.hook id).dispatch = .intercept) :
      Calling id ⟨.program .client (.launch id entry .done), [], world⟩
  | enter {entry stack world} (on : (world.hook id).dispatch = .intercept)
      (callers : Callers id stack) : Calling id ⟨.enter id entry, stack, world⟩
  | run {frame stack world} (on : (world.hook id).dispatch = .intercept)
      (callers : Callers id stack) : Calling id ⟨.run id frame, stack, world⟩
  | aside {control stack world} (on : (world.hook id).dispatch = .intercept)
      (apart : control.Apart id) (beside : Beside id stack) : Calling id ⟨control, stack, world⟩
  | finished {result world} (on : (world.hook id).dispatch = .intercept) :
      Calling id ⟨.program .client (.done result), [], world⟩

/-- A callback of the thread is asked, and meanwhile the thread does not intercept. -/
inductive Consulting (id : ThreadId) (frame : Frame) (module : HookModule) (cached : CacheState) :
    Machine σ (Except Fault Value) → Prop
  | itself {body stack world} (off : (world.hook id).dispatch = .default)
      (callers : Callers id stack) :
      Consulting id frame module cached
        ⟨.program (.consulted id frame module cached) body, stack, world⟩
  | within {control stack world} (off : (world.hook id).dispatch = .default)
      (foreign : control.Foreign id) (awaits : Awaits id frame module cached stack) :
      Consulting id frame module cached ⟨control, stack, world⟩

inductive Unwinding (id : ThreadId) (fault : Fault) : Machine σ (Except Fault Value) → Prop
  | give {stack world} (off : (world.hook id).dispatch = .default) (callers : Callers id stack) :
      Unwinding id fault ⟨.give (.error fault), stack, world⟩
  | finished {world} (off : (world.hook id).dispatch = .default) :
      Unwinding id fault ⟨.program .client (.done (.error fault)), [], world⟩

variable {host : Host σ} {id : ThreadId} {frame : Frame} {module : HookModule}
  {cached : CacheState} {fault : Fault} {before after : Machine σ (Except Fault Value)}

/-- While no callback of the thread is asked, a native function, or whatever it has called, launches
nothing on the thread. -/
private theorem launches_elsewhere {role : Role} {thread : ThreadId} {entry : Entry}
    {next : Except Fault Value → Program σ (role.Result (Except Fault Value))}
    {stack : List (Activation σ (Except Fault Value))} {world : World σ} (foreign : role.Foreign id)
    (beside : Beside id stack)
    (exclusive : Exclusive id
      (⟨.program role (.launch thread entry next), stack, world⟩ : Machine σ (Except Fault Value))) :
    thread ≠ id := by
  have alone : (Machine.roles (⟨.program role (.launch thread entry next), stack, world⟩ : Machine σ
      (Except Fault Value))).any (Role.consults id) = false := by
    simp only [roles, Control.role?, Option.toList_some, List.singleton_append, List.any_cons,
      beside.unconsulted, Bool.or_false]
    exact Role.Foreign.not_consults foreign
  rintro rfl
  cases role with
  | client => exact foreign
  | consulted | hosted =>
    rcases exclusive with elsewhere | asked
    · exact elsewhere rfl
    · cases alone.symm.trans asked

/-- A call runs on until it asks a callback. -/
theorem Calling.step (calling : Calling id before) (exclusive : before.Exclusive id)
    (steady : before.Steady id) (move : Move host before after) :
    Calling id after ∨
      ∃ callback module frame size,
        before.event? = some (.asked id callback module frame size) ∧
        Consulting id frame module (before.world.cache module frame.code.id) after := by
  cases calling with
  | launch on =>
    cases move with
    | launched => exact .inl (.enter on .client)
  | @enter entry stack world on callers =>
    cases move with
    | byEngine chosen => cases on.symm.trans chosen
    | byHost chosen => cases on.symm.trans chosen
    | byInterceptor chosen => exact .inl (.enter on callers)
    | refused full => exact .inl (.aside on trivial (.callers callers))
    | started room => exact .inl (.run (by rwa [World.hook_setDepth]) callers)
    | skipped installed skip => exact .inl (.enter on callers)
    | @asked _ original _ _ place callback installed present wanted =>
      have shown : event? (⟨.enter id (.intercept original), stack, world⟩ : Machine σ
          (Except Fault Value)) = some (.asked id callback place
            (original.materialize world.heap) (world.cache place original.code.id).length) := by
        simp [event?, installed, present, wanted]
      have off : ((world.setDispatch id .default).hook id).dispatch = .default := by
        rw [World.hook_setDispatch, if_pos rfl]
      exact .inr ⟨callback, place, _, _, shown, .itself off callers⟩
    | entered fits => exact .inl (.enter on callers)
    | mismatched misfits => exact .inl (.aside on trivial (.callers callers))
    | native own => exact .inl (.aside on trivial (.callers callers))
    | byNative foreign => exact .inl (.aside on trivial (.callers callers))
    | uncallable foreign => exact .inl (.aside on trivial (.callers callers))
  | run on callers =>
    cases move with
    | ran progress => exact .inl (.run on callers)
    | called progress => exact .inl (.enter on (.frame callers))
    | left progress =>
      exact .inl (.aside (by rwa [World.hook_leave]) trivial (.callers callers))
  | @aside control stack world on apart beside =>
    have same := move.hook_of_foreign apart.foreign steady
    have stays : (after.world.hook id).dispatch = .intercept := by rwa [same]
    refine .inl ?_
    cases move with
    | called progress => exact .aside stays apart (.above apart beside)
    | resumed =>
      cases beside with
      | callers callers => cases callers with | frame rest => exact .run stays rest
      | above apart rest => exact .aside stays apart rest
    | unwound =>
      cases beside with
      | callers callers => cases callers with | frame rest => exact .aside stays trivial (.callers rest)
      | above _ rest => exact .aside stays trivial rest
    | replied =>
      cases beside with
      | callers callers => cases callers with | client => exact .finished stays
      | above apart rest => exact .aside stays apart rest
    | launched =>
      have other := launches_elsewhere apart beside exclusive
      exact .aside stays other (.above apart beside)
    | byHost | native | byNative | uncallable | refused | mismatched | left | failed | rejected |
      dispatched => exact .aside stays trivial beside
    | _ => exact .aside stays apart beside
  | finished on => cases move

private theorem consults_of_foreign {machine : Machine σ α} (foreign : machine.control.Foreign id) :
    ∀ event, machine.event? = some event → event.consults id = false := by
  intro event shown
  cases event with
  | asked thread callback place frame size =>
    obtain ⟨original, control, _⟩ := shows_asked shown
    rw [control] at foreign
    exact decide_eq_false foreign
  | answered thread place code answer =>
    obtain ⟨frame, cached, control, _⟩ := shows_answered shown
    rw [control] at foreign
    exact decide_eq_false foreign
  | _ => rfl

/-- What a callback runs changes neither the dispatch of its thread nor what waits for its answer;
the answer decides whether the call runs on or unwinds. -/
theorem Consulting.step (consulting : Consulting id frame module cached before)
    (steady : before.Steady id) (move : Move host before after) :
    (Consulting id frame module cached after ∧
        ∀ event, before.event? = some event → event.consults id = false) ∨
      (∃ answer,
        before.control = .program (.consulted id frame module cached) (.done (.ok answer)) ∧
        Calling id after) ∨
      ∃ fault,
        before.control = .program (.consulted id frame module cached) (.done (.error fault)) ∧
        Unwinding id fault after ∧ before.world.Untouched after.world := by
  cases consulting with
  | itself off callers =>
    have on (world : World σ) (state : CacheState) : (((world.storeCache module frame.code.id
        state).setDispatch id .intercept).hook id).dispatch = .intercept := by
      rw [World.hook_setDispatch, if_pos rfl]
    cases move with
    | failed => exact .inr (.inr ⟨_, rfl, .give off callers, .refl _⟩)
    | missed => exact .inr (.inl ⟨_, rfl, .enter (on _ _) callers⟩)
    | replaced fits => exact .inr (.inl ⟨_, rfl, .enter (on _ _) callers⟩)
    | rejected misfits => exact .inr (.inl ⟨_, rfl, .aside (on _ _) trivial (.callers callers)⟩)
    | performed applied =>
      have same := steady.hook_apply applied
      exact .inl ⟨.itself (by rw [same]; exact off) callers, fun _ shown => by cases shown⟩
    | launched =>
      exact .inl ⟨.within off steady.foreign (.here callers), fun _ shown => by cases shown⟩
  | @within control stack world off foreign awaits =>
    have same := move.hook_of_foreign foreign steady
    have stays : (after.world.hook id).dispatch = .default := by rw [same]; exact off
    refine .inl ⟨?_, consults_of_foreign foreign⟩
    cases move with
    | @byInterceptor thread _ _ _ chosen =>
      -- A thread that intercepts is another one, because this one does not.
      have apart : thread ≠ id := by
        rintro rfl
        cases off.symm.trans chosen
      exact .within stays apart awaits
    | asked installed present wanted => exact .within stays foreign awaits
    | called progress => exact .within stays trivial (.above trivial awaits)
    | resumed => cases awaits with | above _ rest => exact .within stays trivial rest
    | unwound => cases awaits with | above _ rest => exact .within stays trivial rest
    | replied =>
      cases awaits with
      | here callers => exact .itself stays callers
      | above foreign rest => exact .within stays foreign rest
    | performed applied => exact .within stays foreign awaits
    | launched => exact .within stays steady.foreign (.above foreign awaits)
    | _ => exact .within stays trivial awaits

theorem Unwinding.step (unwinding : Unwinding id fault before) (move : Move host before after) :
    Unwinding id fault after ∧ before.world.Untouched after.world := by
  cases unwinding with
  | give off callers =>
    cases callers with
    | client => cases move with | replied => exact ⟨.finished off, .refl _⟩
    | frame rest =>
      cases move with
      | unwound => exact ⟨.give (by rwa [World.hook_leave]) rest, .leave _ _⟩
  | finished off => cases move

/-- A failure that is on its way gets to the client. -/
theorem Unwinding.ends (unwinding : Unwinding id fault before) :
    ∃ after, Transition.Ends (Machine.step host) before (.finished (.error fault) after) ∧
      (after.thread id).dispatch = .default ∧ before.world.Untouched after := by
  cases unwinding with
  | @give stack world off callers =>
    -- The frames of the call are left one after the other, from the innermost to the outermost.
    induction callers generalizing world with
    | client => exact ⟨world, ⟨2, rfl⟩, off, .refl world⟩
    | @frame frame below rest ih =>
      have less : ((leave world id).hook id).dispatch = .default := by rwa [World.hook_leave]
      obtain ⟨after, ended, stillOff, untouched⟩ := ih less
      have unwinds : Move host (⟨.give (.error fault), .frame id frame :: below, world⟩ : Machine σ
          (Except Fault Value)) ⟨.give (.error fault), below, leave world id⟩ := .unwound
      exact ⟨after, (Transition.Meets.of_step unwinds.step_eq).ends ended, stillOff,
        (World.Untouched.leave world id).trans untouched⟩
  | @finished world off => exact ⟨world, .of_step rfl, off, .refl world⟩

theorem Unwinding.run (unwinding : Unwinding id fault before) {fuel : Nat}
    (met : Machine.run host fuel before = .next after) :
    Unwinding id fault after ∧ before.world.Untouched after.world := by
  induction fuel generalizing after with
  | zero =>
    cases met
    exact ⟨unwinding, .refl _⟩
  | succ fuel ih =>
    obtain ⟨middle, reached, move⟩ := exists_move_of_run met
    obtain ⟨unwinding, first⟩ := ih reached
    obtain ⟨goesOn, last⟩ := unwinding.step move
    exact ⟨goesOn, first.trans last⟩

theorem Unwinding.silent (unwinding : Unwinding id fault before) :
    before.event? = none ∧ ∀ thread frame, before.control ≠ .run thread frame := by
  cases unwinding with
  | give off callers => exact ⟨rfl, nofun⟩
  | finished off => exact ⟨rfl, nofun⟩

def FailsOn (id : ThreadId) (fault : Fault) (machine : Machine σ α) : Prop :=
  ∃ module code, machine.event? = some (.answered id module code (.error fault))

/-- The consult that is pending after so many steps of a run was asked at an earlier one of them, and
since then the thread asked no other callback and answered for none. -/
structure Asked (host : Host σ) (start : Machine σ α) (early : Nat) (asker : Machine σ α)
    (fuel : Nat) (id : ThreadId) (module : HookModule) (frame : Frame) : Prop where
  earlier : early < fuel
  met : run host early start = .next asker
  shown : ∃ callback size, asker.event? = some (.asked id callback module frame size)
  latest : ∀ between machine, early < between → between < fuel →
    run host between start = .next machine →
    ∀ event, machine.event? = some event → event.consults id = false

private theorem Asked.succ {start asker machine : Machine σ α} {early fuel : Nat}
    (asked : Asked host start early asker fuel id module frame)
    (met : run host fuel start = .next machine)
    (silent : ∀ event, machine.event? = some event → event.consults id = false) :
    Asked host start early asker (fuel + 1) id module frame where
  earlier := Nat.lt_succ_of_lt asked.earlier
  met := asked.met
  shown := asked.shown
  latest := by
    intro between other after within found
    rcases Nat.lt_succ_iff_lt_or_eq.mp within with sooner | rfl
    · exact asked.latest between other after sooner found
    · cases met.symm.trans found
      exact silent

inductive Phase (host : Host σ) (start : Machine σ (Except Fault Value)) (id : ThreadId)
    (fuel : Nat) (machine : Machine σ (Except Fault Value)) : Prop
  | calling (calling : Calling id machine)
  | consulting {frame : Frame} {module : HookModule} {cached : CacheState}
      (consulting : Consulting id frame module cached machine)
      (asked : ∃ early asker, Asked host start early asker fuel id module frame)
  | unwinding {fault : Fault} (unwinding : Unwinding id fault machine)
      (failed : ∃ earlier, Transition.Meets (step host) start earlier ∧ earlier.FailsOn id fault)

theorem Phase.step {start : Machine σ (Except Fault Value)} {fuel : Nat}
    (phase : Phase host start id fuel before) (exclusive : before.Exclusive id)
    (met : run host fuel start = .next before)
    (steady : before.Steady id) (move : Move host before after) :
    Phase host start id (fuel + 1) after := by
  cases phase with
  | calling calling =>
    rcases calling.step exclusive steady move with
      goesOn | ⟨callback, place, frame, size, shown, consulting⟩
    · exact .calling goesOn
    · have asked : Asked host start fuel before (fuel + 1) id place frame :=
        ⟨Nat.lt_succ_self fuel, met, ⟨callback, size, shown⟩, fun _ _ _ _ => by omega⟩
      exact .consulting consulting ⟨fuel, before, asked⟩
  | consulting consulting asked =>
    rcases consulting.step steady move with
      ⟨goesOn, silent⟩ | ⟨answer, _, calling⟩ | ⟨fault, control, unwinding, _⟩
    · obtain ⟨early, asker, asked⟩ := asked
      exact .consulting goesOn ⟨early, asker, asked.succ met silent⟩
    · exact .calling calling
    · obtain ⟨_, stack, world⟩ := before
      cases control
      exact .unwinding unwinding ⟨_, ⟨fuel, met⟩, _, _, rfl⟩
  | unwinding unwinding failed => exact .unwinding (unwinding.step move).1 failed

theorem phase_of_run {start machine : Machine σ (Except Fault Value)} (calling : Calling id start)
    (exclusive : ∀ machine, Transition.Meets (step host) start machine → machine.Exclusive id)
    (steady : ∀ machine, Transition.Meets (step host) start machine → machine.Steady id)
    {fuel : Nat} (met : run host fuel start = .next machine) :
    Phase host start id fuel machine := by
  induction fuel generalizing machine with
  | zero =>
    cases met
    exact .calling calling
  | succ fuel ih =>
    obtain ⟨before, reached, move⟩ := exists_move_of_run met
    have early : Transition.Meets (Machine.step host) start before := ⟨fuel, reached⟩
    exact (ih reached).step (exclusive before early) reached (steady before early) move

/-- The steps of a run from one point to another neither commit to the cache of a unit nor write its
slot. -/
def Uncommitted (host : Host σ) (start : Machine σ α) (early late : Nat) (module : HookModule)
    (code : CodeId) : Prop :=
  ∀ between machine, early ≤ between → between < late → run host between start = .next machine →
    machine.Leaves module code ∧ machine.commit? module code = none

theorem Uncommitted.cache_eq {start first last : Machine σ α} {early late : Nat} {code : CodeId}
    (uncommitted : Uncommitted host start early late module code) (later : early ≤ late)
    (reached : run host early start = .next first) (met : run host late start = .next last) :
    last.world.cache module code = first.world.cache module code := by
  obtain ⟨more, rfl⟩ := Nat.exists_eq_add_of_le later
  clear later
  induction more generalizing last with
  | zero =>
    cases reached.symm.trans met
    rfl
  | succ more ih =>
    obtain ⟨before, found, move⟩ := exists_move_of_run met
    obtain ⟨leaves, commit⟩ := uncommitted (early + more) before (by omega) (by omega) found
    rw [move.cache_eq leaves, commit, Option.getD_none]
    exact ih (fun between machine after within => uncommitted between machine after (by omega)) found

/-- The run of a call once a callback of its thread has failed, which it did at a machine that was
met after so many steps. -/
structure Stopped (host : Host σ) (start : Machine σ (Except Fault Value)) (id : ThreadId)
    (fuel : Nat) (failed : Machine σ (Except Fault Value)) (module : HookModule) (code : CodeId)
    (fault : Fault) : Prop where
  /-- The failure is the result of the call, and interception is off afterwards. -/
  ended : ∃ after, Transition.Ends (step host) start (.finished (.error fault) after) ∧
    (after.thread id).dispatch = .default ∧ failed.world.Untouched after
  /-- No callback is asked any more, no instruction runs, and nothing is stored. -/
  silent : ∀ later machine, fuel < later → run host later start = .next machine →
    machine.event? = none ∧ (∀ thread frame, machine.control ≠ .run thread frame) ∧
      failed.world.Untouched machine.world
  /-- The cache of the unit is what it was when its callback was asked, unless what ran since then
  committed to it or wrote its slot. -/
  uncommitted : ∃ early asker frame,
    Asked host start early asker fuel id module frame ∧ frame.code.id = code ∧
      (Uncommitted host start early fuel module code →
        failed.world.cache module code = asker.world.cache module code)

/-- Of all that can happen in a call, only the failure of a callback turns interception off, and it
ends the call. -/
structure OffByFailure (host : Host σ) (start : Machine σ (Except Fault Value)) (id : ThreadId) :
    Prop where
  /-- A call in which no callback of the thread failed leaves interception on, whatever its result. -/
  stays : ∀ result after, Transition.Ends (step host) start (.finished result after) →
    (∀ machine fault, Transition.Meets (step host) start machine → ¬machine.FailsOn id fault) →
    (after.thread id).dispatch = .intercept
  stops : ∀ fuel failed module code fault, run host fuel start = .next failed →
    failed.event? = some (.answered id module code (.error fault)) →
    Stopped host start id fuel failed module code fault

private theorem stopped_of_phase {start failed : Machine σ (Except Fault Value)} {fuel : Nat}
    {code : CodeId} (phase : Phase host start id fuel failed)
    (met : run host fuel start = .next failed)
    (shown : failed.event? = some (.answered id module code (.error fault))) :
    Stopped host start id fuel failed module code fault := by
  obtain ⟨frame, cached, control, unit⟩ := shows_answered shown
  obtain ⟨_, stack, world⟩ := failed
  cases control
  cases phase with
  | calling calling => cases calling with | aside on apart beside => exact absurd rfl apart
  | unwinding unwinding _ => cases unwinding
  | consulting consulting asked =>
    cases consulting with
    | within off foreign awaits => exact absurd rfl foreign
    | itself off callers =>
      obtain ⟨early, asker, asked⟩ := asked
      have fails : Move host (⟨.program (.consulted id frame module cached)
          (.done (.error fault)), stack, world⟩ : Machine σ (Except Fault Value)) _ := .failed
      have unwinding : Unwinding id fault (⟨.give (.error fault), stack, world⟩ : Machine σ
          (Except Fault Value)) := .give off callers
      constructor
      case ended =>
        obtain ⟨after, ended, stillOff, untouched⟩ := unwinding.ends
        have reached : Transition.Meets (step host) start _ := ⟨fuel + 1, run_move met fails⟩
        exact ⟨after, reached.ends ended, stillOff, untouched⟩
      case silent =>
        intro later machine after found
        obtain ⟨more, rfl⟩ := Nat.exists_eq_add_of_le after
        rw [run, Transition.run_add, ← run, run_move met fails] at found
        obtain ⟨stillUnwinding, untouched⟩ := unwinding.run found
        obtain ⟨unseen, unrun⟩ := stillUnwinding.silent
        exact ⟨unseen, unrun, untouched⟩
      case uncommitted =>
        exact ⟨early, asker, frame, asked, unit, fun uncommitted =>
          uncommitted.cache_eq (Nat.le_of_lt asked.earlier) asked.met met⟩

/-- A call during which no program touches the dispatch of its thread keeps interception on unless one
of its callbacks fails, and then nothing follows the failure. -/
theorem offByFailure_of_steady {world : World σ} {callee : Value} {arguments : List Value}
    (on : (world.thread id).dispatch = .intercept)
    (exclusive : ∀ machine,
      Transition.Meets (step host) (ofProgram world (Program.run id (.call callee arguments)))
        machine → machine.Exclusive id)
    (steady : ∀ machine,
      Transition.Meets (step host) (ofProgram world (Program.run id (.call callee arguments)))
        machine → machine.Steady id) :
    OffByFailure host (ofProgram world (Program.run id (.call callee arguments))) id := by
  have calling : Calling id (ofProgram world (Program.run id (.call callee arguments))) := .launch on
  constructor
  case stays =>
    intro result after ended quiet
    obtain ⟨last, ⟨fuel, met⟩, stopped⟩ := ended.last
    have phase := phase_of_run calling exclusive steady met
    cases step_eq_halt_iff.mp stopped
    cases phase with
    | calling calling =>
      cases calling with
      | finished on => exact on
      | aside on apart beside => exact apart.elim
    | consulting consulting asked =>
      cases consulting with | within off foreign awaits => exact foreign.elim
    | unwinding unwinding failed =>
      obtain ⟨earlier, met, failed⟩ := failed
      exact (quiet earlier _ met failed).elim
  case stops =>
    intro fuel failed module code fault met shown
    exact stopped_of_phase (phase_of_run calling exclusive steady met) met shown

def callingSecond : Blueprint :=
  { name := "callingSecond", constants := #[.function ⟨1, 1, 0, []⟩],
    instructions := #[.loadConst 0, .call 0, .returnValue] }

def fallible : Host Unit := .ofCallbacks fun _ _ frame _ =>
  if frame.code.id = 0 then .done (.ok none) else .done (.error (.hosted "failed"))

def nestedCall : Machine Unit (Except Fault Value) :=
  ofProgram (.single #[callingSecond, .one] (.intercepting ⟨⟨0⟩⟩ 0))
    (Program.run 0 (.call (.function .first) []))

/-- A callback that fails about the inner of two frames. -/
theorem offByFailure_of_nestedCall :
    (nestedCall.world.thread 0).dispatch = .intercept ∧
      (∃ fuel failed, run fallible fuel nestedCall = .next failed ∧
        failed.FailsOn 0 (.hosted "failed")) ∧
      OffByFailure fallible nestedCall 0 := by
  refine ⟨rfl, ⟨11, _, rfl, _, _, rfl⟩, offByFailure_of_steady rfl ?_ ?_⟩
  · intro machine met
    exact met.of_checked 30 rfl (by decide)
  · intro machine met
    exact met.of_checked 30 rfl (by decide)

/-- A callback that leaves the unit alone by writing the slot of its module, and then fails. -/
def meddling : Host Unit := .ofCallbacks fun _ _ frame _ => do
  Program.act (.writeExtra frame.code.id ⟨0⟩ (some (.cache .skip)))
  pure (.error (.hosted "failed"))

def meddledCall : Machine Unit (Except Fault Value) :=
  ofProgram (.single #[.one] (.intercepting ⟨⟨0⟩⟩ 0))
    (Program.run 0 (.call (.function .first) []))

/-- The callback leaves all dispatches alone, and its consult fails; yet the cache of the unit is not
what it was before. -/
theorem meddledCall_not_uncommitted :
    (∀ machine, Transition.Meets (step meddling) meddledCall machine → machine.Steady 0) ∧
      ∃ asker failed after,
        run meddling 3 meddledCall = .next asker ∧
        (∃ callback frame size, asker.event? = some (.asked 0 callback ⟨⟨0⟩⟩ frame size)) ∧
        asker.world.cache ⟨⟨0⟩⟩ 0 = .empty ∧
        run meddling 5 meddledCall = .next failed ∧
        failed.event? = some (.answered 0 ⟨⟨0⟩⟩ 0 (.error (.hosted "failed"))) ∧
        Transition.Ends (step meddling) meddledCall
          (.finished (.error (.hosted "failed")) after) ∧
        after.cache ⟨⟨0⟩⟩ 0 = .skip := by
  refine ⟨?steady, _, _, _, rfl, ⟨_, _, _, rfl⟩, rfl, rfl, rfl, ⟨8, rfl⟩, rfl⟩
  intro machine met
  exact met.of_checked 8 rfl (by decide)

end Machine

end Interpose
