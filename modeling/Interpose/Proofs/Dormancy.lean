import Interpose.Proofs.Abreast
import Interpose.Proofs.Depth
import Interpose.Proofs.Failures

/-! Code that runs on a thread with the default dispatch is never intercepted. Nothing that a frame
does gets at the hook of a thread or at an extra slot. When native functions do not either, these stay
as they are, and what they are makes no difference to the run. -/

namespace Interpose
variable {σ α : Type}

namespace World

/-- Nothing changed but the heap and the depth of one thread, and, unless native functions are quiet,
the interpreters and the state of the host. -/
structure Sheltered (quiet : Prop) (id : ThreadId) (before after : World σ) : Prop where
  extras : after.extras = before.extras
  interpreters : quiet → after.interpreters = before.interpreters
  host : quiet → after.host = before.host
  others : ∀ other, other ≠ id → after.thread other = before.thread other
  thread : after.thread id = { before.thread id with depth := (after.thread id).depth }

namespace Sheltered
variable {quiet : Prop} {id : ThreadId} {before after : World σ}

theorem refl (quiet : Prop) (id : ThreadId) (world : World σ) : world.Sheltered quiet id world :=
  ⟨rfl, fun _ => rfl, fun _ => rfl, fun _ _ => rfl, rfl⟩

theorem edit (sheltered : before.Sheltered quiet id after) (edits : List HeapEdit) :
    before.Sheltered quiet id (after.edit edits) :=
  ⟨sheltered.extras, sheltered.interpreters, sheltered.host, sheltered.others, sheltered.thread⟩

theorem setDepth (sheltered : before.Sheltered quiet id after) (depth : Nat) :
    before.Sheltered quiet id (after.setThread id { after.thread id with depth }) where
  extras := sheltered.extras
  interpreters := sheltered.interpreters
  host := sheltered.host
  others other apart := by
    rw [thread_setThread, if_neg apart]
    exact sheltered.others other apart
  thread := by
    rw [thread_setThread, if_pos rfl, sheltered.thread]

end Sheltered

/-- Two engines that differ in nothing but the extra slots and the modules and callbacks that
threads keep. -/
structure SameButHooks (first second : World σ) : Prop where
  heap : second.heap = first.heap
  interpreters : second.interpreters = first.interpreters
  host : second.host = first.host
  threads : ∀ id, second.thread id =
    { first.thread id with
      module? := (second.thread id).module?, callback? := (second.thread id).callback? }

theorem SameButHooks.builtins {first second : World σ} (alike : first.SameButHooks second)
    (id : ThreadId) : second.builtins id = first.builtins id := by
  rw [World.builtins, alike.threads id, World.interpreter, alike.interpreters]
  rfl

theorem SameButHooks.addInterpreter {first second : World σ} (alike : first.SameButHooks second) :
    first.addInterpreter.SameButHooks second.addInterpreter where
  heap := by rw [heap_addInterpreter, heap_addInterpreter, alike.heap]
  interpreters := by
    rw [interpreters_addInterpreter, interpreters_addInterpreter, alike.heap, alike.interpreters]
  host := by rw [host_addInterpreter, host_addInterpreter, alike.host]
  threads id := by
    have threads := alike.threads id
    simpa only [World.thread, threads_addInterpreter] using threads

theorem unseen_sameButHooks : Unseen (@SameButHooks σ) where
  heap alike := alike.heap
  builtins alike := alike.builtins
  dispatch alike id := by rw [alike.threads id]
  depth alike id := by rw [alike.threads id]
  edit alike edits :=
    ⟨by rw [heap_edit, heap_edit, alike.heap], alike.interpreters, alike.host, alike.threads⟩
  setDepth := by
    intro first second alike id depth
    refine ⟨alike.heap, alike.interpreters, alike.host, ?_⟩
    intro other
    rw [thread_setThread, thread_setThread]
    split
    · rw [alike.threads id]
    · exact alike.threads other

end World

/-- Requests that neither see nor touch a hook or an extra slot, and no launch. A new thread comes with
a hook of its own. -/
def Conduct.aside : Conduct σ where
  performs
    | .readExtra _ _ | .writeExtra _ _ _ => False
    | .setDispatch _ _ | .install _ _ _ | .newThread _ _ => False
    | _ => True
  launches _ _ := False

/-- Requests that leave the interpreters and the state of the host as they are. -/
def Conduct.quiet : Conduct σ where
  performs
    | .newInterpreter | .requestIndex _ | .writeHost _ => False
    | _ => True
  launches _ _ := True

def Action.Enters : Action σ → Prop
  | .readHeap => True
  | .enter _ _ _ => True
  | _ => False

def Entry.Unforced : Entry → Prop
  | .intercept _ => False
  | _ => True

namespace Program

/-- The programs that run code on a thread, from outside or out of a callback: they call a value,
run a unit, or evaluate a frame. -/
inductive Runs (id : ThreadId) : Program σ (Except Fault Value) → Prop
  | call (callee : Value) (arguments : List Value) : Runs id (run id (.call callee arguments))
  | unit (code : CodeId) (globals : NamespaceId) : Runs id (runCode id code globals)
  | frame (frame : Frame) : Runs id (run id (.dispatch frame))

/-- A program that at most makes a frame before it hands over to a thread, and returns the result
as it is. -/
def Delegates (id : ThreadId) : Program σ (Except Fault Value) → Prop
  | .done _ => True
  | .perform action next => action.Enters ∧ ∀ reply, (next reply).Delegates id
  | .launch thread entry next => thread = id ∧ entry.Unforced ∧ next = .done

theorem Runs.delegates {id : ThreadId} {program : Program σ (Except Fault Value)}
    (runs : program.Runs id) : program.Delegates id := by
  cases runs with
  | call callee arguments => exact ⟨rfl, trivial, rfl⟩
  | frame frame => exact ⟨rfl, trivial, rfl⟩
  | unit code globals =>
    refine ⟨trivial, fun heap => ⟨trivial, fun entered => ?_⟩⟩
    cases entered with
    | ok frame => exact ⟨rfl, trivial, rfl⟩
    | error fault => exact trivial

end Program

theorem Action.Enters.aside {action : Action σ} (enters : action.Enters) :
    Conduct.aside.performs action ∧ Conduct.quiet.performs action := by
  cases action with
  | readHeap | enter => exact ⟨trivial, trivial⟩
  | _ => exact enters.elim

theorem Action.answers_aside {action : Action σ} {first second : World σ}
    (aside : Conduct.aside.performs action) (alike : first.SameButHooks second) :
    Answers World.SameButHooks (action.apply first) (action.apply second) := by
  have unseen := World.unseen_sameButHooks (σ := σ)
  have sameThread (id : ThreadId) : (second.thread id).interpreter = (first.thread id).interpreter ∧
      (second.thread id).limit = (first.thread id).limit := by
    rw [alike.threads id]
    exact ⟨rfl, rfl⟩
  cases action with
  | readHeap =>
    simp only [apply, alike.heap]
    exact .reply _ alike
  | edit change => exact .reply _ (unseen.edit alike _)
  | build unit =>
    simp only [apply, World.build]
    cases unit.build with
    | ok made =>
      simp only [alike.heap]
      exact .reply _ ⟨rfl, alike.interpreters, alike.host, alike.threads⟩
    | error fault => exact .reply _ alike
  | newInterpreter =>
    simp only [apply]
    rw [alike.interpreters]
    exact .reply _ alike.addInterpreter
  | interpreter id =>
    simp only [apply, World.interpreter, alike.interpreters]
    exact .reply _ alike
  | requestIndex id =>
    simp only [apply, World.requestIndex, World.interpreter, alike.interpreters]
    cases (first.interpreters.get id).registry.request with
    | ok made => exact .reply _ ⟨alike.heap, rfl, alike.host, alike.threads⟩
    | error fault => exact .reply _ alike
  | interpreterOf id =>
    simp only [apply, (sameThread id).1]
    exact .reply _ alike
  | depth id =>
    simp only [apply, unseen.depth alike id]
    exact .reply _ alike
  | limit id =>
    simp only [apply, (sameThread id).2]
    exact .reply _ alike
  | dispatch id =>
    simp only [apply, unseen.dispatch alike id]
    exact .reply _ alike
  | enter thread function arguments =>
    simp only [apply, World.enter, alike.heap, alike.builtins thread]
    cases Frame.enter first.heap (first.builtins thread) function arguments with
    | ok made => exact .reply _ (unseen.edit alike made.2)
    | error fault => exact .reply _ alike
  | readHost =>
    simp only [apply, alike.host]
    exact .reply _ alike
  | writeHost state => exact .reply _ ⟨alike.heap, alike.interpreters, rfl, alike.threads⟩
  | readExtra | writeExtra | setDispatch | install | newThread => exact aside.elim

theorem Action.sheltered_apply {action : Action σ} {quiet : Prop} {start world after : World σ}
    {id : ThreadId} {reply : action.Reply} (aside : Conduct.aside.performs action)
    (calm : quiet → Conduct.quiet.performs action) (sheltered : start.Sheltered quiet id world)
    (applied : action.apply world = .ok (reply, after)) : start.Sheltered quiet id after := by
  cases action with
  | newInterpreter =>
    cases applied
    refine { sheltered with
      extras := by rw [World.extras_addInterpreter]; exact sheltered.extras
      interpreters := fun holds => (calm holds).elim
      host := fun holds => (calm holds).elim
      others := fun other apart => ?_
      thread := ?_ }
    · simpa only [World.thread, World.threads_addInterpreter] using sheltered.others other apart
    · simpa only [World.thread, World.threads_addInterpreter] using sheltered.thread
  | build unit =>
    simp only [apply, World.build] at applied
    split at applied <;> cases applied
    · exact { sheltered with }
    · exact sheltered
  | requestIndex owner =>
    simp only [apply, World.requestIndex] at applied
    split at applied <;> cases applied
    · exact { sheltered with interpreters := fun holds => (calm holds).elim }
    · exact sheltered
  | enter thread function arguments =>
    simp only [apply, World.enter] at applied
    split at applied <;> cases applied
    · exact sheltered.edit _
    · exact sheltered
  | edit change =>
    cases applied
    exact sheltered.edit _
  | writeHost state =>
    cases applied
    exact { sheltered with host := fun holds => (calm holds).elim }
  | readHeap | interpreter | interpreterOf | depth | limit | dispatch | readHost =>
    cases applied
    exact sheltered
  | readExtra | writeExtra | setDispatch | install | newThread => exact aside.elim

namespace Machine

/-- Code runs on a thread, called by a program that delegates to it, or a native function that it
called. -/
inductive Delegated (quiet : Prop) (id : ThreadId) : Machine σ (Except Fault Value) → Prop
  | client {body world} (delegates : body.Delegates id) :
      Delegated quiet id ⟨.program .client body, [], world⟩
  | enter {entry stack world} (unforced : entry.Unforced) (callers : Callers id stack) :
      Delegated quiet id ⟨.enter id entry, stack, world⟩
  | run {frame stack world} (callers : Callers id stack) :
      Delegated quiet id ⟨.run id frame, stack, world⟩
  | give {result stack world} (callers : Callers id stack) :
      Delegated quiet id ⟨.give result, stack, world⟩
  | serving {body stack world} (callers : Callers id stack) (aside : body.Follows .aside)
      (calm : quiet → body.Follows .quiet) :
      Delegated quiet id ⟨.program .hosted body, stack, world⟩

/-- So far no frame was intercepted in a run on a thread that dispatches by default. -/
structure Dormant (quiet : Prop) (id : ThreadId) (start : World σ)
    (machine : Machine σ (Except Fault Value)) : Prop where
  delegated : Delegated quiet id machine
  sheltered : start.Sheltered quiet id machine.world

variable {host : Host σ} {quiet : Prop} {id : ThreadId} {start : World σ}
  {before after machine : Machine σ (Except Fault Value)}

theorem Dormant.unhooked (dormant : Dormant quiet id start machine) : machine.Unhooked := by
  cases dormant.delegated with
  | enter unforced callers =>
    rename_i entry _ _
    cases entry with
    | intercept frame => exact unforced
    | _ => trivial
  | _ => trivial

theorem Dormant.step (dormant : Dormant quiet id start before)
    (off : (start.thread id).dispatch = .default) (natives : host.NativesFollow .aside)
    (calm : quiet → host.NativesFollow .quiet) (move : Move host before after) :
    Dormant quiet id start after := by
  obtain ⟨delegated, sheltered⟩ := dormant
  have chosen : (before.world.thread id).dispatch = .default := by
    rw [sheltered.thread]
    exact off
  cases delegated with
  | client delegates =>
    cases move with
    | performed applied =>
      obtain ⟨aside, still⟩ := delegates.1.aside
      exact ⟨.client (delegates.2 _), Action.sheltered_apply aside (fun _ => still) sheltered applied⟩
    | launched =>
      obtain ⟨rfl, unforced, rfl⟩ := delegates
      exact ⟨.enter unforced .client, sheltered⟩
  | enter unforced callers =>
    cases move with
    | byEngine _ => exact ⟨.enter trivial callers, sheltered⟩
    | byInterceptor other | byHost other => cases chosen.symm.trans other
    | refused full => exact ⟨.give callers, sheltered⟩
    | started room => exact ⟨.run callers, sheltered.setDepth _⟩
    | skipped | asked => exact unforced.elim
    | entered fits => exact ⟨.enter trivial callers, sheltered.edit _⟩
    | mismatched misfits => exact ⟨.give callers, sheltered⟩
    | native own => exact ⟨.give callers, sheltered⟩
    | byNative foreign =>
      exact ⟨.serving callers (natives _ _) fun holds => calm holds _ _, sheltered⟩
    | uncallable foreign => exact ⟨.give callers, sheltered⟩
  | run callers =>
    cases move with
    | ran progress => exact ⟨.run callers, sheltered.edit _⟩
    | called progress => exact ⟨.enter trivial (.frame callers), sheltered⟩
    | left progress => exact ⟨.give callers, sheltered.setDepth _⟩
  | give callers =>
    cases callers with
    | client =>
      cases move with
      | replied => exact ⟨.client trivial, sheltered⟩
    | frame rest =>
      cases move with
      | resumed => exact ⟨.run rest, sheltered⟩
      | unwound => exact ⟨.give rest, sheltered.setDepth _⟩
  | serving callers aside calm =>
    cases move with
    | dispatched => exact ⟨.give callers, sheltered⟩
    | performed applied =>
      refine ⟨.serving callers (aside.2 _) fun holds => (calm holds).2 _, ?_⟩
      exact Action.sheltered_apply aside.1 (fun holds => (calm holds).1) sheltered applied
    | launched => exact aside.1.elim

theorem Dormant.event (dormant : Dormant quiet id start machine)
    (off : (start.thread id).dispatch = .default) {event : Event}
    (shown : machine.event? = some event) : ∃ frame, event = .evaluated id frame := by
  obtain ⟨delegated, sheltered⟩ := dormant
  have chosen : (machine.world.thread id).dispatch = .default := by
    rw [sheltered.thread]
    exact off
  cases delegated with
  | @enter entry stack world unforced callers =>
    cases entry with
    | dispatch frame =>
      simp only at chosen
      simp only [event?, chosen] at shown
      cases shown
    | evaluate frame =>
      cases shown
      exact ⟨frame, rfl⟩
    | intercept frame => exact unforced.elim
    | call callee arguments => cases shown
  | @serving body => cases body <;> cases shown
  | client | run | give => cases shown

private theorem Conduct.aside_apply {action : Action σ} (aside : Conduct.aside.performs action)
    (world : World σ) (cause : Fatal) : action.apply world ≠ .error cause := by
  cases action with
  | install => exact aside.elim
  | _ => exact nofun

theorem Dormant.stop {outcome : Outcome σ (Except Fault Value)}
    (dormant : Dormant quiet id start machine)
    (stop : Stop host machine outcome) :
    outcome = .broken ∨ ∃ result, outcome = .finished result machine.world := by
  cases dormant.delegated with
  | client delegates =>
    cases stop with
    | finished => exact .inr ⟨_, rfl⟩
    | fatal refused => exact (Conduct.aside_apply delegates.1.aside.1 _ _ refused).elim
  | enter unforced callers =>
    cases stop with
    | noModule | noCallback => exact unforced.elim
  | run callers =>
    cases stop with
    | broken progress => exact .inl rfl
  | give callers =>
    cases stop
    cases callers
  | serving callers aside calm =>
    cases stop with
    | fatal refused => exact (Conduct.aside_apply aside.1 _ _ refused).elim

structure Inert (host : Host σ) (id : ThreadId) (start : World σ)
    (program : Program σ (Except Fault Value)) : Prop where
  /-- No frame is intercepted and no callback is asked or answers. -/
  unasked : ∀ machine event, Transition.Meets (step host) (ofProgram start program) machine →
    machine.event? = some event → ∃ frame, event = .evaluated id frame
  /-- At every point all hooks and all extra slots are as they were, and so are the interpreters and
  the state of the host if native functions leave them. -/
  sheltered : ∀ machine, Transition.Meets (step host) (ofProgram start program) machine →
    start.Sheltered (host.NativesFollow .quiet) id machine.world
  /-- A run does not end for lack of a hook. If it ends with a result, whichever it is, all threads
  and extra slots are as they were. -/
  ended : ∀ outcome, Transition.Ends (step host) (ofProgram start program) outcome →
    outcome = .broken ∨ ∃ result after, outcome = .finished result after ∧
      start.Sheltered (host.NativesFollow .quiet) id after ∧
      ∀ other, after.thread other = start.thread other
  /-- From an engine with other modules, callbacks and extra slots the run takes the same steps,
  with the same effects and the same outcome. -/
  alike : ∀ other, start.SameButHooks other → ∀ fuel,
    Transition.Pairs (Abreast World.SameButHooks) (Outcome.Abreast World.SameButHooks)
      (run host fuel (ofProgram start program)) (run host fuel (ofProgram other program))
  /-- Inside of another program, as of a callback, it is the same until the run returns to it. -/
  within : ∀ {α : Type} (role : Role) (next : Except Fault Value → Program σ (role.Result α))
    (stack : List (Activation σ α)) fuel machine,
    run host fuel ⟨.program role (program.bind next), stack, start⟩ = .next machine →
    (start.Sheltered (host.NativesFollow .quiet) id machine.world ∧
      ∀ event, machine.event? = some event → ∃ frame, event = .evaluated id frame) ∨
    ∃ early ≤ fuel, ∃ result after,
      run host early ⟨.program role (program.bind next), stack, start⟩ =
        .next ⟨.program role (next result), stack, after⟩ ∧
      start.Sheltered (host.NativesFollow .quiet) id after

theorem dormant_of_met {program : Program σ (Except Fault Value)}
    (off : (start.thread id).dispatch = .default) (natives : host.NativesFollow .aside)
    (runs : program.Runs id)
    (met : Transition.Meets (Machine.step host) (ofProgram start program) machine) :
    Dormant (host.NativesFollow .quiet) id start machine := by
  refine met_keeps (fun _ _ _ dormant move => ?_) ?_ met
  · exact dormant.step off natives (fun calm => calm) move
  · exact ⟨.client runs.delegates, .refl _ id start⟩

private theorem Dormant.abreast {mirror : Machine σ (Except Fault Value)}
    (dormant : Dormant quiet id start machine) (alike : Abreast World.SameButHooks machine mirror) :
    Transition.Pairs (Abreast World.SameButHooks) (Outcome.Abreast World.SameButHooks)
      (Machine.step host machine) (Machine.step host mirror) := by
  refine alike.step World.unseen_sameButHooks dormant.unhooked ?level ?responsive
  case level =>
    intro thread frame _
    rw [alike.world.threads thread]
  case responsive =>
    intro action next
    obtain ⟨role, rest, control⟩ := control_of_action next
    cases dormant.delegated with
    | client delegates =>
      cases control
      exact Action.answers_aside delegates.1.aside.1 alike.world
    | serving callers aside calm =>
      cases control
      exact Action.answers_aside aside.1 alike.world
    | enter | run | give => cases control

private theorem Dormant.event_atop {role : Role}
    {next : Except Fault Value → Program σ (role.Result α)} {stack : List (Activation σ α)}
    (dormant : Dormant quiet id start machine) (off : (start.thread id).dispatch = .default)
    (undone : ∀ result, machine.control ≠ .program .client (.done result)) {event : Event}
    (shown : (machine.atop role next stack).event? = some event) :
    ∃ frame, event = .evaluated id frame := by
  have alone (shown : machine.event? = some event) := dormant.event off shown
  cases dormant.delegated with
  | @client body world delegates =>
    cases body with
    | done result => exact absurd rfl (undone result)
    | perform action rest => cases role <;> cases shown
    | launch thread entry rest => cases role <;> cases shown
  | @enter entry stack world unforced callers => cases entry <;> exact alone shown
  | run callers => exact alone shown
  | give callers => exact alone shown
  | @serving body => cases body <;> cases shown

private theorem Dormant.atop_done {role : Role}
    {next : Except Fault Value → Program σ (role.Result α)} {stack : List (Activation σ α)}
    (dormant : Dormant quiet id start machine) {result : Except Fault Value}
    (control : machine.control = .program .client (.done result)) :
    ∃ after, machine.atop role next stack = ⟨.program role (next result), stack, after⟩ ∧
      start.Sheltered quiet id after := by
  obtain ⟨delegated, sheltered⟩ := dormant
  cases delegated with
  | client delegates =>
    cases control
    exact ⟨_, rfl, sheltered⟩
  | enter | run | give | serving => cases control

private theorem Dormant.within {program : Program σ (Except Fault Value)}
    (off : (start.thread id).dispatch = .default)
    (dormant : ∀ machine, Transition.Meets (Machine.step host) (ofProgram start program) machine →
      Dormant (host.NativesFollow .quiet) id start machine)
    (role : Role) (next : Except Fault Value → Program σ (role.Result α))
    (stack : List (Activation σ α)) {fuel : Nat} {machine : Machine σ α}
    (met : run host fuel ⟨.program role (program.bind next), stack, start⟩ = .next machine) :
    (start.Sheltered (host.NativesFollow .quiet) id machine.world ∧
      ∀ event, machine.event? = some event → ∃ frame, event = .evaluated id frame) ∨
    ∃ early ≤ fuel, ∃ result after,
      run host early ⟨.program role (program.bind next), stack, start⟩ =
        .next ⟨.program role (next result), stack, after⟩ ∧
      start.Sheltered (host.NativesFollow .quiet) id after := by
  have lifts {early : Nat} {inner : Machine σ (Except Fault Value)}
      (reached : run host early (ofProgram start program) = .next inner) :
      run host early ⟨.program role (program.bind next), stack, start⟩ =
        .next (inner.atop role next stack) := run_atop reached role next stack
  cases alone : run host fuel (ofProgram start program) with
  | next inner =>
    have inert := dormant inner ⟨fuel, alone⟩
    have lifted := lifts alone
    cases met.symm.trans lifted
    by_cases done : ∃ result, inner.control = .program .client (.done result)
    · obtain ⟨result, control⟩ := done
      obtain ⟨after, same, sheltered⟩ := inert.atop_done control
      exact .inr ⟨fuel, Nat.le_refl fuel, result, after, lifted.trans (by rw [same]), sheltered⟩
    · refine .inl ⟨inert.sheltered, fun event shown => ?_⟩
      exact inert.event_atop off (fun result control => done ⟨result, control⟩) shown
  | halt outcome =>
    obtain ⟨early, sooner, inner, reached, stopped⟩ := Transition.last_of_halt alone
    have inert := dormant inner ⟨early, reached⟩
    have lifted := lifts reached
    have stop := step_eq_halt_iff.mp stopped
    rcases inert.stop stop with rfl | ⟨result, rfl⟩
    · -- A run that breaks alone breaks here too, so nothing was met after that.
      cases stop with
      | broken progress =>
        have breaks : Transition.run (Machine.step host) (early + 1)
            ⟨.program role (program.bind next), stack, start⟩ = .halt .broken := by
          rw [Transition.run_succ, ← run, lifted]
          exact step_eq_halt_iff.mpr (.broken progress)
        obtain ⟨more, rfl⟩ := Nat.exists_eq_add_of_le (Nat.succ_le_of_lt sooner)
        cases met.symm.trans (Transition.run_halted breaks more)
    · have control : inner.control = .program .client (.done result) := by
        cases stop
        rfl
      obtain ⟨after, same, sheltered⟩ := inert.atop_done control
      exact .inr ⟨early, Nat.le_of_lt sooner, result, after, lifted.trans (by rw [same]), sheltered⟩

/-- Code on a thread that dispatches by default neither uses hooks nor touches them, when the native
functions, which are given no thread, neither read nor write extra slots and run no code of their
own. -/
theorem inert_of_default (host : Host σ) {program : Program σ (Except Fault Value)}
    (off : (start.thread id).dispatch = .default) (natives : host.NativesFollow .aside)
    (runs : program.Runs id) :
    Inert host id start program where
  unasked _ _ met shown := (dormant_of_met off natives runs met).event off shown
  sheltered _ met := (dormant_of_met off natives runs met).sheltered
  ended := by
    intro outcome ended
    obtain ⟨machine, met, stopped⟩ := ended.last
    have dormant := dormant_of_met off natives runs met
    rcases dormant.stop (step_eq_halt_iff.mp stopped) with broken | ⟨result, rfl⟩
    · exact .inl broken
    · refine .inr ⟨result, machine.world, rfl, dormant.sheltered, ?_⟩
      intro other
      by_cases same : other = id
      · have balanced := (depths_balanced host start program).finished result _ ended id
        rw [same, dormant.sheltered.thread, balanced]
      · exact dormant.sheltered.others other same
  alike other same fuel := by
    refine Transition.pairs_run ?_ (.at_same same) fuel
    intro machine mirror met alike
    exact (dormant_of_met off natives runs met).abreast alike
  within role next stack fuel machine met :=
    Dormant.within off (fun _ met => dormant_of_met off natives runs met) role next stack met

/-- A callback is asked with interception off. -/
theorem default_of_asked {host : Host σ} {before : Machine σ α} {frame original : Frame}
    {module : HookModule} {cached : CacheState}
    {body : Program σ (Except Fault (Option Replacement))} {stack : List (Activation σ α)}
    {world : World σ} (intercepted : before.control = .enter id (.intercept original))
    (move : Move host before ⟨.program (.consulted id frame module cached) body, stack, world⟩) :
    (world.thread id).dispatch = .default := by
  cases move with
  | asked installed present wanted =>
    rw [World.thread_setDispatch, if_pos rfl]
  | replied | performed => cases intercepted

/-- Interception is off after a hook was taken from a thread. -/
theorem default_of_uninstalled {world after : World σ} {module : HookModule}
    {prior : Option CallbackId} (uninstalled : world.install id module none = .ok (prior, after)) :
    (after.thread id).dispatch = .default := by
  cases World.hooked_of_install uninstalled
  rw [World.hooked, World.thread_setDispatch, if_pos rfl]

/-- A callback that calls the function whose frame it is asked about. -/
def recalling : Host Unit := .ofCallbacks fun _ id _ _ => do
  let _ ← Program.run id (.call (.function .first) [])
  pure (.ok none)

def recalledCall : Machine Unit (Except Fault Value) :=
  ofProgram (.single #[.one] (.intercepting ⟨⟨0⟩⟩ 0))
    (Program.run 0 (.call (.function .first) []))

/-- The call that a callback makes is not intercepted, although its thread keeps the hook. -/
theorem inert_of_recalling :
    ∃ id frame cached body stack world,
      Transition.Meets (step recalling) recalledCall
        ⟨.program (.consulted id frame ⟨⟨0⟩⟩ cached) body, stack, world⟩ ∧
      (world.thread id).dispatch = .default ∧ (world.thread id).callback? = some 0 ∧
      Inert recalling id world (Program.run id (.call (.function .first) [])) :=
  ⟨_, _, _, _, _, _, ⟨4, rfl⟩, rfl, rfl, inert_of_default recalling rfl (fun _ _ => trivial) (.call _ _)⟩

end Machine

end Interpose
