import Interpose.Machine
import Interpose.Proofs.Runs
import Interpose.Proofs.Worlds

/-! What one step of the machine can do, case by case. The moves are the steps that do not end a
run, each with the condition under which it is taken; what holds of every move holds at every point
of a run. -/

namespace Interpose

def Builtin.answer? (heap : Heap) (arguments : List Value) :
    Routine → Option (Except Fault Value)
  | .abs => some (abs arguments)
  | .len => some (len arguments)
  | .max => some (max arguments)
  | .str => some (str heap arguments)
  | .hosted _ => none

def Value.isCallable : Value → Bool
  | .function _ => true
  | .native _ => true
  | _ => false

namespace Machine
variable {σ α : Type}

/-- A step that does not end the run. -/
inductive Move (host : Host σ) : Machine σ α → Machine σ α → Prop
  | byEngine {id frame stack world} (chosen : (world.thread id).dispatch = .default) :
      Move host ⟨.enter id (.dispatch frame), stack, world⟩
        ⟨.enter id (.evaluate frame), stack, world⟩
  | byInterceptor {id frame stack world} (chosen : (world.thread id).dispatch = .intercept) :
      Move host ⟨.enter id (.dispatch frame), stack, world⟩
        ⟨.enter id (.intercept frame), stack, world⟩
  | byHost {id frame stack world index}
      (chosen : (world.thread id).dispatch = .hosted index) :
      Move host ⟨.enter id (.dispatch frame), stack, world⟩
        ⟨.program .hosted (host.dispatch index id frame), stack, world⟩
  | refused {id frame stack world} (full : (world.thread id).limit ≤ (world.thread id).depth) :
      Move host ⟨.enter id (.evaluate frame), stack, world⟩
        ⟨.give (.error (.recursionLimit frame.code.name)), stack, world⟩
  | started {id frame stack world} (room : (world.thread id).depth < (world.thread id).limit) :
      Move host ⟨.enter id (.evaluate frame), stack, world⟩
        ⟨.run id frame, stack,
          world.setThread id { world.thread id with depth := (world.thread id).depth + 1 }⟩
  | skipped {id frame stack world module} (installed : (world.thread id).module? = some module)
      (skip : (world.cache module frame.code.id).isSkip = true) :
      Move host ⟨.enter id (.intercept frame), stack, world⟩
        ⟨.enter id (.evaluate frame), stack, world⟩
  | asked {id frame stack world module callback}
      (installed : (world.thread id).module? = some module)
      (present : (world.thread id).callback? = some callback)
      (wanted : (world.cache module frame.code.id).isSkip = false) :
      Move host ⟨.enter id (.intercept frame), stack, world⟩
        ⟨.program (.consulted id (frame.materialize world.heap) module
            (world.cache module frame.code.id))
          (host.callback callback id (frame.materialize world.heap)
            (world.cache module frame.code.id).length),
          stack, world.setDispatch id .default⟩
  | entered {id function arguments stack world frame edits}
      (fits : Frame.enter world.heap (world.builtins id) function arguments = .ok (frame, edits)) :
      Move host ⟨.enter id (.call (.function function) arguments), stack, world⟩
        ⟨.enter id (.dispatch frame), stack, world.edit edits⟩
  | mismatched {id function arguments stack world fault}
      (misfits : Frame.enter world.heap (world.builtins id) function arguments = .error fault) :
      Move host ⟨.enter id (.call (.function function) arguments), stack, world⟩
        ⟨.give (.error fault), stack, world⟩
  | native {id native arguments stack world result}
      (own : Builtin.answer? world.heap arguments native.routine = some result) :
      Move host ⟨.enter id (.call (.native native) arguments), stack, world⟩
        ⟨.give result, stack, world⟩
  | byNative {id native arguments stack world index} (foreign : native.routine = .hosted index) :
      Move host ⟨.enter id (.call (.native native) arguments), stack, world⟩
        ⟨.program .hosted (host.native index arguments), stack, world⟩
  | uncallable {id callee arguments stack world} (foreign : callee.isCallable = false) :
      Move host ⟨.enter id (.call callee arguments), stack, world⟩
        ⟨.give (.error (.notCallable callee.kind)), stack, world⟩
  | ran {id frame stack world after edits} (progress : frame.step world.heap = .next after edits) :
      Move host ⟨.run id frame, stack, world⟩ ⟨.run id after, stack, world.edit edits⟩
  | called {id frame stack world after callee arguments}
      (progress : frame.step world.heap = .call after callee arguments) :
      Move host ⟨.run id frame, stack, world⟩
        ⟨.enter id (.call callee arguments), .frame id after :: stack, world⟩
  | left {id frame stack world result} (progress : frame.step world.heap = .leave result) :
      Move host ⟨.run id frame, stack, world⟩ ⟨.give result, stack, leave world id⟩
  | resumed {value id frame stack world} :
      Move host ⟨.give (.ok value), .frame id frame :: stack, world⟩
        ⟨.run id (frame.push value), stack, world⟩
  | unwound {fault id frame stack world} :
      Move host ⟨.give (.error fault), .frame id frame :: stack, world⟩
        ⟨.give (.error fault), stack, leave world id⟩
  | replied {result role next stack world} :
      Move host ⟨.give result, .program role next :: stack, world⟩
        ⟨.program role (next result), stack, world⟩
  | failed {id frame module cached fault stack world} :
      Move host ⟨.program (.consulted id frame module cached) (.done (.error fault)), stack, world⟩
        ⟨.give (.error fault), stack, world⟩
  | missed {id frame module cached stack world} :
      Move host ⟨.program (.consulted id frame module cached) (.done (.ok none)), stack, world⟩
        ⟨.enter id (.evaluate frame), stack,
          (world.storeCache module frame.code.id .skip).setDispatch id .intercept⟩
  | replaced {id frame module cached replacement stack world shadow}
      (fits : frame.shadow (world.heap.code replacement.code) (world.builtins id) = .ok shadow) :
      Move host
        ⟨.program (.consulted id frame module cached) (.done (.ok (some replacement))), stack,
          world⟩
        ⟨.enter id (.evaluate shadow), stack,
          (world.storeCache module frame.code.id (cached.prepend replacement)).setDispatch id
            .intercept⟩
  | rejected {id frame module cached replacement stack world fault}
      (misfits : frame.shadow (world.heap.code replacement.code) (world.builtins id) =
        .error fault) :
      Move host
        ⟨.program (.consulted id frame module cached) (.done (.ok (some replacement))), stack,
          world⟩
        ⟨.give (.error fault), stack,
          (world.storeCache module frame.code.id (cached.prepend replacement)).setDispatch id
            .intercept⟩
  | dispatched {result stack world} :
      Move host ⟨.program .hosted (.done result), stack, world⟩ ⟨.give result, stack, world⟩
  | performed {role action next stack world reply after}
      (applied : Action.apply world action = .ok (reply, after)) :
      Move host ⟨.program role (.perform action next), stack, world⟩
        ⟨.program role (next reply), stack, after⟩
  | launched {role id entry next stack world} :
      Move host ⟨.program role (.launch id entry next), stack, world⟩
        ⟨.enter id entry, .program role next :: stack, world⟩

private theorem call_move (host : Host σ) (world : World σ) (id : ThreadId)
    (stack : List (Activation σ α)) (callee : Value) (arguments : List Value) :
    Move host ⟨.enter id (.call callee arguments), stack, world⟩
      ⟨(call host world id arguments callee : Control σ α × World σ).1, stack,
        (call host world id arguments callee : Control σ α × World σ).2⟩ := by
  cases callee with
  | function function =>
    cases entry : Frame.enter world.heap (world.builtins id) function arguments with
    | ok made =>
      simp only [call, World.enter, entry]
      exact .entered entry
    | error fault =>
      simp only [call, World.enter, entry]
      exact .mismatched entry
  | native native =>
    cases routine : native.routine with
    | hosted index =>
      simp only [call, routine]
      exact .byNative routine
    | abs | len | max | str =>
      simp only [call, routine]
      exact .native (by rw [routine]; rfl)
  | nil | bool | int | float | str | code | cell => exact .uncallable rfl

/-- A step that ends the run. -/
inductive Stop (host : Host σ) : Machine σ α → Outcome σ α → Prop
  | finished {result stack world} :
      Stop host ⟨.program .client (.done result), stack, world⟩ (.finished result world)
  | given {result world} : Stop host ⟨.give result, [], world⟩ (.given result world)
  | noModule {id frame stack world} (missing : (world.thread id).module? = none) :
      Stop host ⟨.enter id (.intercept frame), stack, world⟩ (.fatal .noModule)
  | noCallback {id frame stack world module}
      (installed : (world.thread id).module? = some module)
      (missing : (world.thread id).callback? = none)
      (wanted : (world.cache module frame.code.id).isSkip = false) :
      Stop host ⟨.enter id (.intercept frame), stack, world⟩ (.fatal .noCallback)
  | broken {id frame stack world} (progress : frame.step world.heap = .broken) :
      Stop host ⟨.run id frame, stack, world⟩ .broken
  | fatal {role action next stack world cause} (refused : Action.apply world action = .error cause) :
      Stop host ⟨.program role (.perform action next), stack, world⟩ (.fatal cause)

private theorem step_spec (host : Host σ) (machine : Machine σ α) :
    match step host machine with
    | .next after => Move host machine after
    | .halt outcome => Stop host machine outcome := by
  obtain ⟨control, stack, world⟩ := machine
  match control with
  | .enter id (.dispatch frame) =>
    cases chosen : (world.thread id).dispatch <;> simp only [step, chosen]
    · exact .byEngine chosen
    · exact .byInterceptor chosen
    · exact .byHost chosen
  | .enter id (.evaluate frame) =>
    by_cases full : (world.thread id).limit ≤ (world.thread id).depth
    · simp only [step, evaluate, if_pos full]
      exact .refused full
    · simp only [step, evaluate, if_neg full]
      exact .started (Nat.not_le.mp full)
  | .enter id (.intercept frame) =>
    cases installed : (world.thread id).module? with
    | none =>
      simp only [step, intercept, installed]
      exact .noModule installed
    | some module =>
      cases skip : (world.cache module frame.code.id).isSkip with
      | true =>
        simp only [step, intercept, installed, skip, if_true]
        exact .skipped installed skip
      | false =>
        cases present : (world.thread id).callback? with
        | none =>
          simp only [step, intercept, installed, skip, present]
          exact .noCallback installed present skip
        | some callback =>
          simp only [step, intercept, installed, skip, present]
          exact .asked installed present skip
  | .enter id (.call callee arguments) => exact call_move host world id stack callee arguments
  | .run id frame =>
    cases progress : frame.step world.heap <;> simp only [step, progress]
    · exact .ran progress
    · exact .called progress
    · exact .left progress
    · exact .broken progress
  | .give result =>
    match stack, result with
    | [], result =>
      cases result <;> exact .given
    | .frame id frame :: stack, .ok value => exact .resumed
    | .frame id frame :: stack, .error fault => exact .unwound
    | .program role next :: stack, .ok value => exact .replied
    | .program role next :: stack, .error fault => exact .replied
  | .program .client (.done result) => exact .finished
  | .program .hosted (.done result) => exact .dispatched
  | .program (.consulted id frame module cached) (.done (.error fault)) => exact .failed
  | .program (.consulted id frame module cached) (.done (.ok none)) => exact .missed
  | .program (.consulted id frame module cached) (.done (.ok (some replacement))) =>
    cases migrated : frame.shadow (world.heap.code replacement.code) (world.builtins id) with
    | ok shadow =>
      simp only [step, finish, answer, World.builtins_setDispatch, World.builtins_storeCache,
        World.heap_setDispatch, World.heap_storeCache, migrated]
      exact .replaced migrated
    | error fault =>
      simp only [step, finish, answer, World.builtins_setDispatch, World.builtins_storeCache,
        World.heap_setDispatch, World.heap_storeCache, migrated]
      exact .rejected migrated
  | .program role (.perform action next) =>
    cases applied : Action.apply world action with
    | ok answered =>
      simp only [step, applied]
      exact .performed applied
    | error cause =>
      simp only [step, applied]
      exact .fatal applied
  | .program role (.launch id entry next) => exact .launched

theorem Move.step_eq {host : Host σ} {before after : Machine σ α} (move : Move host before after) :
    step host before = .next after := by
  cases move with
  | byEngine chosen | byInterceptor chosen | byHost chosen => simp only [step, chosen]
  | refused full => simp only [step, evaluate, if_pos full]
  | started room => simp only [step, evaluate, if_neg (Nat.not_le.mpr room)]
  | skipped installed skip => simp only [step, intercept, installed, skip, if_true]
  | asked installed present wanted => simp [step, intercept, installed, present, wanted]
  | entered fits => simp only [step, call, World.enter, fits]
  | mismatched misfits => simp only [step, call, World.enter, misfits]
  | @native id native arguments stack world result own =>
    cases routine : native.routine <;> rw [routine] at own <;> cases own <;>
      simp only [step, call, routine]
  | byNative foreign => simp only [step, call, foreign]
  | @uncallable id callee arguments stack world foreign =>
    cases callee <;> first | rfl | cases foreign
  | ran progress | called progress | left progress => simp only [step, progress]
  | resumed | unwound | failed | missed | dispatched | launched => rfl
  | @replied result role next stack world => cases result <;> rfl
  | replaced migrated | rejected migrated =>
    simp only [step, finish, answer, World.builtins_setDispatch, World.builtins_storeCache,
      World.heap_setDispatch, World.heap_storeCache, migrated]
  | performed applied => simp only [step, applied]

theorem step_eq_next_iff {host : Host σ} {before after : Machine σ α} :
    step host before = .next after ↔ Move host before after :=
  ⟨fun stepped => by simpa only [stepped] using step_spec host before, Move.step_eq⟩

theorem step_eq_halt_iff {host : Host σ} {machine : Machine σ α} {outcome : Outcome σ α} :
    step host machine = .halt outcome ↔ Stop host machine outcome := by
  refine ⟨fun stepped => by simpa only [stepped] using step_spec host machine, ?_⟩
  intro stop
  cases stop with
  | finished => rfl
  | @given result world => cases result <;> rfl
  | noModule missing => simp only [step, intercept, missing]
  | noCallback installed missing wanted => simp [step, intercept, installed, missing, wanted]
  | broken progress => simp only [step, progress]
  | fatal refused => simp only [step, refused]

/-- What waits after a move waited before, or it is the frame of a call or a program that launched
something. -/
theorem Move.waiting {host : Host σ} {before after : Machine σ α} (move : Move host before after)
    {activation : Activation σ α} (member : activation ∈ after.stack) :
    activation ∈ before.stack ∨ (∃ id frame, activation = .frame id frame) ∨
      ∃ role id entry next, before.control = .program role (.launch id entry next) ∧
        activation = .program role next := by
  cases move with
  | called progress =>
    rcases List.mem_cons.mp member with rfl | below
    · exact .inr (.inl ⟨_, _, rfl⟩)
    · exact .inl below
  | launched =>
    rcases List.mem_cons.mp member with rfl | below
    · exact .inr (.inr ⟨_, _, _, _, rfl, rfl⟩)
    · exact .inl below
  | resumed | unwound | replied => exact .inl (List.mem_cons_of_mem _ member)
  | _ => exact .inl member

theorem move_of_answer (host : Host σ) (id : ThreadId) (frame : Frame) (module : HookModule)
    (cached : CacheState) (answered : Except Fault (Option Replacement))
    (stack : List (Activation σ α)) (world : World σ) :
    ∃ after,
      Move host ⟨.program (.consulted id frame module cached) (.done answered), stack, world⟩
        after :=
  ⟨_, step_eq_next_iff.mp rfl⟩

end Machine

end Interpose
