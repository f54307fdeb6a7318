import Interpose.Proofs.History
import Interpose.Proofs.Isolation

/-! The depth of a thread counts its frames. It goes up when the engine starts a frame and down when
that frame is left, however it is left and whatever ran in between. So a call leaves every depth as
it found it, and no thread gets deeper than its limit. -/

namespace Interpose
variable {σ α : Type}

def Control.frames (id : ThreadId) : Control σ α → Nat
  | .run thread _ => if thread = id then 1 else 0
  | _ => 0

def Activation.isFrame (id : ThreadId) : Activation σ α → Bool
  | .frame thread _ => thread = id
  | .program _ _ => false

namespace World

theorem depth_setDispatch (world : World σ) (id other : ThreadId) (dispatch : Dispatch) :
    ((world.setDispatch id dispatch).thread other).depth = (world.thread other).depth := by
  rw [thread_setDispatch]
  split
  next same => rw [same]
  next => rfl

theorem limit_setDispatch (world : World σ) (id other : ThreadId) (dispatch : Dispatch) :
    ((world.setDispatch id dispatch).thread other).limit = (world.thread other).limit := by
  rw [thread_setDispatch]
  split
  next same => rw [same]
  next => rfl

theorem depth_setDepth (world : World σ) (id other : ThreadId) (depth : Nat) :
    ((world.setThread id { world.thread id with depth }).thread other).depth =
      if other = id then depth else (world.thread other).depth := by
  rw [thread_setThread]
  split <;> rfl

theorem limit_setDepth (world : World σ) (id other : ThreadId) (depth : Nat) :
    ((world.setThread id { world.thread id with depth }).thread other).limit =
      (world.thread other).limit := by
  rw [thread_setThread]
  split
  next same => rw [same]
  next => rfl

end World

/-- Requests neither start nor leave frames. Only a new thread can have another limit than before,
and it has no frames. -/
theorem Action.depth_apply {world after : World σ} {action : Action σ} {reply : action.Reply}
    (applied : action.apply world = .ok (reply, after)) (id : ThreadId) :
    (after.thread id).depth = (world.thread id).depth ∧
      ((after.thread id).limit = (world.thread id).limit ∨ (after.thread id).depth = 0) := by
  cases action with
  | newThread owner most =>
    cases applied
    simp only [World.thread, Table.get_push]
    split
    next fresh =>
      rw [fresh, Table.get_of_size_le (Nat.le_refl _)]
      exact ⟨rfl, .inr rfl⟩
    next => exact ⟨rfl, .inl rfl⟩
  | setDispatch thread dispatch =>
    cases applied
    exact ⟨World.depth_setDispatch _ _ _ _, .inl (World.limit_setDispatch _ _ _ _)⟩
  | install thread module callback? =>
    cases callback? <;> simp only [apply, World.install] at applied <;> split at applied <;>
      cases applied <;> rw [World.thread_setThread] <;> split <;> simp_all
  | build unit =>
    simp only [apply, World.build] at applied
    split at applied <;> cases applied <;> exact ⟨rfl, .inl rfl⟩
  | requestIndex owner =>
    simp only [apply, World.requestIndex] at applied
    split at applied <;> cases applied <;> exact ⟨rfl, .inl rfl⟩
  | enter thread function arguments =>
    simp only [apply, World.enter] at applied
    split at applied <;> cases applied <;> exact ⟨rfl, .inl rfl⟩
  | newInterpreter =>
    cases applied
    simp only [World.thread, World.threads_addInterpreter]
    exact ⟨trivial, .inl trivial⟩
  | _ =>
    cases applied
    exact ⟨rfl, .inl rfl⟩

namespace Machine

/-- The number of frames of a thread that run or wait. -/
def frames (id : ThreadId) (machine : Machine σ α) : Nat :=
  machine.control.frames id + machine.stack.countP (·.isFrame id)

theorem frames_run_pos (id : ThreadId) (frame : Frame) (stack : List (Activation σ α))
    (world : World σ) : 0 < (⟨.run id frame, stack, world⟩ : Machine σ α).frames id := by
  simp only [frames, Control.frames, if_true]
  omega

def left? : Machine σ α → Option ThreadId
  | ⟨.run id frame, _, world⟩ =>
    match frame.step world.heap with
    | .leave _ => some id
    | _ => none
  | ⟨.give (.error _), .frame id _ :: _, _⟩ => some id
  | _ => none

/-- Since the start of a run, depths went up by one for each frame that is still there, and threads
with frames are within their limits. -/
structure Paced (start : World σ) (machine : Machine σ α) : Prop where
  depth : ∀ id, (machine.world.thread id).depth = (start.thread id).depth + machine.frames id
  within : ∀ id, 0 < machine.frames id →
    (machine.world.thread id).depth ≤ (machine.world.thread id).limit

variable {host : Host σ} {start : World σ} {before after : Machine σ α}

private theorem Paced.same (paced : Paced start before)
    (frames : ∀ id, after.frames id = before.frames id)
    (depth : ∀ id, (after.world.thread id).depth = (before.world.thread id).depth)
    (limit : ∀ id, (after.world.thread id).limit = (before.world.thread id).limit) :
    Paced start after where
  depth id := by rw [depth, frames]; exact paced.depth id
  within id := by rw [depth, limit, frames]; exact paced.within id

private theorem Paced.left {id : ThreadId} {stack : List (Activation σ α)}
    {result : Except Fault Value} (paced : Paced start before)
    (frames : ∀ other, before.frames other =
      (if id = other then 1 else 0) + stack.countP (·.isFrame other)) :
    Paced start (⟨.give result, stack, leave before.world id⟩ : Machine σ α) := by
  have rest (other : ThreadId) : (⟨.give result, stack, leave before.world id⟩ :
      Machine σ α).frames other = stack.countP (·.isFrame other) := Nat.zero_add _
  constructor <;> intro other
  · have depth := paced.depth other
    rw [frames other] at depth
    rw [rest, leave, World.depth_setDepth]
    by_cases same : other = id
    · subst same
      rw [if_pos rfl] at depth
      rw [if_pos rfl, depth]
      omega
    · rw [if_neg (Ne.symm same), Nat.zero_add] at depth
      rw [if_neg same, depth]
  · intro present
    have within := paced.within other
    rw [rest] at present
    rw [frames other] at within
    have bound := within (by omega)
    rw [leave, World.depth_setDepth, World.limit_setDepth]
    split
    next same =>
      rw [same] at bound ⊢
      exact Nat.le_trans (Nat.sub_le _ _) bound
    next => exact bound

private theorem Paced.started {id : ThreadId} {frame : Frame} {stack : List (Activation σ α)}
    {world : World σ}
    (paced : Paced start (⟨.enter id (.evaluate frame), stack, world⟩ : Machine σ α))
    (room : (world.thread id).depth < (world.thread id).limit) :
    Paced start (⟨.run id frame, stack,
      world.setThread id { world.thread id with depth := (world.thread id).depth + 1 }⟩ :
      Machine σ α) := by
  constructor <;> intro other
  · have depth : (world.thread other).depth =
        (start.thread other).depth + (0 + stack.countP (·.isFrame other)) := paced.depth other
    simp only [World.depth_setDepth, Machine.frames, Control.frames]
    by_cases same : other = id
    · subst same
      rw [if_pos rfl, if_pos rfl, depth]
      omega
    · rw [if_neg same, if_neg (Ne.symm same), depth]
  · intro present
    simp only [World.depth_setDepth, World.limit_setDepth]
    by_cases same : other = id
    · subst same
      rw [if_pos rfl]
      exact room
    · simp only [Machine.frames, Control.frames, if_neg (Ne.symm same)] at present
      rw [if_neg same]
      exact paced.within other present

theorem Move.paced (move : Move host before after) (paced : Paced start before) :
    Paced start after := by
  have redirected {control : Control σ α} {stack : List (Activation σ α)} {world : World σ}
      {id : ThreadId} {dispatch : Dispatch} (paced : Paced start ⟨control, stack, world⟩) :
      Paced start ⟨control, stack, world.setDispatch id dispatch⟩ :=
    paced.same (fun _ => rfl) (World.depth_setDispatch _ _ · _) (World.limit_setDispatch _ _ · _)
  have stacked : (∀ id, after.frames id = before.frames id) → after.world = before.world →
      Paced start after := by
    intro frames world
    exact paced.same frames (fun _ => by rw [world]) (fun _ => by rw [world])
  cases move with
  | started room => exact paced.started room
  | left progress => exact paced.left fun _ => rfl
  | unwound =>
    refine paced.left fun _ => ?_
    simp [frames, Control.frames, Activation.isFrame, List.countP_cons, Nat.add_comm]
  | called progress | resumed | replied | launched =>
    refine stacked (fun _ => ?_) rfl
    simp [frames, Control.frames, Activation.isFrame, List.countP_cons, Nat.add_comm]
  | asked installed present wanted =>
    exact redirected (paced.same (fun _ => rfl) (fun _ => rfl) fun _ => rfl)
  | missed | replaced fits | rejected misfits =>
    exact redirected (paced.same (fun _ => rfl) (fun _ => rfl) fun _ => rfl)
  | performed applied =>
    have changed := Action.depth_apply applied
    constructor <;> intro id
    · rw [(changed id).1]
      exact paced.depth id
    · intro present
      rcases (changed id).2 with same | none
      · rw [(changed id).1, same]
        exact paced.within id present
      · rw [none]
        exact Nat.zero_le _
  | _ => exact paced.same (fun _ => rfl) (fun _ => rfl) (fun _ => rfl)

theorem paced_of_met {program : Program σ α} {machine : Machine σ α}
    (met : Transition.Meets (step host) (ofProgram start program) machine) :
    Paced start machine := by
  refine met_keeps (fun _ _ _ paced move => move.paced paced) ?_ met
  exact ⟨fun _ => rfl, fun _ present => absurd present (Nat.lt_irrefl 0)⟩

theorem Paced.left_pos {machine : Machine σ α} {id : ThreadId} (paced : Paced start machine)
    (leaves : machine.left? = some id) : 0 < (machine.world.thread id).depth := by
  have present : 0 < machine.frames id := by
    unfold left? at leaves
    split at leaves
    · split at leaves <;> cases leaves
      exact frames_run_pos _ _ _ _
    · cases leaves
      simp only [frames, Activation.isFrame, List.countP_cons, decide_true, if_true]
      omega
    · cases leaves
  rw [paced.depth]
  omega

/-- What becomes of depths in a run. Before the run a thread may have frames already, which its depth
counts; they are below all frames of the run. -/
structure Balanced (host : Host σ) (start : World σ) (program : Program σ α) : Prop where
  /-- At every point the depth of a thread is the number of its active frames. -/
  counted : ∀ machine id, Transition.Meets (step host) (ofProgram start program) machine →
    (machine.world.thread id).depth = (start.thread id).depth + machine.frames id
  /-- While an instruction is executed, its thread has a frame and is within its limit. -/
  within : ∀ id frame stack world,
    Transition.Meets (step host) (ofProgram start program) ⟨.run id frame, stack, world⟩ →
    1 ≤ (world.thread id).depth ∧ (world.thread id).depth ≤ (world.thread id).limit
  /-- A frame is started if its thread has fewer active frames than the limit allows. Otherwise its
  evaluation is a failure, and changes nothing. -/
  entered : ∀ id frame stack world,
    Transition.Meets (step host) (ofProgram start program)
      ⟨.enter id (.evaluate frame), stack, world⟩ →
    step host ⟨.enter id (.evaluate frame), stack, world⟩ =
      if (start.thread id).depth + stack.countP (·.isFrame id) < (world.thread id).limit then
        .next ⟨.run id frame, stack,
          world.setThread id { world.thread id with depth := (world.thread id).depth + 1 }⟩
      else .next ⟨.give (.error (.recursionLimit frame.code.name)), stack, world⟩
  /-- No frame is left on a thread of depth zero. -/
  left : ∀ machine id, Transition.Meets (step host) (ofProgram start program) machine →
    machine.left? = some id → 0 < (machine.world.thread id).depth
  /-- A program that waits for a frame or a call goes on with all depths as they were. -/
  returned : ∀ role id entry next stack early result late,
    Transition.Meets (step host) (ofProgram start program)
      ⟨.program role (.launch id entry next), stack, early⟩ →
    Transition.Meets (step host) ⟨.program role (.launch id entry next), stack, early⟩
      ⟨.give result, .program role next :: stack, late⟩ →
    ∀ other, (late.thread other).depth = (early.thread other).depth
  finished : ∀ result world,
    Transition.Ends (step host) (ofProgram start program) (.finished result world) →
    ∀ id, (world.thread id).depth = (start.thread id).depth

private theorem step_evaluate (host : Host σ) (id : ThreadId) (frame : Frame)
    (stack : List (Activation σ α)) (world : World σ) :
    step host ⟨.enter id (.evaluate frame), stack, world⟩ =
      if (world.thread id).depth < (world.thread id).limit then
        .next ⟨.run id frame, stack,
          world.setThread id { world.thread id with depth := (world.thread id).depth + 1 }⟩
      else .next ⟨.give (.error (.recursionLimit frame.code.name)), stack, world⟩ := by
  split
  next room => exact (Move.started room).step_eq
  next full => exact (Move.refused (Nat.not_lt.mp full)).step_eq

/-- Depths are balanced in every run, whatever the host does in it. -/
theorem depths_balanced (host : Host σ) (start : World σ) (program : Program σ α) :
    Balanced host start program where
  counted machine id met := (paced_of_met met).depth id
  within id frame stack world met := by
    have paced := paced_of_met met
    have present := frames_run_pos id frame stack world
    have depth : (world.thread id).depth = _ := paced.depth id
    exact ⟨by omega, paced.within id present⟩
  entered id frame stack world met := by
    have depth : (world.thread id).depth =
        (start.thread id).depth + (0 + stack.countP (·.isFrame id)) := (paced_of_met met).depth id
    rw [step_evaluate]
    rw [Nat.zero_add] at depth
    simp only [depth]
  left machine id met leaves := (paced_of_met met).left_pos leaves
  returned role id entry next stack early result late met returned other := by
    have first := (paced_of_met met).depth other
    have last := (paced_of_met (met.trans returned)).depth other
    have same : (⟨.give result, .program role next :: stack, late⟩ : Machine σ α).frames other =
        (⟨.program role (.launch id entry next), stack, early⟩ : Machine σ α).frames other := by
      simp [frames, Control.frames, Activation.isFrame]
    rw [same] at last
    exact last.trans first.symm
  finished result world ended id := by
    obtain ⟨machine, met, stopped⟩ := ended.last
    have paced := paced_of_met met
    cases step_eq_halt_iff.mp stopped with
    | @finished _ stack _ =>
      have rooted : Rooted (⟨.program .client (.done result), stack, world⟩ : Machine σ α) := by
        refine met_keeps (fun _ _ _ rooted move => move.rooted rooted) ?_ met
        exact rooted_ofProgram start program
      have alone : stack = [] := rooted
      subst alone
      exact paced.depth id

end Machine

end Interpose
