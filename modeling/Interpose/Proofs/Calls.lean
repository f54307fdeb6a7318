import Interpose.Proofs.Entry
import Interpose.Proofs.Variables

/-! A call takes its arguments and the callee from the operand stack and hands them on in the order
in which they were pushed. The frame waits with the rest of its stack, untouched until the result is
given, and goes on with the result on top. -/

namespace Interpose
variable {σ α : Type}

namespace Frame

def past (frame : Frame) (stack : List Value) : Frame :=
  { frame with stack, pc := frame.pc + 1 }

theorem poppingMany_eq {frame : Frame} {values rest : List Value}
    (held : frame.stack = values.reverse ++ rest) (go : List Value → Frame → Progress) :
    frame.poppingMany values.length go = go values { frame with stack := rest } := by
  have enough : values.length ≤ frame.stack.length := by
    rw [held, List.length_append, List.length_reverse]
    exact Nat.le_add_right _ _
  have taken : frame.stack.take values.length = values.reverse := by
    rw [held, List.take_left' (List.length_reverse)]
  have left : frame.stack.drop values.length = rest := by
    rw [held, List.drop_left' (List.length_reverse)]
  rw [poppingMany, if_neg (Nat.not_lt.mpr enough), taken, left, List.reverse_reverse]

theorem step_call {frame : Frame} {callee : Value} {arguments rest : List Value}
    (fetched : frame.code.instructions[frame.pc]? = some (.call arguments.length))
    (held : frame.stack = arguments.reverse ++ callee :: rest) (heap : Heap) :
    frame.step heap = .call (frame.past rest) callee arguments := by
  have held : Frame.stack { frame with pc := frame.pc + 1 } =
      arguments.reverse ++ callee :: rest := held
  simp only [step, fetched, execute, poppingMany_eq held, popping, past]

/-- The arguments are the first locals of the frame of a function, in their order. -/
theorem arguments_of_enter {heap : Heap} {builtins : NamespaceId} {function : Function}
    {arguments : List Value} {frame : Frame} {edits : List HeapEdit}
    (fits : Frame.enter heap builtins function arguments = .ok (frame, edits)) :
    frame.slots.take arguments.length = arguments.map some := by
  obtain ⟨_, _, rfl⟩ := enter_eq_ok fits
  simp only [entrySlots, List.append_assoc]
  exact List.take_left' (List.length_map _)

end Frame

namespace Machine
variable {host : Host σ} {start before after machine : Machine σ α}
  {below : List (Activation σ α)}

/-- What lies under a result that is not given yet stays where it is. -/
theorem Move.above (move : Move host before after)
    (stacked : ∃ above, before.stack = above ++ below)
    (pending : ∀ result world, before ≠ ⟨.give result, below, world⟩) :
    ∃ above, after.stack = above ++ below := by
  obtain ⟨above, stack⟩ := stacked
  cases move with
  | called | launched => exact ⟨_ :: above, congrArg (_ :: ·) stack⟩
  | resumed | unwound | replied =>
    cases above with
    | nil =>
      have given := pending _ _ (congrArg (Machine.mk _ · _) stack)
      exact given.elim
    | cons top above => exact ⟨above, (List.cons.inj stack).2⟩
  | _ => exact ⟨above, stack⟩

theorem above_of_run {fuel : Nat} (stacked : ∃ above, start.stack = above ++ below)
    (met : run host fuel start = .next machine) (lasts : Lasts host start below fuel) :
    ∃ above, machine.stack = above ++ below := by
  induction fuel generalizing machine with
  | zero =>
    cases met
    exact stacked
  | succ fuel ih =>
    obtain ⟨before, reached, move⟩ := exists_move_of_run met
    have sooner : Lasts host start below fuel :=
      fun earlier early => lasts earlier (Nat.le_succ_of_le early)
    refine move.above (ih reached sooner) ?_
    rintro result world rfl
    exact lasts fuel (Nat.le_succ fuel) result world reached

structure WiresCall (host : Host σ) (id : ThreadId) (frame : Frame) (callee : Value)
    (arguments rest : List Value) (below : List (Activation σ α)) (world : World σ) : Prop where
  /-- The callee is called with the arguments, and the frame waits with the rest of its stack. -/
  called : step host ⟨.run id frame, below, world⟩ =
    .next ⟨.enter id (.call callee arguments), .frame id (frame.past rest) :: below, world⟩
  /-- A function finds the arguments as its first locals. -/
  function : ∀ function made edits, callee = .function function →
    Frame.enter world.heap (world.builtins id) function arguments = .ok (made, edits) →
    run host 2 ⟨.run id frame, below, world⟩ =
        .next ⟨.enter id (.dispatch made), .frame id (frame.past rest) :: below,
          world.edit edits⟩ ∧
      made.slots.take arguments.length = arguments.map some
  /-- A native function of the engine answers at once. -/
  native : ∀ native result, callee = .native native →
    Builtin.answer? world.heap arguments native.routine = some result →
    run host 2 ⟨.run id frame, below, world⟩ =
      .next ⟨.give result, .frame id (frame.past rest) :: below, world⟩
  /-- One of the host runs above the frame that waits for it. -/
  byNative : ∀ native index, callee = .native native → native.routine = .hosted index →
    run host 2 ⟨.run id frame, below, world⟩ =
      .next ⟨.program .hosted (host.native index arguments), .frame id (frame.past rest) :: below,
        world⟩
  foreign : callee.isCallable = false →
    run host 2 ⟨.run id frame, below, world⟩ =
      .next ⟨.give (.error (.notCallable callee.kind)), .frame id (frame.past rest) :: below,
        world⟩
  /-- Until the result is given, the frame is under whatever runs. -/
  waits : ∀ fuel machine, run host (fuel + 1) ⟨.run id frame, below, world⟩ = .next machine →
    Lasts host ⟨.run id frame, below, world⟩ (.frame id (frame.past rest) :: below) (fuel + 1) →
    ∃ above, machine.stack = above ++ .frame id (frame.past rest) :: below
  /-- On success the frame goes on with the result on what was below the callee. -/
  returned : ∀ fuel value after,
    run host fuel ⟨.run id frame, below, world⟩ =
      .next ⟨.give (.ok value), .frame id (frame.past rest) :: below, after⟩ →
    run host (fuel + 1) ⟨.run id frame, below, world⟩ =
      .next ⟨.run id (frame.past (value :: rest)), below, after⟩

theorem wiresCall_of_fetched (host : Host σ) (id : ThreadId) {frame : Frame} {callee : Value}
    {arguments rest : List Value}
    (fetched : frame.code.instructions[frame.pc]? = some (.call arguments.length))
    (held : frame.stack = arguments.reverse ++ callee :: rest) (below : List (Activation σ α))
    (world : World σ) : WiresCall host id frame callee arguments rest below world := by
  have move : Move host ⟨.run id frame, below, world⟩ _ :=
    .called (Frame.step_call fetched held world.heap)
  have first := @run_move _ _ host 0 _ _ _ rfl move
  constructor
  case called => exact move.step_eq
  case function =>
    rintro function made edits rfl fits
    exact ⟨run_move first (.entered fits), Frame.arguments_of_enter fits⟩
  case native =>
    rintro native result rfl own
    exact run_move first (.native own)
  case byNative =>
    rintro native index rfl foreign
    exact run_move first (.byNative foreign)
  case foreign =>
    intro foreign
    exact run_move first (.uncallable foreign)
  case waits =>
    intro fuel machine met lasts
    have onward (more : Nat) : run host (more + 1) ⟨.run id frame, below, world⟩ =
        run host more ⟨.enter id (.call callee arguments), .frame id (frame.past rest) :: below,
          world⟩ := by
      rw [run, Transition.run, move.step_eq]
    rw [onward] at met
    refine above_of_run ⟨[], rfl⟩ met ?_
    intro earlier early result present
    rw [← onward]
    exact lasts (earlier + 1) (Nat.succ_le_succ early) result present
  case returned =>
    intro fuel value after met
    exact run_move met .resumed

end Machine

end Interpose
