import Interpose.Proofs.Conduct
import Interpose.Proofs.Depth
import Interpose.Proofs.Operands

/-! The engine never misses an index. Its units were checked when they were built, and its frames have
the slots of their units from the start: when a call or a migration makes them, and at every step
from then on. -/

namespace Interpose
variable {σ α : Type}

def Entry.held : Entry → List Frame
  | .dispatch frame => [frame]
  | .evaluate frame => [frame]
  | .intercept frame => [frame]
  | .call _ _ => []

def Role.held : Role → List Frame
  | .consulted _ frame _ _ => [frame]
  | _ => []

def Control.held : Control σ α → List Frame
  | .enter _ entry => entry.held
  | .run _ frame => [frame]
  | .give _ => []
  | .program role _ => role.held

def Activation.held : Activation σ α → List Frame
  | .frame _ waiting => [waiting]
  | .program role _ => role.held

/-- A request leaves only units that can be run. -/
theorem Action.operable_apply {world after : World σ} {action : Action σ} {reply : action.Reply}
    (applied : action.apply world = .ok (reply, after)) (operable : world.heap.Operable) :
    after.heap.Operable := by
  cases action with
  | edit change =>
    cases applied
    exact operable.editAll [change]
  | build unit =>
    simp only [apply, World.build] at applied
    split at applied
    next made built =>
      cases applied
      exact operable.addCode (Blueprint.operable_of_build built)
    next =>
      cases applied
      exact operable
  | newInterpreter =>
    cases applied
    rw [World.heap_addInterpreter]
    exact operable.editAll _
  | enter thread function arguments =>
    simp only [apply, World.enter] at applied
    split at applied <;> cases applied
    · exact operable.editAll _
    · exact operable
  | requestIndex owner =>
    simp only [apply, World.requestIndex] at applied
    split at applied <;> cases applied <;> exact operable
  | install thread module callback? =>
    simp only [apply, World.install] at applied
    split at applied <;> cases applied <;> exact operable
  | _ =>
    cases applied
    exact operable

namespace Machine

def held (machine : Machine σ α) : List Frame :=
  machine.control.held ++ machine.stack.flatMap Activation.held

theorem mem_held_cases {machine : Machine σ α} {frame : Frame} (member : frame ∈ machine.held) :
    frame ∈ machine.control.held ∨ ∃ activation ∈ machine.stack, frame ∈ activation.held := by
  rcases List.mem_append.mp member with top | below
  · exact .inl top
  · exact .inr (List.mem_flatMap.mp below)

theorem mem_held_of_waiting {machine : Machine σ α} {activation : Activation σ α} {frame : Frame}
    (waiting : activation ∈ machine.stack) (member : frame ∈ activation.held) :
    frame ∈ machine.held :=
  List.mem_append_right _ (List.mem_flatMap.mpr ⟨activation, waiting, member⟩)

structure Whole (machine : Machine σ α) : Prop where
  units : machine.world.heap.Operable
  frames : ∀ frame ∈ machine.held, frame.Sturdy

/-- A program hands in no frames but those that can be made. -/
def Genuine (machine : Machine σ α) : Prop :=
  match machine.control with
  | .program _ (.launch _ entry _) => ∀ frame ∈ entry.held, frame.Made
  | _ => True

variable {host : Host σ} {before after : Machine σ α}

private theorem Whole.onto (whole : before.Whole) {control : Control σ α}
    {stack : List (Activation σ α)} {world : World σ} (units : world.heap.Operable)
    (above : ∀ frame ∈ control.held, frame.Sturdy) (within : stack ⊆ before.stack) :
    Whole (⟨control, stack, world⟩ : Machine σ α) := by
  refine ⟨units, fun frame member => ?_⟩
  rcases mem_held_cases member with top | ⟨activation, waiting, held⟩
  · exact above frame top
  · exact whole.frames frame (mem_held_of_waiting (within waiting) held)

private theorem Whole.push (whole : before.Whole) {control : Control σ α}
    {activation : Activation σ α} (above : ∀ frame ∈ control.held, frame.Sturdy)
    (waiting : ∀ frame ∈ activation.held, frame.Sturdy) :
    Whole (⟨control, activation :: before.stack, before.world⟩ : Machine σ α) := by
  refine ⟨whole.units, fun frame member => ?_⟩
  rcases mem_held_cases member with top | ⟨other, pushed, held⟩
  · exact above frame top
  · rcases List.mem_cons.mp pushed with rfl | below
    · exact waiting frame held
    · exact whole.frames frame (mem_held_of_waiting below held)

private theorem Whole.top {id : ThreadId} {frame : Frame} {stack : List (Activation σ α)}
    {world : World σ} (whole : Whole (⟨.run id frame, stack, world⟩ : Machine σ α)) :
    frame.Sturdy :=
  whole.frames frame (List.mem_append_left _ List.mem_cons_self)

theorem Move.whole (move : Move host before after) (genuine : before.Genuine)
    (whole : before.Whole) : after.Whole := by
  have same := List.Subset.refl before.stack
  have units := whole.units
  have control (frame : Frame) (member : frame ∈ before.control.held) : frame.Sturdy :=
    whole.frames frame (List.mem_append_left _ member)
  have none (frame : Frame) (member : frame ∈ ([] : List Frame)) : frame.Sturdy :=
    absurd member List.not_mem_nil
  have one {held : Frame} (sturdy : held.Sturdy) (frame : Frame) (member : frame ∈ [held]) :
      frame.Sturdy := by
    rw [List.mem_singleton.mp member]
    exact sturdy
  cases move with
  | byEngine | byInterceptor | started | skipped | missed => exact whole.onto units control same
  | byHost | byNative | refused | mismatched | native | uncallable | failed | rejected | dispatched =>
    exact whole.onto units none same
  | asked =>
    refine whole.onto units (one ?_) same
    exact (control _ List.mem_cons_self).materialize _
  | @entered id function _ _ _ _ _ fits =>
    exact whole.onto (units.editAll _) (one (Frame.sturdy_enter (units function.code) fits)) same
  | ran progress =>
    obtain ⟨_, _, sturdy, _⟩ := (whole.top.stepsSafely _).next _ _ progress
    exact whole.onto (units.editAll _) (one sturdy) same
  | called progress =>
    obtain ⟨_, sturdy, _⟩ := (whole.top.stepsSafely _).called _ _ _ progress
    exact whole.push none (one sturdy)
  | left => exact whole.onto units none same
  | @resumed _ _ frame =>
    have waiting : frame.Sturdy :=
      whole.frames frame (mem_held_of_waiting List.mem_cons_self List.mem_cons_self)
    exact whole.onto units (one (waiting.push _)) (List.subset_cons_self _ _)
  | unwound => exact whole.onto units none (List.subset_cons_self _ _)
  | @replied _ role next stack =>
    refine whole.onto units (fun frame member => ?_) (List.subset_cons_self _ _)
    exact whole.frames frame (mem_held_of_waiting List.mem_cons_self member)
  | @replaced _ _ _ _ replacement _ _ _ fits =>
    have original := control _ List.mem_cons_self
    exact whole.onto units (one (original.shadow (units replacement.code) fits)) same
  | performed applied =>
    exact whole.onto (Action.operable_apply applied units) control same
  | launched => exact whole.push (fun frame member => (genuine frame member).sturdy) control

structure Safe (host : Host σ) (machine : Machine σ α) : Prop where
  /-- No step finds an operand outside its table. -/
  unbroken : step host machine ≠ .halt .broken
  /-- Every frame has all its slots, and a position in its body or right behind it. -/
  held : ∀ frame ∈ machine.held, frame.Sturdy
  steps : ∀ id frame, machine.control = .run id frame → frame.StepsSafely machine.world.heap
  /-- A call finds a slot for every argument, cell and free variable. -/
  enters : ∀ builtins function arguments frame edits,
    Frame.enter machine.world.heap builtins function arguments = .ok (frame, edits) →
    frame.code.argumentCount ≤ frame.code.locals.length ∧ frame.Sturdy
  /-- A migration copies whole regions of slots to where the replacement has room for them. -/
  migrates : ∀ (frame : Frame) code builtins shadow, frame.Sturdy →
    frame.shadow (machine.world.heap.code code) builtins = .ok shadow →
    frame.code.locals.length + frame.code.derefNames.length = frame.slots.length ∧
    frame.code.locals.length ≤ shadow.code.locals.length ∧
    shadow.code.locals.length + frame.code.derefNames.length = shadow.slots.length ∧ shadow.Sturdy
  /-- The depth of a thread that runs a frame does not pass its limit. -/
  within : ∀ id frame, machine.control = .run id frame →
    (machine.world.thread id).depth ≤ (machine.world.thread id).limit

theorem Whole.safe {machine : Machine σ α} (whole : machine.Whole)
    (within : ∀ id frame, machine.control = .run id frame →
      (machine.world.thread id).depth ≤ (machine.world.thread id).limit) :
    Safe host machine where
  unbroken broken := by
    cases step_eq_halt_iff.mp broken with
    | broken progress => exact (whole.top.stepsSafely _).unbroken progress
  held := whole.frames
  steps id frame running := by
    obtain ⟨_, stack, world⟩ := machine
    cases running
    exact whole.top.stepsSafely _
  enters builtins function arguments frame edits fits := by
    have sturdy := Frame.sturdy_enter (whole.units function.code) fits
    exact ⟨sturdy.unit.parameters, sturdy⟩
  migrates frame code builtins shadow sturdy fits := by
    have moved := sturdy.shadow (whole.units code) fits
    obtain ⟨locals, cells, frees, made⟩ := Frame.shadow_eq_ok_iff.mp fits
    have width : shadow.code.derefNames.length = frame.code.derefNames.length := by
      rw [made, Blueprint.derefNames, Blueprint.derefNames, List.length_append, List.length_append,
        cells, frees]
    refine ⟨?_, ?_, ?_, moved⟩
    · rw [sturdy.slots, Blueprint.slotCount_eq]
    · rw [made]
      exact locals
    · rw [moved.slots, Blueprint.slotCount_eq, width]
  within := within

structure RunsSafely (host : Host σ) (start : World σ) (client : Program σ α) : Prop where
  met : ∀ machine, Transition.Meets (step host) (ofProgram start client) machine →
    Safe host machine
  ends : ¬ Transition.Ends (step host) (ofProgram start client) .broken

theorem runsSafely_of_genuine {start : World σ} {client : Program σ α}
    (accepted : ∀ unit ∈ start.heap.codes.rows, unit.Accepted)
    (genuine : ∀ machine, Transition.Meets (step host) (ofProgram start client) machine →
      machine.Genuine) :
    RunsSafely host start client := by
  have safe (machine : Machine σ α)
      (met : Transition.Meets (step host) (ofProgram start client) machine) :
      Safe host machine := by
    have whole : machine.Whole := by
      refine met_keeps (fun before _ met whole move => move.whole (genuine before met) whole) ?_ met
      exact ⟨Heap.operable_of_accepted accepted, fun _ member => absurd member List.not_mem_nil⟩
    refine whole.safe fun id frame running => ?_
    obtain ⟨control, stack, world⟩ := machine
    have running : control = .run id frame := running
    subst running
    exact (paced_of_met met).within id (frames_run_pos id frame stack world)
  refine ⟨safe, fun ended => ?_⟩
  obtain ⟨machine, met, stopped⟩ := ended.last
  exact (safe machine met).unbroken stopped

end Machine

def Conduct.making : Conduct σ where
  performs _ := True
  launches _ entry := ∀ frame ∈ entry.held, frame.Made

namespace Machine

theorem Follows.genuine {machine : Machine σ α} (follows : machine.Follows .making) :
    machine.Genuine := by
  obtain ⟨control, stack, world⟩ := machine
  have above := follows.control
  match control with
  | .program role (.launch id entry next) => exact above.1
  | .program role (.done result) | .program role (.perform action next) => exact trivial
  | .enter id entry | .run id frame | .give result => exact trivial

theorem accepted_one : Blueprint.one.Accepted :=
  ⟨"one", [.constants [.int 1], .instructions [.loadConst 0, .returnValue]], rfl⟩

def repeating : Host Unit := .ofCallbacks fun _ _ _ _ => .done (.ok (some ⟨0, 0⟩))

theorem runsSafely_of_repeating :
    RunsSafely repeating (World.single #[.one] (.intercepting ⟨⟨0⟩⟩ 0))
      (Program.run 0 (.dispatch (.blank { Blueprint.one with id := 0 } 0 0))) := by
  refine runsSafely_of_genuine ?_ fun machine met => ?_
  · intro unit member
    rw [List.mem_singleton.mp (Array.mem_toList_iff.mpr member)]
    exact accepted_one
  · have served : repeating.Follows .making := Host.follows_ofCallbacks fun _ _ _ _ => trivial
    have client : Program.Follows .making
        (Program.run 0 (.dispatch (.blank { Blueprint.one with id := 0 } 0 0)) :
          Program Unit (Except Fault Value)) := by
      refine ⟨fun frame member => ?_, fun _ => trivial⟩
      rw [List.mem_singleton.mp member]
      exact .blank accepted_one 0 0
    exact (follows_of_met client served met).genuine

end Machine

end Interpose
