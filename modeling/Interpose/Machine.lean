import Interpose.Frame.Step
import Interpose.Program
import Interpose.Stepping

/-! The machine that runs frames and programs together. Calls nest in one stack: frames that wait
for a call, and programs that wait for a frame they launched. Every small step does one thing, so
what holds at each step holds at every point of a run. -/

namespace Interpose

/-- What a program on the stack is for. -/
inductive Role where
  | client
  /-- It answers for a callback: the frame was intercepted under a module that knew this much of its
  unit. -/
  | consulted (thread : ThreadId) (frame : Frame) (module : HookModule) (cached : CacheState)
  /-- It is a dispatch or a native function of the host. -/
  | hosted

/-- The result of a program in a role; the client's is of the type `α`. -/
abbrev Role.Result (α : Type) : Role → Type
  | client => α
  | consulted _ _ _ _ => Except Fault (Option Replacement)
  | hosted => Except Fault Value

/-- What waits for the result of a frame or a call. -/
inductive Activation (σ α : Type) where
  | frame (thread : ThreadId) (frame : Frame)
  | program (role : Role) (next : Except Fault Value → Program σ (role.Result α))

/-- What the machine does next. -/
inductive Control (σ α : Type) where
  | enter (thread : ThreadId) (entry : Entry)
  | run (thread : ThreadId) (frame : Frame)
  | give (result : Except Fault Value)
  | program (role : Role) (program : Program σ (role.Result α))

structure Machine (σ α : Type) where
  control : Control σ α
  stack : List (Activation σ α)
  world : World σ

inductive Outcome (σ α : Type) where
  | finished (result : α) (world : World σ)
  /-- A frame or call that nothing waits for gave its result. -/
  | given (result : Except Fault Value) (world : World σ)
  | fatal (cause : Fatal)
  | broken

namespace Machine
variable {σ α : Type}

/-- Starts evaluating a frame by the engine, unless the thread has no room for one more. -/
def evaluate (world : World σ) (id : ThreadId) (frame : Frame) : Control σ α × World σ :=
  let thread := world.thread id
  if thread.limit ≤ thread.depth then (.give (.error (.recursionLimit frame.code.name)), world)
  else (.run id frame, world.setThread id { thread with depth := thread.depth + 1 })

def leave (world : World σ) (id : ThreadId) : World σ :=
  let thread := world.thread id
  world.setThread id { thread with depth := thread.depth - 1 }

/-- Calls a value: a function gets a frame, a native function of the engine answers at once, and one
of the host runs as a program. -/
def call (host : Host σ) (world : World σ) (id : ThreadId) (arguments : List Value) :
    Value → Control σ α × World σ
  | .function function =>
    match world.enter id function arguments with
    | (.ok frame, world) => (.enter id (.dispatch frame), world)
    | (.error fault, world) => (.give (.error fault), world)
  | .native native =>
    match native.routine with
    | .abs => (.give (Builtin.abs arguments), world)
    | .len => (.give (Builtin.len arguments), world)
    | .max => (.give (Builtin.max arguments), world)
    | .str => (.give (Builtin.str world.heap arguments), world)
    | .hosted index => (.program .hosted (host.native index arguments), world)
  | other => (.give (.error (.notCallable other.kind)), world)

/-- Intercepts a frame. A unit that is to be left alone is evaluated at once. For any other the
variables are materialized and the callback is asked, with interception off. -/
def intercept (host : Host σ) (world : World σ) (id : ThreadId) (frame : Frame) :
    Except Fatal (Control σ α × World σ) :=
  let thread := world.thread id
  match thread.module? with
  | none => .error .noModule
  | some module =>
    let cached := world.cache module frame.code.id
    if cached.isSkip then .ok (.enter id (.evaluate frame), world)
    else
      match thread.callback? with
      | none => .error .noCallback
      | some callback =>
        let frame := frame.materialize world.heap
        .ok (.program (.consulted id frame module cached)
            (host.callback callback id frame cached.length),
          world.setDispatch id .default)

/-- Goes on after the answer of a callback. A failure is the result of the frame, and interception
stays off. Otherwise the answer is added to what was known before the callback was asked, then
interception is on again, and then the frame or its replacement is evaluated. -/
def answer (world : World σ) (id : ThreadId) (frame : Frame) (module : HookModule)
    (cached : CacheState) : Except Fault (Option Replacement) → Control σ α × World σ
  | .error fault => (.give (.error fault), world)
  | .ok none =>
    (.enter id (.evaluate frame),
      (world.storeCache module frame.code.id .skip).setDispatch id .intercept)
  | .ok (some replacement) =>
    let world :=
      (world.storeCache module frame.code.id (cached.prepend replacement)).setDispatch id .intercept
    match frame.shadow (world.heap.code replacement.code) (world.builtins id) with
    | .ok shadow => (.enter id (.evaluate shadow), world)
    | .error fault => (.give (.error fault), world)

def finish (stack : List (Activation σ α)) (world : World σ) :
    (role : Role) → role.Result α → Transition (Machine σ α) (Outcome σ α)
  | .client, result => .halt (.finished result world)
  | .hosted, result => .next ⟨.give result, stack, world⟩
  | .consulted id frame module cached, result =>
    let (control, world) := answer world id frame module cached result
    .next ⟨control, stack, world⟩

def step (host : Host σ) : Machine σ α → Transition (Machine σ α) (Outcome σ α)
  | ⟨.enter id (.dispatch frame), stack, world⟩ =>
    match (world.thread id).dispatch with
    | .default => .next ⟨.enter id (.evaluate frame), stack, world⟩
    | .intercept => .next ⟨.enter id (.intercept frame), stack, world⟩
    | .hosted index =>
      .next ⟨.program .hosted (host.dispatch index id frame), stack, world⟩
  | ⟨.enter id (.evaluate frame), stack, world⟩ =>
    let (control, world) := evaluate world id frame
    .next ⟨control, stack, world⟩
  | ⟨.enter id (.intercept frame), stack, world⟩ =>
    match intercept host world id frame with
    | .ok (control, world) => .next ⟨control, stack, world⟩
    | .error cause => .halt (.fatal cause)
  | ⟨.enter id (.call callee arguments), stack, world⟩ =>
    let (control, world) := call host world id arguments callee
    .next ⟨control, stack, world⟩
  | ⟨.run id frame, stack, world⟩ =>
    match frame.step world.heap with
    | .next frame edits => .next ⟨.run id frame, stack, world.edit edits⟩
    | .call frame callee arguments =>
      .next ⟨.enter id (.call callee arguments), .frame id frame :: stack, world⟩
    | .leave result => .next ⟨.give result, stack, leave world id⟩
    | .broken => .halt .broken
  | ⟨.give result, [], world⟩ => .halt (.given result world)
  | ⟨.give (.ok value), .frame id frame :: stack, world⟩ =>
    .next ⟨.run id (frame.push value), stack, world⟩
  | ⟨.give (.error fault), .frame id _ :: stack, world⟩ =>
    .next ⟨.give (.error fault), stack, leave world id⟩
  | ⟨.give result, .program role next :: stack, world⟩ =>
    .next ⟨.program role (next result), stack, world⟩
  | ⟨.program role (.done result), stack, world⟩ => finish stack world role result
  | ⟨.program role (.perform action next), stack, world⟩ =>
    match action.apply world with
    | .ok (reply, world) => .next ⟨.program role (next reply), stack, world⟩
    | .error cause => .halt (.fatal cause)
  | ⟨.program role (.launch id entry next), stack, world⟩ =>
    .next ⟨.enter id entry, .program role next :: stack, world⟩

def run (host : Host σ) : Nat → Machine σ α → Transition (Machine σ α) (Outcome σ α) :=
  Transition.run (step host)

def ofProgram (world : World σ) (program : Program σ α) : Machine σ α :=
  ⟨.program .client program, [], world⟩

end Machine

end Interpose
