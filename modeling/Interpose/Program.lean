import Interpose.Frame.Migration
import Interpose.World

/-! Programs that drive the engine: what the host's callbacks and dispatches do, and what runs on
the engine from outside. A program is a tree of requests. Most are answered at once from the state
of the engine; running a frame takes as long as the frame runs. -/

namespace Interpose

inductive Action (σ : Type) where
  | readHeap
  | edit (change : HeapEdit)
  | build (unit : Blueprint)
  | readExtra (code : CodeId) (index : ExtraIndex)
  | writeExtra (code : CodeId) (index : ExtraIndex) (value : Option ExtraValue)
  | newInterpreter
  | interpreter (id : InterpreterId)
  | requestIndex (id : InterpreterId)
  | newThread (interpreter : InterpreterId) (limit : Nat)
  | interpreterOf (thread : ThreadId)
  | depth (thread : ThreadId)
  | limit (thread : ThreadId)
  | dispatch (thread : ThreadId)
  | setDispatch (thread : ThreadId) (dispatch : Dispatch)
  | install (thread : ThreadId) (module : HookModule) (callback? : Option CallbackId)
  | enter (thread : ThreadId) (function : Function) (arguments : List Value)
  | readHost
  | writeHost (state : σ)

namespace Action
variable {σ : Type}

abbrev Reply : Action σ → Type
  | readHeap => Heap
  | build _ => Except BuildFault CodeId
  | readExtra _ _ => Option ExtraValue
  | newInterpreter => InterpreterId
  | interpreter _ => Interpreter
  | requestIndex _ => Except Fault ExtraIndex
  | newThread _ _ => ThreadId
  | interpreterOf _ => InterpreterId
  | depth _ => Nat
  | limit _ => Nat
  | dispatch _ => Dispatch
  | install _ _ _ => Option CallbackId
  | enter _ _ _ => Except Fault Frame
  | readHost => σ
  | edit _ => Unit
  | writeExtra _ _ _ => Unit
  | setDispatch _ _ => Unit
  | writeHost _ => Unit

def apply (world : World σ) : (action : Action σ) → Except Fatal (action.Reply × World σ)
  | readHeap => .ok (world.heap, world)
  | edit change => .ok ((), world.edit [change])
  | build unit => .ok (world.build unit)
  | readExtra code index => .ok (world.extra code index, world)
  | writeExtra code index value => .ok ((), world.setExtra code index value)
  | newInterpreter => .ok (world.interpreters.size, world.addInterpreter)
  | interpreter id => .ok (world.interpreter id, world)
  | requestIndex id => .ok (world.requestIndex id)
  | newThread owner most =>
    .ok (world.threads.size,
      { world with threads := world.threads.push { interpreter := owner, limit := most } })
  | interpreterOf thread => .ok ((world.thread thread).interpreter, world)
  | depth thread => .ok ((world.thread thread).depth, world)
  | limit thread => .ok ((world.thread thread).limit, world)
  | dispatch thread => .ok ((world.thread thread).dispatch, world)
  | setDispatch thread chosen => .ok ((), world.setDispatch thread chosen)
  | install thread module callback? => world.install thread module callback?
  | enter thread function arguments => .ok (world.enter thread function arguments)
  | readHost => .ok (world.host, world)
  | writeHost state => .ok ((), { world with host := state })

end Action

inductive Entry where
  /-- By the dispatch of the thread. -/
  | dispatch (frame : Frame)
  /-- By the engine itself, whatever the dispatch. -/
  | evaluate (frame : Frame)
  /-- By the interceptor, whatever the dispatch. -/
  | intercept (frame : Frame)
  | call (callee : Value) (arguments : List Value)

inductive Program (σ α : Type) where
  | done (result : α)
  | perform (action : Action σ) (next : action.Reply → Program σ α)
  | launch (thread : ThreadId) (entry : Entry) (next : Except Fault Value → Program σ α)

namespace Program
variable {σ α β : Type}

def bind : Program σ α → (α → Program σ β) → Program σ β
  | done result, next => next result
  | perform action rest, next => perform action fun reply => (rest reply).bind next
  | launch thread entry rest, next => launch thread entry fun result => (rest result).bind next

instance : Monad (Program σ) where
  pure := done
  bind := bind

theorem bind_done (program : Program σ α) : program.bind done = program := by
  induction program with
  | done result => rfl
  | perform action rest ih => simp [bind, ih]
  | launch thread entry rest ih => simp [bind, ih]

theorem bind_assoc {γ : Type} (program : Program σ α) (second : α → Program σ β)
    (third : β → Program σ γ) :
    (program.bind second).bind third = program.bind fun result => (second result).bind third := by
  induction program with
  | done result => rfl
  | perform action rest ih => simp [bind, ih]
  | launch thread entry rest ih => simp [bind, ih]

instance : LawfulMonad (Program σ) :=
  LawfulMonad.mk' (Program σ) bind_done (fun _ _ => rfl) bind_assoc

def act (action : Action σ) : Program σ action.Reply := perform action done

def run (thread : ThreadId) (entry : Entry) : Program σ (Except Fault Value) :=
  launch thread entry done

def newCell (content : Option Value) : Program σ CellId := do
  let heap ← act .readHeap
  act (.edit (.newCell content))
  pure heap.freshCell

def newNamespace : Program σ NamespaceId := do
  let heap ← act .readHeap
  act (.edit .newNamespace)
  pure heap.freshNamespace

/-- Makes a function. Its parts are not checked until it is called. -/
def newFunction (code : CodeId) (globals : NamespaceId) (closure : List CellId) :
    Program σ Function := do
  let heap ← act .readHeap
  act (.edit .newFunction)
  pure (heap.freshFunction code globals closure)

def bindName (space : NamespaceId) (name : String) (value : Value) : Program σ (Option Value) := do
  let heap ← act .readHeap
  act (.edit (.bind space name value))
  pure ((heap.names space).get? name)

def runCode (thread : ThreadId) (code : CodeId) (globals : NamespaceId) :
    Program σ (Except Fault Value) := do
  let heap ← act .readHeap
  match ← act (.enter thread (heap.freshFunction code globals []) []) with
  | .ok frame => run thread (.dispatch frame)
  | .error fault => pure (.error fault)

def builtinsOf (thread : ThreadId) : Program σ NamespaceId := do
  let id ← act (.interpreterOf thread)
  let interpreter ← act (.interpreter id)
  pure interpreter.builtins

def shadow (thread : ThreadId) (frame : Frame) (replacement : CodeId) :
    Program σ (Except Fault Frame) := do
  let builtins ← builtinsOf thread
  let heap ← act .readHeap
  pure (frame.shadow (heap.code replacement) builtins)

def evaluateReplacement (thread : ThreadId) (frame : Frame) (replacement : CodeId) :
    Program σ (Except Fault Value) := do
  match ← shadow thread frame replacement with
  | .ok shadow => run thread (.evaluate shadow)
  | .error fault => pure (.error fault)

def loadModule (id : InterpreterId) : Program σ (Except Fault HookModule) := do
  pure ((← act (.requestIndex id)).map HookModule.mk)

def cache (module : HookModule) (code : CodeId) : Program σ CacheState := do
  pure (((← act (.readExtra code module.index)).bind ExtraValue.cache?).getD .empty)

def isIntercepting (thread : ThreadId) : Program σ Bool := do
  pure ((← act (.dispatch thread)) == .intercept)

/-- Installs a callback while a program runs, and puts back afterwards what was in use before. -/
def withCallback (thread : ThreadId) (module : HookModule) (callback? : Option CallbackId)
    (body : Program σ α) : Program σ α := do
  let prior ← act (.install thread module callback?)
  let result ← body
  let _ ← act (.install thread module prior)
  pure result

end Program

/-- What the host decides when a frame is intercepted on a thread, given the number of replacements
cached for its unit: to leave the unit alone from now on, to run a replacement, or to fail. -/
abbrev Callback (σ : Type) :=
  ThreadId → Frame → Nat → Program σ (Except Fault (Option Replacement))

namespace Callback
variable {σ : Type}

def isSkipped (directories : List String) (filename : String) : Bool :=
  directories.any fun directory => directory.toList.isPrefixOf filename.toList

/-- Leaves the units under some directories alone, and asks another callback about all others. -/
def skipping (directories : List String) (inner : Callback σ) : Callback σ :=
  fun thread frame cached =>
    if isSkipped directories frame.code.filename then .done (.ok none)
    else inner thread frame cached

end Callback

/-- What the host supplies: its callbacks, its own dispatches of frames, and its native functions.
A native function is a program like the others, but it is given its arguments alone: not the thread
that it is called on, and no frame. All else that it sees or changes it has to request, be it the
heap, an extra slot of a unit or the state of the host. -/
structure Host (σ : Type) where
  callback : CallbackId → Callback σ
  dispatch : Nat → ThreadId → Frame → Program σ (Except Fault Value)
  native : Nat → List Value → Program σ (Except Fault Value)

end Interpose
