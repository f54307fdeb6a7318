import Interpose.Builtin
import Interpose.Extra
import Interpose.Frame.Entry
import Interpose.Settings

/-! The state of the engine: the heap, the extra slots of units, the interpreters and the threads.
Interception is a property of a thread: which dispatch its frames take, and which module and
callback the interceptor uses. -/

namespace Interpose

abbrev ThreadId := Nat

abbrev InterpreterId := Nat

abbrev CallbackId := Nat

inductive Dispatch where
  | default
  | intercept
  /-- A dispatch of the host that the hook knows nothing of. -/
  | hosted (index : Nat)
deriving DecidableEq, Repr

/-- A loaded hook, which keeps the caches of units in a slot of its own. -/
structure HookModule where
  index : ExtraIndex
deriving DecidableEq, Repr

structure Interpreter where
  builtins : NamespaceId := 0
  registry : ExtraRegistry := .empty
deriving DecidableEq, Inhabited

structure Thread where
  interpreter : InterpreterId := 0
  dispatch : Dispatch := .default
  depth : Nat := 0
  limit : Nat := defaultRecursionLimit
  module? : Option HookModule := none
  callback? : Option CallbackId := none
deriving DecidableEq, Inhabited

inductive Fatal where
  /-- The interceptor got a frame although no hook was ever installed on the thread. -/
  | noModule
  | noCallback
  /-- A hook was to be installed while a dispatch of the host is in place. -/
  | hostedDispatch
deriving DecidableEq, Repr

def Fatal.message : Fatal → String
  | .noModule => "intercept_frame: interceptor installed without a hook module"
  | .noCallback => "intercept_frame: interceptor installed without a callback"
  | .hostedDispatch =>
    "set_eval_frame: thread dispatch function is neither the interceptor nor the default"

/-- The engine, beside a state of the host that the engine only hands on. -/
structure World (σ : Type) where
  heap : Heap := {}
  extras : Table Slots := .empty
  interpreters : Table Interpreter := .empty
  threads : Table Thread := .empty
  host : σ

namespace World
variable {σ : Type}

def thread (world : World σ) (id : ThreadId) : Thread := world.threads.get id

def setThread (world : World σ) (id : ThreadId) (thread : Thread) : World σ :=
  { world with threads := world.threads.set id thread }

def setDispatch (world : World σ) (id : ThreadId) (dispatch : Dispatch) : World σ :=
  world.setThread id { world.thread id with dispatch }

def interpreter (world : World σ) (id : InterpreterId) : Interpreter := world.interpreters.get id

def builtins (world : World σ) (id : ThreadId) : NamespaceId :=
  (world.interpreter (world.thread id).interpreter).builtins

def extra (world : World σ) (code : CodeId) (index : ExtraIndex) : Option ExtraValue :=
  (world.extras.get code).get index

def setExtra (world : World σ) (code : CodeId) (index : ExtraIndex) (value : Option ExtraValue) :
    World σ :=
  { world with extras := world.extras.set code ((world.extras.get code).set index value) }

/-- What a module knows of a unit; nothing yet when its slot holds no cache. -/
def cache (world : World σ) (module : HookModule) (code : CodeId) : CacheState :=
  ((world.extra code module.index).bind ExtraValue.cache?).getD .empty

def storeCache (world : World σ) (module : HookModule) (code : CodeId) (state : CacheState) :
    World σ :=
  world.setExtra code module.index (some (.cache state))

def edit (world : World σ) (edits : List HeapEdit) : World σ :=
  { world with heap := world.heap.editAll edits }

def addInterpreter (world : World σ) : World σ :=
  let space := world.heap.freshNamespace
  let bound := Builtin.table.map fun native => HeapEdit.bind space native.name (.native native)
  { world.edit (.newNamespace :: bound) with
    interpreters := world.interpreters.push { builtins := space } }

def requestIndex (world : World σ) (id : InterpreterId) : Except Fault ExtraIndex × World σ :=
  let interpreter := world.interpreter id
  match interpreter.registry.request with
  | .ok (index, registry) =>
    (.ok index,
      { world with interpreters := world.interpreters.set id { interpreter with registry } })
  | .error fault => (.error fault, world)

/-- Builds a unit. A faulty one changes nothing. -/
def build (world : World σ) (unit : Blueprint) : Except BuildFault CodeId × World σ :=
  match unit.build with
  | .ok unit => (.ok world.heap.codes.size, { world with heap := world.heap.addCode unit })
  | .error fault => (.error fault, world)

def enter (world : World σ) (id : ThreadId) (function : Function) (arguments : List Value) :
    Except Fault Frame × World σ :=
  match Frame.enter world.heap (world.builtins id) function arguments with
  | .ok (frame, edits) => (.ok frame, world.edit edits)
  | .error fault => (.error fault, world)

/-- Swaps the callback of a thread and returns the one that was in use. Without a callback the
thread dispatches by default, and keeps the module and callback of before; with one it intercepts
with this module and callback. -/
def install (world : World σ) (id : ThreadId) (module : HookModule)
    (callback? : Option CallbackId) : Except Fatal (Option CallbackId × World σ) :=
  let thread := world.thread id
  let next : Thread := match callback? with
    | none => { thread with dispatch := .default }
    | some callback =>
      { thread with dispatch := .intercept, module? := some module, callback? := some callback }
  match thread.dispatch with
  | .intercept => .ok (thread.callback?, world.setThread id next)
  | .default => .ok (none, world.setThread id next)
  | .hosted _ => .error .hostedDispatch

end World

def ExtraRegistry.detail (registry : ExtraRegistry) : String :=
  "ExtraRegistry \x7b next: " ++ Decimal.ofNat registry.issued ++ " \x7d"

def Interpreter.detail (heap : Heap) (interpreter : Interpreter) : String :=
  "Interpreter \x7b builtins: " ++ (heap.names interpreter.builtins).detail ++ ", extra: " ++
    interpreter.registry.detail ++ " \x7d"

def HookModule.detail (module : HookModule) : String :=
  "HookModule \x7b extra_index: ExtraIndex(" ++ Decimal.ofNat module.index.number ++ ") \x7d"

end Interpose
