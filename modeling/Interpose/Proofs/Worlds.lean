import Interpose.Machine

/-! What is read from the engine after one of its parts was changed. Threads, caches and heap are
kept apart: a change of one is not seen in another. -/

namespace Interpose

def Host.ofCallbacks (callback : CallbackId → Callback Unit) : Host Unit where
  callback
  dispatch _ _ _ := .done (.ok .nil)
  native _ _ := .done (.ok .nil)

/-- Its native functions say whether the unit they are given has a mark in this slot, and mark it. -/
def Host.marking (index : ExtraIndex) (callback : CallbackId → Callback Unit) : Host Unit :=
  { Host.ofCallbacks callback with
    native := fun _ arguments =>
      match arguments with
      | [.code id] =>
        .perform (.readExtra id index) fun mark =>
          .perform (.writeExtra id index (some (.text "marked"))) fun _ =>
            .done (.ok (.bool mark.isSome))
      | _ => .done (.ok .nil) }

def Thread.intercepting (module : HookModule) (callback : CallbackId) : Thread :=
  { dispatch := .intercept, module? := some module, callback? := some callback }

def Blueprint.one : Blueprint :=
  { name := "one", constants := #[.int 1], instructions := #[.loadConst 0, .returnValue] }

/-- Hands the first unit to a native function of the host. -/
def Blueprint.handing : Blueprint :=
  { name := "handing", constants := #[.native ⟨"take", .hosted 0⟩, .code 0]
    instructions := #[.loadConst 0, .loadConst 1, .call 1, .returnValue] }

def Function.first : Function := ⟨0, 0, 0, []⟩

namespace World
variable {σ : Type}

structure Intercepts (world : World σ) (id : ThreadId) (module : HookModule)
    (callback : CallbackId) : Prop where
  dispatch : (world.thread id).dispatch = .intercept
  module : (world.thread id).module? = some module
  callback : (world.thread id).callback? = some callback

def single (units : Array Blueprint) (thread : Thread) : World Unit where
  heap := { codes := ⟨units⟩ }
  threads := ⟨#[thread]⟩
  host := ()

theorem thread_setThread (world : World σ) (id other : ThreadId) (thread : Thread) :
    (world.setThread id thread).thread other = if other = id then thread else world.thread other :=
  Table.get_set world.threads id other thread

theorem thread_setDispatch (world : World σ) (id other : ThreadId) (dispatch : Dispatch) :
    (world.setDispatch id dispatch).thread other =
      if other = id then { world.thread id with dispatch } else world.thread other :=
  world.thread_setThread id other _

@[simp] theorem thread_storeCache (world : World σ) (module : HookModule) (code : CodeId)
    (state : CacheState) (id : ThreadId) :
    (world.storeCache module code state).thread id = world.thread id := rfl

@[simp] theorem heap_setDispatch (world : World σ) (id : ThreadId) (dispatch : Dispatch) :
    (world.setDispatch id dispatch).heap = world.heap := rfl

@[simp] theorem heap_storeCache (world : World σ) (module : HookModule) (code : CodeId)
    (state : CacheState) : (world.storeCache module code state).heap = world.heap := rfl

@[simp] theorem heap_edit (world : World σ) (edits : List HeapEdit) :
    (world.edit edits).heap = world.heap.editAll edits := rfl

@[simp] theorem extra_setDispatch (world : World σ) (id : ThreadId) (dispatch : Dispatch)
    (code : CodeId) (index : ExtraIndex) :
    (world.setDispatch id dispatch).extra code index = world.extra code index := rfl

theorem extra_setExtra (world : World σ) (code other : CodeId) (index place : ExtraIndex)
    (value : Option ExtraValue) :
    (world.setExtra code index value).extra other place =
      if other = code ∧ place = index then value else world.extra other place := by
  simp only [extra, setExtra, Table.get_set]
  by_cases same : other = code
  · subst same
    simp [Slots.get_set]
  · simp [same]

@[simp] theorem cache_setDispatch (world : World σ) (id : ThreadId) (dispatch : Dispatch)
    (module : HookModule) (code : CodeId) :
    (world.setDispatch id dispatch).cache module code = world.cache module code := rfl

@[simp] theorem cache_edit (world : World σ) (edits : List HeapEdit) (module : HookModule)
    (code : CodeId) : (world.edit edits).cache module code = world.cache module code := rfl

theorem cache_storeCache (world : World σ) (module place : HookModule) (code other : CodeId)
    (state : CacheState) :
    (world.storeCache module code state).cache place other =
      if place = module ∧ other = code then state else world.cache place other := by
  have same : place = module ↔ place.index = module.index := by
    cases place; cases module; simp
  simp only [cache, storeCache, extra_setExtra, same, and_comm (a := other = code)]
  split <;> rfl

@[simp] theorem interpreter_setThread (world : World σ) (id : ThreadId) (thread : Thread)
    (owner : InterpreterId) :
    (world.setThread id thread).interpreter owner = world.interpreter owner := rfl

@[simp] theorem threads_addInterpreter (world : World σ) :
    world.addInterpreter.threads = world.threads := by
  simp only [addInterpreter, edit]

@[simp] theorem extras_addInterpreter (world : World σ) :
    world.addInterpreter.extras = world.extras := by
  simp only [addInterpreter, edit]

@[simp] theorem host_addInterpreter (world : World σ) :
    world.addInterpreter.host = world.host := by
  simp only [addInterpreter, edit]

theorem interpreters_addInterpreter (world : World σ) :
    world.addInterpreter.interpreters =
      world.interpreters.push { builtins := world.heap.freshNamespace } := by
  simp only [addInterpreter, edit]

theorem heap_addInterpreter (world : World σ) :
    world.addInterpreter.heap = world.heap.editAll (.newNamespace ::
      Builtin.table.map fun native => .bind world.heap.freshNamespace native.name
        (.native native)) := by
  simp only [addInterpreter, edit]

theorem builtins_setThread (world : World σ) (id other : ThreadId) (thread : Thread)
    (same : thread.interpreter = (world.thread id).interpreter) :
    (world.setThread id thread).builtins other = world.builtins other := by
  simp only [builtins, interpreter_setThread, thread_setThread]
  split
  next equal => rw [same, equal]
  next => rfl

@[simp] theorem builtins_setDispatch (world : World σ) (id other : ThreadId)
    (dispatch : Dispatch) : (world.setDispatch id dispatch).builtins other = world.builtins other :=
  world.builtins_setThread id other _ rfl

@[simp] theorem builtins_storeCache (world : World σ) (module : HookModule) (code : CodeId)
    (state : CacheState) (id : ThreadId) :
    (world.storeCache module code state).builtins id = world.builtins id := rfl

end World

end Interpose
