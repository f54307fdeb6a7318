import Interpose.Proofs.History

/-! How a thread intercepts is its dispatch together with the module and callback it keeps. Frames
come and go without changing it; only consults and two requests of programs do. -/

namespace Interpose

structure Hook where
  dispatch : Dispatch
  module? : Option HookModule
  callback? : Option CallbackId
deriving DecidableEq

def Thread.hook (thread : Thread) : Hook := ⟨thread.dispatch, thread.module?, thread.callback?⟩

namespace World
variable {σ : Type}

def hook (world : World σ) (id : ThreadId) : Hook := (world.thread id).hook

@[simp] theorem hook_edit (world : World σ) (edits : List HeapEdit) (id : ThreadId) :
    (world.edit edits).hook id = world.hook id := rfl

theorem hook_setThread (world : World σ) (id other : ThreadId) (thread : Thread) :
    (world.setThread id thread).hook other = if other = id then thread.hook else world.hook other := by
  simp only [hook, thread_setThread]
  split <;> rfl

theorem hook_setDispatch (world : World σ) (id other : ThreadId) (dispatch : Dispatch) :
    (world.setDispatch id dispatch).hook other =
      if other = id then { world.hook id with dispatch } else world.hook other :=
  world.hook_setThread id other _

theorem hook_setThread_of_eq (world : World σ) (id other : ThreadId) {thread : Thread}
    (same : thread.hook = world.hook id) :
    (world.setThread id thread).hook other = world.hook other := by
  rw [hook_setThread]
  split
  next equal => rw [same, equal]
  next => rfl

@[simp] theorem hook_setDepth (world : World σ) (id other : ThreadId) (depth : Nat) :
    (world.setThread id { world.thread id with depth }).hook other = world.hook other :=
  world.hook_setThread_of_eq id other rfl

@[simp] theorem hook_leave (world : World σ) (id other : ThreadId) :
    (Machine.leave world id).hook other = world.hook other :=
  world.hook_setDepth id other _

theorem hook_congr {first second : World σ} (same : first.threads = second.threads)
    (id : ThreadId) : first.hook id = second.hook id := by
  simp only [hook, thread, same]

theorem hook_push (world : World σ) (owner : InterpreterId) (most : Nat) (id : ThreadId) :
    ({ world with threads := world.threads.push { interpreter := owner, limit := most } } :
      World σ).hook id = world.hook id := by
  simp only [hook, thread, Table.get_push]
  split
  next equal =>
    rw [equal, Table.get_of_size_le (Nat.le_refl _)]
    rfl
  next => rfl

/-- The engine after a callback was installed on a thread, or interception was turned off. -/
def hooked (world : World σ) (id : ThreadId) (module : HookModule) :
    Option CallbackId → World σ
  | none => world.setDispatch id .default
  | some callback =>
    world.setThread id { world.thread id with
      dispatch := .intercept, module? := some module, callback? := some callback }

theorem hooked_of_install {world after : World σ} {id : ThreadId} {module : HookModule}
    {callback? prior : Option CallbackId}
    (installed : world.install id module callback? = .ok (prior, after)) :
    after = world.hooked id module callback? := by
  cases callback? <;> simp only [install] at installed <;> split at installed <;>
    cases installed <;> rfl

theorem install_eq_hooked (world : World σ) (id : ThreadId) (module : HookModule)
    (callback? : Option CallbackId) :
    world.install id module callback? =
      match (world.thread id).dispatch with
      | .intercept => .ok ((world.thread id).callback?, world.hooked id module callback?)
      | .default => .ok (none, world.hooked id module callback?)
      | .hosted _ => .error .hostedDispatch := by
  cases callback? <;> rfl

theorem hook_hooked (world : World σ) (id other : ThreadId) (module : HookModule)
    (callback? : Option CallbackId) :
    (world.hooked id module callback?).hook other =
      if other = id then
        match callback? with
        | none => { world.hook id with dispatch := .default }
        | some callback => ⟨.intercept, some module, some callback⟩
      else world.hook other := by
  cases callback? with
  | none => exact world.hook_setDispatch id other .default
  | some callback => exact world.hook_setThread id other _

theorem install_eq (world : World σ) (id : ThreadId) (module : HookModule)
    (callback? : Option CallbackId)
    (known : ∀ index, (world.thread id).dispatch ≠ .hosted index) :
    ∃ prior, world.install id module callback? = .ok (prior, world.hooked id module callback?) := by
  cases callback? <;> cases chosen : (world.thread id).dispatch with
  | hosted index => exact absurd chosen (known index)
  | _ => exact ⟨_, by simp only [install, chosen]; rfl⟩

end World

namespace Action
variable {σ : Type}

def redirects : Action σ → Bool
  | .setDispatch _ _ => true
  | .install _ _ _ => true
  | _ => false

theorem hook_apply {world after : World σ} {action : Action σ} {reply : action.Reply}
    (applied : action.apply world = .ok (reply, after)) (other : action.redirects = false)
    (id : ThreadId) : after.hook id = world.hook id := by
  cases action with
  | setDispatch thread chosen => cases other
  | install thread module callback? => cases other
  | newThread owner most =>
    cases applied
    exact world.hook_push owner most id
  | build unit =>
    simp only [Action.apply, World.build] at applied
    split at applied <;> cases applied <;> rfl
  | requestIndex owner =>
    simp only [Action.apply, World.requestIndex] at applied
    split at applied <;> cases applied <;> rfl
  | enter thread function arguments =>
    simp only [Action.apply, World.enter] at applied
    split at applied <;> cases applied <;> rfl
  | newInterpreter =>
    cases applied
    exact World.hook_congr world.threads_addInterpreter id
  | _ =>
    cases applied
    exact World.hook_congr rfl id

/-- Only installing a hook on a thread changes the module and the callback that it keeps. -/
theorem kept_apply {world after : World σ} {action : Action σ} {reply : action.Reply}
    (applied : action.apply world = .ok (reply, after)) {id : ThreadId}
    (other : ∀ module callback?, action ≠ .install id module callback?) :
    (after.hook id).module? = (world.hook id).module? ∧
      (after.hook id).callback? = (world.hook id).callback? := by
  cases action with
  | setDispatch thread chosen =>
    cases applied
    rw [World.hook_setDispatch]
    split
    next same => exact ⟨by rw [same], by rw [same]⟩
    next => exact ⟨rfl, rfl⟩
  | install thread module callback? =>
    have apart : id ≠ thread := fun same => other module callback? (by rw [same])
    cases World.hooked_of_install applied
    rw [World.hook_hooked, if_neg apart]
    exact ⟨rfl, rfl⟩
  | _ =>
    rw [hook_apply applied rfl]
    exact ⟨rfl, rfl⟩

end Action

namespace Machine
variable {σ α : Type}

/-- The module and the callback that a thread keeps stay until a hook is installed on it. -/
theorem Move.hook_kept {host : Host σ} {before after : Machine σ α} (move : Move host before after)
    {id : ThreadId}
    (other : ∀ module callback?, before.action? ≠ some (.install id module callback?)) :
    (after.world.hook id).module? = (before.world.hook id).module? ∧
      (after.world.hook id).callback? = (before.world.hook id).callback? := by
  have redirected (world : World σ) (thread : ThreadId) (dispatch : Dispatch) :
      ((world.setDispatch thread dispatch).hook id).module? = (world.hook id).module? ∧
        ((world.setDispatch thread dispatch).hook id).callback? = (world.hook id).callback? := by
    have applied : Action.apply world (.setDispatch thread dispatch) = .ok ((), _) := rfl
    exact Action.kept_apply applied fun _ _ => nofun
  cases move with
  | started room => rw [World.hook_setDepth]; exact ⟨rfl, rfl⟩
  | asked installed present wanted => exact redirected _ _ _
  | missed => exact redirected _ _ _
  | replaced fits => exact redirected _ _ _
  | rejected misfits => exact redirected _ _ _
  | left progress => rw [World.hook_leave]; exact ⟨rfl, rfl⟩
  | unwound => rw [World.hook_leave]; exact ⟨rfl, rfl⟩
  | @performed role action next stack world reply after applied =>
    refine Action.kept_apply applied fun module callback? same => ?_
    subst same
    exact other module callback? rfl
  | _ => exact ⟨rfl, rfl⟩

end Machine

end Interpose
