import Interpose.Proofs.Hooks
import Interpose.Proofs.Isolation

/-! What is left after a callback was installed while a program ran. The callback of before is put
back, but under the module of the scope: a thread that intercepted under another module goes on
with the caches of the scope. -/

namespace Interpose
variable {σ α β : Type}

namespace World

/-- The callback in use on a thread: the one that it keeps while it intercepts, and none while the
engine evaluates its frames. -/
inductive Uses (world : World σ) (id : ThreadId) : Option CallbackId → Prop
  | idle (chosen : (world.thread id).dispatch = .default) : Uses world id none
  | active {callback} (chosen : (world.thread id).dispatch = .intercept)
      (kept : (world.thread id).callback? = some callback) : Uses world id (some callback)

/-- Installing a hook reports the callback in use. -/
theorem Uses.install_eq {world : World σ} {id : ThreadId} {prior : Option CallbackId}
    (uses : world.Uses id prior) (module : HookModule) (callback? : Option CallbackId) :
    world.install id module callback? = .ok (prior, world.hooked id module callback?) := by
  cases uses with
  | idle chosen => cases callback? <;> simp only [install, chosen] <;> rfl
  | active chosen kept =>
    have swapped : world.install id module callback? =
        .ok ((world.thread id).callback?, world.hooked id module callback?) := by
      cases callback? <;> simp only [install, chosen] <;> rfl
    rw [swapped, kept]

theorem Intercepts.install_eq {world : World σ} {id : ThreadId} {active : HookModule}
    {prior : CallbackId} (intercepts : world.Intercepts id active prior) (module : HookModule)
    (callback? : Option CallbackId) :
    world.install id module callback? = .ok (some prior, world.hooked id module callback?) := by
  have uses : world.Uses id (some prior) := .active intercepts.dispatch intercepts.callback
  exact uses.install_eq module callback?

theorem intercepts_hooked (world : World σ) (id : ThreadId) (module : HookModule)
    (callback : CallbackId) : (world.hooked id module (some callback)).Intercepts id module callback := by
  constructor <;> simp only [hooked, thread_setThread, if_true]

end World

def Program.closing (id : ThreadId) (module : HookModule) (prior : Option CallbackId)
    (result : α) : Program σ α := do
  let _ ← act (.install id module prior)
  pure result

namespace Machine

/-- Every later consult on a thread is under this module and by this callback, for as long as no
hook is installed on the thread. -/
def ConsultsUnder (host : Host σ) (start : Machine σ α) (id : ThreadId) (module : HookModule)
    (callback : CallbackId) : Prop :=
  ∀ fuel,
    (∀ earlier < fuel, ∀ machine, run host earlier start = .next machine →
      ∀ place callback?, machine.action? ≠ some (.install id place callback?)) →
    ∀ machine, run host fuel start = .next machine → ∀ asked place frame size,
      machine.event? = some (.asked id asked place frame size) →
      asked = callback ∧ place = module ∧ size = (machine.world.cache module frame.code.id).length

theorem consultsUnder_of_kept (host : Host σ) {start : Machine σ α} {id : ThreadId}
    {module : HookModule} {callback : CallbackId}
    (placed : (start.world.hook id).module? = some module)
    (kept : (start.world.hook id).callback? = some callback) :
    ConsultsUnder host start id module callback := by
  intro fuel undisturbed machine reached asked place frame size shown
  have stays : ∀ fuel,
      (∀ earlier < fuel, ∀ machine, run host earlier start = .next machine →
        ∀ place callback?, machine.action? ≠ some (.install id place callback?)) →
      ∀ machine, run host fuel start = .next machine →
      (machine.world.hook id).module? = some module ∧
        (machine.world.hook id).callback? = some callback := by
    intro fuel
    induction fuel with
    | zero =>
      intro _ machine reached
      cases reached
      exact ⟨placed, kept⟩
    | succ fuel ih =>
      intro undisturbed machine reached
      obtain ⟨previous, before, move⟩ := exists_move_of_run reached
      have former := ih (fun earlier less => undisturbed earlier (by omega)) previous before
      have same := move.hook_kept (undisturbed fuel (by omega) previous before)
      exact ⟨same.1.trans former.1, same.2.trans former.2⟩
  obtain ⟨_, _, _, installed, present, _, counted⟩ := shows_asked shown
  obtain ⟨sameModule, sameCallback⟩ := stays fuel undisturbed machine reached
  cases installed.symm.trans sameModule
  cases present.symm.trans sameCallback
  exact ⟨rfl, rfl, counted⟩

/-- A scope starts by installing its callback. Its program then runs before the closing. -/
theorem withCallback_opens (host : Host σ) {world after : World σ} {id : ThreadId}
    {module : HookModule} {callback? prior : Option CallbackId} (body : Program σ α)
    (installed : world.install id module callback? = .ok (prior, after)) (role : Role)
    (next : α → Program σ (role.Result β)) (stack : List (Activation σ β)) :
    Move host
      ⟨.program role ((Program.withCallback id module callback? body).bind next), stack, world⟩
      ⟨.program role (body.bind fun result => (Program.closing id module prior result).bind next),
        stack, after⟩ := by
  have applied : Action.apply world (.install id module callback?) = _ := installed
  have move : Move host
      ⟨.program role ((Program.withCallback id module callback? body).bind next), stack, world⟩
      ⟨.program role ((body.bind (Program.closing id module prior)).bind next), stack, after⟩ :=
    .performed applied
  rwa [Program.bind_assoc] at move

theorem withCallback_closes (host : Host σ) {world after : World σ} {id : ThreadId}
    {module : HookModule} {prior reported : Option CallbackId}
    (reinstalled : world.install id module prior = .ok (reported, after)) (result : α) (role : Role)
    (next : α → Program σ (role.Result β)) (stack : List (Activation σ β)) :
    Move host ⟨.program role ((Program.closing id module prior result).bind next), stack, world⟩
      ⟨.program role (next result), stack, after⟩ := by
  have applied : Action.apply world (.install id module prior) = _ := reinstalled
  exact .performed applied

/-- After a scope the thread intercepts again with the callback of before, and under the module of
the scope; so it is back under the module of before exactly when the scope was under that one. -/
theorem withCallback_leaves_module {host : Host σ} {world middle : World σ} {id : ThreadId}
    {module active : HookModule} {callback : CallbackId} {callback? : Option CallbackId}
    {body : Program σ α} {result : α} (intercepts : world.Intercepts id active callback)
    (ran : Transition.Ends (step host) (ofProgram (world.hooked id module callback?) body)
      (.finished result middle))
    (known : ∀ index, (middle.thread id).dispatch ≠ .hosted index) :
    ∃ after,
      Transition.Ends (step host)
        (ofProgram world (Program.withCallback id module callback? body))
        (.finished result after) ∧
      after.Intercepts id module callback ∧
      ((after.thread id).module? = some active ↔ module = active) ∧
      ∀ later : Machine σ β, later.world = after → ConsultsUnder host later id module callback := by
  obtain ⟨prior, reinstalled⟩ := middle.install_eq id module (some callback) known
  have restored := middle.intercepts_hooked id module callback
  refine ⟨middle.hooked id module (some callback), ?_, restored, ?_, ?_⟩
  · -- The scope is an install, then the body on its own, then another install.
    have opens :=
      withCallback_opens host body (intercepts.install_eq module callback?) .client .done []
    rw [Program.bind_done] at opens
    have between := meets_of_ends ran .client
      (fun result => (Program.closing id module (some callback) result).bind .done) []
    have closes := withCallback_closes host reinstalled result .client .done []
    exact (Transition.Meets.head opens.step_eq (between.tail closes.step_eq)).ends (.of_step rfl)
  · rw [restored.module, Option.some.injEq]
  · intro later reached
    exact consultsUnder_of_kept host (by rw [reached]; exact restored.module)
      (by rw [reached]; exact restored.callback)

def passive : Host Unit := .ofCallbacks fun _ _ _ _ => .done (.ok none)

def firstModule : World Unit := .single #[] (.intercepting ⟨⟨0⟩⟩ 0)

private theorem firstModule_intercepts : firstModule.Intercepts 0 ⟨⟨0⟩⟩ 0 := ⟨rfl, rfl, rfl⟩

/-- A scope under a second module, in which interception is off and nothing happens. -/
theorem firstModule_lost :
    firstModule.Intercepts 0 ⟨⟨0⟩⟩ 0 ∧
      ∃ after,
        Transition.Ends (step passive)
          (ofProgram firstModule (Program.withCallback 0 ⟨⟨1⟩⟩ none (.done ())))
          (.finished () after) ∧
        after.Intercepts 0 ⟨⟨1⟩⟩ 0 ∧ (after.thread 0).module? ≠ some ⟨⟨0⟩⟩ :=
  ⟨firstModule_intercepts, _, ⟨3, rfl⟩, ⟨rfl, rfl, rfl⟩, by decide⟩

theorem firstModule_after_scope :
    ∃ after,
      Transition.Ends (step passive)
        (ofProgram firstModule
          (Program.withCallback 0 ⟨⟨1⟩⟩ (some 1) (Program.act (.setDispatch 0 .default))))
        (.finished () after) ∧
      after.Intercepts 0 ⟨⟨1⟩⟩ 0 ∧
      ((after.thread 0).module? = some ⟨⟨0⟩⟩ ↔ (⟨⟨1⟩⟩ : HookModule) = ⟨⟨0⟩⟩) ∧
      ∀ later : Machine Unit Unit, later.world = after →
        ConsultsUnder passive later 0 ⟨⟨1⟩⟩ 0 :=
  withCallback_leaves_module firstModule_intercepts ⟨2, rfl⟩ fun _ => nofun

end Machine

end Interpose
