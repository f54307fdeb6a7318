import Interpose.Proofs.Scope

/-! What a scope puts back. Whatever a program did while a callback was installed for it, whether a
thread intercepts and which callback is reported for it are afterwards what they were before, as
long as the program left the thread with a dispatch that the hook knows. -/

namespace Interpose
variable {σ α β : Type}

namespace World

variable {world : World σ} {id : ThreadId} {prior : Option CallbackId}

theorem uses_hooked (world : World σ) (id : ThreadId) (module : HookModule)
    (callback? : Option CallbackId) : (world.hooked id module callback?).Uses id callback? := by
  cases callback? with
  | none => exact .idle (by simp only [hooked, thread_setDispatch, if_true])
  | some callback =>
    have intercepts := world.intercepts_hooked id module callback
    exact .active intercepts.dispatch intercepts.callback

/-- The callback in use says whether the thread intercepts. -/
theorem Uses.dispatch_eq {other : World σ} (uses : world.Uses id prior)
    (others : other.Uses id prior) : (other.thread id).dispatch = (world.thread id).dispatch := by
  cases uses with
  | idle chosen => cases others with | idle same => rw [same, chosen]
  | active chosen kept => cases others with | active same _ => rw [same, chosen]

end World

namespace Machine

/-- A scope, in whatever role and above whatever stack. Its program starts on a thread that
intercepts with the given callback, and not at all when none is given. Whatever the program did, the
scope goes on with its result, and on the thread the dispatch is that of before, and so is the
callback that installing a hook reports. -/
theorem withCallback_restores {host : Host σ} {world middle : World σ} {id : ThreadId}
    {module : HookModule} {callback? prior : Option CallbackId} {body : Program σ α} {result : α}
    (uses : world.Uses id prior)
    (ran : Transition.Ends (step host) (ofProgram (world.hooked id module callback?) body)
      (.finished result middle))
    (known : ∀ index, (middle.thread id).dispatch ≠ .hosted index) (role : Role)
    (next : α → Program σ (role.Result β)) (stack : List (Activation σ β)) :
    ∃ rest after,
      step host
          ⟨.program role ((Program.withCallback id module callback? body).bind next), stack, world⟩ =
        .next ⟨.program role (body.bind rest), stack, world.hooked id module callback?⟩ ∧
      (world.hooked id module callback?).Uses id callback? ∧
      (∀ given,
        (world.hooked id module callback?).Intercepts id module given ↔ callback? = some given) ∧
      Transition.Meets (step host)
        ⟨.program role (body.bind rest), stack, world.hooked id module callback?⟩
        ⟨.program role (next result), stack, after⟩ ∧
      (after.thread id).dispatch = (world.thread id).dispatch ∧
      ∀ place other?, after.install id place other? = .ok (prior, after.hooked id place other?) := by
  have opened := world.uses_hooked id module callback?
  have restored := middle.uses_hooked id module prior
  refine ⟨fun result => (Program.closing id module prior result).bind next,
    middle.hooked id module prior, ?opens, opened, ?given, ?closes, uses.dispatch_eq restored,
    restored.install_eq⟩
  case opens =>
    have installed := uses.install_eq module callback?
    exact (withCallback_opens host body installed role next stack).step_eq
  case given =>
    intro given
    constructor
    · intro intercepts
      cases opened with
      | idle chosen => cases chosen.symm.trans intercepts.dispatch
      | active chosen kept => exact kept.symm.trans intercepts.callback
    · rintro rfl
      exact world.intercepts_hooked id module given
  case closes =>
    have between := meets_of_ends ran role
      (fun result => (Program.closing id module prior result).bind next) stack
    obtain ⟨reported, reinstalled⟩ := middle.install_eq id module prior known
    exact between.tail (withCallback_closes host reinstalled result role next stack).step_eq

def failing : Host Unit := .ofCallbacks fun _ _ _ _ => .done (.error (.hosted "failed"))

/-- Two calls, the first in a scope of its own. Both callbacks fail, so that either call turns
interception off. -/
def failingCalls : Program Unit (Except Fault Value) := do
  let _ ← Program.withCallback 0 ⟨⟨1⟩⟩ (some 2) (Program.run 0 (.call (.function .first) []))
  Program.run 0 (.call (.function .first) [])

theorem withCallback_restores_after_failure :
    let world := World.single #[.one] (.intercepting ⟨⟨0⟩⟩ 0)
    let start := world.hooked 0 ⟨⟨0⟩⟩ (some 1)
    ∃ middle rest after,
      world.Uses 0 (some 0) ∧
      Transition.Ends (step failing) (ofProgram start failingCalls)
        (.finished (.error (.hosted "failed")) middle) ∧
      (∀ index, (middle.thread 0).dispatch ≠ .hosted index) ∧
      step failing
          (ofProgram world ((Program.withCallback 0 ⟨⟨0⟩⟩ (some 1) failingCalls).bind .done)) =
        .next (ofProgram start (failingCalls.bind rest)) ∧
      start.Uses 0 (some 1) ∧
      (∀ given, start.Intercepts 0 ⟨⟨0⟩⟩ given ↔ some 1 = some given) ∧
      Transition.Meets (step failing) (ofProgram start (failingCalls.bind rest))
        (ofProgram after (.done (.error (.hosted "failed")))) ∧
      (after.thread 0).dispatch = (world.thread 0).dispatch ∧
      ∀ place other?, after.install 0 place other? = .ok (some 0, after.hooked 0 place other?) := by
  have uses : (World.single #[.one] (.intercepting ⟨⟨0⟩⟩ 0)).Uses 0 (some 0) := .active rfl rfl
  have ends : ∃ middle, Transition.Ends (step failing)
      (ofProgram ((World.single #[.one] (.intercepting ⟨⟨0⟩⟩ 0)).hooked 0 ⟨⟨0⟩⟩ (some 1))
        failingCalls)
      (.finished (.error (.hosted "failed")) middle) ∧
        (middle.thread 0).dispatch = .default := ⟨_, ⟨20, rfl⟩, rfl⟩
  obtain ⟨middle, ran, left⟩ := ends
  have known : ∀ index, (middle.thread 0).dispatch ≠ .hosted index := by simp [left]
  obtain ⟨rest, after, opens, opened, given, closes, same, reported⟩ :=
    withCallback_restores uses ran known .client .done []
  exact ⟨middle, rest, after, uses, ran, known, opens, opened, given, closes, same, reported⟩

end Machine

end Interpose
