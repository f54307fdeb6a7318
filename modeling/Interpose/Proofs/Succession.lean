import Interpose.Proofs.Restoration

/-! Which callback a thread consults after one of its callbacks was asked. The thread keeps its
callback while that callback runs with interception off, but it keeps it only until another one is
installed: a scope that the callback opens leaves its own callback behind. -/

namespace Interpose
variable {σ α : Type}

namespace World

/-- The module and the callback that a thread keeps, whether it intercepts or not. -/
structure Keeps (world : World σ) (id : ThreadId) (hook : HookModule × CallbackId) : Prop where
  module : (world.thread id).module? = some hook.1
  callback : (world.thread id).callback? = some hook.2

variable {world : World σ} {id : ThreadId} {hook : HookModule × CallbackId}

theorem Keeps.turnedOn (keeps : world.Keeps id hook) :
    (world.setDispatch id .intercept).Intercepts id hook.1 hook.2 := by
  constructor <;> simp only [thread_setDispatch, if_true]
  · exact keeps.module
  · exact keeps.callback

end World

namespace Machine

/-- The hook that the next step installs on a thread. Turning interception off installs none. -/
def installed? (id : ThreadId) (machine : Machine σ α) : Option (HookModule × CallbackId) :=
  match machine.action? with
  | some (.install thread module (some callback)) =>
    if thread = id then some (module, callback) else none
  | _ => none

def installs (host : Host σ) (id : ThreadId) :
    Nat → Machine σ α → List (HookModule × CallbackId)
  | 0, _ => []
  | fuel + 1, machine =>
    match step host machine with
    | .next after => (machine.installed? id).toList ++ installs host id fuel after
    | .halt _ => []

section
variable {host : Host σ} {before after : Machine σ α} {id : ThreadId}
  {hook : HookModule × CallbackId}

theorem Move.world_installed (move : Move host before after) {module : HookModule}
    {callback? : Option CallbackId}
    (next : before.action? = some (.install id module callback?)) :
    after.world = before.world.hooked id module callback? := by
  obtain ⟨role, rest, control⟩ := control_of_action next
  obtain ⟨_, stack, world⟩ := before
  cases control
  cases move with
  | performed applied => exact World.hooked_of_install applied

theorem Move.keeps_installed (move : Move host before after)
    (installed : before.installed? id = some hook) : after.world.Keeps id hook := by
  unfold installed? at installed
  split at installed
  next thread module callback next =>
    split at installed
    next same =>
      cases installed
      have intercepts := before.world.intercepts_hooked thread module callback
      rw [← same, move.world_installed next]
      exact ⟨intercepts.module, intercepts.callback⟩
    next => cases installed
  next => cases installed

theorem Move.hook_uninstalled (move : Move host before after)
    (uninstalled : before.installed? id = none) :
    (after.world.thread id).module? = (before.world.thread id).module? ∧
      (after.world.thread id).callback? = (before.world.thread id).callback? := by
  by_cases installing : ∃ module callback?, before.action? = some (.install id module callback?)
  · obtain ⟨module, callback?, next⟩ := installing
    simp only [installed?, next] at uninstalled
    rw [move.world_installed next]
    cases callback? with
    | none => simp only [World.hooked, World.thread_setDispatch, if_true, and_self]
    | some callback =>
      dsimp only at uninstalled
      rw [if_pos rfl] at uninstalled
      cases uninstalled
  · exact move.hook_kept fun module callback? next => installing ⟨module, callback?, next⟩

/-- A thread keeps its hook until a step installs another one on it. -/
theorem Move.keeps (move : Move host before after) (keeps : before.world.Keeps id hook) :
    after.world.Keeps id ((before.installed? id).getD hook) := by
  cases installed : before.installed? id with
  | some next => exact move.keeps_installed installed
  | none =>
    obtain ⟨sameModule, sameCallback⟩ := move.hook_uninstalled installed
    exact ⟨sameModule.trans keeps.module, sameCallback.trans keeps.callback⟩

end

/-- What a thread keeps after a run is the hook that the run installed last on it, or else the one
of before. -/
theorem keeps_of_run {host : Host σ} {id : ThreadId} {hook : HookModule × CallbackId} {fuel : Nat}
    {start machine : Machine σ α} (keeps : start.world.Keeps id hook)
    (met : run host fuel start = .next machine) :
    machine.world.Keeps id ((installs host id fuel start).getLastD hook) := by
  induction fuel generalizing start hook with
  | zero =>
    cases met
    exact keeps
  | succ fuel ih =>
    simp only [run, Transition.run] at met
    cases stepped : step host start with
    | halt outcome =>
      rw [stepped] at met
      cases met
    | next following =>
      rw [stepped] at met
      have later := ih ((step_eq_next_iff.mp stepped).keeps keeps) met
      simp only [installs, stepped]
      cases first : start.installed? id with
      | none => simpa only [first, Option.getD_none, Option.toList_none, List.nil_append] using later
      | some installed =>
        rw [first, Option.getD_some] at later
        rw [Option.toList_some, List.singleton_append, List.getLastD_cons]
        exact later

/-- A step at which a callback of a thread has given its answer, and did not fail, turns
interception on again with what the thread keeps. -/
theorem Move.turnsOn {host : Host σ} {before after : Machine σ α} (move : Move host before after)
    {id : ThreadId} {hook : HookModule × CallbackId} {frame : Frame} {module : HookModule}
    {cached : CacheState} {answer : Option Replacement}
    (control : before.control = .program (.consulted id frame module cached) (.done (.ok answer)))
    (keeps : before.world.Keeps id hook) : after.world.Intercepts id hook.1 hook.2 := by
  obtain ⟨_, stack, world⟩ := before
  cases control
  have stored : ∀ state, (world.storeCache module frame.code.id state).Keeps id hook :=
    fun _ => ⟨keeps.module, keeps.callback⟩
  cases move with
  | missed => exact (stored _).turnedOn
  | replaced fits => exact (stored _).turnedOn
  | rejected misfits => exact (stored _).turnedOn

/-- When a callback has answered, the thread intercepts again, with the hook that was installed last
since it began to intercept: all later consults are by that one, and installing another reports it.
So the callback that was asked is consulted again exactly when no other was installed after it. -/
theorem consulted_by_last_installed {host : Host σ} {start machine : Machine σ α} {id : ThreadId}
    {module : HookModule} {callback : CallbackId} {fuel : Nat} {frame : Frame} {place : HookModule}
    {cached : CacheState} {answer : Option Replacement}
    (intercepts : start.world.Intercepts id module callback)
    (met : run host fuel start = .next machine)
    (answered : machine.control =
      .program (.consulted id frame place cached) (.done (.ok answer))) :
    ∃ after lastModule last,
      (installs host id fuel start).getLastD (module, callback) = (lastModule, last) ∧
      step host machine = .next after ∧
      after.world.Intercepts id lastModule last ∧
      (∀ next other?,
        after.world.install id next other? = .ok (some last, after.world.hooked id next other?)) ∧
      ConsultsUnder host after id lastModule last ∧
      (after.world.Intercepts id module callback ↔
        (installs host id fuel start).getLastD (module, callback) = (module, callback)) := by
  rcases latest : (installs host id fuel start).getLastD (module, callback) with ⟨lastModule, last⟩
  have first : start.world.Keeps id (module, callback) := ⟨intercepts.module, intercepts.callback⟩
  have keeps := keeps_of_run first met
  rw [latest] at keeps
  obtain ⟨_, stack, world⟩ := machine
  cases answered
  obtain ⟨after, move⟩ := move_of_answer host id frame place cached (.ok answer) stack world
  have again := move.turnsOn rfl keeps
  refine ⟨after, lastModule, last, rfl, move.step_eq, again, again.install_eq,
    consultsUnder_of_kept host again.module again.callback, ?_⟩
  constructor
  · intro same
    cases again.module.symm.trans same.module
    cases again.callback.symm.trans same.callback
    rfl
  · intro same
    cases same
    exact again

/-- A callback that opens a scope for another one, in which nothing happens, and then leaves the unit
alone; the other one leaves every unit alone. -/
def opening : Host Unit := .ofCallbacks fun
  | 0 => fun thread _ _ => do
    Program.withCallback thread ⟨⟨0⟩⟩ (some 1) (.done ())
    pure (.ok none)
  | _ => fun _ _ _ => .done (.ok none)

def firstCallback : World Unit := .single #[.one] (.intercepting ⟨⟨0⟩⟩ 0)

def firstCall : Machine Unit (Except Fault Value) :=
  ofProgram firstCallback (Program.run 0 (.call (.function .first) []))

private theorem firstCallback_intercepts : firstCallback.Intercepts 0 ⟨⟨0⟩⟩ 0 := ⟨rfl, rfl, rfl⟩

/-- After the call the thread intercepts with the callback of the scope, and reports it. -/
theorem firstCallback_lost :
    firstCallback.Intercepts 0 ⟨⟨0⟩⟩ 0 ∧
      ∃ after swapped,
        Transition.Ends (step opening) firstCall (.finished (.ok (.int 1)) after) ∧
        after.Intercepts 0 ⟨⟨0⟩⟩ 1 ∧ ¬after.Intercepts 0 ⟨⟨0⟩⟩ 0 ∧
        after.install 0 ⟨⟨0⟩⟩ none = .ok (some 1, swapped) := by
  refine ⟨firstCallback_intercepts, _, _, ⟨13, rfl⟩, ⟨rfl, rfl, rfl⟩, ?_, rfl⟩
  intro same
  cases same.callback

theorem firstCallback_after_consult :
    installs opening 0 6 firstCall = [(⟨⟨0⟩⟩, 1)] ∧
      ∃ frame cached stack world,
        run opening 6 firstCall = .next
          ⟨.program (.consulted 0 frame ⟨⟨0⟩⟩ cached) (.done (.ok none)), stack, world⟩ ∧
        ∃ after lastModule last,
          (installs opening 0 6 firstCall).getLastD (⟨⟨0⟩⟩, 0) = (lastModule, last) ∧
          step opening
              ⟨.program (.consulted 0 frame ⟨⟨0⟩⟩ cached) (.done (.ok none)), stack, world⟩ =
            .next after ∧
          after.world.Intercepts 0 lastModule last ∧
          (∀ next other?,
            after.world.install 0 next other? = .ok (some last, after.world.hooked 0 next other?)) ∧
          ConsultsUnder opening after 0 lastModule last ∧
          (after.world.Intercepts 0 ⟨⟨0⟩⟩ 0 ↔
            (installs opening 0 6 firstCall).getLastD (⟨⟨0⟩⟩, 0) = (⟨⟨0⟩⟩, 0)) := by
  have met : ∃ frame cached stack world, run opening 6 firstCall = .next
      ⟨.program (.consulted 0 frame ⟨⟨0⟩⟩ cached) (.done (.ok none)), stack, world⟩ :=
    ⟨_, _, _, _, rfl⟩
  obtain ⟨frame, cached, stack, world, met⟩ := met
  have intercepts : firstCall.world.Intercepts 0 ⟨⟨0⟩⟩ 0 := firstCallback_intercepts
  exact ⟨rfl, frame, cached, stack, world, met, consulted_by_last_installed intercepts met rfl⟩

end Machine

end Interpose
