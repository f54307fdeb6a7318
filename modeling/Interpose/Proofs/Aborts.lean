import Interpose.Proofs.Conduct
import Interpose.Proofs.Succession

/-! When the engine gives up. A thread gets a module and a callback together and never loses them,
so the interceptor is never without a callback, and without a module only on a thread on which no
hook was ever installed. A thread that intercepts only by installed hooks never makes the engine
give up. -/

namespace Interpose
variable {σ α : Type}

/-- No thread intercepts, and no hook was ever installed on one. -/
def World.Unhooked (world : World σ) : Prop := ∀ id, world.hook id = ⟨.default, none, none⟩

namespace Machine

/-- The next step does not set the dispatch of a thread to anything but the default, and hands no
frame of it to the interceptor. -/
structure Guards (id : ThreadId) (machine : Machine σ α) : Prop where
  dispatch : ∀ chosen, machine.action? = some (.setDispatch id chosen) → chosen = .default
  direct : ∀ role frame next, machine.control ≠ .program role (.launch id (.intercept frame) next)

/-- The thread that the next step complains about if it makes the engine give up. -/
def subject? : Machine σ α → Option ThreadId
  | ⟨.enter id (.intercept _), _, _⟩ => some id
  | ⟨.program _ (.perform (.install id _ _) _), _, _⟩ => some id
  | _ => none

def Hooked (id : ThreadId) (machine : Machine σ α) : Prop :=
  (machine.world.thread id).module?.isSome = true

structure Bare (id : ThreadId) (machine : Machine σ α) : Prop where
  module : (machine.world.thread id).module? = none
  callback : (machine.world.thread id).callback? = none

/-- A thread has a module wherever the interceptor is used or will be used again. -/
structure Ready (id : ThreadId) (machine : Machine σ α) : Prop where
  known : ∀ index, (machine.world.thread id).dispatch ≠ .hosted index
  chosen : (machine.world.thread id).dispatch = .intercept → machine.Hooked id
  entering : ∀ frame, machine.control = .enter id (.intercept frame) → machine.Hooked id
  consulting : ∀ role ∈ machine.roles, role.consults id = true → machine.Hooked id

variable {host : Host σ} {start before after machine : Machine σ α} {id : ThreadId}

theorem Move.hooked (move : Move host before after) (hooked : before.Hooked id) :
    after.Hooked id := by
  cases installed : before.installed? id with
  | some hook => exact Option.isSome_of_eq_some (move.keeps_installed installed).module
  | none =>
    rw [Hooked, (move.hook_uninstalled installed).1]
    exact hooked

/-- What a thread keeps after a run: nothing, or both parts of the hook that was installed last. -/
theorem bare_or_keeps {fuel : Nat} (bare : start.Bare id)
    (met : run host fuel start = .next machine) :
    (installs host id fuel start = [] ∧ machine.Bare id) ∨
      (installs host id fuel start ≠ [] ∧ ∃ hook, machine.world.Keeps id hook) := by
  induction fuel generalizing start with
  | zero =>
    cases met
    exact .inl ⟨rfl, bare⟩
  | succ fuel ih =>
    simp only [run, Transition.run] at met
    cases stepped : step host start with
    | halt outcome =>
      rw [stepped] at met
      cases met
    | next following =>
      rw [stepped] at met
      have move := step_eq_next_iff.mp stepped
      simp only [installs, stepped]
      cases installed : start.installed? id with
      | some hook =>
        have keeps := keeps_of_run (move.keeps_installed installed) met
        exact .inr ⟨List.cons_ne_nil _ _, _, keeps⟩
      | none =>
        obtain ⟨module, callback⟩ := move.hook_uninstalled installed
        exact ih ⟨module.trans bare.module, callback.trans bare.callback⟩ met

theorem Move.role_cases (move : Move host before after) {role : Role}
    (member : role ∈ after.roles) :
    role ∈ before.roles ∨ role.consults id = false ∨ before.Hooked id := by
  have waiting (below : role ∈ before.stack.filterMap Activation.role?) : role ∈ before.roles :=
    List.mem_append_right _ below
  cases move with
  | byHost | byNative =>
    rcases List.mem_cons.mp member with rfl | below
    · exact .inr (.inl rfl)
    · exact .inl (waiting below)
  | @asked thread frame stack world module callback installed present wanted =>
    rcases List.mem_cons.mp member with rfl | below
    · by_cases same : thread = id
      · subst same
        exact .inr (.inr (Option.isSome_of_eq_some installed))
      · exact .inr (.inl (decide_eq_false same))
    · exact .inl (waiting below)
  | replied | performed | launched => exact .inl member
  | _ => exact .inl (waiting member)

theorem Move.dispatch_cases (move : Move host before after) (guards : before.Guards id) :
    (after.world.thread id).dispatch = (before.world.thread id).dispatch ∨
      (after.world.thread id).dispatch = .default ∨
      (after.world.thread id).dispatch = .intercept ∧
        ((before.installed? id).isSome = true ∨
          ∃ role ∈ before.roles, role.consults id = true) := by
  -- Only an answer of a callback and two requests choose a dispatch; all else keeps the hook.
  have kept (same : after.world.hook id = before.world.hook id) :
      (after.world.thread id).dispatch = (before.world.thread id).dispatch :=
    congrArg Hook.dispatch same
  cases move with
  | asked installed present wanted =>
    simp only [World.thread_setDispatch]
    split
    · exact .inr (.inl rfl)
    · exact .inl rfl
  | missed | replaced | rejected =>
    simp only [World.thread_setDispatch, World.thread_storeCache]
    split
    next same =>
      refine .inr (.inr ⟨rfl, .inr ⟨_, List.mem_append_left _ List.mem_cons_self, ?_⟩⟩)
      simp only [Role.consults, same, decide_true]
    next => exact .inl rfl
  | started => exact .inl (kept (World.hook_setDepth _ _ _ _))
  | left | unwound => exact .inl (kept (World.hook_leave _ _ _))
  | @performed role action next stack world reply after applied =>
    cases action with
    | setDispatch thread chosen =>
      cases applied
      simp only [World.thread_setDispatch]
      split
      next same =>
        cases same
        exact .inr (.inl (guards.dispatch chosen rfl))
      next => exact .inl rfl
    | install thread module callback? =>
      cases World.hooked_of_install applied
      have hook := world.hook_hooked thread id module callback?
      split at hook
      next same =>
        cases callback? with
        | none => exact .inr (.inl (congrArg Hook.dispatch hook))
        | some callback =>
          refine .inr (.inr ⟨congrArg Hook.dispatch hook, .inl ?_⟩)
          simp only [installed?, action?, same, if_true, Option.isSome_some]
      next => exact .inl (kept hook)
    | _ => exact .inl (kept (Action.hook_apply applied rfl id))
  | _ => exact .inl rfl

theorem Move.ready (move : Move host before after) (guards : before.Guards id)
    (ready : before.Ready id) : after.Ready id := by
  have armed (cause : (before.installed? id).isSome = true ∨
      ∃ role ∈ before.roles, role.consults id = true) : after.Hooked id := by
    rcases cause with installing | ⟨role, member, consults⟩
    · obtain ⟨hook, installed⟩ := Option.isSome_iff_exists.mp installing
      exact Option.isSome_of_eq_some (move.keeps_installed installed).module
    · exact move.hooked (ready.consulting role member consults)
  have dispatch := move.dispatch_cases guards
  constructor
  case known =>
    intro index hosted
    rcases dispatch with same | default | ⟨intercept, _⟩
    · exact ready.known index (same.symm.trans hosted)
    · rw [hosted] at default
      cases default
    · rw [hosted] at intercept
      cases intercept
  case chosen =>
    intro chosen
    rcases dispatch with same | default | ⟨_, cause⟩
    · exact move.hooked (ready.chosen (same.symm.trans chosen))
    · rw [chosen] at default
      cases default
    · exact armed cause
  case entering =>
    intro frame entering
    cases move with
    | byInterceptor chosen =>
      cases entering
      exact ready.chosen chosen
    | launched =>
      cases entering
      exact absurd rfl (guards.direct _ _ _)
    | _ => cases entering
  case consulting =>
    intro role member consults
    rcases move.role_cases member with old | other | hooked
    · exact move.hooked (ready.consulting role old consults)
    · rw [consults] at other
      cases other
    · exact move.hooked hooked

structure GivesUpUnhooked (host : Host σ) (start : Machine σ α) : Prop where
  paired : ∀ machine id, Transition.Meets (step host) start machine →
    ((machine.world.thread id).module?.isSome = true ↔
      (machine.world.thread id).callback?.isSome = true)
  lasting : ∀ first last id, Transition.Meets (step host) start first →
    Transition.Meets (step host) first last → (first.world.thread id).module?.isSome = true →
    (last.world.thread id).module?.isSome = true ∧
      (last.world.thread id).callback?.isSome = true
  callback : ¬Transition.Ends (step host) start (.fatal .noCallback)
  /-- The interceptor has no module exactly when no hook was installed on the thread so far. -/
  module : ∀ fuel machine id frame, run host fuel start = .next machine →
    machine.control = .enter id (.intercept frame) →
    (step host machine = .halt (.fatal .noModule) ↔ installs host id fuel start = [])
  causes : ∀ machine cause, Transition.Meets (step host) start machine →
    step host machine = .halt (.fatal cause) →
    ∃ id, machine.subject? = some id ∧
      ((cause = .noModule ∧ ∃ frame, machine.control = .enter id (.intercept frame)) ∨
        (cause = .hostedDispatch ∧ ∃ index, (machine.world.thread id).dispatch = .hosted index))
  /-- On a thread on which interception is turned on by installing a hook only, nothing fails so. -/
  spared : ∀ id, (∀ machine, Transition.Meets (step host) start machine → machine.Guards id) →
    ∀ machine cause, Transition.Meets (step host) start machine →
    step host machine = .halt (.fatal cause) → machine.subject? ≠ some id
  never : (∀ id machine, Transition.Meets (step host) start machine → machine.Guards id) →
    ∀ cause, ¬Transition.Ends (step host) start (.fatal cause)

private theorem hosted_of_refused {world : World σ} {action : Action σ} {cause : Fatal}
    (refused : action.apply world = .error cause) :
    cause = .hostedDispatch ∧ ∃ id module callback? index,
      action = .install id module callback? ∧ (world.thread id).dispatch = .hosted index := by
  cases action with
  | install thread module callback? =>
    simp only [Action.apply, World.install_eq_hooked] at refused
    split at refused
    · cases refused
    · cases refused
    next index hosted =>
      cases refused
      exact ⟨rfl, thread, module, callback?, index, rfl, hosted⟩
  | _ => cases refused

private theorem ready_ofProgram {world : World σ} (unhooked : world.Unhooked)
    (program : Program σ α) (id : ThreadId) : (ofProgram world program).Ready id := by
  have default : (world.thread id).dispatch = .default := congrArg Hook.dispatch (unhooked id)
  constructor
  case known =>
    intro index hosted
    cases hosted.symm.trans default
  case chosen =>
    intro chosen
    cases chosen.symm.trans default
  case entering => exact nofun
  case consulting =>
    intro role member consults
    cases List.mem_singleton.mp member
    cases consults

private theorem subject_ready {cause : Fatal} (ready : machine.Ready id)
    (halted : step host machine = .halt (.fatal cause))
    (paired : (machine.world.thread id).module?.isSome = true →
      (machine.world.thread id).callback?.isSome = true) :
    machine.subject? ≠ some id := by
  intro subject
  cases step_eq_halt_iff.mp halted with
  | noModule missing =>
    cases subject
    have hooked := ready.entering _ rfl
    rw [Hooked, missing] at hooked
    cases hooked
  | noCallback installed missing =>
    cases subject
    have present := paired (Option.isSome_of_eq_some installed)
    rw [missing] at present
    cases present
  | fatal refused =>
    obtain ⟨_, thread, module, callback?, index, rfl, hosted⟩ := hosted_of_refused refused
    cases subject
    exact ready.known index hosted

/-- From a state in which no thread was ever hooked, whatever programs do to the dispatches: modules
and callbacks come together and stay, and the engine gives up on the interceptor only where a thread
intercepts without ever having got a hook. -/
theorem givesUpUnhooked_of_unhooked (host : Host σ) {world : World σ} (unhooked : world.Unhooked)
    (program : Program σ α) : GivesUpUnhooked host (ofProgram world program) := by
  have bare (id : ThreadId) : (ofProgram world program).Bare id :=
    ⟨congrArg Hook.module? (unhooked id), congrArg Hook.callback? (unhooked id)⟩
  have paired (machine : Machine σ α) (id : ThreadId)
      (met : Transition.Meets (step host) (ofProgram world program) machine) :
      ((machine.world.thread id).module?.isSome = true ↔
        (machine.world.thread id).callback?.isSome = true) := by
    obtain ⟨fuel, reached⟩ := met
    rcases bare_or_keeps (bare id) reached with ⟨_, bare⟩ | ⟨_, hook, keeps⟩
    · rw [bare.module, bare.callback]
      exact Iff.rfl
    · rw [keeps.module, keeps.callback]
      exact Iff.rfl
  have causes (machine : Machine σ α) (cause : Fatal)
      (met : Transition.Meets (step host) (ofProgram world program) machine)
      (halted : step host machine = .halt (.fatal cause)) :
      ∃ id, machine.subject? = some id ∧
        ((cause = .noModule ∧ ∃ frame, machine.control = .enter id (.intercept frame)) ∨
          (cause = .hostedDispatch ∧
            ∃ index, (machine.world.thread id).dispatch = .hosted index)) := by
    cases step_eq_halt_iff.mp halted with
    | noModule missing => exact ⟨_, rfl, .inl ⟨rfl, _, rfl⟩⟩
    | @noCallback id frame stack world module installed missing wanted =>
      have present := (paired _ id met).mp (Option.isSome_of_eq_some installed)
      rw [missing] at present
      cases present
    | fatal refused =>
      obtain ⟨rfl, thread, module, callback?, index, rfl, hosted⟩ := hosted_of_refused refused
      exact ⟨thread, rfl, .inr ⟨rfl, index, hosted⟩⟩
  have spared (id : ThreadId)
      (guards : ∀ machine, Transition.Meets (step host) (ofProgram world program) machine →
        machine.Guards id)
      (machine : Machine σ α) (cause : Fatal)
      (met : Transition.Meets (step host) (ofProgram world program) machine)
      (halted : step host machine = .halt (.fatal cause)) : machine.subject? ≠ some id := by
    have kept (before after : Machine σ α)
        (reached : Transition.Meets (step host) (ofProgram world program) before)
        (ready : before.Ready id) (move : Move host before after) : after.Ready id :=
      move.ready (guards before reached) ready
    have ready := met_keeps kept (ready_ofProgram unhooked program id) met
    exact subject_ready ready halted (paired machine id met).mp
  refine ⟨paired, ?lasting, ?callback, ?module, causes, spared, ?never⟩
  case lasting =>
    intro first last id met onward hooked
    have kept (before after : Machine σ α) (_ : Transition.Meets (step host) first before)
        (hooked : before.Hooked id) (move : Move host before after) : after.Hooked id :=
      move.hooked hooked
    have still : last.Hooked id := met_keeps kept hooked onward
    exact ⟨still, (paired last id (met.trans onward)).mp still⟩
  case callback =>
    intro ends
    obtain ⟨machine, met, halted⟩ := ends.last
    obtain ⟨id, _, ⟨other, _⟩ | ⟨other, _⟩⟩ := causes machine _ met halted <;> cases other
  case module =>
    intro fuel machine id frame met control
    obtain ⟨_, stack, world⟩ := machine
    cases control
    rcases bare_or_keeps (bare id) met with ⟨none, bare⟩ | ⟨installed, hook, keeps⟩
    · exact iff_of_true (step_eq_halt_iff.mpr (.noModule bare.module)) none
    · refine iff_of_false (fun halted => ?_) installed
      cases step_eq_halt_iff.mp halted with
      | noModule missing => cases keeps.module.symm.trans missing
  case never =>
    intro guards cause ends
    obtain ⟨machine, met, halted⟩ := ends.last
    obtain ⟨id, subject, _⟩ := causes machine cause met halted
    exact spared id (guards id) machine cause met halted subject

end Machine

/-- Interception is turned on by installing a hook only, and the interceptor gets no frame from a
program. -/
def Conduct.hooking : Conduct σ where
  performs
    | .setDispatch _ chosen => chosen = .default
    | _ => True
  launches
    | _, .intercept _ => False
    | _, _ => True

namespace Machine

theorem Follows.guards {machine : Machine σ α} (follows : machine.Follows .hooking)
    (id : ThreadId) : machine.Guards id := by
  constructor
  case dispatch => exact fun chosen next => follows.performs next
  case direct =>
    intro role frame next control
    have above := follows.control
    rw [control] at above
    exact above.1

def neverHooked : World Unit := .single #[.one] {}

def nestedScopes : Program Unit (Except Fault Value) :=
  .withCallback 0 ⟨⟨0⟩⟩ (some 0) (.run 0 (.call (.function .first) []))

def switchedOn : Program Unit (Except Fault Value) := do
  .act (.setDispatch 0 .intercept)
  .run 0 (.call (.function .first) [])

theorem givesUpUnhooked_of_nestedScopes :
    neverHooked.Unhooked ∧
    GivesUpUnhooked opening (ofProgram neverHooked nestedScopes) ∧
    (∀ cause, ¬Transition.Ends (step opening) (ofProgram neverHooked nestedScopes)
      (.fatal cause)) ∧
    (∃ world,
      Transition.Ends (step opening) (ofProgram neverHooked nestedScopes)
        (.finished (.ok (.int 1)) world) ∧
      world.hook 0 = ⟨.default, some ⟨⟨0⟩⟩, some 1⟩) ∧
    Transition.Ends (step opening) (ofProgram neverHooked switchedOn) (.fatal .noModule) := by
  have unhooked : neverHooked.Unhooked := by
    intro id
    cases id <;> rfl
  have gives := givesUpUnhooked_of_unhooked opening unhooked nestedScopes
  refine ⟨unhooked, gives, gives.never ?_, ⟨_, ⟨20, rfl⟩, rfl⟩, ⟨9, rfl⟩⟩
  intro id machine met
  refine Follows.guards (follows_of_met ?client ?served met) id
  case client => exact ⟨trivial, fun _ => ⟨trivial, fun _ => ⟨trivial, fun _ => trivial⟩⟩⟩
  case served =>
    refine Host.follows_ofCallbacks fun callback _ _ _ => ?_
    cases callback with
    | zero => exact ⟨trivial, fun _ => ⟨trivial, fun _ => trivial⟩⟩
    | succ => exact trivial

end Machine

end Interpose
