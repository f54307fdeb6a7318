import Interpose.Proofs.Moves

/-! What a run shows of interception: which frames were intercepted, what the callbacks were asked
and what they answered, and which frames the engine evaluated. A cache changes only when a callback
answers, or when a program writes the slot itself. -/

namespace Interpose

/-- A step of a run that interception is about. -/
inductive Event where
  /-- A thread that intercepts under a module dispatches a frame. -/
  | intercepted (thread : ThreadId) (module : HookModule) (frame : Frame)
  /-- A callback is asked about a frame, and told how many replacements are cached. -/
  | asked (thread : ThreadId) (callback : CallbackId) (module : HookModule) (frame : Frame)
      (size : Nat)
  | answered (thread : ThreadId) (module : HookModule) (code : CodeId)
      (answer : Except Fault (Option Replacement))
  | evaluated (thread : ThreadId) (frame : Frame)

namespace Event

def hit? (module : HookModule) (code : CodeId) : Event → Option Replacement
  | .answered _ place unit (.ok (some replacement)) =>
    if place = module ∧ unit = code then some replacement else none
  | _ => none

def isMiss (module : HookModule) (code : CodeId) : Event → Bool
  | .answered _ place unit (.ok none) => place = module ∧ unit = code
  | _ => false

def asks (module : HookModule) (code : CodeId) : Event → Bool
  | .asked _ _ place frame _ => place = module ∧ frame.code.id = code
  | _ => false

end Event

def hits (module : HookModule) (code : CodeId) (events : List Event) : List Replacement :=
  events.filterMap (Event.hit? module code)

def hasMiss (module : HookModule) (code : CodeId) (events : List Event) : Bool :=
  events.any (Event.isMiss module code)

@[simp] theorem hits_append (module : HookModule) (code : CodeId) (first second : List Event) :
    hits module code (first ++ second) = hits module code first ++ hits module code second :=
  List.filterMap_append

@[simp] theorem hasMiss_append (module : HookModule) (code : CodeId)
    (first second : List Event) :
    hasMiss module code (first ++ second) =
      (hasMiss module code first || hasMiss module code second) :=
  List.any_append

namespace Machine
variable {σ α : Type}

def event? : Machine σ α → Option Event
  | ⟨.enter id (.dispatch frame), _, world⟩ =>
    match (world.thread id).dispatch, (world.thread id).module? with
    | .intercept, some module => some (.intercepted id module frame)
    | _, _ => none
  | ⟨.enter id (.intercept frame), _, world⟩ =>
    match (world.thread id).module?, (world.thread id).callback? with
    | some module, some callback =>
      if (world.cache module frame.code.id).isSkip then none
      else
        some (.asked id callback module (frame.materialize world.heap)
          (world.cache module frame.code.id).length)
    | _, _ => none
  | ⟨.enter id (.evaluate frame), _, _⟩ => some (.evaluated id frame)
  | ⟨.program (.consulted id frame module _) (.done answer), _, _⟩ =>
    some (.answered id module frame.code.id answer)
  | _ => none

theorem shows_intercepted {machine : Machine σ α} {id : ThreadId} {module : HookModule}
    {frame : Frame} (shown : machine.event? = some (.intercepted id module frame)) :
    machine.control = .enter id (.dispatch frame) ∧
      (machine.world.thread id).dispatch = .intercept ∧
      (machine.world.thread id).module? = some module := by
  unfold event? at shown
  split at shown
  · split at shown
    next place chosen installed =>
      cases shown
      exact ⟨rfl, chosen, installed⟩
    next => cases shown
  · split at shown
    · split at shown <;> cases shown
    · cases shown
  all_goals cases shown

theorem shows_asked {machine : Machine σ α} {id : ThreadId} {callback : CallbackId}
    {module : HookModule} {frame : Frame} {size : Nat}
    (shown : machine.event? = some (.asked id callback module frame size)) :
    ∃ original, machine.control = .enter id (.intercept original) ∧
      frame = original.materialize machine.world.heap ∧
      (machine.world.thread id).module? = some module ∧
      (machine.world.thread id).callback? = some callback ∧
      (machine.world.cache module frame.code.id).isSkip = false ∧
      size = (machine.world.cache module frame.code.id).length := by
  unfold event? at shown
  split at shown
  · split at shown <;> cases shown
  next id original stack world =>
    split at shown
    next place asked installed present =>
      split at shown
      next => cases shown
      next wanted =>
        cases shown
        exact ⟨original, rfl, rfl, installed, present, Bool.eq_false_iff.mpr wanted, rfl⟩
    next => cases shown
  all_goals cases shown

theorem shows_answered {machine : Machine σ α} {id : ThreadId} {module : HookModule}
    {code : CodeId} {answer : Except Fault (Option Replacement)}
    (shown : machine.event? = some (.answered id module code answer)) :
    ∃ frame cached, machine.control = .program (.consulted id frame module cached) (.done answer) ∧
      frame.code.id = code := by
  unfold event? at shown
  split at shown
  · split at shown <;> cases shown
  · split at shown
    · split at shown <;> cases shown
    · cases shown
  next => cases shown
  next id frame place cached answered stack world =>
    cases shown
    exact ⟨frame, cached, rfl, rfl⟩
  next => cases shown

/-- What so many steps show. A step that ends the run shows nothing. -/
def history (host : Host σ) : Nat → Machine σ α → List Event
  | 0, _ => []
  | fuel + 1, machine =>
    match step host machine with
    | .next after => machine.event?.toList ++ history host fuel after
    | .halt _ => []

theorem run_move {host : Host σ} {fuel : Nat} {start before after : Machine σ α}
    (met : run host fuel start = .next before) (move : Move host before after) :
    run host (fuel + 1) start = .next after := by
  rw [run, Transition.run_succ, ← run, met]
  exact move.step_eq

theorem exists_move_of_run {host : Host σ} {fuel : Nat} {start after : Machine σ α}
    (met : run host (fuel + 1) start = .next after) :
    ∃ before, run host fuel start = .next before ∧ Move host before after := by
  have last := Transition.run_succ (step host) fuel start
  cases reached : run host fuel start with
  | halt outcome =>
    rw [run] at met reached
    rw [met, reached] at last
    cases last
  | next before =>
    rw [run] at met reached
    rw [met, reached] at last
    exact ⟨before, rfl, step_eq_next_iff.mp last.symm⟩

theorem history_succ {host : Host σ} {fuel : Nat} {start machine after : Machine σ α}
    (met : run host fuel start = .next machine) (move : Move host machine after) :
    history host (fuel + 1) start = history host fuel start ++ machine.event?.toList := by
  induction fuel generalizing start with
  | zero =>
    cases met
    simp only [history, move.step_eq, List.append_nil, List.nil_append]
  | succ fuel ih =>
    simp only [run, Transition.run] at met
    rw [history, history]
    cases stepped : step host start with
    | next following =>
      rw [stepped] at met
      simp only [ih met, List.append_assoc]
    | halt outcome =>
      rw [stepped] at met
      cases met

/-- What every move keeps, together with what it shows, holds of every state that is met and of the
history up to there. -/
theorem history_keeps {host : Host σ} {start : Machine σ α}
    {property : List Event → Machine σ α → Prop}
    (kept : ∀ events before after, Transition.Meets (step host) start before →
      property events before → Move host before after →
      property (events ++ before.event?.toList) after)
    (initial : property [] start) {fuel : Nat} {machine : Machine σ α}
    (met : run host fuel start = .next machine) : property (history host fuel start) machine := by
  induction fuel generalizing machine with
  | zero =>
    cases met
    exact initial
  | succ fuel ih =>
    obtain ⟨before, reached, move⟩ := exists_move_of_run met
    rw [history_succ reached move]
    exact kept _ _ _ ⟨fuel, reached⟩ (ih reached) move

/-- What every move keeps holds of every state that is met. -/
theorem met_keeps {host : Host σ} {start machine : Machine σ α} {property : Machine σ α → Prop}
    (kept : ∀ before after, Transition.Meets (step host) start before → property before →
      Move host before after → property after)
    (initial : property start) (met : Transition.Meets (step host) start machine) :
    property machine := by
  have moves : ∀ (events : List Event) before after, Transition.Meets (step host) start before →
      property before → Move host before after → property after := fun _ => kept
  obtain ⟨fuel, reached⟩ := met
  exact history_keeps moves initial reached

theorem history_met (host : Host σ) (fuel : Nat) (start : Machine σ α) :
    ∃ reached machine, run host reached start = .next machine ∧
      history host fuel start = history host reached start := by
  induction fuel generalizing start with
  | zero => exact ⟨0, start, rfl, rfl⟩
  | succ fuel ih =>
    cases stepped : step host start with
    | halt outcome => exact ⟨0, start, rfl, by simp only [history, stepped]⟩
    | next following =>
      obtain ⟨reached, machine, met, same⟩ := ih following
      refine ⟨reached + 1, machine, ?_, ?_⟩
      · simpa only [run, Transition.run, stepped] using met
      · simp only [history, stepped, same]

theorem wanted_of_asks {machine : Machine σ α} {event : Event} {module : HookModule}
    {code : CodeId} (shown : machine.event? = some event) (asks : event.asks module code = true) :
    (machine.world.cache module code).isSkip = false := by
  cases event with
  | asked id callback place frame size =>
    obtain ⟨rfl, rfl⟩ : place = module ∧ frame.code.id = code := of_decide_eq_true asks
    obtain ⟨_, _, _, _, _, wanted, _⟩ := shows_asked shown
    exact wanted
  | _ => cases asks

def action? : Machine σ α → Option (Action σ)
  | ⟨.program _ (.perform action _), _, _⟩ => some action
  | _ => none

theorem control_of_action {machine : Machine σ α} {action : Action σ}
    (next : machine.action? = some action) :
    ∃ role rest, machine.control = .program role (.perform action rest) := by
  unfold action? at next
  split at next
  next role _ rest _ _ =>
    cases next
    exact ⟨role, rest, rfl⟩
  next => cases next

/-- The machine does not write the slot of a unit past the interceptor. -/
def Leaves (module : HookModule) (code : CodeId) (machine : Machine σ α) : Prop :=
  ∀ unit index value, machine.action? = some (.writeExtra unit index value) →
    index = module.index → unit ≠ code

private theorem cache_apply {world after : World σ} {action : Action σ} {reply : action.Reply}
    {module : HookModule} {code : CodeId} (applied : action.apply world = .ok (reply, after))
    (unwritten : ∀ unit index value, action = .writeExtra unit index value →
      index = module.index → unit ≠ code) :
    after.cache module code = world.cache module code := by
  cases action with
  | writeExtra unit index value =>
    cases applied
    simp only [World.cache, World.extra_setExtra]
    split
    next same => exact absurd same.1.symm (unwritten unit index value rfl same.2.symm)
    next => rfl
  | build unit =>
    simp only [Action.apply, World.build] at applied
    split at applied <;> cases applied <;> rfl
  | requestIndex id =>
    simp only [Action.apply, World.requestIndex] at applied
    split at applied <;> cases applied <;> rfl
  | enter thread function arguments =>
    simp only [Action.apply, World.enter] at applied
    split at applied <;> cases applied <;> rfl
  | install thread place callback? =>
    simp only [Action.apply, World.install] at applied
    split at applied <;> cases applied <;> rfl
  | newInterpreter =>
    cases applied
    simp only [World.cache, World.extra, World.extras_addInterpreter]
  | _ => cases applied; rfl

def commit? (module : HookModule) (code : CodeId) : Machine σ α → Option CacheState
  | ⟨.program (.consulted _ frame place _) (.done (.ok none)), _, _⟩ =>
    if place = module ∧ frame.code.id = code then some .skip else none
  | ⟨.program (.consulted _ frame place cached) (.done (.ok (some replacement))), _, _⟩ =>
    if place = module ∧ frame.code.id = code then some (cached.prepend replacement) else none
  | _ => none

private theorem cache_commit (world : World σ) (id : ThreadId) (module place : HookModule)
    (code other : CodeId) (state : CacheState) :
    ((world.storeCache place other state).setDispatch id .intercept).cache module code =
      (if place = module ∧ other = code then some state else none).getD
        (world.cache module code) := by
  rw [World.cache_setDispatch, World.cache_storeCache]
  by_cases same : place = module ∧ other = code
  · obtain ⟨rfl, rfl⟩ := same
    simp
  · rw [if_neg same, if_neg fun equal => same ⟨equal.1.symm, equal.2.symm⟩]
    rfl

/-- A cache changes only by the answer of a callback. -/
theorem Move.cache_eq {host : Host σ} {before after : Machine σ α} {module : HookModule}
    {code : CodeId} (move : Move host before after) (leaves : before.Leaves module code) :
    after.world.cache module code =
      (before.commit? module code).getD (before.world.cache module code) := by
  cases move with
  | @missed id frame place cached stack world =>
    exact cache_commit world id module place code frame.code.id .skip
  | @replaced id frame place cached replacement stack world shadow fits =>
    exact cache_commit world id module place code frame.code.id (cached.prepend replacement)
  | @rejected id frame place cached replacement stack world fault misfits =>
    exact cache_commit world id module place code frame.code.id (cached.prepend replacement)
  | @performed role action next stack world reply after applied =>
    have kept := cache_apply applied fun unit index value same =>
      leaves unit index value (congrArg some same)
    cases role <;> exact kept
  | @launched role id entry next stack world => cases role <;> rfl
  | _ => rfl

theorem commit_cases (module : HookModule) (code : CodeId) (machine : Machine σ α) :
    (machine.commit? module code = none ∧ hits module code machine.event?.toList = [] ∧
      hasMiss module code machine.event?.toList = false) ∨
    (machine.commit? module code = some .skip ∧ hits module code machine.event?.toList = [] ∧
      hasMiss module code machine.event?.toList = true) ∨
    ∃ id frame cached replacement,
      machine.control = .program (.consulted id frame module cached)
        (.done (.ok (some replacement))) ∧ frame.code.id = code ∧
      machine.commit? module code = some (cached.prepend replacement) ∧
      hits module code machine.event?.toList = [replacement] ∧
      hasMiss module code machine.event?.toList = false := by
  obtain ⟨control, stack, world⟩ := machine
  match control with
  | .program (.consulted id frame place cached) (.done answered) =>
    by_cases same : place = module ∧ frame.code.id = code
    · obtain ⟨rfl, rfl⟩ := same
      match answered with
      | .error fault => exact .inl ⟨rfl, rfl, rfl⟩
      | .ok none =>
        exact .inr (.inl ⟨by simp [commit?], rfl, by simp [event?, hasMiss, Event.isMiss]⟩)
      | .ok (some replacement) =>
        exact .inr (.inr ⟨id, frame, cached, replacement, rfl, rfl, by simp [commit?],
          by simp [event?, hits, Event.hit?], rfl⟩)
    · left
      match answered with
      | .error fault => exact ⟨rfl, rfl, rfl⟩
      | .ok none => exact ⟨if_neg same, rfl, by simpa [event?, hasMiss, Event.isMiss] using same⟩
      | .ok (some replacement) =>
        exact ⟨if_neg same, by simpa [event?, hits, Event.hit?] using same, rfl⟩
  | .enter id (.dispatch frame) =>
    left
    simp only [event?]
    split <;> exact ⟨rfl, rfl, rfl⟩
  | .enter id (.intercept frame) =>
    left
    simp only [event?]
    split
    · split <;> exact ⟨rfl, rfl, rfl⟩
    · exact ⟨rfl, rfl, rfl⟩
  | .enter id (.evaluate frame) | .enter id (.call callee arguments) | .run id frame
  | .give result | .program .client (.done result) | .program .hosted (.done result) =>
    exact .inl ⟨rfl, rfl, rfl⟩
  | .program role (.perform action next) | .program role (.launch id entry next) =>
    cases role <;> exact .inl ⟨rfl, rfl, rfl⟩

end Machine

end Interpose
