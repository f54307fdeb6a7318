import Interpose.Proofs.Conduct
import Interpose.Proofs.Dormancy

/-! The recursion limit only shows when a frame is refused. A run in which the limit of a thread was
never hit is, step by step, the run under any higher limit; and where it was hit while no callback
was asked, the refusal goes through all waiting frames and is the result of the whole run. -/

namespace Interpose
variable {σ α : Type}

namespace World

def withLimit (world : World σ) (id : ThreadId) (limit : Nat) : World σ :=
  world.setThread id { world.thread id with limit }

/-- Two engines that differ in nothing but the limits of threads, and the second has the higher
ones. -/
structure Roomier (first second : World σ) : Prop where
  heap : second.heap = first.heap
  extras : second.extras = first.extras
  interpreters : second.interpreters = first.interpreters
  host : second.host = first.host
  size : second.threads.size = first.threads.size
  threads : ∀ id,
    second.thread id = { first.thread id with limit := (second.thread id).limit }
  limits : ∀ id, (first.thread id).limit ≤ (second.thread id).limit

namespace Roomier
variable {first second : World σ}

theorem eq_withThreads (roomier : first.Roomier second) :
    second = { first with threads := second.threads } := by
  obtain ⟨heap, extras, interpreters, threads, host⟩ := first
  obtain ⟨_, _, _, others, _⟩ := second
  obtain ⟨rfl, rfl, rfl, rfl, _, _, _⟩ := roomier
  rfl

/-- Changes elsewhere, made in both engines, leave the threads as they are. -/
theorem congr {after other : World σ} (roomier : first.Roomier second)
    (same : other = { after with threads := other.threads })
    (kept : after.threads = first.threads) (alsoKept : other.threads = second.threads) :
    after.Roomier other where
  heap := by rw [same]
  extras := by rw [same]
  interpreters := by rw [same]
  host := by rw [same]
  size := by rw [kept, alsoKept, roomier.size]
  threads id := by
    simp only [thread, kept, alsoKept]
    exact roomier.threads id
  limits id := by
    simp only [thread, kept, alsoKept]
    exact roomier.limits id

/-- A change of a thread that does not depend on its limit, and keeps it. -/
theorem update (roomier : first.Roomier second) (id : ThreadId) (change : Thread → Thread)
    (blind : ∀ thread limit, change { thread with limit } = { change thread with limit }) :
    (first.setThread id (change (first.thread id))).Roomier
      (second.setThread id (change (second.thread id))) := by
  have limit (thread : Thread) : (change thread).limit = thread.limit := by
    have same := congrArg Thread.limit (blind thread thread.limit)
    exact same
  refine ⟨roomier.heap, roomier.extras, roomier.interpreters, roomier.host, ?size, ?threads,
    ?limits⟩
  case size => simp only [World.setThread, Table.size_set, roomier.size]
  case threads =>
    intro other
    rw [thread_setThread, thread_setThread]
    split
    · have changed := blind (first.thread id) (second.thread id).limit
      rw [← roomier.threads id] at changed
      rw [limit]
      exact changed
    · exact roomier.threads other
  case limits =>
    intro other
    rw [thread_setThread, thread_setThread]
    split
    · rw [limit, limit]
      exact roomier.limits id
    · exact roomier.limits other

theorem pushThread (roomier : first.Roomier second) (thread : Thread) :
    World.Roomier { first with threads := first.threads.push thread }
      { second with threads := second.threads.push thread } where
  heap := roomier.heap
  extras := roomier.extras
  interpreters := roomier.interpreters
  host := roomier.host
  size := by rw [Table.size_push, Table.size_push, roomier.size]
  threads id := by
    simp only [World.thread, Table.get_push, roomier.size]
    split
    · rfl
    · exact roomier.threads id
  limits id := by
    simp only [World.thread, Table.get_push, roomier.size]
    split
    · exact Nat.le_refl _
    · exact roomier.limits id

theorem setDispatch (roomier : first.Roomier second) (id : ThreadId) (dispatch : Dispatch) :
    (first.setDispatch id dispatch).Roomier (second.setDispatch id dispatch) :=
  roomier.update id (fun thread => { thread with dispatch }) fun _ _ => rfl

theorem hooked (roomier : first.Roomier second) (id : ThreadId) (module : HookModule)
    (callback? : Option CallbackId) :
    (first.hooked id module callback?).Roomier (second.hooked id module callback?) := by
  cases callback? with
  | none => exact roomier.setDispatch id .default
  | some callback =>
    apply roomier.update id fun thread =>
      { thread with dispatch := .intercept, module? := some module, callback? := some callback }
    intro thread limit
    rfl

theorem storeCache (roomier : first.Roomier second) (module : HookModule) (code : CodeId)
    (state : CacheState) :
    (first.storeCache module code state).Roomier (second.storeCache module code state) := by
  have same := roomier.eq_withThreads
  generalize second.threads = threads at same
  subst same
  exact roomier.congr rfl rfl rfl

theorem addInterpreter (roomier : first.Roomier second) :
    first.addInterpreter.Roomier second.addInterpreter where
  heap := by rw [heap_addInterpreter, heap_addInterpreter, roomier.heap]
  extras := by rw [extras_addInterpreter, extras_addInterpreter, roomier.extras]
  interpreters := by simp only [World.addInterpreter, roomier.interpreters, roomier.heap]
  host := by simpa only [World.addInterpreter, World.edit] using roomier.host
  size := by rw [threads_addInterpreter, threads_addInterpreter, roomier.size]
  threads id := by
    simp only [thread, threads_addInterpreter]
    exact roomier.threads id
  limits id := by
    simp only [thread, threads_addInterpreter]
    exact roomier.limits id

theorem cache (roomier : first.Roomier second) (module : HookModule) (code : CodeId) :
    second.cache module code = first.cache module code := by
  simp only [World.cache, World.extra, roomier.extras]

theorem builtins (roomier : first.Roomier second) (id : ThreadId) :
    second.builtins id = first.builtins id := by
  rw [World.builtins, roomier.threads id, World.interpreter, roomier.interpreters]
  rfl

end Roomier

theorem unseen_roomier : Unseen (@Roomier σ) where
  heap roomier := roomier.heap
  builtins roomier := roomier.builtins
  dispatch roomier id := by rw [roomier.threads id]
  depth roomier id := by rw [roomier.threads id]
  edit := by
    intro first second roomier edits
    have same := roomier.eq_withThreads
    generalize second.threads = threads at same
    subst same
    exact roomier.congr rfl rfl rfl
  setDepth roomier id depth :=
    roomier.update id (fun thread => { thread with depth }) fun _ _ => rfl

theorem roomier_withLimit (world : World σ) (id : ThreadId) {low high : Nat} (raised : low ≤ high) :
    (world.withLimit id low).Roomier (world.withLimit id high) where
  heap := rfl
  extras := rfl
  interpreters := rfl
  host := rfl
  size := by simp only [withLimit, World.setThread, Table.size_set]
  threads other := by
    rw [withLimit, withLimit, thread_setThread, thread_setThread]
    split <;> rfl
  limits other := by
    rw [withLimit, withLimit, thread_setThread, thread_setThread]
    split
    · exact raised
    · exact Nat.le_refl _

end World

namespace Action

def measures : Action σ → Bool
  | .limit _ => true
  | _ => false

/-- A request that does not ask for a limit is answered alike. -/
theorem answers_roomier {action : Action σ} {first second : World σ}
    (roomier : first.Roomier second) (other : action.measures = false) :
    Answers World.Roomier (action.apply first) (action.apply second) := by
  have unseen := @World.unseen_roomier σ
  have same := roomier.eq_withThreads
  generalize second.threads = threads at same
  subst same
  cases action with
  | limit thread => cases other
  | newThread owner most =>
    simp only [apply, roomier.size]
    exact .reply _ (roomier.pushThread _)
  | setDispatch thread chosen => exact .reply _ (roomier.setDispatch thread chosen)
  | install thread module callback? =>
    have hooked := roomier.hooked thread module callback?
    have kept := congrArg Thread.callback? (roomier.threads thread)
    simp only [apply, World.install_eq_hooked, unseen.dispatch roomier thread, kept]
    cases (first.thread thread).dispatch with
    | intercept | default => exact .reply _ hooked
    | hosted index => exact .refused _
  | enter thread function arguments =>
    simp only [apply, World.enter, roomier.builtins]
    cases Frame.enter first.heap (first.builtins thread) function arguments with
    | ok made => exact .reply _ (unseen.edit roomier made.2)
    | error fault => exact .reply _ roomier
  | interpreterOf thread =>
    have kept := congrArg Thread.interpreter (roomier.threads thread)
    simp only [apply, kept]
    exact .reply _ roomier
  | depth thread =>
    simp only [apply, unseen.depth roomier thread]
    exact .reply _ roomier
  | dispatch thread =>
    simp only [apply, unseen.dispatch roomier thread]
    exact .reply _ roomier
  | build unit =>
    simp only [apply, World.build]
    cases unit.build with
    | ok made => exact .reply _ (roomier.congr rfl rfl rfl)
    | error fault => exact .reply _ roomier
  | requestIndex owner =>
    simp only [apply, World.requestIndex, World.interpreter]
    cases (first.interpreters.get owner).registry.request with
    | ok granted => exact .reply _ (roomier.congr rfl rfl rfl)
    | error fault => exact .reply _ roomier
  | newInterpreter => exact .reply _ roomier.addInterpreter
  | edit change => exact .reply _ (roomier.congr rfl rfl rfl)
  | writeExtra code index value => exact .reply _ (roomier.congr rfl rfl rfl)
  | writeHost state => exact .reply _ (roomier.congr rfl rfl rfl)
  | readHeap | readExtra | interpreter | readHost => exact .reply _ roomier

end Action

def Activation.Outside : Activation σ α → Prop
  | .frame _ _ => True
  | .program .client _ => True
  | .program _ _ => False

namespace Machine

def refusal? : Machine σ α → Option Fault
  | ⟨.enter id (.evaluate frame), _, world⟩ =>
    if (world.thread id).limit ≤ (world.thread id).depth then
      some (.recursionLimit frame.code.name)
    else none
  | _ => none

def Unmeasured (machine : Machine σ α) : Prop :=
  ∀ action, machine.action? = some action → action.measures = false

variable {host : Host σ} {first second : Machine σ α}

private theorem level_of_roomier (roomier : World.Roomier first.world second.world)
    (room : first.refusal? = none) : first.Level second := by
  intro id frame control
  obtain ⟨_, _, world⟩ := first
  cases control
  have free : ¬ (world.thread id).limit ≤ (world.thread id).depth := by
    intro full
    simp only [refusal?, if_pos full] at room
    cases room
  have higher : (world.thread id).limit ≤ (second.world.thread id).limit := roomier.limits id
  have depth : (second.world.thread id).depth = (world.thread id).depth :=
    World.unseen_roomier.depth roomier id
  refine iff_of_false ?_ free
  intro full
  apply free
  omega

private theorem step_intercept {world other : World σ} (roomier : world.Roomier other)
    (id : ThreadId) (frame : Frame) (stack : List (Activation σ α)) :
    Transition.Pairs (Abreast World.Roomier) (Outcome.Abreast World.Roomier)
      (step host ⟨.enter id (.intercept frame), stack, world⟩)
      (step host ⟨.enter id (.intercept frame), stack, other⟩) := by
  have module := congrArg Thread.module? (roomier.threads id)
  have callback := congrArg Thread.callback? (roomier.threads id)
  have same := roomier.eq_withThreads
  generalize other.threads = threads at same
  subst same
  simp only [step, intercept, module, callback, roomier.cache]
  cases (world.thread id).module? with
  | none => exact .halt (.fatal _)
  | some module =>
    dsimp only
    cases (world.cache module frame.code.id).isSkip with
    | true => exact .next (.at_same roomier)
    | false =>
      cases (world.thread id).callback? with
      | none => exact .halt (.fatal _)
      | some callback => exact .next (.at_same (roomier.setDispatch id .default))

private theorem step_answer {world other : World σ} (roomier : world.Roomier other) (id : ThreadId)
    (frame : Frame) (module : HookModule) (cached : CacheState)
    (answered : Except Fault (Option Replacement)) (stack : List (Activation σ α)) :
    Transition.Pairs (Abreast World.Roomier) (Outcome.Abreast World.Roomier)
      (step host ⟨.program (.consulted id frame module cached) (.done answered), stack, world⟩)
      (step host
        ⟨.program (.consulted id frame module cached) (.done answered), stack, other⟩) := by
  have stored (state : CacheState) :=
    (roomier.storeCache module frame.code.id state).setDispatch id .intercept
  match answered with
  | .error fault => exact .next (.at_same roomier)
  | .ok none => exact .next (.at_same (stored .skip))
  | .ok (some replacement) =>
    have grown := stored (cached.prepend replacement)
    simp only [step, finish, answer, grown.heap, grown.builtins]
    split <;> exact .next (.at_same grown)

theorem Abreast.step_roomier (alike : Abreast World.Roomier first second)
    (room : first.refusal? = none) (unmeasured : first.Unmeasured) :
    Transition.Pairs (Abreast World.Roomier) (Outcome.Abreast World.Roomier)
      (Machine.step host first) (Machine.step host second) := by
  by_cases unhooked : first.Unhooked
  · apply alike.step World.unseen_roomier unhooked (level_of_roomier alike.world room)
    intro action next
    exact Action.answers_roomier alike.world (unmeasured action next)
  · obtain ⟨_, _, world⟩ := first
    obtain ⟨_, below, other⟩ := second
    obtain ⟨rfl, rfl, roomier⟩ := alike
    rcases control_of_hooked unhooked with
      ⟨id, frame, control⟩ | ⟨id, frame, module, cached, answered, control⟩
    · cases control
      exact step_intercept roomier id frame below
    · cases control
      exact step_answer roomier id frame module cached answered below

def Returns (machine : Machine σ (Except Fault Value)) (id : ThreadId) : Prop :=
  (∀ body, machine.control = .program .client body → body.Delegates id) ∧
    ∀ next, .program .client next ∈ machine.stack → next = .done

theorem Move.returns {id : ThreadId} {before after : Machine σ (Except Fault Value)}
    (move : Move host before after) (returns : before.Returns id) : after.Returns id := by
  refine ⟨?running, ?waiting⟩
  case waiting =>
    intro next member
    rcases move.waiting member with below | ⟨_, _, same⟩ | ⟨role, _, _, _, launches, same⟩
    · exact returns.2 next below
    · cases same
    · cases same
      exact (returns.1 _ launches).2.2
  case running =>
    intro body control
    cases move with
    | @replied result role next stack world =>
      cases control
      cases returns.2 next List.mem_cons_self
      exact trivial
    | @performed role action next stack world reply after applied =>
      cases control
      exact (returns.1 _ rfl).2 reply
    | _ => cases control

/-- Where no program of the host waits, a failure goes through all frames and is the result of the
client. -/
theorem ends_of_failure {fault : Fault} {world : World σ}
    {stack : List (Activation σ (Except Fault Value))} (rooted : RootedStack stack)
    (outside : ∀ activation ∈ stack, activation.Outside)
    (done : ∀ next, .program .client next ∈ stack → next = .done) :
    ∃ after, Transition.Ends (step host) ⟨.give (.error fault), stack, world⟩
      (.finished (.error fault) after) ∧ world.Untouched after := by
  induction stack generalizing world with
  | nil => exact rooted.elim
  | cons top below ih =>
    cases top with
    | frame thread frame =>
      have unwinds : Move host (⟨.give (.error fault), .frame thread frame :: below, world⟩ :
          Machine σ (Except Fault Value)) ⟨.give (.error fault), below, leave world thread⟩ :=
        .unwound
      obtain ⟨after, ended, untouched⟩ :=
        ih rooted (fun activation member => outside activation (List.mem_cons_of_mem _ member))
          fun next member => done next (List.mem_cons_of_mem _ member)
      exact ⟨after, (Transition.Meets.of_step unwinds.step_eq).ends ended,
        (World.Untouched.leave world thread).trans untouched⟩
    | program role next =>
      cases role with
      | client =>
        cases done next List.mem_cons_self
        have bottom : below = [] := rooted
        subst bottom
        exact ⟨world, ⟨2, rfl⟩, .refl world⟩
      | consulted | hosted => exact (outside _ List.mem_cons_self).elim

/-- A run in which no frame is refused and nobody asks for the limit of a thread. -/
def Unhit (host : Host σ) (start : Machine σ α) : Prop :=
  ∀ machine, Transition.Meets (step host) start machine →
    machine.refusal? = none ∧ machine.Unmeasured

structure Unhindered (host : Host σ) (start : World σ) (id : ThreadId) (low high : Nat) :
    Prop where
  /-- A run in which no frame is refused takes the same steps under the higher limit, with the same
  effects on namespaces, cells and extra slots. -/
  together : ∀ {α : Type} (program : Program σ α),
    Unhit host (ofProgram (start.withLimit id low) program) →
    ∀ fuel, Transition.Pairs (Abreast World.Roomier) (Outcome.Abreast World.Roomier)
      (run host fuel (ofProgram (start.withLimit id low) program))
      (run host fuel (ofProgram (start.withLimit id high) program))
  /-- If it ends, then so does the other, with the same outcome and the same effects. -/
  ended : ∀ {α : Type} (program : Program σ α),
    Unhit host (ofProgram (start.withLimit id low) program) →
    ∀ outcome,
      Transition.Ends (step host) (ofProgram (start.withLimit id low) program) outcome →
      ∃ other, Transition.Ends (step host) (ofProgram (start.withLimit id high) program) other ∧
        outcome.Abreast World.Roomier other
  /-- A frame that is refused while no callback is asked ends the run of code with that failure, and
  nothing is stored on the way. -/
  surfaced : ∀ thread program machine fault, Program.Runs thread program →
    Transition.Meets (step host) (ofProgram (start.withLimit id low) program) machine →
    machine.refusal? = some fault → (∀ activation ∈ machine.stack, activation.Outside) →
    ∃ after,
      Transition.Ends (step host) (ofProgram (start.withLimit id low) program)
        (.finished (.error fault) after) ∧
      machine.world.Untouched after

private theorem move_of_refusal {machine : Machine σ α} {fault : Fault}
    (refused : machine.refusal? = some fault) :
    Move host machine ⟨.give (.error fault), machine.stack, machine.world⟩ ∧
      ∃ id frame, machine.control = .enter id (.evaluate frame) := by
  unfold refusal? at refused
  split at refused
  next id frame stack world =>
    split at refused
    next full =>
      cases refused
      exact ⟨.refused full, id, frame, rfl⟩
    next => cases refused
  next => cases refused

/-- A limit that is not hit makes no difference, and one that is hit is not overlooked. -/
theorem unhindered_of_raised (host : Host σ) (start : World σ) (id : ThreadId) {low high : Nat}
    (raised : low ≤ high) : Unhindered host start id low high := by
  have together {α : Type} (program : Program σ α)
      (unhit : Unhit host (ofProgram (start.withLimit id low) program)) (fuel : Nat) :
      Transition.Pairs (Abreast World.Roomier) (Outcome.Abreast World.Roomier)
        (run host fuel (ofProgram (start.withLimit id low) program))
        (run host fuel (ofProgram (start.withLimit id high) program)) := by
    refine Transition.pairs_run ?_ (.at_same (start.roomier_withLimit id raised)) fuel
    intro machine mirror met alike
    obtain ⟨room, unmeasured⟩ := unhit machine met
    exact alike.step_roomier room unmeasured
  refine ⟨together, ?ended, ?surfaced⟩
  case ended =>
    intro α program unhit outcome ended
    exact Transition.Pairs.forward (together program unhit) ended
  case surfaced =>
    intro thread program machine fault runs met refused outside
    obtain ⟨move, place, frame, control⟩ := move_of_refusal refused
    have rooted := rooted_of_met met
    have returns : machine.Returns thread := by
      refine met_keeps (fun _ _ _ returns move => move.returns returns) ?_ met
      refine ⟨?_, fun _ member => absurd member List.not_mem_nil⟩
      intro body same
      cases same
      exact runs.delegates
    have waiting : RootedStack machine.stack := by
      simpa only [Rooted, control] using rooted
    obtain ⟨after, ended, untouched⟩ := ends_of_failure waiting outside returns.2
    exact ⟨after, (met.tail move.step_eq).ends ended, untouched⟩

end Machine

def Conduct.unmeasuring : Conduct σ where
  performs action := action.measures = false
  launches _ _ := True

namespace Machine

theorem Follows.unmeasured {machine : Machine σ α} (follows : machine.Follows .unmeasuring) :
    machine.Unmeasured :=
  fun _ next => follows.performs next

/-- A frame that is intercepted, and a second frame while the callback is asked. -/
theorem unhindered_of_recalling :
    Unhit recalling (ofProgram (recalledCall.world.withLimit 0 1)
      (Program.run 0 (.call (.function .first) []))) ∧
    Unhindered recalling recalledCall.world 0 1 2 := by
  refine ⟨?_, unhindered_of_raised recalling _ 0 (by decide)⟩
  intro machine met
  constructor
  · have checked : ∀ fuel < 30, ∀ state ∈ (Transition.run (step recalling) fuel (ofProgram
        (recalledCall.world.withLimit 0 1)
        (Program.run 0 (.call (.function .first) [])))).state?, state.refusal? = none := by
      decide
    have room := met.of_checked 30 rfl checked
    exact room
  · refine Follows.unmeasured (follows_of_met ?_ ?_ met)
    · exact ⟨trivial, fun _ => trivial⟩
    · exact Host.follows_ofCallbacks fun _ _ _ _ => ⟨trivial, fun _ => trivial⟩

end Machine

end Interpose
