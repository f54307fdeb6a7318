import Interpose.Proofs.Consults
import Interpose.Proofs.Hooks

/-! Consults one at a time. When no callback causes interception while it runs and nobody writes
the slot of the module, every run keeps the law of consults, and at every point the caches are what
the history says. -/

namespace Interpose
variable {σ α : Type}

/-- What a control or a waiting activation is to consults. -/
inductive Layer where
  | active (thread : ThreadId)
  | consult (thread : ThreadId) (frame : Frame) (module : HookModule) (cached : CacheState)
  | idle

def Layer.isConsult : Layer → Bool
  | .consult _ _ _ _ => true
  | _ => false

def Role.layer : Role → Layer
  | .consulted id frame module cached => .consult id frame module cached
  | _ => .idle

def Control.layer : Control σ α → Layer
  | .enter id _ => .active id
  | .run id _ => .active id
  | .give _ => .idle
  | .program role _ => role.layer

def Activation.layer : Activation σ α → Layer
  | .frame id _ => .active id
  | .program role _ => role.layer

def Entry.isIntercept : Entry → Bool
  | .intercept _ => true
  | _ => false

namespace Machine

def layers (machine : Machine σ α) : List Layer :=
  machine.control.layer :: machine.stack.map (·.layer)

def consulting (machine : Machine σ α) : Bool := machine.layers.any Layer.isConsult

/-- Whoever takes the next step, be it the client, a callback, or a dispatch or a native function of
the host, it does not write the slot of the module and calls no interceptor itself. While a callback
runs, it leaves dispatches alone, and runs no code on a thread that intercepts. -/
def Orderly (module : HookModule) (machine : Machine σ α) : Prop :=
  match machine.control with
  | .program _ (.perform (.writeExtra _ index _) _) => index ≠ module.index
  | .program _ (.perform (.install _ _ _) _) => machine.consulting = false
  | .program _ (.perform (.setDispatch _ _) _) => machine.consulting = false
  | .program _ (.launch id entry _) =>
    entry.isIntercept = false ∧
      (machine.consulting = true → (machine.world.thread id).dispatch ≠ .intercept)
  | _ => True

instance (module : HookModule) (machine : Machine σ α) : Decidable (machine.Orderly module) := by
  delta Orderly
  split <;> infer_instance

theorem Orderly.leaves {module : HookModule} {machine : Machine σ α}
    (orderly : machine.Orderly module) (code : CodeId) : machine.Leaves module code := by
  intro unit index value next same
  obtain ⟨role, rest, control⟩ := control_of_action next
  simp only [Orderly, control] at orderly
  exact absurd same orderly

end Machine

/-- A callback was asked about this frame, and nothing that matters happened since. -/
structure Pending (module : HookModule) (events : List Event) (world : World σ) (id : ThreadId)
    (frame : Frame) (place : HookModule) (cached : CacheState) : Prop where
  read : place = module →
    cached = world.cache module frame.code.id ∧
      (world.cache module frame.code.id).isSkip = false
  asked : ∃ earlier callback size during,
    events = earlier ++ .asked id callback place frame size :: during ∧
      ∀ event ∈ during, event.isEvaluated

/-- At most one consult is pending, and nothing above it runs on a thread that intercepts. -/
def Hushed (module : HookModule) (events : List Event) (world : World σ) : List Layer → Prop
  | [] => True
  | .active id :: below =>
    (below.any Layer.isConsult = true → (world.hook id).dispatch ≠ .intercept) ∧
      Hushed module events world below
  | .consult id frame place cached :: below =>
    Pending module events world id frame place cached ∧ below.any Layer.isConsult = false
  | .idle :: below => Hushed module events world below

namespace Hushed
variable {module : HookModule} {events : List Event} {world after : World σ} {layers : List Layer}

theorem of_none (alone : layers.any Layer.isConsult = false) :
    Hushed module events world layers := by
  induction layers with
  | nil => trivial
  | cons layer below ih =>
    cases layer with
    | active id => exact ⟨fun pending => absurd (alone.symm.trans pending) nofun, ih alone⟩
    | consult id frame place cached => cases alone
    | idle => exact ih alone

/-- A pending consult stays so while hooks and caches stay as they are and the engine evaluates
frames. -/
theorem calm (hushed : Hushed module events world layers)
    (hooks : ∀ id, after.hook id = world.hook id)
    (caches : ∀ code, after.cache module code = world.cache module code) {later : List Event}
    (evaluated : ∀ event ∈ later, event.isEvaluated) :
    Hushed module (events ++ later) after layers := by
  induction layers with
  | nil => trivial
  | cons layer below ih =>
    cases layer with
    | active id =>
      refine ⟨?_, ih hushed.2⟩
      rw [hooks]
      exact hushed.1
    | consult id frame place cached =>
      obtain ⟨⟨read, earlier, callback, size, during, split, passed⟩, alone⟩ := hushed
      refine ⟨⟨?_, earlier, callback, size, during ++ later, ?_, ?_⟩, alone⟩
      · rw [caches]
        exact read
      · rw [split, List.append_assoc, List.cons_append]
      · intro event member
        exact (List.mem_append.mp member).elim (passed event) (evaluated event)
    | idle => exact ih hushed

end Hushed

namespace Machine

section
variable {host : Host σ} {module : HookModule} {events : List Event} {before after : Machine σ α}

private theorem silent {machine : Machine σ α} (shown : machine.event? = none) :
    ∀ event ∈ machine.event?.toList, event.isEvaluated := by
  rw [shown]
  intro event member
  cases member

/-- Moves keep consults one at a time, when only threads that intercept enter the interceptor. -/
theorem hushed_step (hushed : Hushed module events before.world before.layers)
    (entering : ∀ id frame, before.control = .enter id (.intercept frame) →
      (before.world.hook id).dispatch = .intercept)
    (orderly : before.Orderly module) (move : Move host before after) :
    Hushed module (events ++ before.event?.toList) after.world after.layers := by
  -- A pending consult survives the moves that neither redirect a thread nor commit an answer; where
  -- one is asked or answered, there is no other below it.
  cases move with
  | byEngine chosen =>
    exact hushed.calm (fun _ => rfl) (fun _ => rfl) (silent (by simp [event?, chosen]))
  | @byInterceptor id frame stack world chosen =>
    have alone : (stack.map (·.layer)).any Layer.isConsult = false :=
      Bool.eq_false_iff.mpr fun pending => hushed.1 pending chosen
    exact .of_none alone
  | byHost chosen =>
    exact hushed.2.calm (fun _ => rfl) (fun _ => rfl) (silent (by simp [event?, chosen]))
  | refused full =>
    exact hushed.2.calm (fun _ => rfl) (fun _ => rfl) (by simp [event?, Event.isEvaluated])
  | started room =>
    exact hushed.calm (fun _ => World.hook_setDepth _ _ _ _) (fun _ => rfl)
      (by simp [event?, Event.isEvaluated])
  | @skipped id frame stack world place installed skip =>
    refine hushed.calm (fun _ => rfl) (fun _ => rfl) (silent ?_)
    cases present : (world.thread id).callback? <;> simp [event?, installed, present, skip]
  | @asked id frame stack world place callback installed present wanted =>
    have alone : (stack.map (·.layer)).any Layer.isConsult = false :=
      Bool.eq_false_iff.mpr fun pending => hushed.1 pending (entering id frame rfl)
    refine ⟨⟨?_, events, callback, (world.cache place frame.code.id).length, [], ?_, ?_⟩, alone⟩
    · rintro rfl
      exact ⟨rfl, wanted⟩
    · simp only [event?, installed, present, wanted]
      rfl
    · intro event member
      cases member
  | entered fits => exact hushed.calm (World.hook_edit _ _) (World.cache_edit _ _ _) (silent (by rfl))
  | ran progress => exact hushed.calm (World.hook_edit _ _) (World.cache_edit _ _ _) (silent (by rfl))
  | mismatched misfits => exact hushed.2.calm (fun _ => rfl) (fun _ => rfl) (silent (by rfl))
  | native own => exact hushed.2.calm (fun _ => rfl) (fun _ => rfl) (silent (by rfl))
  | byNative foreign => exact hushed.2.calm (fun _ => rfl) (fun _ => rfl) (silent (by rfl))
  | uncallable foreign => exact hushed.2.calm (fun _ => rfl) (fun _ => rfl) (silent (by rfl))
  | called progress =>
    exact ⟨hushed.1, hushed.calm (fun _ => rfl) (fun _ => rfl) (silent (by rfl))⟩
  | left progress =>
    exact hushed.2.calm (World.hook_leave _ _) (fun _ => rfl) (silent (by rfl))
  | resumed => exact hushed.calm (fun _ => rfl) (fun _ => rfl) (silent (by rfl))
  | unwound =>
    exact hushed.2.calm (World.hook_leave _ _) (fun _ => rfl) (silent (by rfl))
  | replied => exact hushed.calm (fun _ => rfl) (fun _ => rfl) (silent (by rfl))
  | failed => exact .of_none hushed.2
  | missed => exact .of_none hushed.2
  | replaced fits => exact .of_none hushed.2
  | rejected misfits => exact .of_none hushed.2
  | dispatched => exact hushed.calm (fun _ => rfl) (fun _ => rfl) (silent (by rfl))
  | @performed role action next stack world reply after applied =>
    have shown : event? ⟨.program role (.perform action next), stack, world⟩ = none := by
      cases role <;> rfl
    cases redirects : action.redirects with
    | true =>
      have alone : Machine.consulting ⟨.program role (.perform action next), stack, world⟩ = false := by
        cases action with
        | setDispatch id chosen => exact orderly
        | install id place callback? => exact orderly
        | _ => cases redirects
      exact .of_none alone
    | false =>
      refine hushed.calm (Action.hook_apply applied redirects) (fun code => ?_) (silent shown)
      have move : Move host ⟨.program role (.perform action next), stack, world⟩ _ :=
        .performed applied
      have same := move.cache_eq (orderly.leaves code)
      cases role <;> exact same
  | @launched role id entry next stack world =>
    exact ⟨orderly.2,
      hushed.calm (fun _ => rfl) (fun _ => rfl) (silent (by cases role <;> rfl))⟩

theorem intercepts_of_entering (orderly : before.Orderly module) (move : Move host before after)
    {id : ThreadId} {frame : Frame} (control : after.control = .enter id (.intercept frame)) :
    (after.world.hook id).dispatch = .intercept := by
  cases move with
  | byInterceptor chosen =>
    cases control
    exact chosen
  | launched =>
    cases control
    cases orderly.1
  | _ => cases control

end

structure Disciplined (module : HookModule) (events : List Event) (machine : Machine σ α) :
    Prop where
  conforms : Conforms module events
  caches : ∀ code, machine.world.cache module code = recorded module code events
  hushed : Hushed module events machine.world machine.layers
  /-- The interceptor gets frames from threads that intercept, and at once. -/
  entering : ∀ id frame, machine.control = .enter id (.intercept frame) →
    (machine.world.hook id).dispatch = .intercept ∧
      ∀ place, (machine.world.thread id).module? = some place →
        ∃ earlier, events = earlier ++ [.intercepted id place frame]
  latest : ∀ earlier id frame, events = earlier ++ [.intercepted id module frame] →
    machine.control = .enter id (.intercept frame) ∧
        (machine.world.thread id).module? = some module ∨
      machine.control = .enter id (.evaluate frame) ∧ hasMiss module frame.code.id earlier = true

namespace Disciplined
variable {host : Host σ} {module : HookModule} {events : List Event} {before after : Machine σ α}

private theorem caches_step (kept : Disciplined module events before)
    (orderly : before.Orderly module) (move : Move host before after) (code : CodeId) :
    after.world.cache module code = recorded module code (events ++ before.event?.toList) := by
  rw [move.cache_eq (orderly.leaves code)]
  rcases before.commit_cases module code with ⟨commit, unhit, unmissed⟩ | ⟨commit, _, missed⟩ |
    ⟨id, frame, cached, replacement, control, rfl, commit, hit, unmissed⟩
  · rw [commit, recorded_append unhit unmissed]
    exact kept.caches code
  · rw [commit, recorded_miss missed]
    rfl
  · have hushed := kept.hushed
    rw [layers, control] at hushed
    obtain ⟨read, wanted⟩ := hushed.1.read rfl
    rw [kept.caches, isSkip_recorded] at wanted
    rw [commit, recorded_hit wanted hit unmissed, Option.getD_some, read, kept.caches]

private theorem entering_step (orderly : before.Orderly module) (move : Move host before after)
    (id : ThreadId) (frame : Frame) (control : after.control = .enter id (.intercept frame)) :
    (after.world.hook id).dispatch = .intercept ∧
      ∀ place, (after.world.thread id).module? = some place →
        ∃ earlier, events ++ before.event?.toList = earlier ++ [.intercepted id place frame] := by
  refine ⟨intercepts_of_entering orderly move control, ?_⟩
  cases move with
  | byInterceptor chosen =>
    cases control
    exact fun place installed => ⟨events, by simp [event?, chosen, installed]⟩
  | launched =>
    cases control
    cases orderly.1
  | _ => cases control

private theorem latest_step (kept : Disciplined module events before)
    (move : Move host before after) (earlier : List Event) (id : ThreadId) (frame : Frame)
    (last : events ++ before.event?.toList = earlier ++ [.intercepted id module frame]) :
    after.control = .enter id (.intercept frame) ∧
        (after.world.thread id).module? = some module ∨
      after.control = .enter id (.evaluate frame) ∧
        hasMiss module frame.code.id earlier = true := by
  -- The interception is either the event of this step, or it was the last one before a silent step.
  cases shown : before.event? with
  | some event =>
    rw [shown] at last
    obtain ⟨rfl, same⟩ := List.append_inj' last rfl
    cases same
    obtain ⟨control, chosen, installed⟩ := shows_intercepted shown
    obtain ⟨_, stack, world⟩ := before
    cases control
    cases move with
    | byInterceptor => exact .inl ⟨rfl, installed⟩
    | byEngine other => cases chosen.symm.trans other
    | byHost other => cases chosen.symm.trans other
  | none =>
    rw [shown, Option.toList_none, List.append_nil] at last
    obtain ⟨_, stack, world⟩ := before
    rcases kept.latest earlier id frame last with ⟨control, placed⟩ | ⟨control, missed⟩
    · cases control
      cases move with
      | skipped installed skip =>
        cases installed.symm.trans placed
        refine .inr ⟨rfl, ?_⟩
        rw [kept.caches, isSkip_recorded, last, hasMiss_append] at skip
        simpa [hasMiss, Event.isMiss] using skip
      | asked installed present wanted => simp [event?, installed, present, wanted] at shown
    · cases control
      cases shown

private theorem conforms_step (kept : Disciplined module events before) :
    Conforms module (events ++ before.event?.toList) := by
  cases shown : before.event? with
  | none => simpa using kept.conforms
  | some event =>
    refine kept.conforms.snoc ?asked ?intercepted ?answered
    case asked =>
      rintro id callback frame size rfl
      obtain ⟨original, control, rfl, installed, _, wanted, counted⟩ := shows_asked shown
      obtain ⟨earlier, last⟩ := (kept.entering id original control).2 module installed
      rw [kept.caches, isSkip_recorded] at wanted
      rw [kept.caches, length_recorded wanted] at counted
      exact ⟨counted, wanted, earlier, original, before.world.heap, last, rfl⟩
    case intercepted =>
      intro earlier id frame last
      obtain ⟨_, stack, world⟩ := before
      rcases kept.latest earlier id frame last with ⟨control, placed⟩ | ⟨control, missed⟩
      · cases control
        simp only [event?] at shown
        split at shown
        next place callback installed present =>
          split at shown
          next => cases shown
          next wanted =>
            cases shown
            cases installed.symm.trans placed
            have unmissed := Bool.eq_false_iff.mpr wanted
            rw [kept.caches, isSkip_recorded] at unmissed
            rw [kept.caches, length_recorded unmissed, last]
            rw [last, hasMiss_append] at unmissed
            rw [if_neg (Bool.eq_false_iff.mp (Bool.or_eq_false_iff.mp unmissed).1)]
            exact ⟨callback, world.heap, by simp [hits, Event.hit?]⟩
        next => cases shown
      · cases control
        cases shown
        rw [if_pos missed]
    case answered =>
      rintro id code answer rfl
      obtain ⟨frame, cached, control, rfl⟩ := shows_answered shown
      have hushed := kept.hushed
      rw [layers, control] at hushed
      obtain ⟨_, earlier, callback, size, during, split, passed⟩ := hushed.1
      exact ⟨earlier, callback, frame, size, during, split, rfl, passed⟩

theorem step (kept : Disciplined module events before) (orderly : before.Orderly module)
    (move : Move host before after) :
    Disciplined module (events ++ before.event?.toList) after where
  conforms := kept.conforms_step
  caches := kept.caches_step orderly move
  hushed := hushed_step kept.hushed (fun id frame control => (kept.entering id frame control).1)
    orderly move
  entering := entering_step orderly move
  latest := kept.latest_step move

end Disciplined

/-- The two steps after so many of a run, at which a thread dispatches a frame while it intercepts. The
frame is put to the callback, or evaluated at once when its unit is to be left alone. -/
def Consulted (host : Host σ) (module : HookModule) (start : Machine σ α) (fuel : Nat)
    (callback : CallbackId) (id : ThreadId) (frame : Frame) (stack : List (Activation σ α))
    (world : World σ) : Prop :=
  if hasMiss module frame.code.id (history host fuel start) then
    run host (fuel + 2) start = .next ⟨.enter id (.evaluate frame), stack, world⟩ ∧
      history host (fuel + 2) start =
        history host fuel start ++ [.intercepted id module frame]
  else
    ∃ size,
      size = (hits module frame.code.id (history host fuel start)).length ∧
      run host (fuel + 2) start =
        .next ⟨.program (.consulted id (frame.materialize world.heap) module
            (world.cache module frame.code.id))
          (host.callback callback id (frame.materialize world.heap) size), stack,
          world.setDispatch id .default⟩ ∧
      history host (fuel + 2) start = history host fuel start ++
        [.intercepted id module frame,
          .asked id callback module (frame.materialize world.heap) size]

structure Protocol (host : Host σ) (module : HookModule) (start : Machine σ α) : Prop where
  conforms : ∀ fuel, Conforms module (history host fuel start)
  caches : ∀ fuel machine, run host fuel start = .next machine → ∀ code,
    machine.world.cache module code = recorded module code (history host fuel start)
  /-- A frame that a thread dispatches while it intercepts is put to its callback before anything
  else happens, and not at all when its unit is to be left alone. -/
  consulted : ∀ fuel id frame stack world callback,
    run host fuel start = .next ⟨.enter id (.dispatch frame), stack, world⟩ →
    world.Intercepts id module callback →
    Consulted host module start fuel callback id frame stack world
  /-- After a consult that failed, under whatever module, all caches are as they were before it. -/
  failed : ∀ fuel machine before id callback place frame size during code fault,
    run host fuel start = .next machine →
    history host fuel start = before ++ .asked id callback place frame size ::
      (during ++ [.answered id place code (.error fault)]) →
    (∀ event ∈ during, event.isEvaluated) →
    ∀ unit, machine.world.cache module unit = recorded module unit before

section dispatched
variable {host : Host σ} {module : HookModule} {start : Machine σ α} {fuel : Nat} {id : ThreadId}
  {frame : Frame} {stack : List (Activation σ α)} {world : World σ} {callback : CallbackId}

/-- A unit that is to be left alone is evaluated two steps after a frame of it was dispatched. -/
theorem dispatch_skips
    (met : run host fuel start = .next ⟨.enter id (.dispatch frame), stack, world⟩)
    (intercepts : world.Intercepts id module callback)
    (skip : (world.cache module frame.code.id).isSkip = true) :
    run host (fuel + 2) start = .next ⟨.enter id (.evaluate frame), stack, world⟩ ∧
      history host (fuel + 2) start = history host fuel start ++ [.intercepted id module frame] := by
  obtain ⟨chosen, installed, present⟩ := intercepts
  have dispatches : Move host (⟨.enter id (.dispatch frame), stack, world⟩ : Machine σ α) _ :=
    .byInterceptor chosen
  have reached := run_move met dispatches
  have skips : Move host (⟨.enter id (.intercept frame), stack, world⟩ : Machine σ α) _ :=
    .skipped installed skip
  refine ⟨run_move reached skips, ?_⟩
  rw [history_succ reached skips, history_succ met dispatches]
  simp [event?, chosen, installed, present, skip]

/-- About any other unit the callback is asked two steps after a frame of it was dispatched. -/
theorem dispatch_asks
    (met : run host fuel start = .next ⟨.enter id (.dispatch frame), stack, world⟩)
    (intercepts : world.Intercepts id module callback)
    (wanted : (world.cache module frame.code.id).isSkip = false) :
    run host (fuel + 2) start =
        .next ⟨.program (.consulted id (frame.materialize world.heap) module
            (world.cache module frame.code.id))
          (host.callback callback id (frame.materialize world.heap)
            (world.cache module frame.code.id).length), stack, world.setDispatch id .default⟩ ∧
      history host (fuel + 2) start = history host fuel start ++
        [.intercepted id module frame,
          .asked id callback module (frame.materialize world.heap)
            (world.cache module frame.code.id).length] := by
  obtain ⟨chosen, installed, present⟩ := intercepts
  have dispatches : Move host (⟨.enter id (.dispatch frame), stack, world⟩ : Machine σ α) _ :=
    .byInterceptor chosen
  have reached := run_move met dispatches
  have asks : Move host (⟨.enter id (.intercept frame), stack, world⟩ : Machine σ α) _ :=
    .asked installed present wanted
  refine ⟨run_move reached asks, ?_⟩
  rw [history_succ reached asks, history_succ met dispatches]
  simp [event?, chosen, installed, present, wanted]

private theorem consulted_of_disciplined
    (met : run host fuel start = .next ⟨.enter id (.dispatch frame), stack, world⟩)
    (kept : Disciplined module (history host fuel start) ⟨.enter id (.dispatch frame), stack, world⟩)
    (intercepts : world.Intercepts id module callback) :
    Consulted host module start fuel callback id frame stack world := by
  unfold Consulted
  have known : (world.cache module frame.code.id).isSkip =
      hasMiss module frame.code.id (history host fuel start) := by
    rw [kept.caches, isSkip_recorded]
  cases missed : hasMiss module frame.code.id (history host fuel start) with
  | true => exact dispatch_skips met intercepts (known.trans missed)
  | false =>
    have counted : (world.cache module frame.code.id).length =
        (hits module frame.code.id (history host fuel start)).length := by
      rw [kept.caches, length_recorded missed]
    exact ⟨_, counted, dispatch_asks met intercepts (known.trans missed)⟩

end dispatched

/-- Every run in which callbacks do not cause interception, and nobody writes the slot of the
module, native functions included, keeps the law of consults. -/
theorem protocol_of_orderly {host : Host σ} {module : HookModule} {world : World σ}
    {client : Program σ α} (fresh : ∀ code, world.cache module code = .empty)
    (orderly : ∀ machine, Transition.Meets (step host) (ofProgram world client) machine →
      machine.Orderly module) :
    Protocol host module (ofProgram world client) := by
  have kept {fuel : Nat} {machine : Machine σ α}
      (met : run host fuel (ofProgram world client) = .next machine) :
      Disciplined module (history host fuel (ofProgram world client)) machine := by
    refine history_keeps (fun events before after reached kept move =>
      kept.step (orderly before reached) move) ?_ met
    exact {
      conforms := .nil module
      caches := fresh
      hushed := trivial
      entering := fun _ _ control => by cases control
      latest := fun earlier _ _ split => by simp at split }
  constructor
  case conforms =>
    intro fuel
    obtain ⟨reached, machine, met, same⟩ := history_met host fuel (ofProgram world client)
    rw [same]
    exact (kept met).conforms
  case caches =>
    intro fuel machine met
    exact (kept met).caches
  case consulted =>
    intro fuel id frame stack world callback met intercepts
    exact consulted_of_disciplined met (kept met) intercepts
  case failed =>
    intro fuel machine before id callback place frame size during code fault met split passed unit
    rw [(kept met).caches, split, recorded_failed passed]

/-- A callback that has a replacement twice, and then none, beside a native function that uses the
slot of another module. -/
def wavering : Host Unit := .marking ⟨1⟩ fun _ _ _ size =>
  if size < 2 then .done (.ok (some ⟨0, 0⟩)) else .done (.ok none)

def callsInTurn : Nat → Program Unit Unit
  | 0 => .done ()
  | count + 1 => .launch 0 (.call (.function .first) []) fun _ => callsInTurn count

theorem protocol_of_callsInTurn :
    Protocol wavering ⟨⟨0⟩⟩
      (ofProgram (World.single #[.handing] (.intercepting ⟨⟨0⟩⟩ 0)) (callsInTurn 4)) := by
  refine protocol_of_orderly ?fresh ?orderly
  case fresh =>
    intro code
    rfl
  case orderly =>
    intro machine met
    exact met.of_checked 64 (by decide +kernel) (by decide +kernel)

end Machine

end Interpose
