import Interpose.Proofs.Interception
import Interpose.Proofs.Isolation
import Interpose.Proofs.Layout

/-! Interception that cannot be noticed. When every callback changes nothing that is there and gives
only extensions of the units it is asked about, a call under interception ends exactly when the call
without it does, in the same way and with the same effects. The two runs are related step by step:
where one evaluates a frame, the other first consults the callback, and then evaluates a twin. What
they make they may number differently, since a callback may make things of its own. -/

namespace Interpose
variable {σ : Type}

/-- Asked about a frame, a callback changes nothing that is there, and leaves the unit alone or gives an
extension of it. -/
def Host.Harmless (host : Host σ) (shared : Sharing σ) (world : World σ) (callback : CallbackId)
    (id : ThreadId) (frame : Frame) (size : Nat) : Prop :=
  ∃ answer after,
    Transition.Ends (Machine.step host)
      (Machine.ofProgram world (host.callback callback id frame size))
      (.finished (.ok answer) after) ∧
    world.Unaltered shared after ∧
    ∀ replacement, answer = some replacement →
      (after.heap.code replacement.code).Extends frame.code.toBlueprint

structure Paired (watch : Interception σ) (start : World σ) (names : Renaming)
    (a b : ThreadId) : Prop where
  named : names.threads.maps a b
  running : a = watch.thread ∨ start.threads.size ≤ a

/-- Two controls in the middle of a call, the second with wider frames. A frame that is about to be
intercepted has not started, and its builtins are those of its thread. -/
inductive Control.Twins (watch : Interception σ) (start : World σ) (names : Renaming)
    (builtins : NamespaceId) :
    Control σ (Except Fault Value) → Control σ (Except Fault Value) → Prop
  | call {a b callee other arguments others} (paired : Paired watch start names a b)
      (called : callee.Renamed names other)
      (given : List.Forall₂ (Value.Renamed names) arguments others) :
      Twins watch start names builtins (.enter a (.call callee arguments))
        (.enter b (.call other others))
  | dispatch {a b frame other} (paired : Paired watch start names a b)
      (twins : Frame.Twins names frame other)
      (first : a = watch.thread → Frame.Fresh names frame other ∧ other.builtins = builtins) :
      Twins watch start names builtins (.enter a (.dispatch frame)) (.enter b (.dispatch other))
  | evaluate {a b narrow wide} (paired : Paired watch start names a b)
      (twins : Frame.Twins names narrow wide) :
      Twins watch start names builtins (.enter a (.evaluate narrow)) (.enter b (.evaluate wide))
  | run {a b narrow wide} (paired : Paired watch start names a b)
      (twins : Frame.Twins names narrow wide) :
      Twins watch start names builtins (.run a narrow) (.run b wide)
  | give {result other} (same : RenamedResult names result other) :
      Twins watch start names builtins (.give result) (.give other)
  | native {program other}
      (same : Program.Renamed watch.view start.threads.size names program other) :
      Twins watch start names builtins (.program .hosted program) (.program .hosted other)
  | finish {result other} (same : RenamedResult names result other) :
      Twins watch start names builtins (.program .client (.done result))
        (.program .client (.done other))

inductive Activation.Twins (watch : Interception σ) (start : World σ) (names : Renaming) :
    List (Activation σ (Except Fault Value)) → List (Activation σ (Except Fault Value)) → Prop
  | nil : Twins watch start names [] []
  | caller {below beside} (rest : Twins watch start names below beside) :
      Twins watch start names (.program .client .done :: below) (.program .client .done :: beside)
  | frame {a b narrow wide below beside} (paired : Paired watch start names a b)
      (twins : Frame.Twins names narrow wide) (rest : Twins watch start names below beside) :
      Twins watch start names (.frame a narrow :: below) (.frame b wide :: beside)
  | native {next other below beside}
      (goes : ∀ after result answer, names.Within after → RenamedResult after result answer →
        Program.Renamed watch.view start.threads.size after (next result) (other answer))
      (rest : Twins watch start names below beside) :
      Twins watch start names (.program .hosted next :: below) (.program .hosted other :: beside)

section
variable {watch : Interception σ} {start : World σ} {names wider : Renaming}

theorem Paired.mono {a b : ThreadId} (paired : Paired watch start names a b)
    (within : names.Within wider) : Paired watch start wider a b :=
  { paired with named := within.threads paired.named }

theorem Activation.Twins.mono {below beside : List (Activation σ (Except Fault Value))}
    (twins : Activation.Twins watch start names below beside) (within : names.Within wider) :
    Activation.Twins watch start wider below beside := by
  induction twins with
  | nil => exact .nil
  | caller _ ih => exact .caller ih
  | frame paired twins _ ih => exact .frame (paired.mono within) (twins.mono within) ih
  | native goes _ ih =>
    exact .native (fun after result answer later => goes after result answer (within.trans later)) ih

end

namespace Machine
variable {host : Host σ} {watch : Interception σ} {names : Renaming}
  {start plain after hooked : Machine σ (Except Fault Value)}

/-- Two machines in the middle of the same call; the second is one that a run under interception
meets. -/
structure Mirrors (host : Host σ) (watch : Interception σ)
    (start : Machine σ (Except Fault Value)) (names : Renaming)
    (plain hooked : Machine σ (Except Fault Value)) : Prop where
  control : Control.Twins watch start.world names (hooked.world.builtins watch.thread) plain.control
    hooked.control
  stack : Activation.Twins watch start.world names plain.stack hooked.stack
  world : World.Alike watch start.world names plain.world hooked.world
  met : Transition.Meets (step host) start hooked

/-- At every point of a run, the callbacks that it asks are harmless. -/
def Undetected (host : Host σ) (watch : Interception σ) (start : Machine σ (Except Fault Value)) :
    Prop :=
  ∀ frame cached stack world,
    Transition.Meets (step host) start
      ⟨.program (.consulted watch.thread frame watch.module cached)
        (host.callback watch.callback watch.thread frame cached.length), stack, world⟩ →
    host.Harmless watch.shared world watch.callback watch.thread frame cached.length

/-- Where one run evaluates a frame, the other consults the callback and evaluates a twin of it. -/
private theorem meets_evaluate {frame other : Frame}
    {below beside : List (Activation σ (Except Fault Value))} {first second : World σ}
    (mirrors : Mirrors host watch start names ⟨.enter watch.thread (.dispatch frame), below, first⟩
      ⟨.enter watch.thread (.dispatch other), beside, second⟩)
    (fresh : Frame.Fresh names frame other) (placed : other.builtins = second.builtins watch.thread)
    (undetected : Undetected host watch start) :
    ∃ wide third wider,
      Transition.Meets (step host) ⟨.enter watch.thread (.intercept other), beside, second⟩
        ⟨.enter watch.thread (.evaluate wide), beside, third⟩ ∧
      names.Within wider ∧ Frame.Twins wider frame wide ∧
      World.Alike watch start.world wider first third := by
  have alike := mirrors.world
  have intercepts := alike.intercepts
  cases skip : (second.cache watch.module other.code.id).isSkip with
  | true =>
    have skipped : Move host ⟨.enter watch.thread (.intercept other), beside, second⟩ _ :=
      .skipped intercepts.module skip
    exact ⟨other, second, names, .of_step skipped.step_eq, .refl names, fresh.twins, alike⟩
  | false =>
    have dispatches : Move host ⟨.enter watch.thread (.dispatch other), beside, second⟩ _ :=
      .byInterceptor intercepts.dispatch
    have asks : Move host ⟨.enter watch.thread (.intercept other), beside, second⟩ _ :=
      .asked intercepts.module intercepts.callback skip
    have asked := (mirrors.met.tail dispatches.step_eq).tail asks.step_eq
    obtain ⟨answer, after, ended, unaltered, extends_⟩ := undetected _ _ _ _ asked
    have answers := (Transition.Meets.of_step asks.step_eq).trans (meets_done_of_ends ended beside)
    have kept : ∀ state, World.Alike watch start.world (names.widen after) first
        ((after.storeCache watch.module other.code.id state).setDispatch watch.thread .intercept) :=
      fun state => alike.consulted unaltered other.code.id state
    have within := names.within_widen after
    cases answer with
    | none =>
      exact ⟨_, _, names.widen after, answers.tail Move.missed.step_eq, within,
        (fresh.twins.mono within).materialize _, kept _⟩
    | some replacement =>
      obtain ⟨shadow, migrated, twins⟩ := fresh.shadow second.heap (extends_ replacement rfl)
      have same : after.builtins watch.thread = other.builtins := by
        rw [placed, alike.builtins_consulted unaltered]
      rw [← same] at migrated
      exact ⟨_, _, names.widen after, answers.tail (Move.replaced migrated).step_eq, within,
        twins.mono within, kept _⟩

/-- In one or more steps a run under interception gets to a machine like the one that the other run
is at. -/
private def Rejoins (host : Host σ) (watch : Interception σ) (start hooked after :
    Machine σ (Except Fault Value)) : Prop :=
  ∃ fuel following, Transition.run (step host) (fuel + 1) hooked = .next following ∧
    ∃ wider, Mirrors host watch start wider after following

private theorem Mirrors.advance {following : Machine σ (Except Fault Value)} {wider : Renaming}
    (mirrors : Mirrors host watch start names plain hooked) (move : Move host hooked following)
    (control : Control.Twins watch start.world wider (following.world.builtins watch.thread)
      after.control following.control)
    (stack : Activation.Twins watch start.world wider after.stack following.stack)
    (world : World.Alike watch start.world wider after.world following.world) :
    Rejoins host watch start hooked after :=
  ⟨0, following, by simp only [Transition.run, move.step_eq], wider, control, stack, world,
    mirrors.met.tail move.step_eq⟩

section moves
variable {a b : ThreadId} {below beside : List (Activation σ (Except Fault Value))}
  {first second : World σ}

/-- Only where a frame is dispatched do the two runs part; they are together again when both are about
to evaluate it. -/
private theorem rejoins_dispatch {frame other : Frame} (undetected : Undetected host watch start)
    (mirrors : Mirrors host watch start names ⟨.enter a (.dispatch frame), below, first⟩
      ⟨.enter b (.dispatch other), beside, second⟩)
    (paired : Paired watch start.world names a b) (twins : Frame.Twins names frame other)
    (unstarted : a = watch.thread →
      Frame.Fresh names frame other ∧ other.builtins = second.builtins watch.thread)
    (move : Move host ⟨.enter a (.dispatch frame), below, first⟩ after) :
    Rejoins host watch start ⟨.enter b (.dispatch other), beside, second⟩ after := by
  have alike := mirrors.world
  have off : (first.thread a).dispatch = .default := by
    rcases paired.running with rfl | new
    · exact congrArg Hook.dispatch alike.off
    · exact alike.new a new
  cases move with
  | byEngine chosen =>
    by_cases here : a = watch.thread
    · subst here
      obtain rfl := (names.threads.oneToOne paired.named alike.thread).mp rfl
      obtain ⟨fresh, placed⟩ := unstarted rfl
      obtain ⟨wide, third, wider, path, within, twins, consulted⟩ :=
        meets_evaluate mirrors fresh placed undetected
      have dispatches : Move host ⟨.enter watch.thread (.dispatch other), beside, second⟩ _ :=
        .byInterceptor alike.intercepts.dispatch
      obtain ⟨fuel, reached⟩ := Transition.Meets.counted dispatches.step_eq path
      exact ⟨fuel, _, reached, wider, .evaluate (paired.mono within) twins,
        mirrors.stack.mono within, consulted, mirrors.met.trans ⟨fuel + 1, reached⟩⟩
    · have alsoChosen : (second.hook b).dispatch = .default := by
        rw [alike.hooks paired.named, if_neg here]
        exact chosen
      exact mirrors.advance (.byEngine alsoChosen) (.evaluate paired twins) mirrors.stack alike
  | byInterceptor chosen => cases chosen.symm.trans off
  | byHost chosen => cases chosen.symm.trans off

private theorem rejoins_evaluate {narrow wide : Frame}
    (mirrors : Mirrors host watch start names ⟨.enter a (.evaluate narrow), below, first⟩
      ⟨.enter b (.evaluate wide), beside, second⟩)
    (paired : Paired watch start.world names a b) (twins : Frame.Twins names narrow wide)
    (move : Move host ⟨.enter a (.evaluate narrow), below, first⟩ after) :
    Rejoins host watch start ⟨.enter b (.evaluate wide), beside, second⟩ after := by
  have alike := mirrors.world
  have thread := alike.same.threads paired.named
  cases move with
  | refused full =>
    rw [← thread.limit, ← thread.depth] at full
    refine mirrors.advance (.refused full) ?_ mirrors.stack alike
    rw [twins.code.name]
    exact .give (.error (.own rfl))
  | started room =>
    rw [← thread.limit, ← thread.depth] at room
    refine mirrors.advance (.started room) (.run paired twins) mirrors.stack ?_
    rw [thread.depth]
    exact alike.setDepth paired.named _

private theorem rejoins_call {callee other : Value} {arguments others : List Value}
    (discreet : host.Discreet watch.view)
    (mirrors : Mirrors host watch start names ⟨.enter a (.call callee arguments), below, first⟩
      ⟨.enter b (.call other others), beside, second⟩)
    (paired : Paired watch start.world names a b) (called : callee.Renamed names other)
    (given : List.Forall₂ (Value.Renamed names) arguments others)
    (move : Move host ⟨.enter a (.call callee arguments), below, first⟩ after) :
    Rejoins host watch start ⟨.enter b (.call other others), beside, second⟩ after := by
  have stack := mirrors.stack
  have alike := mirrors.world
  have builtins := alike.same.builtins paired.named
  cases move with
  | entered fits =>
    obtain ⟨other, rfl, renamed⟩ := called.exists_function
    rcases Frame.enter_renamed alike.same.heap builtins renamed given with
      ⟨made, made', wider, entered, alsoEntered, both⟩ | ⟨fault, _, failed, _⟩
    · cases fits.symm.trans entered
      have within := both.edits.grows.within
      refine mirrors.advance (.entered alsoEntered) ?_ (stack.mono within) (alike.edit both.edits)
      refine .dispatch (paired.mono within) both.fresh.twins fun here => ⟨both.fresh, ?_⟩
      obtain ⟨_, _, shape⟩ := Frame.enter_eq_ok alsoEntered
      rw [shape, (names.threads.oneToOne paired.named alike.thread).mp here]
      rfl
    · cases fits.symm.trans failed
  | mismatched misfits =>
    obtain ⟨other, rfl, renamed⟩ := called.exists_function
    rcases Frame.enter_renamed alike.same.heap builtins renamed given with
      ⟨made, made', wider, entered, alsoEntered, both⟩ | ⟨fault, own, failed, alsoFailed⟩
    · cases misfits.symm.trans entered
    · cases misfits.symm.trans failed
      exact mirrors.advance (.mismatched alsoFailed) (.give (.error (.own own))) stack alike
  | @native _ native _ _ _ result own =>
    obtain rfl := called.eq_of_plain rfl
    have answered := Builtin.answer?_renamed alike.same.heap given native.routine
    rw [own] at answered
    generalize alsoOwn : Builtin.answer? second.heap others native.routine = answer at answered
    cases answered with
    | some same => exact mirrors.advance (.native alsoOwn) (.give same) stack alike
  | byNative foreign =>
    obtain rfl := called.eq_of_plain rfl
    refine mirrors.advance (.byNative foreign) (.native ?_) stack alike
    exact (discreet _ names given).lower alike.threads_le
  | uncallable foreign =>
    have also := called.isCallable_eq.trans foreign
    refine mirrors.advance (.uncallable also) (.give ?_) stack alike
    rw [called.kind_eq]
    exact .error (.own rfl)

private theorem rejoins_run {narrow wide : Frame}
    (mirrors : Mirrors host watch start names ⟨.run a narrow, below, first⟩
      ⟨.run b wide, beside, second⟩)
    (paired : Paired watch start.world names a b) (twins : Frame.Twins names narrow wide)
    (move : Move host ⟨.run a narrow, below, first⟩ after) :
    Rejoins host watch start ⟨.run b wide, beside, second⟩ after := by
  have stack := mirrors.stack
  have alike := mirrors.world
  have agrees := twins.agrees_step alike.same.heap
  generalize alsoProgress : Frame.step second.heap wide = other at agrees
  cases move with
  | ran progress =>
    rw [progress] at agrees
    cases agrees with
    | next edited twins =>
      have within := edited.grows.within
      exact mirrors.advance (.ran alsoProgress) (.run (paired.mono within) twins)
        (stack.mono within) (alike.edit edited)
  | called progress =>
    rw [progress] at agrees
    cases agrees with
    | call twins called given =>
      exact mirrors.advance (.called alsoProgress) (.call paired called given)
        (.frame paired twins stack) alike
  | left progress =>
    rw [progress] at agrees
    cases agrees with
    | leave same =>
      exact mirrors.advance (.left alsoProgress) (.give same) stack (alike.leave paired.named)

private theorem rejoins_give {result other : Except Fault Value}
    (mirrors : Mirrors host watch start names ⟨.give result, below, first⟩
      ⟨.give other, beside, second⟩)
    (same : RenamedResult names result other) (move : Move host ⟨.give result, below, first⟩ after) :
    Rejoins host watch start ⟨.give other, beside, second⟩ after := by
  have stack := mirrors.stack
  have alike := mirrors.world
  cases move with
  | resumed =>
    cases same with
    | ok same =>
      cases stack with
      | frame paired twins rest =>
        exact mirrors.advance .resumed (.run paired (twins.push same)) rest alike
  | unwound =>
    cases same with
    | error same =>
      cases stack with
      | frame paired twins rest =>
        exact mirrors.advance .unwound (.give (.error same)) rest (alike.leave paired.named)
  | replied =>
    cases stack with
    | caller rest => exact mirrors.advance .replied (.finish same) rest alike
    | native goes rest =>
      exact mirrors.advance .replied (.native (goes names _ _ (.refl names) same)) rest alike

private theorem rejoins_native {program other : Program σ (Except Fault Value)}
    (mirrors : Mirrors host watch start names ⟨.program .hosted program, below, first⟩
      ⟨.program .hosted other, beside, second⟩)
    (same : Program.Renamed watch.view start.world.threads.size names program other)
    (move : Move host ⟨.program .hosted program, below, first⟩ after) :
    Rejoins host watch start ⟨.program .hosted other, beside, second⟩ after := by
  have stack := mirrors.stack
  have alike := mirrors.world
  cases move with
  | dispatched =>
    cases same with
    | done same => exact mirrors.advance .dispatched (.give same) stack alike
  | performed applied =>
    cases same with
    | perform same goes =>
      have agrees := alike.same.apply same
      obtain ⟨calm, alsoCalm⟩ := same.redirects_eq
      rw [applied] at agrees
      generalize alsoApplied : Action.apply second _ = other at agrees
      cases agrees with
      | ok answered grows after =>
        have within := grows.within
        have alike := alike.grow grows after (Action.hook_apply applied calm)
          (Action.hook_apply alsoApplied alsoCalm)
        exact mirrors.advance (.performed alsoApplied) (.native (goes _ _ _ within answered))
          (stack.mono within) alike
  | launched =>
    cases same with
    | launch new named entered goes =>
      have paired : Paired watch start.world names _ _ := ⟨named, .inr new⟩
      refine mirrors.advance .launched ?_ (.native goes stack) alike
      cases entered with
      | call called given => exact .call paired called given
      | evaluate twins => exact .evaluate paired twins
      | dispatch twins =>
        exact .dispatch paired twins fun here => absurd new (Nat.not_le.mpr (here ▸ alike.inside))

end moves

private theorem mirrors_next (discreet : host.Discreet watch.view)
    (undetected : Undetected host watch start)
    (mirrors : Mirrors host watch start names plain hooked) (move : Move host plain after) :
    Rejoins host watch start hooked after := by
  obtain ⟨control, below, first⟩ := plain
  obtain ⟨above, beside, second⟩ := hooked
  have twins := mirrors.control
  cases twins with
  | call paired called given => exact rejoins_call discreet mirrors paired called given move
  | dispatch paired twins unstarted =>
    exact rejoins_dispatch undetected mirrors paired twins unstarted move
  | evaluate paired twins => exact rejoins_evaluate mirrors paired twins move
  | run paired twins => exact rejoins_run mirrors paired twins move
  | give same => exact rejoins_give mirrors same move
  | native same => exact rejoins_native mirrors same move
  | finish => cases move

/-- Two calls ended alike: in engines that are alike, with the same result and, where they failed,
with the same message. -/
inductive EndAlike (watch : Interception σ) (start : World σ) :
    Except Fault Value → World σ → Except Fault Value → World σ → Prop
  | returned {names value other plain hooked}
      (alike : World.Alike watch start names plain hooked) (same : value.Renamed names other) :
      EndAlike watch start (.ok value) plain (.ok other) hooked
  | failed {names fault other plain hooked}
      (alike : World.Alike watch start names plain hooked) (same : fault.Renamed names other)
      (message : other.message? hooked.heap = fault.message? plain.heap) :
      EndAlike watch start (.error fault) plain (.error other) hooked

private theorem end_alike {plain hooked : World σ} {result other : Except Fault Value}
    (alike : World.Alike watch start.world names plain hooked)
    (same : RenamedResult names result other) :
    EndAlike watch start.world result plain other hooked := by
  cases same with
  | ok same => exact .returned alike same
  | error same => exact .failed alike same (alike.same.heap.message?_eq same)

private def OutcomesAlike (watch : Interception σ) (start : World σ) :
    Outcome σ (Except Fault Value) → Outcome σ (Except Fault Value) → Prop
  | .finished result plain, .finished other hooked => EndAlike watch start result plain other hooked
  | .given result plain, .given other hooked => EndAlike watch start result plain other hooked
  | _, _ => False

private theorem finished_of_outcomesAlike {outcome other : Outcome σ (Except Fault Value)}
    (agreed : OutcomesAlike watch start.world outcome other)
    (outside : ∀ result world, outcome ≠ .given result world) :
    ∃ result plain value hooked, outcome = .finished result plain ∧ other = .finished value hooked ∧
      EndAlike watch start.world result plain value hooked := by
  cases outcome with
  | finished result plain =>
    cases other with
    | finished value hooked => exact ⟨result, plain, value, hooked, rfl, rfl, agreed⟩
    | _ => cases agreed
  | given result plain => exact absurd rfl (outside result plain)
  | _ => cases agreed

private theorem mirrors_halt {outcome : Outcome σ (Except Fault Value)}
    (mirrors : Mirrors host watch start names plain hooked) (stop : Stop host plain outcome) :
    ∃ result, Transition.Ends (step host) hooked result ∧
      OutcomesAlike watch start.world outcome result := by
  obtain ⟨above, beside, second⟩ := hooked
  obtain ⟨control, stack, alike, _⟩ := mirrors
  cases stop with
  | finished =>
    cases control with
    | finish same => exact ⟨_, .of_step rfl, end_alike alike same⟩
  | given =>
    cases control with
    | give same =>
      cases stack
      exact ⟨_, .of_step (step_eq_halt_iff.mpr .given), end_alike alike same⟩
  | broken progress =>
    cases control with
    | run paired twins =>
      have agrees := twins.agrees_step alike.same.heap
      rw [progress] at agrees
      cases agrees
  | fatal refused =>
    cases control with
    | native same =>
      cases same with
      | perform same goes =>
        have agrees := alike.same.apply same
        rw [refused] at agrees
        cases agrees
  | noModule | noCallback => cases control

private theorem mirrors_simulates (discreet : host.Discreet watch.view)
    (undetected : Undetected host watch start) :
    Transition.Simulates (step host) (step host)
      (fun plain hooked => ∃ names, Mirrors host watch start names plain hooked)
      (OutcomesAlike watch start.world) where
  next := by
    rintro _ _ _ ⟨names, mirrors⟩ stepped
    exact mirrors_next discreet undetected mirrors (step_eq_next_iff.mp stepped)
  halt := by
    rintro _ _ _ ⟨names, mirrors⟩ stopped
    exact mirrors_halt mirrors (step_eq_halt_iff.mp stopped)

/-- A call ends under interception exactly when it ends without, and either way it ends alike. -/
structure Transparent (host : Host σ) (watch : Interception σ) (world : World σ) (callee : Value)
    (arguments : List Value) : Prop where
  forward : ∀ outcome,
    Transition.Ends (step host)
      (ofProgram (world.setDispatch watch.thread .default)
        (Program.run watch.thread (.call callee arguments)))
      outcome →
    ∃ result plain other hooked, outcome = .finished result plain ∧
      Transition.Ends (step host)
        (ofProgram world (Program.run watch.thread (.call callee arguments)))
        (.finished other hooked) ∧
      EndAlike watch world result plain other hooked
  backward : ∀ outcome,
    Transition.Ends (step host)
      (ofProgram world (Program.run watch.thread (.call callee arguments))) outcome →
    ∃ result plain other hooked, outcome = .finished other hooked ∧
      Transition.Ends (step host)
        (ofProgram (world.setDispatch watch.thread .default)
          (Program.run watch.thread (.call callee arguments)))
        (.finished result plain) ∧
      EndAlike watch world result plain other hooked

/-- Interception by harmless callbacks cannot be noticed, wherever a call is made: the engine may be
reached in any way from an empty one, by a client and a host that hand nothing to it that refers to
something missing. -/
theorem transparent_of_undetected {α : Type} {client : Program σ α} {state : σ}
    {reached : Machine σ α} {callee : Value} {arguments : List Value}
    (truthful : ∀ machine, Transition.Meets (step host) (ofProgram { host := state } client) machine →
      machine.Truthful)
    (met : Transition.Meets (step host) (ofProgram { host := state } client) reached)
    (intercepts : reached.world.Intercepts watch.thread watch.module watch.callback)
    (called : callee.Known reached.world.names)
    (given : ∀ value ∈ arguments, value.Known reached.world.names)
    (shared : watch.shared.related reached.world.names reached.world.host reached.world.host)
    (discreet : host.Discreet watch.view)
    (undetected : Undetected host watch
      (ofProgram reached.world (Program.run watch.thread (.call callee arguments)))) :
    Transparent host watch reached.world callee arguments := by
  have simulates := mirrors_simulates discreet undetected
  have alike := World.Alike.of_intercepts (sound_of_met truthful met).world shared intercepts
  let plainStart : Machine σ (Except Fault Value) :=
    ⟨.enter watch.thread (.call callee arguments), [.program .client .done],
      reached.world.setDispatch watch.thread .default⟩
  let hookedStart : Machine σ (Except Fault Value) :=
    ⟨.enter watch.thread (.call callee arguments), [.program .client .done], reached.world⟩
  have plainLaunch : step host (ofProgram (reached.world.setDispatch watch.thread .default)
      (Program.run watch.thread (.call callee arguments))) = .next plainStart := rfl
  have hookedLaunch : step host
      (ofProgram reached.world (Program.run watch.thread (.call callee arguments))) =
      .next hookedStart := rfl
  have mirrors : Mirrors host watch
      (ofProgram reached.world (Program.run watch.thread (.call callee arguments)))
      reached.world.names plainStart hookedStart :=
    ⟨.call ⟨alike.thread, .inl rfl⟩ called (List.forall₂_same.mpr given), .caller .nil, alike,
      .of_step hookedLaunch⟩
  constructor
  case forward =>
    intro outcome ended
    obtain ⟨other, alsoEnded, agreed⟩ :=
      simulates.forward ⟨_, mirrors⟩ (Transition.Ends.after plainLaunch ended)
    obtain ⟨result, plain, value, hooked, rfl, rfl, alike⟩ :=
      finished_of_outcomesAlike agreed fun _ _ given =>
        not_given_of_rooted (rooted_ofProgram _ _) (given ▸ ended)
    exact ⟨result, plain, value, hooked, rfl,
      (Transition.Meets.of_step hookedLaunch).ends alsoEnded, alike⟩
  case backward =>
    intro outcome ended
    obtain ⟨other, alsoEnded, agreed⟩ :=
      simulates.backward ⟨_, mirrors⟩ (Transition.Ends.after hookedLaunch ended)
    have plainEnded := (Transition.Meets.of_step plainLaunch).ends alsoEnded
    obtain ⟨result, plain, value, hooked, rfl, rfl, alike⟩ :=
      finished_of_outcomesAlike agreed fun _ _ given =>
        not_given_of_rooted (rooted_ofProgram _ _) (given ▸ plainEnded)
    exact ⟨result, plain, value, hooked, rfl, plainEnded, alike⟩

def widened (unit : Blueprint) : Blueprint :=
  { unit with locals := unit.locals ++ ["further"] }

/-- The callback makes a cell and a wider copy of the unit each time it is asked. The native function
empties the slot of the unit it is given. -/
def widening : Host Unit where
  callback _ _ frame _ := do
    let _ ← Program.newCell none
    let made ← Program.act (.build (widened frame.code.toBlueprint))
    pure (.ok (made.toOption.map fun code => ⟨0, code⟩))
  dispatch _ _ _ := .done (.ok .nil)
  native _ arguments :=
    match arguments with
    | [.code id] => .perform (.writeExtra id ⟨0⟩ none) fun _ => .done (.ok .nil)
    | _ => .done (.ok .nil)

def hooking : Program Unit Unit := do
  let owner ← Program.act .newInterpreter
  let thread ← Program.act (.newThread owner 8)
  let _ ← Program.act (.requestIndex owner)
  let _ ← Program.act (.build .one)
  let _ ← Program.act (.build .handing)
  let _ ← Program.act (.edit .newNamespace)
  let _ ← Program.act (.edit .newFunction)
  let _ ← Program.act (.install thread ⟨⟨0⟩⟩ (some 0))

def watched : Interception Unit := ⟨0, ⟨⟨0⟩⟩, 0, ⟨fun _ _ _ => True, fun _ _ => trivial⟩⟩

private theorem widening_discreet : widening.Discreet watched.view := by
  intro index names arguments others given
  have nothing : Program.Renamed watched.view names.threads.here names (.done (.ok .nil))
      (.done (.ok .nil)) := .done (.ok (.plain rfl))
  cases given with
  | nil => exact nothing
  | @cons value _ _ _ first rest =>
    cases first with
    | plain plain =>
      cases value with
      | code => cases plain
      | _ => exact nothing
    | code same =>
      cases rest with
      | nil => exact .perform (.writeExtra same .none) fun _ _ _ _ _ => .done (.ok (.plain rfl))
      | cons => exact nothing
    | function | cell => exact nothing

private theorem widening_harmless (world : World Unit) (callback : CallbackId) (id : ThreadId)
    (frame : Frame) (size : Nat) :
    widening.Harmless watched.shared world callback id frame size := by
  let allocated := world.edit [.newCell none]
  refine ⟨(allocated.build (widened frame.code.toBlueprint)).1.toOption.map fun code => ⟨0, code⟩,
    (allocated.build (widened frame.code.toBlueprint)).2, ⟨4, rfl⟩, ?_, ?_⟩
  · have kept : world.Unaltered watched.shared allocated :=
      ⟨.refl _, .push _ _, .refl _, Nat.le_refl _, .refl _, .refl _, fun _ _ _ => rfl, fun _ => trivial⟩
    cases built : (widened frame.code.toBlueprint).build with
    | error fault =>
      simp only [World.build, built]
      exact kept
    | ok made =>
      simp only [World.build, built]
      exact { kept with units := .push _ _, slots := fun _ _ _ => rfl }
  · intro replacement given
    cases built : (widened frame.code.toBlueprint).build with
    | error fault =>
      simp only [World.build, built] at given
      cases given
    | ok made =>
      obtain ⟨rfl, _, _⟩ := Blueprint.of_build built
      simp only [World.build, built] at given ⊢
      cases given
      simp only [Heap.code, Heap.addCode, Table.get_push, if_true]
      exact ⟨rfl, rfl, rfl, rfl, rfl, rfl, List.prefix_append _ _⟩

private theorem hooking_truthful (machine : Machine Unit Unit)
    (met : Transition.Meets (step widening) (ofProgram { host := () } hooking) machine) :
    machine.Truthful := by
  refine truthful_of_perform rfl ?_ (fun machine met => ?_) met
  · exact trivial
  refine truthful_of_perform rfl ?_ (fun machine met => ?_) met
  · exact ⟨rfl, by decide⟩
  refine truthful_of_perform rfl ?_ (fun machine met => ?_) met
  · exact ⟨rfl, by decide⟩
  refine truthful_of_perform rfl ?_ (fun machine met => ?_) met
  · exact ⟨rfl, .cons (.plain rfl) .nil⟩
  refine truthful_of_perform rfl ?_ (fun machine met => ?_) met
  · exact ⟨rfl, .cons (.plain rfl) (.cons (.code ⟨rfl, by decide⟩) .nil)⟩
  refine truthful_of_perform rfl ?_ (fun machine met => ?_) met
  · exact ⟨_, .newNamespace⟩
  refine truthful_of_perform rfl ?_ (fun machine met => ?_) met
  · exact ⟨_, .newFunction⟩
  refine truthful_of_perform rfl ?_ (fun machine met => ?_) met
  · exact ⟨rfl, by decide⟩
  obtain ⟨fuel, reached⟩ := met
  cases fuel with
  | zero =>
    cases reached
    exact trivial
  | succ fuel => cases reached

theorem transparent_of_widening :
    ∃ reached : Machine Unit Unit,
      Transition.run (step widening) 8 (ofProgram { host := () } hooking) = .next reached ∧
      reached.world.Intercepts 0 ⟨⟨0⟩⟩ 0 ∧
      (∃ world, Transition.Ends (step widening)
        (ofProgram reached.world (Program.run 0 (.call (.function ⟨0, 1, 1, []⟩) [])))
        (.finished (.ok .nil) world)) ∧
      Transparent widening watched reached.world (.function ⟨0, 1, 1, []⟩) [] := by
  refine ⟨_, rfl, ⟨rfl, rfl, rfl⟩, ⟨_, 19, rfl⟩, ?_⟩
  refine transparent_of_undetected hooking_truthful ⟨8, rfl⟩ ⟨rfl, rfl, rfl⟩ ?_ ?_ trivial
    widening_discreet fun frame cached stack world _ => widening_harmless world 0 0 frame _
  · exact .function ⟨⟨rfl, by decide⟩, ⟨rfl, by decide⟩, ⟨rfl, by decide⟩, .nil⟩
  · exact fun _ member => absurd member List.not_mem_nil

end Machine

end Interpose
