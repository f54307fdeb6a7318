import Interpose.Proofs.Consultation
import Interpose.Proofs.Isolation

/-! Callbacks behind skip lists. Lists that are nested skip what one list of all their directories
skips. The callback behind them is asked about no frame of a skipped unit, and what it would have
answered there does not matter; such a unit is left alone from its first interception on, whatever
was cached for it. About all other units it is asked as if there were no list. -/

namespace Interpose
variable {σ α ρ : Type}

namespace Callback

def LiesUnder (directories : List String) (frame : Frame) : Prop :=
  ∃ directory ∈ directories, directory.toList <+: frame.code.filename.toList

theorem isSkipped_iff {directories : List String} {frame : Frame} :
    isSkipped directories frame.code.filename = true ↔ LiesUnder directories frame := by
  simp only [isSkipped, List.any_eq_true, List.isPrefixOf_iff_prefix, LiesUnder]

instance (directories : List String) (frame : Frame) : Decidable (LiesUnder directories frame) :=
  decidable_of_iff _ isSkipped_iff

/-- A skip list before anything that is asked about frames: of skipped units it answers itself. -/
def filtering (directories : List String) (own : ρ) (inner : ThreadId → Frame → Nat → ρ) :
    ThreadId → Frame → Nat → ρ :=
  fun thread frame cached =>
    if isSkipped directories frame.code.filename then own else inner thread frame cached

/-- Skip lists one behind another, the first one outermost. -/
def layering (layers : List (List String)) (own : ρ) (inner : ThreadId → Frame → Nat → ρ) :
    ThreadId → Frame → Nat → ρ :=
  layers.foldr (fun directories inner => filtering directories own inner) inner

theorem skipping_eq_filtering (directories : List String) (inner : Callback σ) :
    skipping directories inner = filtering directories (.done (.ok none)) inner := rfl

section
variable {directories : List String} {own : ρ} {inner : ThreadId → Frame → Nat → ρ}
  {thread : ThreadId} {frame : Frame} {cached : Nat}

theorem filtering_of_under (under : LiesUnder directories frame) :
    filtering directories own inner thread frame cached = own :=
  if_pos (isSkipped_iff.mpr under)

theorem filtering_of_not_under (apart : ¬LiesUnder directories frame) :
    filtering directories own inner thread frame cached = inner thread frame cached :=
  if_neg fun skipped => apart (isSkipped_iff.mp skipped)

end

theorem under_append_iff (first second : List String) (frame : Frame) :
    LiesUnder (first ++ second) frame ↔ LiesUnder first frame ∨ LiesUnder second frame := by
  simp only [LiesUnder, List.mem_append, or_and_right, exists_or]

/-- A skip list hides what is behind it for skipped units. -/
theorem filtering_congr {directories : List String} {own : ρ}
    {inner other : ThreadId → Frame → Nat → ρ}
    (same : ∀ thread frame cached, ¬LiesUnder directories frame →
      other thread frame cached = inner thread frame cached) :
    filtering directories own other = filtering directories own inner := by
  funext thread frame cached
  by_cases under : LiesUnder directories frame
  · rw [filtering_of_under under, filtering_of_under under]
  · rw [filtering_of_not_under under, filtering_of_not_under under, same thread frame cached under]

theorem filtering_filtering (first second : List String) (own : ρ)
    (inner : ThreadId → Frame → Nat → ρ) :
    filtering first own (filtering second own inner) = filtering (first ++ second) own inner := by
  funext thread frame cached
  by_cases outer : LiesUnder first frame
  · rw [filtering_of_under outer,
      filtering_of_under ((under_append_iff first second frame).mpr (.inl outer))]
  · rw [filtering_of_not_under outer]
    by_cases under : LiesUnder second frame
    · rw [filtering_of_under under,
        filtering_of_under ((under_append_iff first second frame).mpr (.inr under))]
    · rw [filtering_of_not_under under, filtering_of_not_under]
      exact fun either => ((under_append_iff first second frame).mp either).elim outer under

/-- Nested skip lists are one list of all their directories. -/
theorem layering_eq_filtering (layers : List (List String)) (own : ρ)
    (inner : ThreadId → Frame → Nat → ρ) :
    layering layers own inner = filtering layers.flatten own inner := by
  induction layers with
  | nil => rfl
  | cons directories layers ih =>
    rw [List.flatten_cons, ← filtering_filtering, ← ih]
    rfl

end Callback

namespace World

def leftAlone (world : World σ) (id : ThreadId) (module : HookModule) (code : CodeId) : World σ :=
  ((world.setDispatch id .default).storeCache module code .skip).setDispatch id .intercept

theorem cache_leftAlone (world : World σ) (id : ThreadId) (module : HookModule)
    (code other : CodeId) :
    (world.leftAlone id module code).cache module other =
      if other = code then .skip else world.cache module other := by
  simp only [leftAlone, cache_setDispatch, cache_storeCache, true_and]

theorem Intercepts.leftAlone {world : World σ} {id : ThreadId} {module : HookModule}
    {callback : CallbackId} (intercepts : world.Intercepts id module callback) (code : CodeId) :
    (world.leftAlone id module code).Intercepts id module callback := by
  obtain ⟨-, installed, present⟩ := intercepts
  constructor <;> simp [World.leftAlone, thread_setDispatch, installed, present]

end World

def Host.serving (host : Host σ) (name : CallbackId) (served : Callback σ) : Host σ :=
  { host with callback := fun other => if other = name then served else host.callback other }

@[simp] theorem Host.callback_serving (host : Host σ) (name : CallbackId) (served : Callback σ) :
    (host.serving name served).callback name = served := if_pos rfl

structure Consult where
  thread : ThreadId
  frame : Frame
  size : Nat

/-- What reaches the callback that stands under a name behind these skip lists, when the engine asks
for it. -/
def Event.consult? (name : CallbackId) (layers : List (List String)) : Event → Option Consult
  | .asked id callback _ frame size =>
    if callback = name then
      Callback.layering layers none (fun id frame size => some ⟨id, frame, size⟩) id frame size
    else none
  | _ => none

theorem Event.consult?_congr {layers others : List (List String)} (name : CallbackId)
    (same : layers.flatten = others.flatten) :
    Event.consult? name layers = Event.consult? name others := by
  funext event
  cases event with
  | asked id callback module frame size =>
    simp only [consult?, Callback.layering_eq_filtering, same]
  | _ => rfl

namespace Machine

def consults (host : Host σ) (name : CallbackId) (layers : List (List String)) (fuel : Nat)
    (start : Machine σ α) : List Consult :=
  (history host fuel start).filterMap (Event.consult? name layers)

section
variable {host : Host σ} {name : CallbackId} {layers : List (List String)} {fuel more : Nat}
  {start : Machine σ α} {later : List Event}

theorem consults_of_history
    (extended : history host more start = history host fuel start ++ later) :
    consults host name layers more start =
      consults host name layers fuel start ++ later.filterMap (Event.consult? name layers) := by
  rw [consults, extended, List.filterMap_append]
  rfl

/-- A frame that a callback is asked about reaches the one behind the skip lists, or none. -/
theorem consults_of_asked {id : ThreadId} {module : HookModule} {shown : Frame} {size : Nat}
    (silent : later.filterMap (Event.consult? name layers) = [])
    (extended : history host more start =
      history host fuel start ++ (later ++ [.asked id name module shown size])) :
    consults host name layers more start = consults host name layers fuel start ++
      if Callback.LiesUnder layers.flatten shown then [] else [⟨id, shown, size⟩] := by
  have behind : Event.consult? name layers (.asked id name module shown size) =
      Callback.filtering layers.flatten none (fun id frame size => some ⟨id, frame, size⟩) id shown
        size := by
    rw [Event.consult?, if_pos rfl, Callback.layering_eq_filtering]
  rw [consults_of_history extended, List.filterMap_append, silent, List.nil_append]
  split
  next under =>
    rw [Callback.filtering_of_under under] at behind
    rw [List.filterMap_cons_none behind, List.filterMap_nil]
  next apart =>
    rw [Callback.filtering_of_not_under apart] at behind
    rw [List.filterMap_cons_some behind, List.filterMap_nil]

theorem consults_of_dispatched {id : ThreadId} {module : HookModule} {frame shown : Frame}
    {size : Nat}
    (extended : history host more start = history host fuel start ++
      [.intercepted id module frame, .asked id name module shown size]) :
    consults host name layers more start = consults host name layers fuel start ++
      if Callback.LiesUnder layers.flatten shown then [] else [⟨id, shown, size⟩] := by
  have silent : [Event.intercepted id module frame].filterMap (Event.consult? name layers) = [] :=
    rfl
  exact consults_of_asked silent extended

theorem not_under_of_consult? {event : Event} {consult : Consult}
    (passed : event.consult? name layers = some consult) :
    ¬Callback.LiesUnder layers.flatten consult.frame := by
  cases event with
  | asked id callback module frame size =>
    simp only [Event.consult?, Callback.layering_eq_filtering] at passed
    split at passed
    next =>
      by_cases under : Callback.LiesUnder layers.flatten frame
      · rw [Callback.filtering_of_under under] at passed
        cases passed
      · rw [Callback.filtering_of_not_under under] at passed
        cases passed
        exact under
    next => cases passed
  | _ => cases passed

end

theorem run_onward {host : Host σ} {fuel : Nat} {start machine later : Machine σ α}
    (met : run host fuel start = .next machine)
    (onward : Transition.Meets (step host) machine later) :
    ∃ steps, run host (fuel + steps) start = .next later := by
  obtain ⟨steps, reached⟩ := onward
  refine ⟨steps, ?_⟩
  rw [run] at met ⊢
  rw [Transition.run_add, met]
  exact reached

structure Quiet (module : HookModule) (events : List Event) (machine : Machine σ α) : Prop where
  hushed : Hushed module events machine.world machine.layers
  entering : ∀ id frame, machine.control = .enter id (.intercept frame) →
    (machine.world.hook id).dispatch = .intercept

namespace Quiet
variable {host : Host σ} {module : HookModule} {events : List Event} {before after : Machine σ α}

theorem step (quiet : Quiet module events before) (orderly : before.Orderly module)
    (move : Move host before after) : Quiet module (events ++ before.event?.toList) after where
  hushed := hushed_step quiet.hushed quiet.entering orderly move
  entering _ _ := intercepts_of_entering orderly move

/-- A unit that is to be left alone stays so: the pending consult is about another one. -/
theorem skip_kept (quiet : Quiet module events before) (orderly : before.Orderly module)
    (move : Move host before after) {code : CodeId}
    (skip : before.world.cache module code = .skip) : after.world.cache module code = .skip := by
  rw [move.cache_eq (orderly.leaves code)]
  rcases before.commit_cases module code with ⟨commit, -, -⟩ | ⟨commit, -, -⟩ |
    ⟨id, frame, cached, replacement, control, rfl, -, -, -⟩
  · rw [commit]
    exact skip
  · rw [commit]
    rfl
  · have hushed := quiet.hushed
    rw [layers, control] at hushed
    have wanted := (hushed.1.read rfl).2
    rw [skip] at wanted
    cases wanted

end Quiet

/-- In an orderly run a unit that is to be left alone is left alone from then on. -/
theorem skip_stays {host : Host σ} {module : HookModule} {world : World σ} {client : Program σ α}
    (orderly : ∀ machine, Transition.Meets (step host) (ofProgram world client) machine →
      machine.Orderly module)
    {fuel : Nat} {code : CodeId} {machine : Machine σ α}
    (met : run host fuel (ofProgram world client) = .next machine)
    (skip : machine.world.cache module code = .skip) (more : Nat) {later : Machine σ α}
    (reached : run host (fuel + more) (ofProgram world client) = .next later) :
    later.world.cache module code = .skip := by
  have quiet {fuel : Nat} {machine : Machine σ α}
      (met : run host fuel (ofProgram world client) = .next machine) :
      Quiet module (history host fuel (ofProgram world client)) machine :=
    history_keeps (fun _ before _ reached quiet move => quiet.step (orderly before reached) move)
      ⟨trivial, fun _ _ control => by cases control⟩ met
  induction more generalizing later with
  | zero =>
    cases met.symm.trans reached
    exact skip
  | succ more ih =>
    obtain ⟨before, early, move⟩ := exists_move_of_run reached
    exact (quiet early).skip_kept (orderly before ⟨_, early⟩) move (ih early)

open Callback (LiesUnder)

/-- A dispatched frame is put to a callback as the engine has it, and what the callback comes to on
its own is what the engine goes on with. -/
structure PutTo (inner : Callback σ) (host : Host σ) (start : Machine σ α) (fuel : Nat)
    (module : HookModule) (id : ThreadId) (shown : Frame) (cached : CacheState)
    (stack : List (Activation σ α)) (world : World σ) : Prop where
  asked : run host (fuel + 2) start =
    .next ⟨.program (.consulted id shown module cached) (inner id shown cached.length), stack,
      world.setDispatch id .default⟩
  used : ∀ result after,
    Transition.Ends (step host)
      (ofProgram (world.setDispatch id .default) (inner id shown cached.length))
      (.finished result after) →
    ∃ steps, run host (fuel + 2 + steps) start =
      finish stack after (.consulted id shown module cached) result

structure Filters (host : Host σ) (name : CallbackId) (module : HookModule)
    (layers : List (List String)) (inner : Callback σ) (start : Machine σ α) : Prop where
  /-- Where the engine asks for the callback, skipped units are answered at once; for all others the
  callback itself is what runs next. -/
  asked : ∀ fuel machine id place shown size,
    run host fuel start = .next machine →
    machine.event? = some (.asked id name place shown size) →
    ∃ cached,
      run host (fuel + 1) start =
        .next ⟨.program (.consulted id shown place cached)
          (if LiesUnder layers.flatten shown then .done (.ok none) else inner id shown size),
          machine.stack, machine.world.setDispatch id .default⟩ ∧
      consults host name layers (fuel + 1) start = consults host name layers fuel start ++
        if LiesUnder layers.flatten shown then [] else [⟨id, shown, size⟩]
  never : ∀ fuel, ∀ consult ∈ consults host name layers fuel start,
    ¬LiesUnder layers.flatten consult.frame
  /-- A skipped unit is left alone once a frame of it was dispatched, whatever was cached for it. -/
  shielded : ∀ fuel id frame stack world,
    run host fuel start = .next ⟨.enter id (.dispatch frame), stack, world⟩ →
    world.Intercepts id module name → LiesUnder layers.flatten frame →
    ∃ steps evaluated after,
      run host (fuel + steps) start = .next ⟨.enter id (.evaluate evaluated), stack, after⟩ ∧
      (evaluated = frame ∨ evaluated = frame.materialize world.heap) ∧
      after.Intercepts id module name ∧ after.cache module frame.code.id = .skip ∧
      (∀ code ≠ frame.code.id, after.cache module code = world.cache module code) ∧
      consults host name layers (fuel + steps) start = consults host name layers fuel start
  /-- It is left alone for good where no callback causes interception and nobody writes the slot. -/
  stays : (∀ machine, Transition.Meets (step host) start machine → machine.Orderly module) →
    ∀ fuel machine code, run host fuel start = .next machine →
      machine.world.cache module code = .skip →
    ∀ more later, run host (fuel + more) start = .next later →
      later.world.cache module code = .skip
  passed : ∀ fuel id frame stack world,
    run host fuel start = .next ⟨.enter id (.dispatch frame), stack, world⟩ →
    world.Intercepts id module name → ¬LiesUnder layers.flatten frame →
    (world.cache module frame.code.id).isSkip = false →
    PutTo inner host start fuel module id (frame.materialize world.heap)
        (world.cache module frame.code.id) stack world ∧
      consults host name layers (fuel + 2) start = consults host name layers fuel start ++
        [⟨id, frame.materialize world.heap, (world.cache module frame.code.id).length⟩]

section
variable {host : Host σ} {name : CallbackId} {module : HookModule}
  {layers : List (List String)} {inner : Callback σ} {start : Machine σ α} {fuel : Nat}
  {id : ThreadId} {frame : Frame} {stack : List (Activation σ α)} {world : World σ}

theorem asked_of_layering
    (behind : host.callback name = Callback.layering layers (.done (.ok none)) inner)
    {machine : Machine σ α} {place : HookModule} {shown : Frame} {size : Nat}
    (met : run host fuel start = .next machine)
    (asked : machine.event? = some (.asked id name place shown size)) :
    ∃ cached,
      run host (fuel + 1) start =
        .next ⟨.program (.consulted id shown place cached)
          (if LiesUnder layers.flatten shown then .done (.ok none) else inner id shown size),
          machine.stack, machine.world.setDispatch id .default⟩ ∧
      consults host name layers (fuel + 1) start = consults host name layers fuel start ++
        if LiesUnder layers.flatten shown then [] else [⟨id, shown, size⟩] := by
  obtain ⟨original, control, same, installed, present, wanted, counted⟩ := shows_asked asked
  obtain ⟨_, stack, world⟩ := machine
  cases control
  cases same
  cases counted
  have asks : Move host (⟨.enter id (.intercept original), stack, world⟩ : Machine σ α) _ :=
    .asked installed present wanted
  refine ⟨world.cache place original.code.id, ?runs, ?consulted⟩
  case runs =>
    rw [run_move met asks, behind, Callback.layering_eq_filtering]
    split
    next under => rw [Callback.filtering_of_under under]
    next apart =>
      rw [Callback.filtering_of_not_under apart]
      rfl
  case consulted =>
    have extended := history_succ met asks
    rw [asked] at extended
    exact consults_of_asked List.filterMap_nil extended

theorem shielded_of_layering
    (behind : host.callback name = Callback.layering layers (.done (.ok none)) inner)
    (met : run host fuel start = .next ⟨.enter id (.dispatch frame), stack, world⟩)
    (intercepts : world.Intercepts id module name) (under : LiesUnder layers.flatten frame) :
    ∃ steps evaluated after,
      run host (fuel + steps) start = .next ⟨.enter id (.evaluate evaluated), stack, after⟩ ∧
      (evaluated = frame ∨ evaluated = frame.materialize world.heap) ∧
      after.Intercepts id module name ∧ after.cache module frame.code.id = .skip ∧
      (∀ code ≠ frame.code.id, after.cache module code = world.cache module code) ∧
      consults host name layers (fuel + steps) start = consults host name layers fuel start := by
  cases skip : (world.cache module frame.code.id).isSkip with
  | true =>
    obtain ⟨reached, passed⟩ := dispatch_skips met intercepts skip
    have alone : world.cache module frame.code.id = .skip := by
      cases known : world.cache module frame.code.id <;> simp_all [CacheState.isSkip]
    refine ⟨2, frame, world, reached, .inl rfl, intercepts, alone, fun _ _ => rfl, ?_⟩
    rw [consults_of_history passed]
    exact List.append_nil _
  | false =>
    have materialized : LiesUnder layers.flatten (frame.materialize world.heap) := under
    obtain ⟨reached, passed⟩ := dispatch_asks met intercepts skip
    rw [behind, Callback.layering_eq_filtering, Callback.filtering_of_under materialized] at reached
    have misses : Move host (⟨.program (.consulted id (frame.materialize world.heap) module
        (world.cache module frame.code.id)) (.done (.ok none)), stack,
        world.setDispatch id .default⟩ : Machine σ α)
      ⟨.enter id (.evaluate (frame.materialize world.heap)), stack,
        world.leftAlone id module frame.code.id⟩ := .missed
    have stored := world.cache_leftAlone id module frame.code.id
    refine ⟨3, _, _, run_move reached misses, .inr rfl, intercepts.leftAlone frame.code.id, ?known,
      ?others, ?asked⟩
    case known => exact (stored frame.code.id).trans (if_pos rfl)
    case others => exact fun code other => (stored code).trans (if_neg other)
    case asked =>
      rw [consults_of_history (history_succ reached misses), consults_of_dispatched passed,
        if_pos materialized]
      exact (List.append_nil _).trans (List.append_nil _)

theorem passed_of_layering
    (behind : host.callback name = Callback.layering layers (.done (.ok none)) inner)
    (met : run host fuel start = .next ⟨.enter id (.dispatch frame), stack, world⟩)
    (intercepts : world.Intercepts id module name) (apart : ¬LiesUnder layers.flatten frame)
    (wanted : (world.cache module frame.code.id).isSkip = false) :
    PutTo inner host start fuel module id (frame.materialize world.heap)
        (world.cache module frame.code.id) stack world ∧
      consults host name layers (fuel + 2) start = consults host name layers fuel start ++
        [⟨id, frame.materialize world.heap, (world.cache module frame.code.id).length⟩] := by
  have shown : ¬LiesUnder layers.flatten (frame.materialize world.heap) := apart
  obtain ⟨reached, passed⟩ := dispatch_asks met intercepts wanted
  rw [behind, Callback.layering_eq_filtering, Callback.filtering_of_not_under shown] at reached
  refine ⟨⟨reached, ?used⟩, ?consulted⟩
  case used =>
    intro result after ended
    have answered : Transition.Meets (step host)
        ⟨.program (.consulted id (frame.materialize world.heap) module
            (world.cache module frame.code.id))
          (inner id (frame.materialize world.heap) (world.cache module frame.code.id).length),
          stack, world.setDispatch id .default⟩
        (⟨.program (.consulted id (frame.materialize world.heap) module
            (world.cache module frame.code.id)) (.done result), stack, after⟩ : Machine σ α) :=
      meets_done_of_ends ended stack
    obtain ⟨steps, done⟩ := run_onward reached answered
    refine ⟨steps + 1, ?_⟩
    rw [run, ← Nat.add_assoc, Transition.run_succ, ← run, done]
    rfl
  case consulted => rw [consults_of_dispatched passed, if_neg shown]

end

/-- Behind skip lists a callback is shielded from skipped units, and only from them. -/
theorem filters_of_layering {host : Host σ} {name : CallbackId} (module : HookModule)
    {layers : List (List String)} {inner : Callback σ}
    (behind : host.callback name = Callback.layering layers (.done (.ok none)) inner)
    (start : World σ) (client : Program σ α) :
    Filters host name module layers inner (ofProgram start client) := by
  constructor
  case asked =>
    intro fuel machine id place shown size met asked
    exact asked_of_layering behind met asked
  case never =>
    intro fuel consult member
    obtain ⟨event, -, passed⟩ := List.mem_filterMap.mp member
    exact not_under_of_consult? passed
  case shielded =>
    intro fuel id frame stack world met intercepts under
    exact shielded_of_layering behind met intercepts under
  case stays =>
    intro orderly fuel machine code met skip more later reached
    exact skip_stays orderly met skip more reached
  case passed =>
    intro fuel id frame stack world met intercepts apart wanted
    exact passed_of_layering behind met intercepts apart wanted

/-- A skip list of another before a callback, beside one list of all their directories. -/
structure Composes (host : Host σ) (name : CallbackId) (module : HookModule)
    (first second : List String) (inner : Callback σ) (start : Machine σ α) : Prop where
  /-- Both do the same, step by step, and ask the callback behind them the same. -/
  joined : ∀ fuel,
    run (host.serving name (.skipping first (.skipping second inner))) fuel start =
      run (host.serving name (.skipping (first ++ second) inner)) fuel start ∧
    history (host.serving name (.skipping first (.skipping second inner))) fuel start =
      history (host.serving name (.skipping (first ++ second) inner)) fuel start ∧
    consults (host.serving name (.skipping first (.skipping second inner))) name [first, second]
        fuel start =
      consults (host.serving name (.skipping (first ++ second) inner)) name [first ++ second] fuel
        start
  filters : Filters (host.serving name (.skipping first (.skipping second inner))) name module
    [first, second] inner start
  /-- What the callback would do about skipped units has no part in any run. -/
  unheard : ∀ other : Callback σ,
    (∀ id frame size, ¬LiesUnder (first ++ second) frame →
      other id frame size = inner id frame size) →
    ∀ fuel,
      run (host.serving name (.skipping first (.skipping second other))) fuel start =
        run (host.serving name (.skipping first (.skipping second inner))) fuel start ∧
      history (host.serving name (.skipping first (.skipping second other))) fuel start =
        history (host.serving name (.skipping first (.skipping second inner))) fuel start
  /-- A list of no directories does nothing. -/
  empty : ∀ fuel,
    run (host.serving name (.skipping [] inner)) fuel start =
      run (host.serving name inner) fuel start ∧
    history (host.serving name (.skipping [] inner)) fuel start =
      history (host.serving name inner) fuel start ∧
    consults (host.serving name (.skipping [] inner)) name [[]] fuel start =
      consults (host.serving name inner) name [] fuel start

/-- Skip lists compose, and shield the callback behind them from skipped units and from no other. -/
theorem skip_lists_compose (host : Host σ) (name : CallbackId) (module : HookModule)
    (first second : List String) (inner : Callback σ) (world : World σ) (client : Program σ α) :
    Composes host name module first second inner (ofProgram world client) := by
  have nested (inner : Callback σ) :
      Callback.skipping first (.skipping second inner) = .skipping (first ++ second) inner :=
    Callback.filtering_filtering first second _ inner
  constructor
  case joined =>
    intro fuel
    rw [nested]
    refine ⟨rfl, rfl, ?_⟩
    rw [consults, consults, Event.consult?_congr name]
    simp
  case filters =>
    have behind : (host.serving name (.skipping first (.skipping second inner))).callback name =
        Callback.layering [first, second] (.done (.ok none)) inner := host.callback_serving name _
    exact filters_of_layering module behind world client
  case unheard =>
    intro other same fuel
    have unheard : Callback.skipping (first ++ second) other = .skipping (first ++ second) inner :=
      Callback.filtering_congr same
    rw [nested, nested, unheard]
    exact ⟨rfl, rfl⟩
  case empty => exact fun fuel => ⟨rfl, rfl, rfl⟩

def vendored : Blueprint := { Blueprint.one with filename := "vendor/one" }

def vendoredCall : Machine Unit Unit :=
  ofProgram ((World.single #[vendored] (.intercepting ⟨⟨0⟩⟩ 0)).storeCache ⟨⟨0⟩⟩ 0
    (.entries [⟨0, 0⟩])) (callsInTurn 2)

def refusing : Callback Unit := fun _ _ _ => .done (.error (.hosted "asked"))

def sheltered : Host Unit :=
  (Host.ofCallbacks fun _ => refusing).serving 0
    (.skipping ["lib/"] (.skipping ["vendor/"] refusing))

theorem vendored_left_alone :
    vendoredCall.world.cache ⟨⟨0⟩⟩ 0 = .entries [⟨0, 0⟩] ∧
      ∃ fuel machine, run sheltered fuel vendoredCall = .next machine ∧
        ∀ more later, run sheltered (fuel + more) vendoredCall = .next later →
          later.world.cache ⟨⟨0⟩⟩ 0 = .skip := by
  refine ⟨rfl, ?_⟩
  have filters := (skip_lists_compose (.ofCallbacks fun _ => refusing) 0 ⟨⟨0⟩⟩ ["lib/"] ["vendor/"]
    refusing vendoredCall.world (callsInTurn 2)).filters
  have orderly : ∀ machine, Transition.Meets (step sheltered) vendoredCall machine →
      machine.Orderly ⟨⟨0⟩⟩ := by
    intro machine met
    exact met.of_checked 19 rfl (by decide)
  obtain ⟨steps, evaluated, after, reached, -, -, skip, -⟩ :=
    filters.shielded 2 0 _ _ _ rfl ⟨rfl, rfl, rfl⟩ (by decide)
  exact ⟨2 + steps, _, reached, filters.stays orderly _ _ _ reached skip⟩

end Machine

end Interpose
