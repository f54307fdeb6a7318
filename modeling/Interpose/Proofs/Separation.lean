import Interpose.Proofs.Conduct
import Interpose.Proofs.Scope

/-! Users of extra slots do not get in each other's way. An interpreter hands out every index once,
in order, until none is left; and interception under a module writes no slot but the one of that
module. So what other modules know of units and what other users stored stays as it is. -/

namespace Interpose
variable {σ α : Type}

namespace ExtraRegistry

def reply (issued : Nat) : Except Fault ExtraIndex :=
  if issued < extraCapacity then .ok ⟨issued⟩ else .error (.slotsExhausted extraCapacity)

theorem reply_of_full {issued : Nat} (full : extraCapacity ≤ issued) :
    reply issued = .error (.slotsExhausted extraCapacity) :=
  if_neg (Nat.not_lt.mpr full)

theorem map_reply_of_full {issued : Nat} (full : extraCapacity ≤ issued) (count : Nat) :
    (List.range' issued count).map reply =
      List.replicate count (.error (.slotsExhausted extraCapacity)) := by
  apply List.eq_replicate_iff.mpr
  constructor
  · rw [List.length_map, List.length_range']
  · intro answer member
    obtain ⟨number, inside, rfl⟩ := List.mem_map.mp member
    have above := (List.mem_range'_1.mp inside).1
    exact reply_of_full (Nat.le_trans full above)

/-- Of so many requests in a row those are granted for which there is room. -/
theorem granted_map_reply (issued count : Nat) :
    ((List.range' issued count).map reply).filterMap Except.toOption =
      (List.range' issued (min count (extraCapacity - issued))).map ExtraIndex.mk := by
  induction count generalizing issued with
  | zero => simp
  | succ count ih =>
    rw [List.range'_succ, List.map_cons]
    by_cases room : issued < extraCapacity
    · have more : min (count + 1) (extraCapacity - issued) =
          min count (extraCapacity - (issued + 1)) + 1 := by omega
      have answered : (reply issued).toOption = some ⟨issued⟩ := by
        rw [reply, if_pos room]
        rfl
      rw [List.filterMap_cons_some answered, ih, more, List.range'_succ, List.map_cons]
    · have answered : (reply issued).toOption = none := by
        rw [reply, if_neg room]
        rfl
      have none : min (count + 1) (extraCapacity - issued) = 0 := by omega
      have noneAfter : min count (extraCapacity - (issued + 1)) = 0 := by omega
      rw [List.filterMap_cons_none answered, ih, none, noneAfter]
      rfl

end ExtraRegistry

namespace World

def issued (world : World σ) (owner : InterpreterId) : Nat :=
  (world.interpreter owner).registry.issued

theorem issued_le (world : World σ) (owner : InterpreterId) :
    world.issued owner ≤ extraCapacity :=
  (world.interpreter owner).registry.bounded

theorem requestIndex_of_room {world : World σ} {owner : InterpreterId}
    (room : world.issued owner < extraCapacity) :
    (world.requestIndex owner).1 = .ok ⟨world.issued owner⟩ ∧
      ∀ other, (world.requestIndex owner).2.issued other =
        if other = owner then world.issued owner + 1 else world.issued other := by
  have granted : (world.interpreter owner).registry.request = .ok (_, _) := dif_pos room
  simp only [requestIndex, granted]
  refine ⟨rfl, ?_⟩
  intro other
  simp only [issued, interpreter, Table.get_set]
  split <;> rfl

theorem requestIndex_of_full {world : World σ} {owner : InterpreterId}
    (full : extraCapacity ≤ world.issued owner) :
    world.requestIndex owner = (.error (.slotsExhausted extraCapacity), world) := by
  have refused : (world.interpreter owner).registry.request =
      .error (.slotsExhausted extraCapacity) := dif_neg (Nat.not_lt.mpr full)
  simp only [requestIndex, refused]

theorem requestIndex_fst (world : World σ) (owner : InterpreterId) :
    (world.requestIndex owner).1 = ExtraRegistry.reply (world.issued owner) := by
  rcases Nat.lt_or_ge (world.issued owner) extraCapacity with room | full
  · rw [(requestIndex_of_room room).1, ExtraRegistry.reply, if_pos room]
  · rw [requestIndex_of_full full, ExtraRegistry.reply_of_full full]

/-- A new interpreter has handed out nothing, and the others as much as before. -/
theorem issued_addInterpreter (world : World σ) (owner : InterpreterId) :
    world.addInterpreter.issued owner = world.issued owner := by
  simp only [issued, interpreter, interpreters_addInterpreter, Table.get_push]
  split
  next fresh =>
    rw [fresh, Table.get_of_size_le (Nat.le_refl _)]
    rfl
  next => rfl

theorem issued_interpreters_size (world : World σ) :
    world.issued world.interpreters.size = 0 := by
  rw [issued, interpreter, Table.get_of_size_le (Nat.le_refl _)]
  rfl

end World

/-- Only a request for an index has one handed out. -/
theorem Action.issued_apply {world after : World σ} {action : Action σ} {reply : action.Reply}
    {owner : InterpreterId} (applied : action.apply world = .ok (reply, after))
    (other : action ≠ .requestIndex owner) : after.issued owner = world.issued owner := by
  cases action with
  | requestIndex place =>
    have apart : owner ≠ place := fun same => other (by rw [same])
    have answered : world.requestIndex place = (reply, after) := Except.ok.inj applied
    have result : after = (world.requestIndex place).2 := congrArg Prod.snd answered.symm
    rw [result]
    rcases Nat.lt_or_ge (world.issued place) extraCapacity with room | full
    · rw [(World.requestIndex_of_room room).2, if_neg apart]
    · rw [World.requestIndex_of_full full]
  | newInterpreter =>
    cases applied
    exact world.issued_addInterpreter owner
  | build unit =>
    simp only [apply, World.build] at applied
    split at applied <;> cases applied <;> rfl
  | enter thread function arguments =>
    simp only [apply, World.enter] at applied
    split at applied <;> cases applied <;> rfl
  | install thread module callback? =>
    cases World.hooked_of_install applied
    cases callback? <;> rfl
  | _ =>
    cases applied
    rfl

theorem Action.extra_apply {world after : World σ} {action : Action σ} {reply : action.Reply}
    (applied : action.apply world = .ok (reply, after))
    (other : ∀ code index value, action ≠ .writeExtra code index value) :
    after.extras = world.extras := by
  cases action with
  | writeExtra code index value => exact absurd rfl (other code index value)
  | requestIndex owner =>
    simp only [apply, World.requestIndex] at applied
    split at applied <;> cases applied <;> rfl
  | newInterpreter =>
    cases applied
    exact world.extras_addInterpreter
  | build unit =>
    simp only [apply, World.build] at applied
    split at applied <;> cases applied <;> rfl
  | enter thread function arguments =>
    simp only [apply, World.enter] at applied
    split at applied <;> cases applied <;> rfl
  | install thread module callback? =>
    cases World.hooked_of_install applied
    cases callback? <;> rfl
  | _ =>
    cases applied
    rfl

def Role.Under (module : HookModule) : Role → Prop
  | .consulted _ _ place _ => place = module
  | _ => True

def Control.Under (module : HookModule) : Control σ α → Prop
  | .program role _ => role.Under module
  | _ => True

def Activation.Under (module : HookModule) : Activation σ α → Prop
  | .program role _ => role.Under module
  | .frame _ _ => True

namespace Machine
variable {host : Host σ} {before after machine : Machine σ α} {owner : InterpreterId}
  {module : HookModule}

def reply? (owner : InterpreterId) (machine : Machine σ α) : Option (Except Fault ExtraIndex) :=
  match machine.action? with
  | some (.requestIndex id) =>
    if id = owner then some (machine.world.requestIndex owner).1 else none
  | _ => none

def replies (host : Host σ) (owner : InterpreterId) :
    Nat → Machine σ α → List (Except Fault ExtraIndex)
  | 0, _ => []
  | fuel + 1, machine =>
    match step host machine with
    | .next after => (machine.reply? owner).toList ++ replies host owner fuel after
    | .halt _ => []

def granted (host : Host σ) (owner : InterpreterId) (fuel : Nat) (machine : Machine σ α) :
    List ExtraIndex :=
  (replies host owner fuel machine).filterMap Except.toOption

theorem reply?_of_other {machine : Machine σ α}
    (other : machine.action? ≠ some (.requestIndex owner)) : machine.reply? owner = none := by
  unfold reply?
  split
  next id requested =>
    have apart : id ≠ owner := fun same => other (by rw [requested, same])
    exact if_neg apart
  next => rfl

/-- Of all moves only a request is answered with an index, and only it changes what an interpreter
has handed out. -/
theorem Move.issued (move : Move host before after) (owner : InterpreterId) :
    (before.reply? owner = none ∧ after.world.issued owner = before.world.issued owner) ∨
    (before.reply? owner = some (ExtraRegistry.reply (before.world.issued owner)) ∧
      after.world = (before.world.requestIndex owner).2) := by
  by_cases requested : before.action? = some (.requestIndex owner)
  · right
    obtain ⟨_, stack, world⟩ := before
    obtain ⟨role, rest, control⟩ := control_of_action requested
    cases control
    cases move with
    | performed applied =>
      have answered : world.requestIndex owner = (_, _) := Except.ok.inj applied
      refine ⟨?_, congrArg Prod.snd answered.symm⟩
      rw [← World.requestIndex_fst]
      exact if_pos rfl
  · refine .inl ⟨reply?_of_other requested, ?_⟩
    cases move with
    | performed applied =>
      refine Action.issued_apply applied ?_
      intro same
      exact requested (congrArg some same)
    | _ => rfl

theorem reply?_eq {answer : Except Fault ExtraIndex}
    (answered : machine.reply? owner = some answer) :
    answer = ExtraRegistry.reply (machine.world.issued owner) := by
  unfold reply? at answered
  split at answered
  next id requested =>
    split at answered
    next same =>
      cases answered
      exact machine.world.requestIndex_fst owner
    next => cases answered
  next => cases answered

/-- When all indices are handed out, that is so from then on. -/
theorem full_of_met (full : extraCapacity ≤ before.world.issued owner)
    (met : Transition.Meets (step host) before machine) :
    extraCapacity ≤ machine.world.issued owner := by
  have kept (first second : Machine σ α) (_ : Transition.Meets (step host) before first)
      (full : extraCapacity ≤ first.world.issued owner) (move : Move host first second) :
      extraCapacity ≤ second.world.issued owner := by
    rcases move.issued owner with ⟨_, same⟩ | ⟨_, changed⟩
    · rw [same]
      exact full
    · rw [changed, World.requestIndex_of_full full]
      exact full
  exact met_keeps kept full met

theorem replies_eq (host : Host σ) (owner : InterpreterId) (fuel : Nat) (machine : Machine σ α) :
    ∃ count, replies host owner fuel machine =
      (List.range' (machine.world.issued owner) count).map ExtraRegistry.reply := by
  induction fuel generalizing machine with
  | zero => exact ⟨0, rfl⟩
  | succ fuel ih =>
    simp only [replies]
    cases stepped : step host machine with
    | halt outcome => exact ⟨0, rfl⟩
    | next after =>
      obtain ⟨count, rest⟩ := ih after
      rcases (step_eq_next_iff.mp stepped).issued owner with ⟨unasked, same⟩ | ⟨answered, changed⟩
      · refine ⟨count, ?_⟩
        dsimp only
        rw [rest, unasked, same]
        rfl
      · refine ⟨count + 1, ?_⟩
        dsimp only
        rw [rest, answered]
        rcases Nat.lt_or_ge (machine.world.issued owner) extraCapacity with room | full
        · rw [changed, (World.requestIndex_of_room room).2, if_pos rfl, List.range'_succ]
          rfl
        · -- Nothing is handed out any more, so the later answers are the same refusal.
          rw [changed, World.requestIndex_of_full full, ExtraRegistry.map_reply_of_full full,
            ExtraRegistry.map_reply_of_full full, ExtraRegistry.reply_of_full full]
          rfl

theorem granted_eq (host : Host σ) (owner : InterpreterId) (fuel : Nat) (machine : Machine σ α) :
    ∃ count, granted host owner fuel machine =
      (List.range' (machine.world.issued owner) count).map ExtraIndex.mk ∧
        machine.world.issued owner + count ≤ extraCapacity := by
  obtain ⟨count, replies⟩ := replies_eq host owner fuel machine
  refine ⟨min count (extraCapacity - machine.world.issued owner), ?_, ?_⟩
  · rw [granted, replies]
    exact ExtraRegistry.granted_map_reply _ count
  · have bound := machine.world.issued_le owner
    omega

theorem nodup_granted (host : Host σ) (owner : InterpreterId) (fuel : Nat) (machine : Machine σ α) :
    (granted host owner fuel machine).Nodup := by
  obtain ⟨count, same, _⟩ := granted_eq host owner fuel machine
  rw [same]
  apply List.Pairwise.map ExtraIndex.mk ?_ (List.nodup_range' 1)
  intro first second apart equal
  exact apart (congrArg ExtraIndex.number equal)

/-- A request is refused only when all indices are handed out. -/
theorem full_of_refused {fault : Fault} (refused : machine.reply? owner = some (.error fault)) :
    extraCapacity ≤ machine.world.issued owner ∧ fault = .slotsExhausted extraCapacity := by
  have reply := reply?_eq refused
  rcases Nat.lt_or_ge (machine.world.issued owner) extraCapacity with room | full
  · rw [ExtraRegistry.reply, if_pos room] at reply
    cases reply
  · rw [ExtraRegistry.reply_of_full full] at reply
    cases reply
    exact ⟨full, rfl⟩

theorem Move.unchanged_of_refused {fault : Fault} (move : Move host before after)
    (refused : before.reply? owner = some (.error fault)) : after.world = before.world := by
  obtain ⟨full, _⟩ := full_of_refused refused
  rcases move.issued owner with ⟨unasked, _⟩ | ⟨_, changed⟩
  · cases unasked.symm.trans refused
  · rw [changed, World.requestIndex_of_full full]

structure Under (module : HookModule) (machine : Machine σ α) : Prop where
  control : machine.control.Under module
  stack : ∀ activation ∈ machine.stack, activation.Under module

def InterceptsUnder (module : HookModule) (machine : Machine σ α) : Prop :=
  ∀ id frame place, machine.control = .enter id (.intercept frame) →
    (machine.world.thread id).module? = some place → place = module

theorem Move.under (move : Move host before after) (under : before.Under module)
    (only : before.InterceptsUnder module) : after.Under module := by
  refine ⟨?running, ?waiting⟩
  case waiting =>
    intro activation member
    rcases move.waiting member with below | ⟨_, _, rfl⟩ | ⟨_, _, _, _, launches, rfl⟩
    · exact under.stack activation below
    · trivial
    · have above := under.control
      rw [launches] at above
      exact above
  case running =>
    cases move with
    | asked installed present wanted => exact only _ _ _ rfl installed
    | replied => exact under.stack _ List.mem_cons_self
    | performed applied => exact under.control
    | _ => trivial

private theorem extra_commit {world : World σ} {id : ThreadId} {place : HookModule} {unit : CodeId}
    {state : CacheState} {index : ExtraIndex} (apart : index ≠ place.index) (code : CodeId) :
    ((world.storeCache place unit state).setDispatch id .intercept).extra code index =
      world.extra code index := by
  rw [World.extra_setDispatch, World.storeCache, World.extra_setExtra, if_neg]
  intro same
  exact apart same.2

/-- A step writes no slot but the one of the module. -/
theorem Move.extra_eq (move : Move host before after) (under : before.Under module)
    (unwritten : ∀ code index value, before.action? ≠ some (.writeExtra code index value))
    (code : CodeId) {index : ExtraIndex} (apart : index ≠ module.index) :
    after.world.extra code index = before.world.extra code index := by
  cases move with
  | missed | replaced | rejected =>
    obtain rfl := under.control
    exact extra_commit apart code
  | performed applied =>
    have same := Action.extra_apply applied fun unit place value written =>
      unwritten unit place value (congrArg some written)
    simp only [World.extra, same]
  | _ => rfl

/-- A run intercepts under one module only, and no program writes a slot itself. -/
structure Confined (host : Host σ) (start : World σ) (program : Program σ α)
    (module : HookModule) : Prop where
  only : ∀ machine, Transition.Meets (step host) (ofProgram start program) machine →
    machine.InterceptsUnder module
  unwritten : ∀ machine, Transition.Meets (step host) (ofProgram start program) machine →
    ∀ code index value, machine.action? ≠ some (.writeExtra code index value)

structure Walled (start : World σ) (module : HookModule) (machine : Machine σ α) : Prop where
  under : machine.Under module
  slots : ∀ code index, index ≠ module.index →
    machine.world.extra code index = start.extra code index

theorem Confined.walled {start : World σ} {program : Program σ α}
    (confined : Confined host start program module)
    (met : Transition.Meets (step host) (ofProgram start program) machine) :
    machine.Walled start module := by
  refine met_keeps ?step ?start met
  case start =>
    exact ⟨⟨trivial, fun _ member => absurd member List.not_mem_nil⟩, fun _ _ _ => rfl⟩
  case step =>
    intro before after reached walled move
    refine ⟨move.under walled.under (confined.only before reached), ?_⟩
    intro code index apart
    rw [move.extra_eq walled.under (confined.unwritten before reached) code apart]
    exact walled.slots code index apart

structure KeptApart (host : Host σ) (start : World σ) (program : Program σ α)
    (owner : InterpreterId) : Prop where
  /-- The requests of plain users and of modules, in whatever order, are answered with one index
  after the other, and with a refusal when all have been handed out. -/
  answered : ∀ fuel, ∃ count, replies host owner fuel (ofProgram start program) =
    (List.range' (start.issued owner) count).map ExtraRegistry.reply
  granted : ∀ fuel, ∃ count, Machine.granted host owner fuel (ofProgram start program) =
    (List.range' (start.issued owner) count).map ExtraIndex.mk ∧
      start.issued owner + count ≤ extraCapacity
  distinct : ∀ fuel, (Machine.granted host owner fuel (ofProgram start program)).Nodup
  /-- A request that is refused changes nothing, and every later one is refused as well. -/
  refused : ∀ machine after fault,
    Transition.Meets (step host) (ofProgram start program) machine →
    machine.reply? owner = some (.error fault) → Move host machine after →
    after.world = machine.world ∧
      ∀ later answer, Transition.Meets (step host) after later →
        later.reply? owner = some answer → answer = .error fault
  /-- A new interpreter has handed out nothing, so that its users get the indices from zero on. -/
  fresh : start.addInterpreter.issued start.interpreters.size = 0
  /-- A module is loaded with the index that a request is answered with. -/
  loaded : Transition.Ends (step host) (ofProgram start (Program.loadModule owner))
    (.finished ((ExtraRegistry.reply (start.issued owner)).map HookModule.mk)
      (start.requestIndex owner).2)
  /-- The slots of all units at other indices are as they were: no other module sees another cache,
  and no user another value. -/
  separate : ∀ module, Confined host start program module → ∀ machine,
    Transition.Meets (step host) (ofProgram start program) machine →
    (∀ code index, index ≠ module.index →
      machine.world.extra code index = start.extra code index) ∧
    ∀ other code, other ≠ module → machine.world.cache other code = start.cache other code

/-- Whatever a program does, the users of extra slots are kept apart. -/
theorem users_keptApart (host : Host σ) (start : World σ) (program : Program σ α)
    (owner : InterpreterId) : KeptApart host start program owner := by
  refine ⟨fun fuel => replies_eq host owner fuel _, fun fuel => granted_eq host owner fuel _,
    fun fuel => nodup_granted host owner fuel _, ?refused, ?fresh, ?loaded, ?separate⟩
  case refused =>
    intro machine after fault met refused move
    refine ⟨move.unchanged_of_refused refused, ?_⟩
    intro later answer reached asked
    obtain ⟨full, rfl⟩ := full_of_refused refused
    have still := full_of_met full (reached.head move.step_eq)
    rw [reply?_eq asked, ExtraRegistry.reply_of_full still]
  case fresh => rw [World.issued_addInterpreter, World.issued_interpreters_size]
  case loaded =>
    rw [← World.requestIndex_fst]
    exact ⟨2, rfl⟩
  case separate =>
    intro module confined machine met
    have kept := (confined.walled met).slots
    refine ⟨kept, ?_⟩
    intro other code apart
    have place : other.index ≠ module.index := by
      intro same
      apply apart
      cases other
      cases module
      exact congrArg HookModule.mk same
    simp only [World.cache, kept code other.index place]

end Machine

/-- Programs that write no slot themselves and install no module but one. -/
def Conduct.under (module : HookModule) : Conduct σ where
  performs
    | .writeExtra _ _ _ => False
    | .install _ place (some _) => place = module
    | _ => True
  launches _ _ := True

namespace Machine
variable {host : Host σ} {module : HookModule}

/-- The threads on which a hook was ever installed keep this module. -/
def KeepsOnly (module : HookModule) (machine : Machine σ α) : Prop :=
  ∀ id place, (machine.world.hook id).module? = some place → place = module

private theorem Move.keepsOnly {before after : Machine σ α} (move : Move host before after)
    (follows : before.Follows (.under module)) (keeps : before.KeepsOnly module) :
    after.KeepsOnly module := by
  intro id place held
  by_cases installed : ∃ other callback?, before.action? = some (.install id other callback?)
  · obtain ⟨other, callback?, requested⟩ := installed
    have permitted := follows.performs requested
    obtain ⟨_, stack, world⟩ := before
    obtain ⟨role, rest, control⟩ := control_of_action requested
    cases control
    cases move with
    | performed applied =>
      cases World.hooked_of_install applied
      rw [World.hook_hooked, if_pos rfl] at held
      cases callback? with
      | none => exact keeps id place held
      | some callback =>
        cases held
        exact permitted
  · have kept := move.hook_kept fun other callback? same => installed ⟨other, callback?, same⟩
    rw [kept.1] at held
    exact keeps id place held

theorem confined_of_follows {start : World σ} {program : Program σ α}
    (client : program.Follows (.under module)) (served : host.Follows (.under module))
    (keeps : (ofProgram start program).KeepsOnly module) :
    Confined host start program module where
  only := by
    intro machine met id frame place _ installed
    have kept : machine.KeepsOnly module := by
      refine met_keeps ?_ ?_ met
      · intro before after reached keeps move
        exact move.keepsOnly (follows_of_met client served reached) keeps
      · exact keeps
    exact kept id place installed
  unwritten := by
    intro machine met code index value next
    exact (follows_of_met client served met).performs next

def furnished : World Unit :=
  (World.single #[.one] (.intercepting ⟨⟨0⟩⟩ 0)).setExtra 0 ⟨1⟩ (some (.text "stored"))

def requestingCall : Program Unit (Except Fault Value) := do
  let _ ← Program.act (.requestIndex 0)
  Program.run 0 (.call (.function .first) [])

theorem furnished_keptApart :
    Confined passive furnished requestingCall ⟨⟨0⟩⟩ ∧
      KeptApart passive furnished requestingCall 0 := by
  refine ⟨confined_of_follows ?client ?served ?keeps, users_keptApart _ _ _ _⟩
  case client => exact ⟨trivial, fun _ => ⟨trivial, fun _ => trivial⟩⟩
  case served => exact Host.follows_ofCallbacks fun _ _ _ _ => trivial
  case keeps =>
    intro id place held
    match id with
    | 0 =>
      cases held
      rfl
    | id + 1 =>
      have absent : (furnished.hook (id + 1)).module? = none := rfl
      cases absent.symm.trans held

end Machine

end Interpose
