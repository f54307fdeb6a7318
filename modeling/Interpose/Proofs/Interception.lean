import Interpose.Proofs.Soundness

/-! An engine in which a thread intercepts, beside the same engine in which it does not. They stay
alike while both do the same, and when a callback of the first makes things of its own and changes
nothing that was there. -/

namespace Interpose
variable {σ : Type}

namespace Table
variable {α : Type} [Inhabited α] {before after : Table α}

/-- All rows that were there are there unchanged; there may be more. -/
structure Keeps (before after : Table α) : Prop where
  size : before.size ≤ after.size
  rows : ∀ index < before.size, after.get index = before.get index

theorem Keeps.refl (table : Table α) : table.Keeps table := ⟨Nat.le_refl _, fun _ _ => rfl⟩

theorem Keeps.push (table : Table α) (row : α) : table.Keeps (table.push row) where
  size := by rw [size_push]; exact Nat.le_succ _
  rows index inside := by rw [get_push, if_neg (Nat.ne_of_lt inside)]

end Table

/-- What one engine has beyond the other's numbers gets numbers of its own. -/
def Renaming.widen (names : Renaming) (after : World σ) : Renaming where
  units := names.units.widen after.heap.codes.size
  cells := names.cells.widen after.heap.cells.size
  spaces := names.spaces.widen after.heap.namespaces.size
  functions := names.functions.widen after.heap.functions
  interpreters := names.interpreters.widen after.interpreters.size
  threads := names.threads.widen after.threads.size

theorem Renaming.within_widen (names : Renaming) (after : World σ) :
    names.Within (names.widen after) := ⟨id, id, id, id, id, id⟩

def View.beside (module : HookModule) (shared : Sharing σ) : View σ where
  slots index := index ≠ module.index
  shared := shared

namespace World

/-- Nothing that was there in an engine is changed, and the host has the same as before to share with
another. -/
structure Unaltered (shared : Sharing σ) (before after : World σ) : Prop where
  units : before.heap.codes.Keeps after.heap.codes
  cells : before.heap.cells.Keeps after.heap.cells
  spaces : before.heap.namespaces.Keeps after.heap.namespaces
  functions : before.heap.functions ≤ after.heap.functions
  interpreters : before.interpreters.Keeps after.interpreters
  threads : before.threads.Keeps after.threads
  slots : ∀ code, code < before.heap.codes.size ∨ after.heap.codes.size ≤ code → ∀ index,
    after.extra code index = before.extra code index
  host : ∀ {names state}, shared.related names state before.host →
    shared.related names state after.host

theorem Unaltered.builtins {shared : Sharing σ} {before after : World σ}
    (unaltered : before.Unaltered shared after) {id : ThreadId} (known : id < before.threads.size)
    (owned : (before.thread id).interpreter < before.interpreters.size) :
    after.builtins id = before.builtins id := by
  have thread : after.thread id = before.thread id := unaltered.threads.rows id known
  have owner : after.interpreter (before.thread id).interpreter =
      before.interpreter (before.thread id).interpreter := unaltered.interpreters.rows _ owned
  rw [World.builtins, World.builtins, thread, owner]

private theorem there_widen {naming : Naming} {count more : Nat} (there : naming.there = count)
    (grown : count ≤ more) : (naming.widen more).there = more := by
  subst there
  exact Nat.max_eq_right grown

private theorem matches_unaltered {shared : Sharing σ} {names : Renaming} {heap : Heap}
    {before after : World σ} (matched : heap.Matches names before.heap)
    (unaltered : before.Unaltered shared after) :
    heap.Matches (names.widen after) after.heap := by
  have within := names.within_widen after
  have sized := matched.sized
  constructor
  case sized =>
    exact ⟨⟨sized.units.1, there_widen sized.units.2 unaltered.units.size⟩,
      ⟨sized.cells.1, there_widen sized.cells.2 unaltered.cells.size⟩,
      ⟨sized.spaces.1, there_widen sized.spaces.2 unaltered.spaces.size⟩,
      ⟨sized.functions.1, there_widen sized.functions.2 unaltered.functions⟩⟩
  case units =>
    intro a b named
    have known : b < before.heap.codes.size := sized.units.2 ▸ (names.units.bound named).2
    rw [unaltered.units.rows b known]
    exact (matched.units named).mono within
  case checked => exact matched.checked
  case cells =>
    intro a b named
    have known : b < before.heap.cells.size := sized.cells.2 ▸ (names.cells.bound named).2
    rw [Heap.cell?, Heap.cell?, unaltered.cells.rows b known]
    exact relOption_mono (matched.cells named) within
  case spaces =>
    intro a b named name
    have known : b < before.heap.namespaces.size := sized.spaces.2 ▸ (names.spaces.bound named).2
    rw [Heap.names, Heap.names, unaltered.spaces.rows b known]
    exact relOption_mono (matched.spaces named name) within

/-- An engine stays the same as another while nothing that was there is changed. -/
theorem Renamed.unaltered {view : View σ} {names : Renaming} {first before after : World σ}
    (same : first.Renamed view names before) (unaltered : before.Unaltered view.shared after) :
    first.Renamed view (names.widen after) after := by
  have within := names.within_widen after
  have units := same.heap.sized.units.2
  have sized := same.sized
  constructor
  case heap => exact matches_unaltered same.heap unaltered
  case sized =>
    exact ⟨⟨sized.interpreters.1, there_widen sized.interpreters.2 unaltered.interpreters.size⟩,
      ⟨sized.threads.1, there_widen sized.threads.2 unaltered.threads.size⟩⟩
  case interpreters =>
    intro a b named
    have known : b < before.interpreters.size :=
      sized.interpreters.2 ▸ (names.interpreters.bound named).2
    rw [interpreter, interpreter, unaltered.interpreters.rows b known]
    exact (same.interpreters named).mono within
  case threads =>
    intro a b named
    have known : b < before.threads.size := sized.threads.2 ▸ (names.threads.bound named).2
    rw [thread, thread, unaltered.threads.rows b known]
    exact (same.threads named).mono within
  case slots =>
    intro a b named index shown
    have known : b < before.heap.codes.size := units ▸ (names.units.bound named).2
    rw [unaltered.slots b (.inl known)]
    exact renamedExtra_mono (same.slots named index shown) within
  case unbuilt =>
    intro index shown
    have empty := same.unbuilt index shown
    have last : (names.widen after).units.there = after.heap.codes.size :=
      there_widen units unaltered.units.size
    refine ⟨empty.1, fun b later => ?_⟩
    rw [last] at later
    rw [unaltered.slots b (.inr later)]
    exact empty.2 b (units ▸ Nat.le_trans unaltered.units.size later)
  case host => exact view.shared.mono within (unaltered.host same.host)

end World

namespace World

structure Rehooked (before after : World σ) : Prop where
  heap : after.heap = before.heap
  extras : after.extras = before.extras
  interpreters : after.interpreters = before.interpreters
  size : after.threads.size = before.threads.size
  threads : ∀ id, (after.thread id).interpreter = (before.thread id).interpreter ∧
    (after.thread id).depth = (before.thread id).depth ∧
    (after.thread id).limit = (before.thread id).limit
  host : after.host = before.host

theorem Rehooked.refl (world : World σ) : world.Rehooked world :=
  ⟨rfl, rfl, rfl, rfl, fun _ => ⟨rfl, rfl, rfl⟩, rfl⟩

theorem rehooked_setDispatch {world : World σ} {id : ThreadId} (known : id < world.threads.size)
    (dispatch : Dispatch) : world.Rehooked (world.setDispatch id dispatch) where
  heap := rfl
  extras := rfl
  interpreters := rfl
  size := by
    rw [World.setDispatch, World.setThread, Table.size_set]
    exact Nat.max_eq_left known
  threads other := by
    rw [thread_setDispatch]
    split
    next here =>
      subst here
      exact ⟨rfl, rfl, rfl⟩
    next => exact ⟨rfl, rfl, rfl⟩
  host := rfl

end World

namespace World.Renamed
variable {view : View σ} {names : Renaming} {first second : World σ}

private theorem rehooked (same : first.Renamed view names second) {after beside : World σ}
    (here : first.Rehooked after) (there : second.Rehooked beside) :
    after.Renamed view names beside := by
  have sized := same.sized
  constructor
  case heap =>
    rw [here.heap, there.heap]
    exact same.heap
  case sized =>
    constructor
    · rw [here.interpreters, there.interpreters]
      exact sized.interpreters
    · rw [here.size, there.size]
      exact sized.threads
  case interpreters =>
    intro a b named
    rw [interpreter, interpreter, here.interpreters, there.interpreters]
    exact same.interpreters named
  case threads =>
    intro a b named
    obtain ⟨owner, depth, limit⟩ := here.threads a
    obtain ⟨alsoOwner, alsoDepth, alsoLimit⟩ := there.threads b
    have thread := same.threads named
    constructor
    · rw [owner, alsoOwner]
      exact thread.interpreter
    · rw [depth, alsoDepth, thread.depth]
    · rw [limit, alsoLimit, thread.limit]
  case slots =>
    intro a b named index shown
    rw [extra, extra, here.extras, there.extras]
    exact same.slots named index shown
  case unbuilt =>
    intro index shown
    simp only [extra, here.extras, there.extras]
    exact same.unbuilt index shown
  case host =>
    rw [here.host, there.host]
    exact same.host

private theorem overwritten (same : first.Renamed view names second) {index : ExtraIndex}
    (hidden : ¬view.slots index) (code : CodeId) (value : Option ExtraValue) :
    first.Renamed view names (second.setExtra code index value) := by
  have kept (unit : CodeId) {place : ExtraIndex} (shown : view.slots place) :
      (second.setExtra code index value).extra unit place = second.extra unit place := by
    have apart : ¬(unit = code ∧ place = index) := fun written => hidden (written.2 ▸ shown)
    rw [extra_setExtra, if_neg apart]
  constructor
  case heap => exact same.heap
  case sized => exact ⟨same.sized.interpreters, same.sized.threads⟩
  case interpreters => exact same.interpreters
  case threads => exact same.threads
  case slots =>
    intro a b named place shown
    rw [kept b shown]
    exact same.slots named place shown
  case unbuilt =>
    intro place shown
    refine ⟨(same.unbuilt place shown).1, fun b later => ?_⟩
    rw [kept b shown]
    exact (same.unbuilt place shown).2 b later
  case host => exact same.host

end World.Renamed

/-- A thread that intercepts under a module with a callback, and what the states of the host have in
common with and without it. -/
structure Interception (σ : Type) where
  thread : ThreadId
  module : HookModule
  callback : CallbackId
  shared : Sharing σ

abbrev Interception.view (watch : Interception σ) : View σ := .beside watch.module watch.shared

namespace World

theorem hook_of_size_le {world : World σ} {id : ThreadId} (outside : world.threads.size ≤ id) :
    world.hook id = ⟨.default, none, none⟩ := by
  rw [hook, thread, Table.get_of_size_le outside]
  rfl

/-- Two engines, one of which intercepts where the other does not. They are the same but for that, as
far as the first goes: under a renaming that leaves all that was there at the start as it is, and
without the slots of the module. -/
structure Alike (watch : Interception σ) (start : World σ) (names : Renaming)
    (plain hooked : World σ) : Prop where
  kept : start.names.Within names
  same : plain.Renamed watch.view names hooked
  inside : watch.thread < start.threads.size
  off : plain.hook watch.thread = ⟨.default, some watch.module, some watch.callback⟩
  hooks : ∀ {a b}, names.threads.maps a b → hooked.hook b =
    if a = watch.thread then { plain.hook a with dispatch := .intercept } else plain.hook a
  /-- No thread that was made since the start intercepts. -/
  new : ∀ a, start.threads.size ≤ a → (plain.hook a).dispatch = .default

namespace Alike
variable {watch : Interception σ} {start plain hooked : World σ} {names : Renaming}

/-- A sound engine is alike the one in which interception is off. -/
theorem of_intercepts {world : World σ} (sound : world.Sound)
    (state : watch.shared.related world.names world.host world.host)
    (intercepts : world.Intercepts watch.thread watch.module watch.callback) :
    Alike watch world world.names (world.setDispatch watch.thread .default) world := by
  have on : world.hook watch.thread = ⟨.intercept, some watch.module, some watch.callback⟩ := by
    rw [World.hook, Thread.hook, intercepts.dispatch, intercepts.module, intercepts.callback]
  have inside : watch.thread < world.threads.size := by
    refine Nat.lt_of_not_le fun outside => ?_
    cases on.symm.trans (hook_of_size_le outside)
  constructor
  case kept => exact .refl _
  case same =>
    have seen : world.Renamed watch.view world.names world :=
      { sound with
        slots := fun named index _ => sound.slots named index trivial
        unbuilt := fun index _ => sound.unbuilt index trivial
        host := state }
    exact seen.rehooked (rehooked_setDispatch inside .default) (.refl world)
  case inside => exact inside
  case off => rw [hook_setDispatch, if_pos rfl, on]
  case hooks =>
    rintro a b ⟨rfl, _⟩
    rw [hook_setDispatch]
    split
    next here => rw [here, on]
    next => rfl
  case new =>
    intro a later
    rw [hook_setDispatch, if_neg (Nat.ne_of_gt (Nat.lt_of_lt_of_le inside later)),
      hook_of_size_le later]

theorem thread (alike : Alike watch start names plain hooked) :
    names.threads.maps watch.thread watch.thread :=
  alike.kept.threads ⟨rfl, alike.inside⟩

/-- What the interceptor takes for the builtins of its thread after a consult are the ones of before. -/
theorem builtins_consulted {after : World σ} (alike : Alike watch start names plain hooked)
    (unaltered : (hooked.setDispatch watch.thread .default).Unaltered watch.shared after) :
    after.builtins watch.thread = hooked.builtins watch.thread := by
  have sized := alike.same.sized
  have owner := (names.interpreters.bound (alike.same.threads alike.thread).interpreter).2
  have known : watch.thread < (hooked.setDispatch watch.thread .default).threads.size := by
    rw [setDispatch, setThread, Table.size_set]
    exact Nat.lt_of_lt_of_le (Nat.lt_succ_self _) (Nat.le_max_right _ _)
  rw [unaltered.builtins known, builtins_setDispatch]
  rw [thread_setDispatch, if_pos rfl]
  exact sized.interpreters.2 ▸ owner

theorem threads_le (alike : Alike watch start names plain hooked) :
    start.threads.size ≤ names.threads.here := by
  refine Nat.le_of_not_lt fun fewer => ?_
  have named : names.threads.maps names.threads.here names.threads.here :=
    alike.kept.threads ⟨rfl, fewer⟩
  exact Nat.lt_irrefl _ (names.threads.bound named).1

theorem hook (alike : Alike watch start names plain hooked) :
    hooked.hook watch.thread = ⟨.intercept, some watch.module, some watch.callback⟩ := by
  rw [alike.hooks alike.thread, if_pos rfl, alike.off]

theorem intercepts (alike : Alike watch start names plain hooked) :
    hooked.Intercepts watch.thread watch.module watch.callback :=
  ⟨congrArg Hook.dispatch alike.hook, congrArg Hook.module? alike.hook,
    congrArg Hook.callback? alike.hook⟩

/-- What leaves the hooks alone and otherwise keeps the two engines the same keeps them alike. -/
theorem grow (alike : Alike watch start names plain hooked) {wider : Renaming}
    {after beside : World σ} (grows : names.Grows wider)
    (same : after.Renamed watch.view wider beside)
    (first : ∀ a, after.hook a = plain.hook a) (second : ∀ b, beside.hook b = hooked.hook b) :
    Alike watch start wider after beside := by
  constructor
  case kept =>
    have within := grows.within
    exact alike.kept.trans within
  case same => exact same
  case inside => exact alike.inside
  case off => rw [first, alike.off]
  case hooks =>
    intro a b named
    rw [first, second]
    rcases grows.threads.maps_cases named with old | ⟨here, there⟩
    · exact alike.hooks old
    · have known := (names.threads.bound alike.thread).1
      rw [if_neg (Nat.ne_of_gt (Nat.lt_of_lt_of_le known here))]
      rw [alike.same.sized.threads.1] at here
      rw [alike.same.sized.threads.2] at there
      rw [hook_of_size_le here, hook_of_size_le there]
  case new =>
    intro a later
    rw [first]
    exact alike.new a later

theorem edit (alike : Alike watch start names plain hooked) {edits others : List HeapEdit}
    {after : Renaming} (edited : RenamedEdits names edits others after) :
    Alike watch start after (plain.edit edits) (hooked.edit others) :=
  alike.grow edited.grows (alike.same.edit edited) (fun _ => rfl) fun _ => rfl

theorem setDepth (alike : Alike watch start names plain hooked) {a b : ThreadId}
    (named : names.threads.maps a b) (depth : Nat) :
    Alike watch start names (plain.setThread a { plain.thread a with depth })
      (hooked.setThread b { hooked.thread b with depth }) :=
  alike.grow (.refl names) (alike.same.setDepth named depth)
    (fun other => plain.hook_setDepth a other depth) fun other => hooked.hook_setDepth b other depth

theorem leave (alike : Alike watch start names plain hooked) {a b : ThreadId}
    (named : names.threads.maps a b) :
    Alike watch start names (Machine.leave plain a) (Machine.leave hooked b) :=
  alike.grow (.refl names) (alike.same.leave named) (plain.hook_leave a) (hooked.hook_leave b)

/-- A consult changes nothing but the cache of the unit it was about. -/
theorem consulted {after : World σ} (alike : Alike watch start names plain hooked)
    (unaltered : (hooked.setDispatch watch.thread .default).Unaltered watch.shared after)
    (code : CodeId) (state : CacheState) :
    Alike watch start (names.widen after) plain
      ((after.storeCache watch.module code state).setDispatch watch.thread .intercept) := by
  have thread := alike.thread
  have known : watch.thread < hooked.threads.size :=
    alike.same.sized.threads.2 ▸ (names.threads.bound thread).2
  have disabled := rehooked_setDispatch known .default
  have size := disabled.size
  have still {b : ThreadId} (there : b < hooked.threads.size) :
      after.hook b = (hooked.setDispatch watch.thread .default).hook b := by
    rw [World.hook, World.thread, unaltered.threads.rows b (size ▸ there)]
    rfl
  constructor
  case kept =>
    have within := names.within_widen after
    exact alike.kept.trans within
  case same =>
    have consulted := (alike.same.rehooked (.refl plain) disabled).unaltered unaltered
    have hidden : ¬watch.view.slots watch.module.index := fun shown => shown rfl
    have stored := consulted.overwritten hidden code (some (.cache state))
    have remains : watch.thread < (after.storeCache watch.module code state).threads.size :=
      Nat.lt_of_lt_of_le (size ▸ known) unaltered.threads.size
    exact stored.rehooked (.refl plain) (rehooked_setDispatch remains .intercept)
  case inside => exact alike.inside
  case off => exact alike.off
  case hooks =>
    intro a b named
    have there : b < hooked.threads.size :=
      alike.same.sized.threads.2 ▸ (names.threads.bound named).2
    have stored (other : ThreadId) :
        (after.storeCache watch.module code state).hook other = after.hook other := rfl
    have paired := names.threads.oneToOne named thread
    rw [hook_setDispatch, stored, stored, still known, still there, hook_setDispatch,
      hook_setDispatch, if_pos rfl]
    by_cases here : a = watch.thread
    · rw [if_pos here, if_pos (paired.mp here), here, alike.hook, alike.off]
    · have apart : b ≠ watch.thread := fun there => here (paired.mpr there)
      rw [if_neg apart, if_neg apart, alike.hooks named]
  case new => exact alike.new

end Alike

end World

end Interpose
