import Interpose.Proofs.Separation
import Mathlib.Data.List.Induction

/-! Slots as a map. A table of slots is no longer than the values set in it need, and yet it answers
for every index: with what was set there last. So a user reads back from a unit what it wrote last,
at the type it was written with, and a module reads the cache that it stored last. That holds of
every sequence of writes, and of the writes that are made in a run. -/

namespace Interpose
variable {σ α : Type}

/-- The answer of the last in a list that gives one, or another when none does. -/
def lastAnswer {β γ : Type} (answer : β → Option γ) (list : List β) (other : γ) : γ :=
  (list.filterMap answer).getLast?.getD other

theorem lastAnswer_append {β γ : Type} (answer : β → Option γ) (first second : List β) (other : γ) :
    lastAnswer answer (first ++ second) other =
      lastAnswer answer second (lastAnswer answer first other) := by
  rw [lastAnswer, List.filterMap_append, List.getLast?_append, Option.getD_or]
  rfl

theorem lastAnswer_singleton {β γ : Type} (answer : β → Option γ) (one : β) (other : γ) :
    lastAnswer answer [one] other = (answer one).getD other := by
  rw [lastAnswer]
  cases answered : answer one with
  | none => rw [List.filterMap_cons_none answered]; rfl
  | some value => rw [List.filterMap_cons_some answered]; rfl

namespace Slots

inductive Call where
  | get (index : ExtraIndex)
  | set (index : ExtraIndex) (value : Option ExtraValue)

namespace Call

def index : Call → ExtraIndex
  | .get index => index
  | .set index _ => index

/-- What a call sets at an index; nothing set is told from a slot that is cleared. -/
def setsAt? (place : ExtraIndex) : Call → Option (Option ExtraValue)
  | .get _ => none
  | .set index value => if index = place then some value else none

def needs : Call → Nat
  | .set index (some _) => index.number + 1
  | _ => 0

end Call

def lastSet (calls : List Call) (index : ExtraIndex) : Option ExtraValue :=
  lastAnswer (Call.setsAt? index) calls none

def answer (slots : Slots) : Call → Option ExtraValue × Slots
  | .get index => (slots.get index, slots)
  | .set index value => slots.exchange index value

def answers : Slots → List Call → List (Option ExtraValue)
  | _, [] => []
  | slots, call :: rest => (slots.answer call).1 :: answers (slots.answer call).2 rest

def after (slots : Slots) (calls : List Call) : Slots :=
  calls.foldl (fun slots call => (slots.answer call).2) slots

variable (slots : Slots)

theorem after_concat (calls : List Call) (call : Call) :
    slots.after (calls ++ [call]) = ((slots.after calls).answer call).2 := by
  rw [after, List.foldl_append]
  rfl

theorem answers_append (before later : List Call) :
    slots.answers (before ++ later) =
      slots.answers before ++ (slots.after before).answers later := by
  induction before generalizing slots with
  | nil => rfl
  | cons call rest ih =>
    rw [List.cons_append, answers, ih]
    rfl

theorem length_answers (calls : List Call) : (slots.answers calls).length = calls.length := by
  induction calls generalizing slots with
  | nil => rfl
  | cons call rest ih => rw [answers, List.length_cons, ih, List.length_cons]

/-- Every call is answered with what the slot at its index held before. -/
theorem fst_answer (call : Call) : (slots.answer call).1 = slots.get call.index := by
  cases call with
  | get index => rfl
  | set index value => exact slots.fst_exchange index value

theorem get_answer (call : Call) (place : ExtraIndex) :
    (slots.answer call).2.get place = (call.setsAt? place).getD (slots.get place) := by
  cases call with
  | get index => rfl
  | set index value =>
    have written := slots.get_set index place value
    rw [set] at written
    rw [answer, written, Call.setsAt?]
    by_cases same : index = place
    · rw [if_pos same, if_pos same.symm, Option.getD_some]
    · rw [if_neg same, if_neg (Ne.symm same), Option.getD_none]

theorem exchange_outside {index : ExtraIndex} (outside : slots.values.size ≤ index.number) :
    slots.exchange index none = (none, slots) := by
  rw [exchange, if_pos outside, if_pos rfl]

/-- Only to set a value makes a table longer. -/
theorem size_answer (call : Call) :
    (slots.answer call).2.values.size = max slots.values.size call.needs := by
  cases call with
  | get index => exact (Nat.max_zero _).symm
  | set index value =>
    by_cases outside : slots.values.size ≤ index.number
    · cases value with
      | none =>
        rw [answer, slots.exchange_outside outside]
        exact (Nat.max_zero _).symm
      | some value =>
        rw [answer, exchange, if_pos outside, if_neg nofun, Table.size_set]
        rfl
    · rw [answer, exchange, if_neg outside, Table.size_set]
      have inside : index.number + 1 ≤ slots.values.size := Nat.not_le.mp outside
      have needed : Call.needs (.set index value) ≤ index.number + 1 := by
        cases value with
        | none => exact Nat.zero_le _
        | some value => exact Nat.le_refl _
      omega

theorem get_after (calls : List Call) (index : ExtraIndex) :
    (({} : Slots).after calls).get index = lastSet calls index := by
  induction calls using List.reverseRecOn with
  | nil => exact Table.get_empty index.number
  | append_singleton calls call ih =>
    rw [after_concat, get_answer, ih, lastSet, lastSet, lastAnswer_append, lastAnswer_singleton]

theorem size_after (calls : List Call) :
    (({} : Slots).after calls).values.size = (calls.map Call.needs).foldl max 0 := by
  induction calls using List.reverseRecOn with
  | nil => rfl
  | append_singleton calls call ih =>
    rw [after_concat, size_answer, ih, List.map_append, List.foldl_append]
    rfl

structure ActsAsMap (calls : List Call) : Prop where
  get : ∀ index, (({} : Slots).after calls).get index = lastSet calls index
  /-- The answers, in order: to get and to set are both answered with what was set last before. -/
  answered : (({} : Slots).answers calls).length = calls.length ∧
    ∀ before call later, calls = before ++ call :: later →
      (({} : Slots).answers calls)[before.length]? = some (lastSet before call.index)
  exchanged : ∀ index value, ((({} : Slots).after calls).answer (.set index value)).1 =
    ((({} : Slots).after calls).answer (.get index)).1
  separate : ∀ call index, index ≠ call.index →
    ((({} : Slots).after calls).answer call).2.get index = (({} : Slots).after calls).get index
  /-- The table grows where a value is set behind its end, and never otherwise. -/
  size : (({} : Slots).after calls).values.size = (calls.map Call.needs).foldl max 0
  cleared : ∀ index, (({} : Slots).after calls).values.size ≤ index.number →
    (({} : Slots).after calls).answer (.set index none) = (none, ({} : Slots).after calls)

theorem actsAsMap (calls : List Call) : ActsAsMap calls where
  get := get_after calls
  answered := by
    refine ⟨length_answers _ calls, ?_⟩
    rintro before call later rfl
    have first := length_answers {} before
    rw [answers_append, List.getElem?_append_right (Nat.le_of_eq first), first, Nat.sub_self,
      answers, List.getElem?_cons_zero, fst_answer, get_after]
  exchanged index value := by rw [fst_answer, fst_answer]; rfl
  separate call index apart := by
    have unset : call.setsAt? index = none := by
      cases call with
      | get => rfl
      | set place value => exact if_neg (Ne.symm apart)
    rw [get_answer, unset, Option.getD_none]
  size := size_after calls
  cleared index outside := exchange_outside _ outside

example : ({} : Slots).answers [.set ⟨2⟩ none, .set ⟨2⟩ (some (.hosted 0 7)), .get ⟨0⟩,
    .set ⟨0⟩ (some (.hosted 1 8)), .set ⟨2⟩ none, .get ⟨0⟩, .get ⟨2⟩] =
    [none, none, none, none, some (.hosted 0 7), some (.hosted 1 8), none] := by decide

end Slots

/-- A type at which slots are written and read: a value is read back only at its own type. -/
structure ExtraType (β : Type) where
  store : β → ExtraValue
  read? : ExtraValue → Option β
  read?_eq_some : ∀ value content, read? value = some content ↔ value = store content

namespace ExtraType

def text : ExtraType String where
  store := .text
  read? := ExtraValue.text?
  read?_eq_some value content := by cases value <;> simp [ExtraValue.text?]

def number : ExtraType Int64 where
  store := .number
  read? := ExtraValue.number?
  read?_eq_some value content := by cases value <;> simp [ExtraValue.number?]

def cache : ExtraType CacheState where
  store := .cache
  read? := ExtraValue.cache?
  read?_eq_some value content := by cases value <;> simp [ExtraValue.cache?]

def hosted (type : Nat) : ExtraType Nat where
  store := .hosted type
  read? := ExtraValue.hosted? type
  read?_eq_some value content := by cases value <;> simp [ExtraValue.hosted?]

theorem bind_read?_eq_some {β : Type} (type : ExtraType β) (held? : Option ExtraValue)
    (content : β) :
    held?.bind type.read? = some content ↔ held? = some (type.store content) := by
  cases held? with
  | none => exact ⟨nofun, nofun⟩
  | some held => rw [Option.bind_some, type.read?_eq_some, Option.some.injEq]

end ExtraType

/-- A write to a slot of a unit: by a user of the slot, or by a module that stores a cache. -/
inductive SlotWrite where
  | set (code : CodeId) (index : ExtraIndex) (value : ExtraValue)
  | clear (code : CodeId) (index : ExtraIndex)
  | store (module : HookModule) (code : CodeId) (state : CacheState)

namespace SlotWrite

def place : SlotWrite → CodeId × ExtraIndex
  | .set code index _ => (code, index)
  | .clear code index => (code, index)
  | .store module code _ => (code, module.index)

def content : SlotWrite → Option ExtraValue
  | .set _ _ value => some value
  | .clear _ _ => none
  | .store _ _ state => some (.cache state)

def writesAt? (code : CodeId) (index : ExtraIndex) (write : SlotWrite) :
    Option (Option ExtraValue) :=
  if (code, index) = write.place then some write.content else none

end SlotWrite

namespace World

def write (world : World σ) : SlotWrite → World σ
  | .set code index value => world.setExtra code index (some value)
  | .clear code index => world.setExtra code index none
  | .store module code state => world.storeCache module code state

def writeAll (world : World σ) (writes : List SlotWrite) : World σ := writes.foldl write world

/-- What was written last to a slot of a unit, or what it held at first when nothing was. -/
def lastWritten (world : World σ) (writes : List SlotWrite) (code : CodeId) (index : ExtraIndex) :
    Option ExtraValue :=
  lastAnswer (SlotWrite.writesAt? code index) writes (world.extra code index)

/-- These writes, in order, lead from the slots of one state to those of another. -/
def Writes (before : World σ) (writes : List SlotWrite) (after : World σ) : Prop :=
  ∀ code index, after.extra code index = before.lastWritten writes code index

variable {before middle after : World σ}

theorem Writes.nil (same : after.extras = before.extras) : before.Writes [] after := by
  intro code index
  rw [extra, same]
  rfl

theorem Writes.append {first second : List SlotWrite} (one : before.Writes first middle)
    (other : middle.Writes second after) : before.Writes (first ++ second) after := by
  intro code index
  rw [other, lastWritten, one, lastWritten, lastWritten, lastAnswer_append]

theorem writes_write (world : World σ) (write : SlotWrite) :
    world.Writes [write] (world.write write) := by
  intro code index
  have written : world.write write =
      world.setExtra write.place.1 write.place.2 write.content := by cases write <;> rfl
  have same : (code, index) = write.place ↔ code = write.place.1 ∧ index = write.place.2 :=
    Prod.ext_iff
  rw [lastWritten, lastAnswer_singleton, written, extra_setExtra, SlotWrite.writesAt?]
  simp only [same]
  split <;> rfl

theorem writes_writeAll (world : World σ) (writes : List SlotWrite) :
    world.Writes writes (world.writeAll writes) := by
  induction writes generalizing world with
  | nil => exact .nil rfl
  | cons write rest ih => exact (world.writes_write write).append (ih (world.write write))

structure KeepsWritten (before : World σ) (writes : List SlotWrite) (after : World σ) : Prop where
  last : ∀ code index, after.extra code index = before.lastWritten writes code index
  /-- A slot that is read at a type gives what was written last, if that is of the type. -/
  typed : ∀ {β : Type} (type : ExtraType β) code index content,
    (after.extra code index).bind type.read? = some content ↔
      before.lastWritten writes code index = some (type.store content)
  cached : ∀ (module : HookModule) code state,
    before.lastWritten writes code module.index = some (.cache state) →
      after.cache module code = state
  uncached : ∀ (module : HookModule) code,
    (∀ state, before.lastWritten writes code module.index ≠ some (.cache state)) →
      after.cache module code = .empty

theorem Writes.keepsWritten {writes : List SlotWrite} (writing : before.Writes writes after) :
    before.KeepsWritten writes after := by
  have typed {β : Type} (type : ExtraType β) (code : CodeId) (index : ExtraIndex) (content : β) :
      (after.extra code index).bind type.read? = some content ↔
        before.lastWritten writes code index = some (type.store content) := by
    rw [type.bind_read?_eq_some, writing]
  refine ⟨writing, typed, ?cached, ?uncached⟩
  case cached =>
    intro module code state written
    have read := (typed .cache code module.index state).mpr written
    exact congrArg (Option.getD · .empty) read
  case uncached =>
    intro module code unwritten
    have unread : (after.extra code module.index).bind ExtraValue.cache? = none := by
      refine Option.eq_none_iff_forall_ne_some.mpr ?_
      intro state read
      exact unwritten state ((typed .cache code module.index state).mp read)
    rw [cache, unread, Option.getD_none]

end World

namespace Action

def slotWrite? : Action σ → Option SlotWrite
  | .writeExtra code index (some value) => some (.set code index value)
  | .writeExtra code index none => some (.clear code index)
  | _ => none

theorem writes_apply {world after : World σ} {action : Action σ} {reply : action.Reply}
    (applied : action.apply world = .ok (reply, after)) :
    world.Writes action.slotWrite?.toList after := by
  by_cases written : ∃ code index value?, action = .writeExtra code index value?
  · obtain ⟨code, index, value?, rfl⟩ := written
    cases applied
    cases value? with
    | none => exact world.writes_write (.clear code index)
    | some value => exact world.writes_write (.set code index value)
  · have other code index value? : action ≠ .writeExtra code index value? :=
      fun same => written ⟨code, index, value?, same⟩
    have unwritten : action.slotWrite? = none := by
      cases action with
      | writeExtra code index value? => exact absurd rfl (other code index value?)
      | _ => rfl
    rw [unwritten]
    exact .nil (extra_apply applied other)

end Action

def Role.slotWrite? : (role : Role) → role.Result α → Option SlotWrite
  | .consulted _ frame module _, .ok none => some (.store module frame.code.id .skip)
  | .consulted _ frame module cached, .ok (some replacement) =>
    some (.store module frame.code.id (cached.prepend replacement))
  | _, _ => none

namespace Machine
variable {host : Host σ} {before after : Machine σ α}

def slotWrite? (machine : Machine σ α) : Option SlotWrite :=
  match machine.control with
  | .program _ (.perform action _) => action.slotWrite?
  | .program role (.done result) => role.slotWrite? result
  | _ => none

def slotWrites (host : Host σ) : Nat → Machine σ α → List SlotWrite
  | 0, _ => []
  | fuel + 1, machine =>
    match step host machine with
    | .next after => machine.slotWrite?.toList ++ slotWrites host fuel after
    | .halt _ => []

/-- A step changes no slot but by the write that it makes. -/
theorem Move.writes (move : Move host before after) :
    before.world.Writes before.slotWrite?.toList after.world := by
  cases move with
  | performed applied => exact Action.writes_apply applied
  | missed | replaced | rejected => exact World.writes_write _ (.store _ _ _)
  | _ => exact .nil rfl

theorem writes_of_run {fuel : Nat} {start machine : Machine σ α}
    (reached : run host fuel start = .next machine) :
    start.world.Writes (slotWrites host fuel start) machine.world := by
  induction fuel generalizing start with
  | zero =>
    cases reached
    exact .nil rfl
  | succ fuel ih =>
    simp only [run, Transition.run] at reached
    cases stepped : step host start with
    | halt outcome =>
      rw [stepped] at reached
      cases reached
    | next following =>
      rw [stepped] at reached
      simp only [slotWrites, stepped]
      exact (step_eq_next_iff.mp stepped).writes.append (ih reached)

structure SlotsAreMaps (host : Host σ) (start : Machine σ α) : Prop where
  tables : ∀ calls, Slots.ActsAsMap calls
  units : ∀ writes, start.world.KeepsWritten writes (start.world.writeAll writes)
  /-- At every point of a run the slots hold what was written last, by the host's programs and by
  the modules that intercepted. -/
  runs : ∀ fuel machine, run host fuel start = .next machine →
    start.world.KeepsWritten (slotWrites host fuel start) machine.world

theorem slots_areMaps (host : Host σ) (start : Machine σ α) : SlotsAreMaps host start where
  tables := Slots.actsAsMap
  units writes := (start.world.writes_writeAll writes).keepsWritten
  runs _ _ reached := (writes_of_run reached).keepsWritten

example :
    let after := furnished.writeAll [.store ⟨⟨0⟩⟩ 0 .skip, .set 0 ⟨4⟩ (.hosted 1 8)]
    (after.extra 0 ⟨1⟩).bind ExtraType.text.read? = some "stored" ∧
      (after.extra 0 ⟨1⟩).bind ExtraType.number.read? = none ∧
      (after.extra 0 ⟨4⟩).bind (ExtraType.hosted 1).read? = some 8 ∧
      (after.extra 0 ⟨4⟩).bind (ExtraType.hosted 2).read? = none ∧
      after.cache ⟨⟨0⟩⟩ 0 = .skip ∧ after.cache ⟨⟨1⟩⟩ 0 = .empty := by decide

end Machine

end Interpose
