import Mathlib.Data.List.Induction
import Interpose.Proofs.Conduct

/-! When the cache of a unit moves forward only. A callback may cause interception while it runs,
on its own thread or on another, so a consult of a unit can begin and end inside another one. The
answer of the outer consult is added to what was cached when it began. Nothing is lost exactly when
every replacement is answered while the cache still holds what its consult read. -/

namespace Interpose.Crew
variable {σ α : Type}

/-- The cache of a unit never moves backwards while a schedule runs. -/
structure Advances (host : Host σ) (crew : Crew σ α) (schedule : List Nat) (module : HookModule)
    (code : CodeId) : Prop where
  /-- As long as the unit is not left alone, its cache holds what it held at first, and then every
  replacement that was committed since, in order. -/
  committed : ∀ past, past <+: schedule →
    ((crew.run host past).world.cache module code).isSkip = false →
    ((crew.run host past).world.cache module code).oldestFirst =
      (crew.world.cache module code).oldestFirst ++ hits module code (crew.history host past)
  /-- A unit that is left alone stays so, and no callback is asked about it again. -/
  terminal : ∀ past later, past ++ later <+: schedule →
    ((crew.run host past).world.cache module code).isSkip = true →
    ((crew.run host (past ++ later)).world.cache module code).isSkip = true ∧
      ∀ event ∈ (crew.run host past).history host later, event.asks module code = false

/-- Every replacement for a unit is answered while its cache holds what the consult read. -/
def Undisturbed (host : Host σ) (crew : Crew σ α) (schedule : List Nat) (module : HookModule)
    (code : CodeId) : Prop :=
  ∀ past index, past ++ [index] <+: schedule → ∀ id frame cached replacement stack,
    (crew.run host past).member? index =
      some ⟨.program (.consulted id frame module cached) (.done (.ok (some replacement))), stack,
        (crew.run host past).world⟩ →
    frame.code.id = code →
    ((crew.run host past).world.cache module code).isSkip = false ∧
      ((crew.run host past).world.cache module code).oldestFirst = cached.oldestFirst

/-- No step of a schedule writes the slot of a unit past the interceptor. -/
def Leaves (host : Host σ) (crew : Crew σ α) (schedule : List Nat) (module : HookModule)
    (code : CodeId) : Prop :=
  ∀ past index, past ++ [index] <+: schedule → ∀ machine,
    (crew.run host past).member? index = some machine → machine.Leaves module code

@[simp] theorem oldestFirst_prepend (state : CacheState) (replacement : Replacement) :
    (state.prepend replacement).oldestFirst = state.oldestFirst ++ [replacement] := rfl

private theorem cache_advance {host : Host σ} {crew : Crew σ α} {index : Nat}
    {module : HookModule} {code : CodeId}
    (leaves : ∀ machine, crew.member? index = some machine → machine.Leaves module code) :
    ((crew.advance host index).world.cache module code = crew.world.cache module code ∧
      hits module code (crew.shown host index) = []) ∨
    ((crew.advance host index).world.cache module code = .skip) ∨
    ∃ id frame cached replacement stack,
      crew.member? index =
        some ⟨.program (.consulted id frame module cached) (.done (.ok (some replacement))), stack,
          crew.world⟩ ∧
      frame.code.id = code ∧
      (crew.advance host index).world.cache module code = cached.prepend replacement ∧
      hits module code (crew.shown host index) = [replacement] := by
  rcases advance_cases host crew index with ⟨same, silent⟩ | ⟨machine, after, present, move, world, shown⟩
  · rw [same, silent]
    exact .inl ⟨rfl, rfl⟩
  have cached := move.cache_eq (leaves machine present)
  have sameWorld := member?_world present
  rw [world, shown, cached]
  rcases machine.commit_cases module code with
    ⟨commit, hit, _⟩ | ⟨commit, _⟩ | ⟨id, frame, old, replacement, control, unit, commit, hit, _⟩
  · rw [commit, hit, Option.getD_none, sameWorld]
    exact .inl ⟨rfl, rfl⟩
  · rw [commit]
    exact .inr (.inl rfl)
  · obtain ⟨_, stack, _⟩ := machine
    cases control
    cases sameWorld
    rw [commit, hit]
    exact .inr (.inr ⟨id, frame, old, replacement, stack, present, unit, rfl, rfl⟩)

private theorem asks_shown {host : Host σ} {crew : Crew σ α} {index : Nat} {module : HookModule}
    {code : CodeId} (skip : (crew.world.cache module code).isSkip = true) :
    ∀ event ∈ crew.shown host index, event.asks module code = false := by
  rcases advance_cases host crew index with ⟨_, silent⟩ | ⟨machine, after, present, move, _, shown⟩
  · simp [silent]
  rw [shown]
  intro event member
  have seen : machine.event? = some event := Option.mem_toList.mp member
  cases asks : event.asks module code with
  | false => rfl
  | true =>
    have wanted := Machine.wanted_of_asks seen asks
    rw [member?_world present, skip] at wanted
    cases wanted

private theorem prefix_of_snoc {past schedule : List Nat} {index : Nat}
    (within : past ++ [index] <+: schedule) : past <+: schedule :=
  (List.prefix_append past [index]).trans within

private theorem committed_of_undisturbed {host : Host σ} {crew : Crew σ α} {schedule : List Nat}
    {module : HookModule} {code : CodeId} (leaves : crew.Leaves host schedule module code)
    (undisturbed : crew.Undisturbed host schedule module code) (past : List Nat)
    (within : past <+: schedule)
    (wanted : ((crew.run host past).world.cache module code).isSkip = false) :
    ((crew.run host past).world.cache module code).oldestFirst =
      (crew.world.cache module code).oldestFirst ++ hits module code (crew.history host past) := by
  -- Only the last step of a schedule can be the answer that the cache is compared with.
  induction past using List.reverseRecOn with
  | nil => simp [run, history, hits]
  | append_singleton past index ih =>
    have before := ih (prefix_of_snoc within)
    rw [run_append] at wanted ⊢
    rw [history_append, hits_append]
    simp only [run, history, List.append_nil] at wanted ⊢
    rcases cache_advance (leaves past index within) with
      ⟨same, silent⟩ | skip | ⟨id, frame, cached, replacement, stack, present, unit, stored, hit⟩
    · rw [same] at wanted ⊢
      rw [silent, before wanted, List.append_nil]
    · rw [skip] at wanted
      cases wanted
    · obtain ⟨open_, read⟩ :=
        undisturbed past index within id frame cached replacement stack present unit
      rw [stored, hit, oldestFirst_prepend, ← read, before open_, List.append_assoc]

private theorem terminal_of_undisturbed {host : Host σ} {crew : Crew σ α} {schedule : List Nat}
    {module : HookModule} {code : CodeId} (leaves : crew.Leaves host schedule module code)
    (undisturbed : crew.Undisturbed host schedule module code) (past later : List Nat)
    (within : past ++ later <+: schedule)
    (skip : ((crew.run host past).world.cache module code).isSkip = true) :
    ((crew.run host (past ++ later)).world.cache module code).isSkip = true ∧
      ∀ event ∈ (crew.run host past).history host later, event.asks module code = false := by
  induction later using List.reverseRecOn with
  | nil => simp [history, skip]
  | append_singleton later index ih =>
    rw [← List.append_assoc] at within ⊢
    obtain ⟨stays, unasked⟩ := ih (prefix_of_snoc within)
    constructor
    · rw [run_append]
      simp only [run]
      rcases cache_advance (leaves (past ++ later) index within) with
        ⟨same, _⟩ | missed | ⟨id, frame, cached, replacement, stack, present, unit, _, _⟩
      · rw [same, stays]
      · rw [missed]
        rfl
      · have read := undisturbed _ index within id frame cached replacement stack present unit
        rw [stays] at read
        cases read.1
    · rw [history_append, ← run_append]
      intro event member
      rcases List.mem_append.mp member with earlier | last
      · exact unasked event earlier
      · simp only [history, List.append_nil] at last
        exact asks_shown stays event last

private theorem undisturbed_of_advances {host : Host σ} {crew : Crew σ α} {schedule : List Nat}
    {module : HookModule} {code : CodeId} (leaves : crew.Leaves host schedule module code)
    (advances : crew.Advances host schedule module code) :
    crew.Undisturbed host schedule module code := by
  intro past index within id frame cached replacement stack present unit
  have hit : ((crew.run host past).advance host index).world.cache module code =
        cached.prepend replacement ∧
      hits module code ((crew.run host past).shown host index) = [replacement] := by
    obtain ⟨after, move⟩ := Machine.move_of_answer host id frame module cached
      (.ok (some replacement)) stack (crew.run host past).world
    obtain ⟨world, shown⟩ := advance_of_move present move
    rw [world, shown, move.cache_eq (leaves past index within _ present)]
    simp [Machine.commit?, Machine.event?, hits, Event.hit?, unit]
  have step : crew.run host (past ++ [index]) = (crew.run host past).advance host index := by
    rw [run_append]
    rfl
  have open_ : ((crew.run host past).world.cache module code).isSkip = false := by
    cases skip : ((crew.run host past).world.cache module code).isSkip with
    | false => rfl
    | true =>
      have stays := (advances.terminal past [index] within skip).1
      rw [step, hit.1] at stays
      cases stays
  refine ⟨open_, ?_⟩
  have before := advances.committed past (prefix_of_snoc within) open_
  have after := advances.committed (past ++ [index]) within (by rw [step, hit.1]; rfl)
  rw [step, hit.1, history_append, hits_append, oldestFirst_prepend] at after
  simp only [history, List.append_nil, hit.2] at after
  rw [← List.append_assoc] at after
  rw [before, List.append_cancel_right after]

/-- While nobody writes its slot past the interceptor, the cache of a unit moves forward only, and
leaving the unit alone is final, exactly when every replacement is answered undisturbed. -/
theorem advances_iff_undisturbed {host : Host σ} {crew : Crew σ α} {schedule : List Nat}
    {module : HookModule} {code : CodeId} (leaves : crew.Leaves host schedule module code) :
    crew.Advances host schedule module code ↔ crew.Undisturbed host schedule module code := by
  constructor
  · exact undisturbed_of_advances leaves
  · intro undisturbed
    exact ⟨committed_of_undisturbed leaves undisturbed, terminal_of_undisturbed leaves undisturbed⟩

theorem Follows.leaves {host : Host σ} {crew : Crew σ α} (served : host.Follows .unwriting)
    (follows : crew.Follows .unwriting) (schedule : List Nat) (module : HookModule)
    (code : CodeId) : crew.Leaves host schedule module code :=
  fun past index _ machine present =>
    (follows.run served past index machine present).leaves module code

/-- A callback that hands the hook over to another one, has the unit run, and then gives it as its
own replacement. The other callback leaves every unit alone. -/
def reentrant : Host Unit := .ofCallbacks fun
  | 0 => fun thread _ _ => do
    let _ ← Program.act (.install thread ⟨⟨0⟩⟩ (some 1))
    let _ ← Program.run thread (.call (.function .first) [])
    pure (.ok (some ⟨0, 0⟩))
  | _ => fun _ _ _ => .done (.ok none)

def solitary : Crew Unit (Except Fault Value) where
  members := [(.program .client (Program.run 0 (.call (.function .first) [])), [])]
  world := .single #[.one] (.intercepting ⟨⟨0⟩⟩ 0)

private theorem solitary_leaves (schedule : List Nat) :
    solitary.Leaves reentrant schedule ⟨⟨0⟩⟩ 0 := by
  refine Follows.leaves (Host.follows_ofCallbacks ?_) ?_ schedule ⟨⟨0⟩⟩ 0
  · intro callback id frame size
    cases callback with
    | zero => exact ⟨trivial, fun _ => ⟨trivial, fun _ => trivial⟩⟩
    | succ callback => exact trivial
  · intro index machine present
    cases index with
    | zero =>
      cases present
      exact Machine.follows_ofProgram solitary.world ⟨trivial, fun _ => trivial⟩
    | succ index => cases present

/-- The unit is left alone by the inner consult, and no longer after the outer one. -/
theorem solitary_not_advances :
    solitary.Leaves reentrant (List.replicate 15 0) ⟨⟨0⟩⟩ 0 ∧
      ¬solitary.Advances reentrant (List.replicate 15 0) ⟨⟨0⟩⟩ 0 := by
  refine ⟨solitary_leaves _, fun advances => ?_⟩
  have stays := (advances.terminal (List.replicate 10 0) (List.replicate 5 0)
    (List.prefix_refl _) (by decide)).1
  revert stays
  decide

theorem solitary_advances_iff :
    solitary.Leaves reentrant (List.replicate 15 0) ⟨⟨0⟩⟩ 0 ∧
      (solitary.Advances reentrant (List.replicate 15 0) ⟨⟨0⟩⟩ 0 ↔
        solitary.Undisturbed reentrant (List.replicate 15 0) ⟨⟨0⟩⟩ 0) :=
  ⟨solitary_leaves _, advances_iff_undisturbed (solitary_leaves _)⟩

end Interpose.Crew
