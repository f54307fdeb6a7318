import Interpose.Proofs.History

/-! Several machines over one world. A schedule says which machine takes the next step, so that a
statement about all schedules is one about every way in which the runs can be mixed. -/

namespace Interpose
variable {σ α : Type}

/-- Machines that share a world; each has a control and a stack of its own. -/
structure Crew (σ α : Type) where
  members : List (Control σ α × List (Activation σ α))
  world : World σ

namespace Crew

def member? (crew : Crew σ α) (index : Nat) : Option (Machine σ α) :=
  crew.members[index]?.map fun (control, stack) => ⟨control, stack, crew.world⟩

/-- One step of one machine. A machine that is over, or not there, changes nothing. -/
def advance (host : Host σ) (crew : Crew σ α) (index : Nat) : Crew σ α :=
  match crew.member? index with
  | none => crew
  | some machine =>
    match machine.step host with
    | .next after => ⟨crew.members.set index (after.control, after.stack), after.world⟩
    | .halt _ => crew

def shown (host : Host σ) (crew : Crew σ α) (index : Nat) : List Event :=
  match crew.member? index with
  | none => []
  | some machine =>
    match machine.step host with
    | .next _ => machine.event?.toList
    | .halt _ => []

def run (host : Host σ) (crew : Crew σ α) : List Nat → Crew σ α
  | [] => crew
  | index :: rest => (crew.advance host index).run host rest

def history (host : Host σ) (crew : Crew σ α) : List Nat → List Event
  | [] => []
  | index :: rest => crew.shown host index ++ (crew.advance host index).history host rest

theorem run_append (host : Host σ) (crew : Crew σ α) (first second : List Nat) :
    crew.run host (first ++ second) = (crew.run host first).run host second := by
  induction first generalizing crew with
  | nil => rfl
  | cons index rest ih => exact ih (crew.advance host index)

theorem history_append (host : Host σ) (crew : Crew σ α) (first second : List Nat) :
    crew.history host (first ++ second) =
      crew.history host first ++ (crew.run host first).history host second := by
  induction first generalizing crew with
  | nil => rfl
  | cons index rest ih =>
    simp only [List.cons_append, history, run, ih, List.append_assoc]

theorem member?_world {crew : Crew σ α} {index : Nat} {machine : Machine σ α}
    (present : crew.member? index = some machine) : machine.world = crew.world := by
  simp only [member?, Option.map_eq_some_iff] at present
  obtain ⟨⟨control, stack⟩, _, rfl⟩ := present
  rfl

theorem advance_of_move {host : Host σ} {crew : Crew σ α} {index : Nat}
    {machine after : Machine σ α} (present : crew.member? index = some machine)
    (move : Machine.Move host machine after) :
    (crew.advance host index).world = after.world ∧
      crew.shown host index = machine.event?.toList := by
  simp only [advance, shown, present, move.step_eq, and_self]

/-- A step of a crew is a move of one of its machines, or leaves everything as it is. -/
theorem advance_cases (host : Host σ) (crew : Crew σ α) (index : Nat) :
    (crew.advance host index = crew ∧ crew.shown host index = []) ∨
    ∃ machine after, crew.member? index = some machine ∧ Machine.Move host machine after ∧
      (crew.advance host index).world = after.world ∧
      crew.shown host index = machine.event?.toList := by
  cases present : crew.member? index with
  | none => exact .inl ⟨by simp only [advance, present], by simp only [shown, present]⟩
  | some machine =>
    cases stepped : machine.step host with
    | halt outcome =>
      exact .inl ⟨by simp only [advance, present, stepped], by simp only [shown, present, stepped]⟩
    | next after =>
      have move := Machine.step_eq_next_iff.mp stepped
      exact .inr ⟨machine, after, rfl, move, advance_of_move present move⟩

end Crew

end Interpose
