/-! Running a step function for a number of steps. A run that is not over yet keeps the state from
which it goes on. -/

namespace Interpose

inductive Transition (State Outcome : Type) where
  | next (state : State)
  | halt (outcome : Outcome)

namespace Transition
variable {State Outcome : Type}

def run (step : State → Transition State Outcome) : Nat → State → Transition State Outcome
  | 0, state => .next state
  | fuel + 1, state =>
    match step state with
    | .next state => run step fuel state
    | .halt outcome => .halt outcome

theorem run_add (step : State → Transition State Outcome) (first second : Nat) (state : State) :
    run step (first + second) state =
      match run step first state with
      | .next middle => run step second middle
      | .halt outcome => .halt outcome := by
  induction first generalizing state with
  | zero => simp [run]
  | succ first ih =>
    rw [Nat.succ_add]
    simp only [run]
    cases step state with
    | next following => exact ih following
    | halt outcome => rfl

end Transition

end Interpose
