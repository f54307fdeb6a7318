import Interpose.Stepping

/-! Runs of any length. A state is met, or an outcome reached, when some number of steps leads
there; steps are deterministic, so a run has at most one outcome. A simulation in which every step
of one run is matched by at least one step of the other makes the two end alike, and shows that
neither goes on for ever when the other does not. -/

namespace Interpose.Transition
variable {State Outcome : Type} {step : State → Transition State Outcome}

def Meets (step : State → Transition State Outcome) (start state : State) : Prop :=
  ∃ fuel, run step fuel start = .next state

def Ends (step : State → Transition State Outcome) (start : State) (outcome : Outcome) : Prop :=
  ∃ fuel, run step fuel start = .halt outcome

theorem Meets.refl (state : State) : Meets step state state := ⟨0, rfl⟩

theorem Meets.of_step {before after : State} (stepped : step before = .next after) :
    Meets step before after :=
  ⟨1, by simp only [run, stepped]⟩

theorem Meets.trans {first second third : State} (before : Meets step first second)
    (after : Meets step second third) : Meets step first third := by
  obtain ⟨early, reached⟩ := before
  obtain ⟨late, continued⟩ := after
  refine ⟨early + late, ?_⟩
  rw [run_add, reached]
  exact continued

theorem Meets.head {first second third : State} (stepped : step first = .next second)
    (after : Meets step second third) : Meets step first third :=
  (Meets.of_step stepped).trans after

theorem Meets.tail {first second third : State} (before : Meets step first second)
    (stepped : step second = .next third) : Meets step first third :=
  before.trans (.of_step stepped)

theorem Meets.counted {first second third : State} (stepped : step first = .next second)
    (after : Meets step second third) : ∃ fuel, run step (fuel + 1) first = .next third := by
  obtain ⟨fuel, reached⟩ := after
  refine ⟨fuel, ?_⟩
  simp only [run, stepped, reached]

theorem Meets.start_or_later {first second state : State} (stepped : step first = .next second)
    (met : Meets step first state) : state = first ∨ Meets step second state := by
  obtain ⟨fuel, reached⟩ := met
  cases fuel with
  | zero =>
    cases reached
    exact .inl rfl
  | succ fuel =>
    simp only [run, stepped] at reached
    exact .inr ⟨fuel, reached⟩

theorem Meets.ends {start state : State} {outcome : Outcome} (met : Meets step start state)
    (ended : Ends step state outcome) : Ends step start outcome := by
  obtain ⟨early, reached⟩ := met
  obtain ⟨late, halted⟩ := ended
  refine ⟨early + late, ?_⟩
  rw [run_add, reached]
  exact halted

theorem Ends.of_step {state : State} {outcome : Outcome} (halted : step state = .halt outcome) :
    Ends step state outcome :=
  ⟨1, by simp only [run, halted]⟩

theorem Ends.after {first second : State} {outcome : Outcome} (stepped : step first = .next second)
    (ended : Ends step first outcome) : Ends step second outcome := by
  obtain ⟨fuel, halted⟩ := ended
  cases fuel with
  | zero => cases halted
  | succ fuel =>
    simp only [run, stepped] at halted
    exact ⟨fuel, halted⟩

theorem Ends.last {start : State} {outcome : Outcome} (ended : Ends step start outcome) :
    ∃ state, Meets step start state ∧ step state = .halt outcome := by
  obtain ⟨fuel, halted⟩ := ended
  induction fuel generalizing start with
  | zero => cases halted
  | succ fuel ih =>
    simp only [run] at halted
    cases stepped : step start with
    | halt other =>
      rw [stepped] at halted
      cases halted
      exact ⟨start, .refl start, stepped⟩
    | next following =>
      rw [stepped] at halted
      obtain ⟨state, met, stopped⟩ := ih halted
      exact ⟨state, met.head stepped, stopped⟩

theorem run_halted {fuel : Nat} {start : State} {outcome : Outcome}
    (halted : run step fuel start = .halt outcome) (more : Nat) :
    run step (fuel + more) start = .halt outcome := by
  rw [run_add, halted]

theorem Ends.unique {start : State} {first second : Outcome} (one : Ends step start first)
    (other : Ends step start second) : first = second := by
  obtain ⟨early, halted⟩ := one
  obtain ⟨late, stopped⟩ := other
  have same := run_halted halted late
  rw [Nat.add_comm, run_halted stopped early] at same
  exact (Transition.halt.inj same).symm

def state? : Transition State Outcome → Option State
  | .next state => some state
  | .halt _ => none

/-- Of a run that ends, every state is met before the end. -/
theorem Meets.of_checked {property : State → Prop} {start state : State}
    (met : Meets step start state) (bound : Nat) (halted : (run step bound start).state? = none)
    (checked : ∀ fuel < bound, ∀ state ∈ (run step fuel start).state?, property state) :
    property state := by
  obtain ⟨fuel, reached⟩ := met
  have early : fuel < bound := by
    rcases Nat.lt_or_ge fuel bound with early | late
    · exact early
    · obtain ⟨more, rfl⟩ := Nat.exists_eq_add_of_le late
      cases ended : run step bound start with
      | next middle =>
        rw [ended] at halted
        cases halted
      | halt outcome =>
        rw [run_halted ended more] at reached
        cases reached
  refine checked fuel early state ?_
  rw [reached]
  rfl

theorem run_succ (step : State → Transition State Outcome) (fuel : Nat) (start : State) :
    run step (fuel + 1) start =
      match run step fuel start with
      | .next state => step state
      | .halt outcome => .halt outcome := by
  rw [run_add]
  cases run step fuel start with
  | halt outcome => rfl
  | next state =>
    simp only [run]
    cases step state <;> rfl

/-- A run that is over stopped in a state that was met before. -/
theorem last_of_halt {fuel : Nat} {start : State} {outcome : Outcome}
    (halted : run step fuel start = .halt outcome) :
    ∃ early < fuel, ∃ state, run step early start = .next state ∧ step state = .halt outcome := by
  induction fuel with
  | zero => cases halted
  | succ fuel ih =>
    rw [run_succ] at halted
    cases reached : run step fuel start with
    | halt other =>
      rw [reached] at halted
      cases halted
      obtain ⟨early, sooner, last⟩ := ih reached
      exact ⟨early, Nat.lt_succ_of_lt sooner, last⟩
    | next state =>
      rw [reached] at halted
      exact ⟨fuel, Nat.lt_succ_self fuel, state, reached, halted⟩

variable {Other Result : Type} {other : Other → Transition Other Result}

inductive Pairs (related : State → Other → Prop) (agree : Outcome → Result → Prop) :
    Transition State Outcome → Transition Other Result → Prop
  | next {state mirror} (alike : related state mirror) :
      Pairs related agree (.next state) (.next mirror)
  | halt {outcome result} (agreed : agree outcome result) :
      Pairs related agree (.halt outcome) (.halt result)

section pairs
variable {related : State → Other → Prop} {agree : Outcome → Result → Prop} {start : State}
  {mirror : Other}

/-- Runs in which the steps of related states pair off do so after any number of steps. -/
theorem pairs_run
    (paired : ∀ state mirror, Meets step start state → related state mirror →
      Pairs related agree (step state) (other mirror))
    (alike : related start mirror) (fuel : Nat) :
    Pairs related agree (run step fuel start) (run other fuel mirror) := by
  induction fuel generalizing start mirror with
  | zero => exact .next alike
  | succ fuel ih =>
    have stepped := paired start mirror (.refl start) alike
    simp only [run]
    generalize first : step start = early at stepped
    generalize other mirror = late at stepped
    cases stepped with
    | halt agreed => exact .halt agreed
    | next alike => exact ih (fun state mirror met => paired state mirror (met.head first)) alike

theorem Pairs.forward {outcome : Outcome}
    (together : ∀ fuel, Pairs related agree (run step fuel start) (run other fuel mirror))
    (ended : Ends step start outcome) : ∃ result, Ends other mirror result ∧ agree outcome result := by
  obtain ⟨fuel, halted⟩ := ended
  have paired := together fuel
  rw [halted] at paired
  generalize reached : run other fuel mirror = last at paired
  cases paired with
  | halt agreed => exact ⟨_, ⟨fuel, reached⟩, agreed⟩

end pairs

/-- Every step of the first run is matched by one or more steps of the second, and every end of the
first by an end of the second that agrees with it. -/
structure Simulates (step : State → Transition State Outcome)
    (other : Other → Transition Other Result) (related : State → Other → Prop)
    (agree : Outcome → Result → Prop) : Prop where
  next : ∀ before mirror after, related before mirror → step before = .next after →
    ∃ fuel following, run other (fuel + 1) mirror = .next following ∧ related after following
  halt : ∀ before mirror outcome, related before mirror → step before = .halt outcome →
    ∃ result, Ends other mirror result ∧ agree outcome result

namespace Simulates
variable {related : State → Other → Prop} {agree : Outcome → Result → Prop}

theorem forward (simulates : Simulates step other related agree) {start : State} {mirror : Other}
    {outcome : Outcome} (alike : related start mirror) (ended : Ends step start outcome) :
    ∃ result, Ends other mirror result ∧ agree outcome result := by
  obtain ⟨fuel, halted⟩ := ended
  induction fuel generalizing start mirror with
  | zero => cases halted
  | succ fuel ih =>
    simp only [run] at halted
    cases stepped : step start with
    | halt last =>
      rw [stepped] at halted
      cases halted
      exact simulates.halt start mirror outcome alike stepped
    | next following =>
      rw [stepped] at halted
      obtain ⟨matched, reached, path, alike⟩ := simulates.next start mirror following alike stepped
      obtain ⟨result, ended, agreed⟩ := ih alike halted
      exact ⟨result, Meets.ends ⟨matched + 1, path⟩ ended, agreed⟩

/-- The first run cannot go on for ever when the second ends, because each of its steps uses up at
least one step of the second. -/
theorem backward (simulates : Simulates step other related agree) {start : State} {mirror : Other}
    {result : Result} (alike : related start mirror) (ended : Ends other mirror result) :
    ∃ outcome, Ends step start outcome ∧ agree outcome result := by
  obtain ⟨fuel, halted⟩ := ended
  induction fuel using Nat.strongRecOn generalizing start mirror with
  | ind fuel ih =>
    cases stepped : step start with
    | halt outcome =>
      obtain ⟨last, stops, agreed⟩ := simulates.halt start mirror outcome alike stepped
      cases Ends.unique stops ⟨fuel, halted⟩
      exact ⟨outcome, .of_step stepped, agreed⟩
    | next following =>
      obtain ⟨matched, reached, path, alike⟩ := simulates.next start mirror following alike stepped
      have longer : matched + 1 ≤ fuel := by
        rcases Nat.le_total (matched + 1) fuel with enough | short
        · exact enough
        · obtain ⟨rest, split⟩ := Nat.exists_eq_add_of_le short
          rw [split, run_halted halted rest] at path
          cases path
      obtain ⟨rest, rfl⟩ := Nat.exists_eq_add_of_le longer
      rw [run_add, path] at halted
      obtain ⟨outcome, ended, agreed⟩ := ih rest (by omega) alike halted
      exact ⟨outcome, (Meets.of_step stepped).ends ended, agreed⟩

end Simulates

end Interpose.Transition
