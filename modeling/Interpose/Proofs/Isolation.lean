import Interpose.Proofs.History

/-! A program does the same wherever it runs. Its run on its own, as a client, is step by step the
run of the same program in any other role, on top of any stack and with any continuation. -/

namespace Interpose
variable {σ α β : Type}

/-- A waiting activation of a program that ran on its own, when the program has this role and goes
on like this. -/
def Activation.atop (role : Role) (next : β → Program σ (role.Result α)) :
    Activation σ β → Activation σ α
  | .frame id held => .frame id held
  | .program .client rest => .program role fun result => (rest result).bind next
  | .program (.consulted id held module cached) rest =>
    .program (.consulted id held module cached) rest
  | .program .hosted rest => .program .hosted rest

def Control.atop (role : Role) (next : β → Program σ (role.Result α)) :
    Control σ β → Control σ α
  | .enter id entry => .enter id entry
  | .run id frame => .run id frame
  | .give result => .give result
  | .program .client body => .program role (body.bind next)
  | .program (.consulted id frame module cached) body =>
    .program (.consulted id frame module cached) body
  | .program .hosted body => .program .hosted body

namespace Machine

def atop (role : Role) (next : β → Program σ (role.Result α)) (stack : List (Activation σ α))
    (machine : Machine σ β) : Machine σ α :=
  ⟨machine.control.atop role next, machine.stack.map (·.atop role next) ++ stack, machine.world⟩

theorem Move.atop {host : Host σ} {before after : Machine σ β} (move : Move host before after)
    (role : Role) (next : β → Program σ (role.Result α)) (stack : List (Activation σ α)) :
    Move host (before.atop role next stack) (after.atop role next stack) := by
  cases move with
  | byEngine chosen => exact .byEngine chosen
  | byInterceptor chosen => exact .byInterceptor chosen
  | byHost chosen => exact .byHost chosen
  | refused full => exact .refused full
  | started room => exact .started room
  | skipped installed skip => exact .skipped installed skip
  | asked installed present wanted => exact .asked installed present wanted
  | entered fits => exact .entered fits
  | mismatched misfits => exact .mismatched misfits
  | native own => exact .native own
  | byNative foreign => exact .byNative foreign
  | uncallable foreign => exact .uncallable foreign
  | ran progress => exact .ran progress
  | called progress => exact .called progress
  | left progress => exact .left progress
  | resumed => exact .resumed
  | unwound => exact .unwound
  | @replied result inner rest above world => cases inner <;> exact .replied
  | failed => exact .failed
  | missed => exact .missed
  | replaced fits => exact .replaced fits
  | rejected misfits => exact .rejected misfits
  | dispatched => exact .dispatched
  | @performed inner action rest above world reply after applied =>
    cases inner <;> exact .performed applied
  | @launched inner id entry rest above world => cases inner <;> exact .launched

/-- A program goes through the states of its run on its own wherever it runs. -/
theorem run_atop {host : Host σ} {before after : Machine σ β} {fuel : Nat}
    (met : run host fuel before = .next after) (role : Role)
    (next : β → Program σ (role.Result α)) (stack : List (Activation σ α)) :
    run host fuel (before.atop role next stack) = .next (after.atop role next stack) := by
  induction fuel generalizing before with
  | zero =>
    cases met
    rfl
  | succ fuel ih =>
    simp only [run, Transition.run] at met ⊢
    cases stepped : step host before with
    | halt outcome =>
      rw [stepped] at met
      cases met
    | next following =>
      rw [stepped] at met
      rw [((step_eq_next_iff.mp stepped).atop role next stack).step_eq]
      exact ih met

def RootedStack : List (Activation σ α) → Prop
  | [] => False
  | .program .client _ :: rest => rest = []
  | _ :: rest => RootedStack rest

/-- The client is at the bottom: it runs on an empty stack, or waits for all that is above it. -/
def Rooted (machine : Machine σ α) : Prop :=
  match machine.control with
  | .program .client _ => machine.stack = []
  | _ => RootedStack machine.stack

theorem rooted_ofProgram (world : World σ) (program : Program σ α) :
    Rooted (ofProgram world program) := rfl

theorem Move.rooted {host : Host σ} {before after : Machine σ α} (move : Move host before after)
    (rooted : Rooted before) : Rooted after := by
  cases move with
  | @replied result role next stack world =>
    cases role with
    | client => exact rooted
    | consulted id frame module cached => exact rooted
    | hosted => exact rooted
  | @performed role action next stack world reply after applied => cases role <;> exact rooted
  | @launched role id entry next stack world => cases role <;> exact rooted
  | _ => exact rooted

/-- The run of a program does not end by a result that nothing waits for. -/
theorem not_given_of_rooted {host : Host σ} {machine : Machine σ α} {result : Except Fault Value}
    {world : World σ} (rooted : Rooted machine) :
    ¬Transition.Ends (step host) machine (.given result world) := by
  rintro ⟨fuel, halted⟩
  induction fuel generalizing machine with
  | zero => cases halted
  | succ fuel ih =>
    simp only [Transition.run] at halted
    cases stepped : step host machine with
    | next following =>
      rw [stepped] at halted
      exact ih ((step_eq_next_iff.mp stepped).rooted rooted) halted
    | halt outcome =>
      rw [stepped] at halted
      cases halted
      cases step_eq_halt_iff.mp stepped
      exact rooted

theorem rooted_of_met {host : Host σ} {world : World σ} {program : Program σ β}
    {machine : Machine σ β}
    (met : Transition.Meets (step host) (ofProgram world program) machine) : Rooted machine :=
  met_keeps (fun _ _ _ rooted move => move.rooted rooted) (rooted_ofProgram world program) met

/-- A program that ends on its own ends with the same result in any role and above any stack, and
goes on from there. -/
theorem meets_of_ends {host : Host σ} {world after : World σ} {program : Program σ β} {result : β}
    (ended : Transition.Ends (step host) (ofProgram world program) (.finished result after))
    (role : Role) (next : β → Program σ (role.Result α)) (stack : List (Activation σ α)) :
    Transition.Meets (step host) ⟨.program role (program.bind next), stack, world⟩
      ⟨.program role (next result), stack, after⟩ := by
  obtain ⟨machine, ⟨fuel, met⟩, stopped⟩ := ended.last
  have rooted := rooted_of_met ⟨fuel, met⟩
  have lifted := run_atop met role next stack
  cases step_eq_halt_iff.mp stopped with
  | @finished result above world =>
    have bottom : above = [] := rooted
    subst bottom
    exact ⟨fuel, lifted⟩

theorem meets_done_of_ends {host : Host σ} {world after : World σ} {role : Role}
    {program : Program σ (role.Result α)} {result : role.Result α}
    (ended : Transition.Ends (step host) (ofProgram world program) (.finished result after))
    (stack : List (Activation σ α)) :
    Transition.Meets (step host) ⟨.program role program, stack, world⟩
      ⟨.program role (.done result), stack, after⟩ := by
  simpa only [Program.bind_done] using meets_of_ends ended role .done stack

end Machine

end Interpose
