import Interpose.Proofs.Crew

/-! What programs do by their text alone. When the client and all programs of the host make only
requests of some kind and launch only some entries, then so does every program in a run. -/

namespace Interpose
variable {σ α : Type}

/-- The requests and the launches that are permitted. -/
structure Conduct (σ : Type) where
  performs : Action σ → Prop
  launches : ThreadId → Entry → Prop

def Conduct.unwriting : Conduct σ where
  performs
    | .writeExtra _ _ _ => False
    | _ => True
  launches _ _ := True

def Program.Follows (conduct : Conduct σ) : Program σ α → Prop
  | .done _ => True
  | .perform action next => conduct.performs action ∧ ∀ reply, (next reply).Follows conduct
  | .launch id entry next => conduct.launches id entry ∧ ∀ result, (next result).Follows conduct

def Host.NativesFollow (host : Host σ) (conduct : Conduct σ) : Prop :=
  ∀ index arguments, (host.native index arguments).Follows conduct

structure Host.Follows (host : Host σ) (conduct : Conduct σ) : Prop where
  callback : ∀ callback id frame size, (host.callback callback id frame size).Follows conduct
  dispatch : ∀ index id frame, (host.dispatch index id frame).Follows conduct
  native : host.NativesFollow conduct

theorem Host.follows_ofCallbacks {conduct : Conduct Unit} {callback : CallbackId → Callback Unit}
    (follows : ∀ name id frame size, (callback name id frame size).Follows conduct) :
    (Host.ofCallbacks callback).Follows conduct :=
  ⟨follows, fun _ _ _ => trivial, fun _ _ => trivial⟩

theorem Host.follows_marking {conduct : Conduct Unit} {index : ExtraIndex}
    {callback : CallbackId → Callback Unit}
    (follows : ∀ name id frame size, (callback name id frame size).Follows conduct)
    (reads : ∀ code, conduct.performs (.readExtra code index))
    (writes : ∀ code mark, conduct.performs (.writeExtra code index mark)) :
    (Host.marking index callback).Follows conduct := by
  refine ⟨follows, fun _ _ _ => trivial, fun number arguments => ?_⟩
  simp only [Host.marking]
  split
  · exact ⟨reads _, fun _ => ⟨writes _ _, fun _ => trivial⟩⟩
  · exact trivial

def Role.consults (id : ThreadId) : Role → Bool
  | .consulted thread _ _ _ => thread = id
  | _ => false

def Control.role? : Control σ α → Option Role
  | .program role _ => some role
  | _ => none

def Activation.role? : Activation σ α → Option Role
  | .program role _ => some role
  | .frame _ _ => none

/-- The roles of the programs that run or wait. -/
def Machine.roles (machine : Machine σ α) : List Role :=
  machine.control.role?.toList ++ machine.stack.filterMap Activation.role?

def Control.Follows (conduct : Conduct σ) : Control σ α → Prop
  | .program _ body => body.Follows conduct
  | _ => True

def Activation.Follows (conduct : Conduct σ) : Activation σ α → Prop
  | .program _ next => ∀ result, (next result).Follows conduct
  | .frame _ _ => True

namespace Machine

structure Follows (machine : Machine σ α) (conduct : Conduct σ) : Prop where
  control : machine.control.Follows conduct
  stack : ∀ activation ∈ machine.stack, activation.Follows conduct

theorem follows_ofProgram {conduct : Conduct σ} {program : Program σ α} (world : World σ)
    (follows : program.Follows conduct) : (ofProgram world program).Follows conduct :=
  ⟨follows, fun _ member => absurd member List.not_mem_nil⟩

private theorem Follows.onto {before : Machine σ α} {conduct : Conduct σ}
    (follows : before.Follows conduct) {control : Control σ α} {stack : List (Activation σ α)}
    (world : World σ) (above : control.Follows conduct) (within : stack ⊆ before.stack) :
    Follows (⟨control, stack, world⟩ : Machine σ α) conduct :=
  ⟨above, fun activation member => follows.stack activation (within member)⟩

theorem Move.follows {host : Host σ} {conduct : Conduct σ} {before after : Machine σ α}
    (move : Move host before after) (served : host.Follows conduct)
    (follows : before.Follows conduct) : after.Follows conduct := by
  cases move with
  | byHost chosen => exact follows.onto _ (served.dispatch _ _ _) (List.Subset.refl _)
  | byNative foreign => exact follows.onto _ (served.native _ _) (List.Subset.refl _)
  | asked installed present wanted =>
    exact follows.onto _ (served.callback _ _ _ _) (List.Subset.refl _)
  | called progress =>
    refine ⟨trivial, fun activation member => ?_⟩
    rcases List.mem_cons.mp member with rfl | below
    · trivial
    · exact follows.stack activation below
  | resumed => exact follows.onto _ trivial (List.subset_cons_self _ _)
  | unwound => exact follows.onto _ trivial (List.subset_cons_self _ _)
  | @replied result role next stack world =>
    have waiting : (Activation.program role next : Activation σ α).Follows conduct :=
      follows.stack _ List.mem_cons_self
    exact follows.onto _ (waiting result) (List.subset_cons_self _ _)
  | @performed role action next stack world reply after applied =>
    have rest : (Program.perform action next).Follows conduct := follows.control
    exact follows.onto _ (rest.2 reply) (List.Subset.refl _)
  | @launched role id entry next stack world =>
    have rest : (Program.launch id entry next).Follows conduct := follows.control
    refine ⟨trivial, fun activation member => ?_⟩
    rcases List.mem_cons.mp member with rfl | below
    · exact rest.2
    · exact follows.stack activation below
  | _ => exact follows.onto _ trivial (List.Subset.refl _)

theorem follows_of_met {host : Host σ} {conduct : Conduct σ} {program : Program σ α}
    {start : World σ} {machine : Machine σ α} (client : program.Follows conduct)
    (served : host.Follows conduct)
    (met : Transition.Meets (step host) (ofProgram start program) machine) :
    machine.Follows conduct :=
  met_keeps (fun _ _ _ follows move => move.follows served follows)
    (follows_ofProgram start client) met

theorem Follows.performs {conduct : Conduct σ} {machine : Machine σ α} {action : Action σ}
    (follows : machine.Follows conduct) (next : machine.action? = some action) :
    conduct.performs action := by
  obtain ⟨role, rest, control⟩ := control_of_action next
  have above := follows.control
  rw [control] at above
  exact above.1

theorem Follows.leaves {machine : Machine σ α} (follows : machine.Follows .unwriting)
    (module : HookModule) (code : CodeId) : machine.Leaves module code :=
  fun _ _ _ next _ => (follows.performs next).elim

end Machine

namespace Crew

def Follows (crew : Crew σ α) (conduct : Conduct σ) : Prop :=
  ∀ index machine, crew.member? index = some machine → machine.Follows conduct

private theorem member?_follows {crew : Crew σ α} {conduct : Conduct σ} (follows : crew.Follows conduct)
    {index : Nat} {control : Control σ α} {stack : List (Activation σ α)} (world : World σ)
    (present : crew.members[index]? = some (control, stack)) :
    Machine.Follows (⟨control, stack, world⟩ : Machine σ α) conduct := by
  have kept := follows index ⟨control, stack, crew.world⟩ (by simp only [member?, present]; rfl)
  exact ⟨kept.control, kept.stack⟩

theorem Follows.advance {host : Host σ} {crew : Crew σ α} {conduct : Conduct σ}
    (served : host.Follows conduct) (follows : crew.Follows conduct) (index : Nat) :
    (crew.advance host index).Follows conduct := by
  cases present : crew.member? index with
  | none => simpa only [Crew.advance, present] using follows
  | some machine =>
    cases stepped : machine.step host with
    | halt outcome => simpa only [Crew.advance, present, stepped] using follows
    | next after =>
      have moved : after.Follows conduct :=
        (Machine.step_eq_next_iff.mp stepped).follows served (follows index machine present)
      have advanced : crew.advance host index =
          ⟨crew.members.set index (after.control, after.stack), after.world⟩ := by
        simp only [Crew.advance, present, stepped]
      rw [advanced]
      intro other member found
      simp only [Crew.member?, Option.map_eq_some_iff] at found
      obtain ⟨⟨control, stack⟩, listed, rfl⟩ := found
      rw [List.getElem?_set] at listed
      split at listed
      · split at listed
        · cases listed
          exact ⟨moved.control, moved.stack⟩
        · cases listed
      · exact member?_follows follows _ listed

theorem Follows.run {host : Host σ} {crew : Crew σ α} {conduct : Conduct σ}
    (served : host.Follows conduct) (follows : crew.Follows conduct) (schedule : List Nat) :
    (crew.run host schedule).Follows conduct := by
  induction schedule generalizing crew with
  | nil => exact follows
  | cons index rest ih => exact ih (follows.advance served index)

end Crew

end Interpose
