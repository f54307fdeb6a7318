import Interpose.Proofs.History

/-! Two machines abreast have one control and one stack, over engines that differ only in what the
next step does not look at. Steps that have no part in a consult keep them abreast, as long as both
engines have room for a frame and answer requests alike. -/

namespace Interpose
variable {σ α : Type}

inductive Answers (related : World σ → World σ → Prop) {ρ : Type} :
    Except Fatal (ρ × World σ) → Except Fatal (ρ × World σ) → Prop
  | reply (reply : ρ) {after other} (alike : related after other) :
      Answers related (.ok (reply, after)) (.ok (reply, other))
  | refused (cause : Fatal) : Answers related (.error cause) (.error cause)

/-- A relation of engines that frames can neither see nor break. -/
structure Unseen (related : World σ → World σ → Prop) : Prop where
  heap : ∀ {first second}, related first second → second.heap = first.heap
  builtins : ∀ {first second}, related first second → ∀ id, second.builtins id = first.builtins id
  dispatch : ∀ {first second}, related first second → ∀ id,
    (second.thread id).dispatch = (first.thread id).dispatch
  depth : ∀ {first second}, related first second → ∀ id,
    (second.thread id).depth = (first.thread id).depth
  edit : ∀ {first second}, related first second → ∀ edits,
    related (first.edit edits) (second.edit edits)
  setDepth : ∀ {first second}, related first second → ∀ id depth,
    related (first.setThread id { first.thread id with depth })
      (second.setThread id { second.thread id with depth })

inductive Outcome.Abreast (related : World σ → World σ → Prop) :
    Outcome σ α → Outcome σ α → Prop
  | finished (result : α) {first second} (alike : related first second) :
      Abreast related (.finished result first) (.finished result second)
  | given (result : Except Fault Value) {first second} (alike : related first second) :
      Abreast related (.given result first) (.given result second)
  | fatal (cause : Fatal) : Abreast related (.fatal cause) (.fatal cause)
  | broken : Abreast related .broken .broken

namespace Machine

structure Abreast (related : World σ → World σ → Prop) (first second : Machine σ α) : Prop where
  control : second.control = first.control
  stack : second.stack = first.stack
  world : related first.world second.world

/-- The next step neither intercepts a frame nor goes on after the answer of a callback. -/
def Unhooked (machine : Machine σ α) : Prop :=
  match machine.control with
  | .enter _ (.intercept _) => False
  | .program (.consulted _ _ _ _) (.done _) => False
  | _ => True

theorem control_of_hooked {machine : Machine σ α} (hooked : ¬ machine.Unhooked) :
    (∃ id frame, machine.control = .enter id (.intercept frame)) ∨
    ∃ id frame module cached answered,
      machine.control = .program (.consulted id frame module cached) (.done answered) := by
  unfold Unhooked at hooked
  split at hooked
  next id frame control => exact .inl ⟨id, frame, control⟩
  next id frame module cached answered control =>
    exact .inr ⟨id, frame, module, cached, answered, control⟩
  next => exact absurd trivial hooked

def Level (first second : Machine σ α) : Prop :=
  ∀ id frame, first.control = .enter id (.evaluate frame) →
    ((second.world.thread id).limit ≤ (second.world.thread id).depth ↔
      (first.world.thread id).limit ≤ (first.world.thread id).depth)

def Responsive (related : World σ → World σ → Prop) (first second : Machine σ α) : Prop :=
  ∀ action, first.action? = some action →
    Answers related (action.apply first.world) (action.apply second.world)

variable {host : Host σ} {related : World σ → World σ → Prop} {first second : Machine σ α}

theorem Abreast.at_same {control : Control σ α} {stack : List (Activation σ α)}
    {world other : World σ} (alike : related world other) :
    Abreast related (⟨control, stack, world⟩ : Machine σ α) ⟨control, stack, other⟩ :=
  ⟨rfl, rfl, alike⟩

theorem Abreast.move {after : Machine σ α} (unseen : Unseen related)
    (alike : Abreast related first second) (unhooked : first.Unhooked)
    (level : first.Level second) (responsive : first.Responsive related second)
    (move : Move host first after) :
    ∃ following, Move host second following ∧ Abreast related after following := by
  obtain ⟨_, _, other⟩ := second
  obtain ⟨rfl, rfl, alike⟩ := alike
  have heap : other.heap = first.world.heap := unseen.heap alike
  have left (id : ThreadId) : related (leave first.world id) (leave other id) := by
    simp only [leave, unseen.depth alike id]
    exact unseen.setDepth alike id _
  cases move with
  | byEngine chosen =>
    exact ⟨_, .byEngine ((unseen.dispatch alike _).trans chosen), .at_same alike⟩
  | byInterceptor chosen =>
    exact ⟨_, .byInterceptor ((unseen.dispatch alike _).trans chosen), .at_same alike⟩
  | byHost chosen =>
    exact ⟨_, .byHost ((unseen.dispatch alike _).trans chosen), .at_same alike⟩
  | @refused id frame _ _ full =>
    exact ⟨_, .refused ((level id frame rfl).mpr full), .at_same alike⟩
  | @started id frame stack world room =>
    have free : (other.thread id).depth < (other.thread id).limit :=
      Nat.not_le.mp fun full => Nat.not_le.mpr room ((level id frame rfl).mp full)
    refine ⟨_, .started free, .at_same ?_⟩
    rw [unseen.depth alike id]
    exact unseen.setDepth alike id _
  | skipped | asked | failed | missed | replaced | rejected => exact unhooked.elim
  | entered fits =>
    refine ⟨_, .entered ?_, .at_same (unseen.edit alike _)⟩
    rw [heap, unseen.builtins alike]
    exact fits
  | mismatched misfits =>
    refine ⟨_, .mismatched ?_, .at_same alike⟩
    rw [heap, unseen.builtins alike]
    exact misfits
  | native own =>
    refine ⟨_, .native ?_, .at_same alike⟩
    rw [heap]
    exact own
  | byNative foreign => exact ⟨_, .byNative foreign, .at_same alike⟩
  | uncallable foreign => exact ⟨_, .uncallable foreign, .at_same alike⟩
  | ran progress =>
    refine ⟨_, .ran ?_, .at_same (unseen.edit alike _)⟩
    rw [heap]
    exact progress
  | called progress =>
    refine ⟨_, .called ?_, .at_same alike⟩
    rw [heap]
    exact progress
  | @left id _ _ _ _ progress =>
    refine ⟨_, .left ?_, .at_same (left id)⟩
    rw [heap]
    exact progress
  | resumed => exact ⟨_, .resumed, .at_same alike⟩
  | @unwound _ id => exact ⟨_, .unwound, .at_same (left id)⟩
  | replied => exact ⟨_, .replied, .at_same alike⟩
  | dispatched => exact ⟨_, .dispatched, .at_same alike⟩
  | @performed role action next stack world reply after applied =>
    have answered := responsive action rfl
    simp only [applied] at answered
    generalize received : action.apply other = answer at answered
    cases answered with
    | reply _ alike => exact ⟨_, .performed received, .at_same alike⟩
  | launched => exact ⟨_, .launched, .at_same alike⟩

theorem Abreast.stop {outcome : Outcome σ α} (unseen : Unseen related)
    (alike : Abreast related first second) (unhooked : first.Unhooked)
    (responsive : first.Responsive related second) (stop : Stop host first outcome) :
    ∃ result, Stop host second result ∧ outcome.Abreast related result := by
  obtain ⟨_, _, other⟩ := second
  obtain ⟨rfl, rfl, alike⟩ := alike
  cases stop with
  | finished => exact ⟨_, .finished, .finished _ alike⟩
  | given => exact ⟨_, .given, .given _ alike⟩
  | noModule | noCallback => exact unhooked.elim
  | broken progress =>
    refine ⟨_, .broken ?_, .broken⟩
    rw [unseen.heap alike]
    exact progress
  | @fatal role action next stack world cause refused =>
    have answered := responsive action rfl
    simp only [refused] at answered
    generalize received : action.apply other = answer at answered
    cases answered with
    | refused => exact ⟨_, .fatal received, .fatal cause⟩

/-- The next steps of machines abreast are the same step. -/
theorem Abreast.step (unseen : Unseen related) (alike : Abreast related first second)
    (unhooked : first.Unhooked) (level : first.Level second)
    (responsive : first.Responsive related second) :
    Transition.Pairs (Abreast related) (Outcome.Abreast related) (Machine.step host first)
      (Machine.step host second) := by
  cases stepped : Machine.step host first with
  | next after =>
    obtain ⟨following, move, alike⟩ :=
      alike.move unseen unhooked level responsive (step_eq_next_iff.mp stepped)
    rw [move.step_eq]
    exact .next alike
  | halt outcome =>
    obtain ⟨result, stop, agreed⟩ :=
      alike.stop unseen unhooked responsive (step_eq_halt_iff.mp stepped)
    rw [step_eq_halt_iff.mpr stop]
    exact .halt agreed

end Machine

end Interpose
