import Interpose.Fault
import Interpose.Frame.Basic

/-! Migrating a frame to a replacement unit: the locals keep their places, the cells and free
variables move behind the locals of the replacement, and further locals start unbound. Cells are
shared between the two frames. -/

namespace Interpose.Frame

def migratedSlots (frame : Frame) (locals : Nat) : List (Option Value) :=
  let own := frame.code.locals.length
  frame.slots.take own ++ List.replicate (locals - own) none ++ frame.slots.drop own

/-- A frame at the start of a replacement unit, with the variables of another frame. The replacement
needs at least its locals and exactly its cells and free variables. -/
def shadow (frame : Frame) (replacement : Code) (builtins : NamespaceId) : Except Fault Frame :=
  let own := frame.code
  if replacement.locals.length < own.locals.length then
    .error (.fewerLocals replacement.name replacement.locals.length own.locals.length own.name)
  else if replacement.cells.length ≠ own.cells.length ∨
      replacement.frees.length ≠ own.frees.length then
    .error (.otherCells replacement.name replacement.cells.length replacement.frees.length
      own.name own.cells.length own.frees.length)
  else
    .ok { code := replacement, globals := frame.globals, builtins,
          slots := frame.migratedSlots replacement.locals.length }

theorem shadow_eq_ok_iff {frame shadow : Frame} {replacement : Code} {builtins : NamespaceId} :
    frame.shadow replacement builtins = .ok shadow ↔
      frame.code.locals.length ≤ replacement.locals.length ∧
      replacement.cells.length = frame.code.cells.length ∧
      replacement.frees.length = frame.code.frees.length ∧
      shadow = { code := replacement, globals := frame.globals, builtins,
                 slots := frame.migratedSlots replacement.locals.length } := by
  simp only [Frame.shadow]
  split
  next fewer => simp [Nat.not_le.mpr fewer]
  next enough =>
    split
    next other =>
      refine ⟨nofun, fun fits => ?_⟩
      rcases other with cells | frees
      · exact absurd fits.2.1 cells
      · exact absurd fits.2.2.1 frees
    next same =>
      simp only [ne_eq, not_or, Decidable.not_not] at same
      simp only [Except.ok.injEq, Nat.not_lt.mp enough, same.1, same.2, true_and]
      exact eq_comm

end Interpose.Frame
