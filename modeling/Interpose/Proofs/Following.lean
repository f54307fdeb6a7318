import Interpose.Code.Listing
import Interpose.Frame.Basic

/-! Following cells. The detailed text of a value is written by a recursion that goes into every cell
it meets, so it ends where no cell is met that leads back to itself. The bound on the number of cells
that the text is computed with never cuts it short, and a unit whose constants end has a listing. -/

namespace Interpose.Heap

/-- The recursion that writes the detailed text of a value, without a bound. -/
inductive Details (heap : Heap) : Value → String → Prop
  | str (s : String) : Details heap (.str s) (Text.quote s)
  | empty {cell} (none : heap.cell? cell = none) : Details heap (.cell cell) "Cell(None)"
  | filled {cell content text} (held : heap.cell? cell = some content)
      (inner : Details heap content text) : Details heap (.cell cell) ("Cell(Some(" ++ text ++ "))")
  | plain {value} (noString : ∀ s, value ≠ .str s) (noCell : ∀ cell, value ≠ .cell cell) :
      Details heap value (heap.display value)

/-- Following the contents of cells from a value comes to an end. -/
inductive Ends (heap : Heap) : Value → Prop
  | plain {value} (noCell : ∀ cell, value ≠ .cell cell) : Ends heap value
  | empty {cell} (none : heap.cell? cell = none) : Ends heap (.cell cell)
  | filled {cell content} (held : heap.cell? cell = some content) (inner : Ends heap content) :
      Ends heap (.cell cell)

inductive Leads (heap : Heap) : Value → CellId → Prop
  | here (cell : CellId) : Leads heap (.cell cell) cell
  | there {cell content target} (held : heap.cell? cell = some content)
      (inner : Leads heap content target) : Leads heap (.cell cell) target

def Cyclic (heap : Heap) (cell : CellId) : Prop :=
  ∃ content, heap.cell? cell = some content ∧ heap.Leads content cell

variable {heap : Heap} {value : Value} {target : CellId}

theorem Ends.acyclic (ends : heap.Ends value) : heap.Leads value target → ¬ heap.Cyclic target := by
  induction ends generalizing target with
  | plain noCell =>
    intro leads
    cases leads with
    | here => exact absurd rfl (noCell target)
    | there => exact absurd rfl (noCell _)
  | empty none =>
    intro leads
    cases leads with
    | here =>
      rintro ⟨content, held, _⟩
      rw [none] at held
      cases held
    | there held =>
      rw [none] at held
      cases held
  | @filled cell content held inner ih =>
    intro leads
    cases leads with
    | there also leads =>
      cases held.symm.trans also
      exact ih leads
    | here =>
      rintro ⟨other, also, leads⟩
      cases held.symm.trans also
      exact ih leads ⟨content, held, leads⟩

theorem Ends.exists_details (ends : heap.Ends value) : ∃ text, heap.Details value text := by
  induction ends with
  | @plain value noCell =>
    cases value with
    | str s => exact ⟨_, .str s⟩
    | _ => exact ⟨_, .plain nofun noCell⟩
  | empty none => exact ⟨_, .empty none⟩
  | filled held inner ih =>
    obtain ⟨text, details⟩ := ih
    exact ⟨_, .filled held details⟩

theorem Details.ends {text : String} (details : heap.Details value text) : heap.Ends value := by
  induction details with
  | str s => exact .plain nofun
  | empty none => exact .empty none
  | filled held inner ih => exact .filled held ih
  | plain noString noCell => exact .plain noCell

theorem Details.unique {first second : String} (one : heap.Details value first)
    (other : heap.Details value second) : first = second := by
  induction one generalizing second with
  | str s =>
    cases other with
    | str => rfl
    | plain noString => exact absurd rfl (noString s)
  | @empty cell none =>
    cases other with
    | empty => rfl
    | filled held =>
      rw [none] at held
      cases held
    | plain _ noCell => exact absurd rfl (noCell cell)
  | @filled cell content text held inner ih =>
    cases other with
    | empty none =>
      rw [none] at held
      cases held
    | filled also details =>
      cases held.symm.trans also
      rw [ih details]
    | plain _ noCell => exact absurd rfl (noCell cell)
  | plain noString noCell =>
    cases other with
    | str s => exact absurd rfl (noString s)
    | empty => exact absurd rfl (noCell _)
    | filled => exact absurd rfl (noCell _)
    | plain => rfl

theorem details_of_detailWithin {fuel : Nat} {text : String}
    (found : heap.detailWithin fuel value = some text) : heap.Details value text := by
  induction fuel generalizing value text with
  | zero =>
    cases value with
    | cell => cases found
    | str s =>
      cases found
      exact .str s
    | _ =>
      cases found
      exact .plain nofun nofun
  | succ fuel ih =>
    cases value with
    | cell cell =>
      simp only [detailWithin] at found
      split at found
      next none =>
        cases found
        exact .empty none
      next content held =>
        obtain ⟨text, inner, rfl⟩ := Option.map_eq_some_iff.mp found
        exact .filled held (ih inner)
    | str s =>
      cases found
      exact .str s
    | _ =>
      cases found
      exact .plain nofun nofun

inductive Trail (heap : Heap) : Value → List CellId → Prop
  | nil (value : Value) : Trail heap value []
  | cons {cell content rest} (held : heap.cell? cell = some content)
      (inner : Trail heap content rest) : Trail heap (.cell cell) (cell :: rest)

theorem exists_trail {fuel : Nat} (missing : heap.detailWithin fuel value = none) :
    ∃ trail, heap.Trail value trail ∧ trail.length = fuel := by
  induction fuel generalizing value with
  | zero => exact ⟨[], .nil value, rfl⟩
  | succ fuel ih =>
    cases value with
    | cell cell =>
      simp only [detailWithin] at missing
      split at missing
      next => cases missing
      next content held =>
        obtain ⟨rest, trail, length⟩ := ih (Option.map_eq_none_iff.mp missing)
        exact ⟨cell :: rest, .cons held trail, by rw [List.length_cons, length]⟩
    | _ => cases missing

theorem Trail.leads {trail : List CellId} (follows : heap.Trail value trail) :
    ∀ cell ∈ trail, heap.Leads value cell := by
  induction follows with
  | nil => exact fun _ member => absurd member List.not_mem_nil
  | @cons first content rest held inner ih =>
    intro cell member
    rcases List.mem_cons.mp member with rfl | later
    · exact .here cell
    · exact .there held (ih cell later)

theorem Trail.filled {trail : List CellId} (follows : heap.Trail value trail) :
    ∀ cell ∈ trail, cell < heap.cells.size := by
  induction follows with
  | nil => exact fun _ member => absurd member List.not_mem_nil
  | @cons first content rest held inner ih =>
    intro cell member
    rcases List.mem_cons.mp member with rfl | later
    · rcases Nat.lt_or_ge cell heap.cells.size with inside | outside
      · exact inside
      · rw [cell?, Table.get_of_size_le outside] at held
        cases held
    · exact ih cell later

/-- A trail that meets no cell twice is not longer than there are cells. -/
theorem Trail.nodup_or_cyclic {trail : List CellId} (follows : heap.Trail value trail) :
    trail.Nodup ∨ ∃ cell, heap.Leads value cell ∧ heap.Cyclic cell := by
  induction follows with
  | nil => exact .inl List.nodup_nil
  | @cons first content rest held inner ih =>
    rcases ih with distinct | ⟨cell, leads, cyclic⟩
    · by_cases again : first ∈ rest
      · exact .inr ⟨first, .here first, content, held, inner.leads first again⟩
      · exact .inl (List.nodup_cons.mpr ⟨again, distinct⟩)
    · exact .inr ⟨cell, .there held leads, cyclic⟩

/-- The bound on the text of a value is reached only by going round in a cycle. -/
theorem exists_detail_or_cyclic (heap : Heap) (value : Value) :
    (∃ text, heap.detail? value = some text) ∨
      ∃ cell, heap.Leads value cell ∧ heap.Cyclic cell := by
  cases found : heap.detail? value with
  | some text => exact .inl ⟨text, rfl⟩
  | none =>
    obtain ⟨trail, follows, length⟩ := exists_trail found
    rcases follows.nodup_or_cyclic with distinct | cyclic
    · have within : trail ⊆ List.range heap.cells.size :=
        fun cell member => List.mem_range.mpr (follows.filled cell member)
      have short := distinct.length_le_of_subset within
      rw [length, List.length_range] at short
      exact absurd short (Nat.not_succ_le_self _)
    · exact .inr cyclic

structure Rendered (heap : Heap) (value : Value) : Prop where
  /-- The bounded computation gives what the unbounded recursion gives. -/
  text : ∀ text, heap.detail? value = some text ↔ heap.Details value text
  ends : (∃ text, heap.Details value text) ↔ heap.Ends value
  acyclic : heap.Ends value ↔ ∀ cell, heap.Leads value cell → ¬ heap.Cyclic cell

theorem ends_iff_acyclic :
    heap.Ends value ↔ ∀ cell, heap.Leads value cell → ¬ heap.Cyclic cell := by
  refine ⟨fun ends cell leads => ends.acyclic leads, fun acyclic => ?_⟩
  rcases exists_detail_or_cyclic heap value with ⟨text, found⟩ | ⟨cell, leads, cyclic⟩
  · exact (details_of_detailWithin found).ends
  · exact absurd cyclic (acyclic cell leads)

theorem detail?_eq_some_iff {text : String} :
    heap.detail? value = some text ↔ heap.Details value text := by
  refine ⟨details_of_detailWithin, fun details => ?_⟩
  rcases exists_detail_or_cyclic heap value with ⟨other, found⟩ | ⟨cell, leads, cyclic⟩
  · rw [found, (details_of_detailWithin found).unique details]
  · exact absurd cyclic (details.ends.acyclic leads)

theorem rendered (heap : Heap) (value : Value) : heap.Rendered value where
  text _ := detail?_eq_some_iff
  ends := ⟨fun ⟨_, details⟩ => details.ends, Ends.exists_details⟩
  acyclic := ends_iff_acyclic

end Interpose.Heap

namespace Interpose
variable {heap : Heap} {unit : Blueprint}

namespace Listing

private theorem exists_hint (ends : ∀ value ∈ unit.constants, heap.Ends value)
    (instruction : Instruction) : ∃ hint, hint? heap unit instruction = some hint := by
  unfold hint?
  split
  next index operated =>
    split
    next value held =>
      obtain ⟨text, details⟩ := (ends value (Array.mem_of_getElem? held)).exists_details
      exact ⟨some text, by rw [Heap.detail?_eq_some_iff.mpr details, Option.map_some]⟩
    next => exact ⟨none, rfl⟩
  all_goals exact ⟨_, rfl⟩

private theorem exists_lines (ends : ∀ value ∈ unit.constants, heap.Ends value)
    (body : List Instruction) (position : Nat) :
    ∃ lines, lines? heap unit position body = some lines := by
  induction body generalizing position with
  | nil => exact ⟨[], rfl⟩
  | cons instruction rest ih =>
    obtain ⟨hint, hinted⟩ := exists_hint ends instruction
    obtain ⟨lines, follow⟩ := ih (position + 1)
    exact ⟨_, by rw [lines?, hinted, Option.bind_some, follow, Option.map_some]⟩

end Listing

/-- A unit has a listing as long as following ends from every constant. -/
theorem Blueprint.exists_listing (ends : ∀ value ∈ unit.constants, heap.Ends value) :
    ∃ text, unit.listing? heap = some text := by
  obtain ⟨lines, found⟩ := Listing.exists_lines ends unit.instructions.toList 0
  exact ⟨_, by rw [Blueprint.listing?, found, Option.map_some]⟩

end Interpose
