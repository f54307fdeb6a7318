import Interpose.Proofs.Following
import Interpose.Proofs.Layout

/-! Line by line listings. What a listing writes itself has no line break, and neither have numbers
and strings, because a string is quoted; but the names of variables, units, files and native
routines are shown as they are. So there is one line for the heading and one for each instruction
exactly as long as no name that is shown has a line break. -/

namespace Interpose

namespace Text

def Unbroken (text : String) : Prop := '\n' ∉ text.toList

instance (text : String) : Decidable (Unbroken text) :=
  inferInstanceAs (Decidable ('\n' ∉ text.toList))

def breaks (text : String) : Nat := text.toList.count '\n'

/-- The lines of a text in which every line is ended by a line break. -/
structure HasLines (text : String) (lines : List String) : Prop where
  joined : text = String.join (lines.map (· ++ "\n"))
  unbroken : ∀ line ∈ lines, Unbroken line

theorem breaks_eq_zero_iff {text : String} : breaks text = 0 ↔ Unbroken text := List.count_eq_zero

theorem unbroken_append {first second : String} :
    Unbroken (first ++ second) ↔ Unbroken first ∧ Unbroken second := by
  rw [Unbroken, String.toList_append, List.mem_append, not_or]
  rfl

/-- Text around another leaves only that to break it. -/
theorem unbroken_around {before inner after : String} (first : Unbroken before)
    (last : Unbroken after) : Unbroken (before ++ inner ++ after) ↔ Unbroken inner := by
  rw [unbroken_append, unbroken_append, and_iff_left last, and_iff_right first]

theorem breaks_append (first second : String) :
    breaks (first ++ second) = breaks first + breaks second := by
  rw [breaks, String.toList_append, List.count_append]
  rfl

theorem unbroken_join {texts : List String} :
    Unbroken (String.join texts) ↔ ∀ text ∈ texts, Unbroken text := by
  simp only [Unbroken, String.toList_join, List.mem_flatMap, not_exists, not_and]

/-- Lines that are joined have the breaks that end them, and those they had themselves. -/
theorem breaks_join (lines : List String) :
    breaks (String.join (lines.map (· ++ "\n"))) = lines.length + breaks (String.join lines) := by
  induction lines with
  | nil => rfl
  | cons line rest ih =>
    have last : breaks "\n" = 1 := rfl
    simp only [List.map_cons, String.join_cons, breaks_append, last, ih, List.length_cons]
    omega

theorem unbroken_of_breaks_join {lines : List String}
    (few : breaks (String.join (lines.map (· ++ "\n"))) = lines.length) :
    ∀ line ∈ lines, Unbroken line := by
  rw [breaks_join, Nat.add_eq_left, breaks_eq_zero_iff] at few
  exact unbroken_join.mp few

theorem HasLines.length_eq {text : String} {lines : List String} (has : HasLines text lines) :
    lines.length = breaks text := by
  obtain ⟨rfl, unbroken⟩ := has
  rw [breaks_join, breaks_eq_zero_iff.mpr (unbroken_join.mpr unbroken), Nat.add_zero]

theorem newline_not_mem_toDigits {base : Nat} (several : 1 < base) (few : base ≤ 16) (n : Nat) :
    '\n' ∉ Nat.toDigits base n := by
  have plain : ∀ digit < 16, '\n' ≠ Nat.digitChar digit := by decide
  induction n using Nat.strongRecOn with
  | ind n ih =>
    rw [Nat.toDigits_eq_if several]
    split
    next small =>
      rw [List.mem_singleton]
      exact plain n (Nat.lt_of_lt_of_le small few)
    next large =>
      have less : n / base < n := Nat.div_lt_self (by omega) several
      have digit : n % base < base := Nat.mod_lt n (by omega)
      rw [List.mem_append, List.mem_singleton, not_or]
      exact ⟨ih _ less, plain _ (Nat.lt_of_lt_of_le digit few)⟩

theorem unbroken_escape (c : Char) : Unbroken (escape c) := by
  unfold escape
  split
  case h_7 _ _ plain _ _ _ =>
    split
    · have digits : Unbroken (hexadecimal c.toNat) := by
        rw [Unbroken, hexadecimal, String.toList_ofList]
        exact newline_not_mem_toDigits (by decide) (by decide) _
      exact unbroken_append.mpr ⟨unbroken_append.mpr ⟨by decide, digits⟩, by decide⟩
    · rw [Unbroken, Char.toString_eq_singleton, String.toList_singleton, List.mem_singleton]
      exact fun same => plain same.symm
  all_goals decide

/-- The quoted form of any text is a single line. -/
theorem unbroken_quote (text : String) : Unbroken (quote text) := by
  have inner : Unbroken (String.join (text.toList.map escape)) := by
    rw [unbroken_join, List.forall_mem_map]
    exact fun c _ => unbroken_escape c
  exact unbroken_append.mpr ⟨unbroken_append.mpr ⟨by decide, inner⟩, by decide⟩

end Text

namespace Decimal
open Text

theorem unbroken_ofNat (n : Nat) : Unbroken (ofNat n) := by
  rw [Unbroken, ofNat, String.toList_ofList]
  exact newline_not_mem_toDigits (by decide) (by decide) n

theorem unbroken_ofInt (n : Int) : Unbroken (ofInt n) := by
  unfold ofInt
  split
  · exact unbroken_append.mpr ⟨by decide, unbroken_ofNat _⟩
  · exact unbroken_ofNat _

theorem unbroken_positional (x : Scientific) : Unbroken x.positional := by
  unfold Scientific.positional
  split
  · refine unbroken_append.mpr ⟨unbroken_append.mpr ⟨unbroken_ofNat _, by decide⟩, ?_⟩
    rw [Unbroken, String.toList_ofList, List.mem_append, not_or]
    refine ⟨?_, newline_not_mem_toDigits (by decide) (by decide) _⟩
    intro member
    exact absurd (List.eq_of_mem_replicate member) (by decide)
  · exact unbroken_ofNat _

theorem unbroken_ofBinary64 (x : Binary64) : Unbroken (ofBinary64 x) := by
  have sign : Unbroken (if x.isNegative then "-" else "") := by
    split <;> decide
  unfold ofBinary64
  split
  · decide
  · dsimp only
    split
    · exact unbroken_append.mpr ⟨sign, by decide⟩
    · split
      · exact unbroken_append.mpr ⟨sign, by decide⟩
      · exact unbroken_append.mpr ⟨sign, unbroken_positional _⟩

end Decimal

namespace Heap
variable {heap : Heap}

/-- The names that the detailed text of a value shows as they are, also through cells. -/
inductive Shows (heap : Heap) : Value → String → Prop
  | unit (id : CodeId) : Shows heap (.code id) (heap.code id).name
  | file (id : CodeId) : Shows heap (.code id) (heap.code id).filename
  | function (f : Function) : Shows heap (.function f) (heap.codeName f.code)
  | native (n : Native) : Shows heap (.native n) n.name
  | content {cell value name} (held : heap.cell? cell = some value)
      (inner : Shows heap value name) : Shows heap (.cell cell) name

open Text

theorem unbroken_display {value : Value} (noString : ∀ s, value ≠ .str s)
    (noCell : ∀ cell, value ≠ .cell cell) :
    Unbroken (heap.display value) ↔ ∀ name, heap.Shows value name → Unbroken name := by
  cases value with
  | nil =>
    have plain : Unbroken "nil" := by decide
    exact iff_of_true plain nofun
  | bool b =>
    have plain : Unbroken "true" ∧ Unbroken "false" := by decide
    refine iff_of_true ?_ nofun
    cases b with
    | true => exact plain.1
    | false => exact plain.2
  | int n => exact iff_of_true (Decimal.unbroken_ofInt _) nofun
  | float x => exact iff_of_true (Decimal.unbroken_ofBinary64 x) nofun
  | str s => exact absurd rfl (noString s)
  | cell cell => exact absurd rfl (noCell cell)
  | code id =>
    have names : Unbroken (heap.display (.code id)) ↔
        Unbroken (heap.code id).name ∧ Unbroken (heap.code id).filename := by
      rw [display, unbroken_append, unbroken_append, and_iff_left (by decide), unbroken_around
        (by decide) (by decide)]
    rw [names]
    constructor
    · rintro ⟨unit, file⟩ name (_ | _)
      · exact unit
      · exact file
    · exact fun unbroken => ⟨unbroken _ (.unit id), unbroken _ (.file id)⟩
  | function f =>
    rw [display, unbroken_around (by decide) (by decide)]
    constructor
    · rintro unbroken name ⟨_⟩
      exact unbroken
    · exact fun unbroken => unbroken _ (.function f)
  | native n =>
    rw [display, unbroken_around (by decide) (by decide)]
    constructor
    · rintro unbroken name ⟨_⟩
      exact unbroken
    · exact fun unbroken => unbroken _ (.native n)

theorem Details.unbroken_iff {value : Value} {text : String} (details : heap.Details value text) :
    Unbroken text ↔ ∀ name, heap.Shows value name → Unbroken name := by
  induction details with
  | str s => exact iff_of_true (unbroken_quote s) nofun
  | @empty cell none =>
    refine iff_of_true (by decide) ?_
    rintro name (_ | _ | _ | _ | held)
    rw [none] at held
    cases held
  | @filled cell content text held inner ih =>
    rw [unbroken_around (by decide) (by decide), ih]
    constructor
    · rintro unbroken name (_ | _ | _ | _ | ⟨also, shown⟩)
      cases held.symm.trans also
      exact unbroken name shown
    · exact fun unbroken name shown => unbroken name (.content held shown)
  | plain noString noCell => exact unbroken_display noString noCell

end Heap

namespace Instruction
open Text

theorem unbroken_operand (word operand : String) (first : Unbroken word) (last : Unbroken operand) :
    Unbroken (word ++ "(" ++ operand ++ ")") :=
  unbroken_append.mpr
    ⟨unbroken_append.mpr ⟨unbroken_append.mpr ⟨first, by decide⟩, last⟩, by decide⟩

theorem unbroken_text (instruction : Instruction) : Unbroken instruction.text := by
  have number := Decimal.unbroken_ofNat
  cases instruction with
  | loadConst index => exact unbroken_operand "LoadConst" _ (by decide) (number index)
  | loadLocal index => exact unbroken_operand "LoadFast" _ (by decide) (number index)
  | storeLocal index => exact unbroken_operand "StoreFast" _ (by decide) (number index)
  | loadCell index => exact unbroken_operand "LoadDeref" _ (by decide) (number index)
  | storeCell index => exact unbroken_operand "StoreDeref" _ (by decide) (number index)
  | loadClosure index => exact unbroken_operand "LoadClosure" _ (by decide) (number index)
  | loadGlobal index => exact unbroken_operand "LoadGlobal" _ (by decide) (number index)
  | storeGlobal index => exact unbroken_operand "StoreGlobal" _ (by decide) (number index)
  | jump target => exact unbroken_operand "Jump" _ (by decide) (number target)
  | popJumpIfFalse target => exact unbroken_operand "PopJumpIfFalse" _ (by decide) (number target)
  | popJumpIfTrue target => exact unbroken_operand "PopJumpIfTrue" _ (by decide) (number target)
  | call count => exact unbroken_operand "Call" _ (by decide) (number count)
  | binary operator =>
    have operand : Unbroken operator.text := by cases operator <;> decide
    exact unbroken_operand "BinaryOp" operator.text (by decide) operand
  | compare comparison =>
    have operand : Unbroken comparison.text := by cases comparison <;> decide
    exact unbroken_operand "CompareOp" comparison.text (by decide) operand
  | makeFunction code count =>
    have first : Unbroken ("MakeFunction \x7b code: " ++ Decimal.ofNat code ++ ", nfree: ") :=
      unbroken_append.mpr ⟨unbroken_append.mpr ⟨by decide, number code⟩, by decide⟩
    exact unbroken_append.mpr ⟨unbroken_append.mpr ⟨first, number count⟩, by decide⟩
  | not | neg | pop | duplicate | raise | returnValue => decide

end Instruction

def Blueprint.nameAt? (unit : Blueprint) : Operand → Nat → Option String
  | .localSlot, index => unit.locals[index]?
  | .deref, index => unit.derefName? index
  | .name, index => unit.names[index]?
  | _, _ => none

inductive Instruction.Shows (heap : Heap) (unit : Blueprint) (instruction : Instruction) :
    String → Prop
  | variable {operand index name} (operated : instruction.operand? = some (operand, index))
      (named : unit.nameAt? operand index = some name) : Shows heap unit instruction name
  | constant {index value name} (operated : instruction.operand? = some (.constant, index))
      (held : unit.constants[index]? = some value) (shown : heap.Shows value name) :
      Shows heap unit instruction name

inductive Blueprint.Shows (heap : Heap) (unit : Blueprint) : String → Prop
  | unit : Shows heap unit unit.name
  | file : Shows heap unit unit.filename
  | line {instruction name} (member : instruction ∈ unit.instructions)
      (shown : instruction.Shows heap unit name) : Shows heap unit name

/-- One line for the heading, and behind it one for each instruction, which begins with the position
and the text of the instruction. -/
def Blueprint.ListedByLine (unit : Blueprint) (text : String) : Prop :=
  ∃ lines, Text.HasLines text lines ∧ lines.length = 1 + unit.instructions.size ∧
    lines[0]? = some (Listing.heading unit) ∧
    ∀ position instruction, unit.instructions[position]? = some instruction →
      ∃ rest, lines[position + 1]? =
        some (Listing.padLeft 4 (Decimal.ofNat position) ++ " " ++ instruction.text ++ rest)

theorem Instruction.shows_iff {heap : Heap} {unit : Blueprint} {instruction : Instruction}
    {operand : Operand} {index : Nat} {name : String}
    (operated : instruction.operand? = some (operand, index)) :
    instruction.Shows heap unit name ↔ unit.nameAt? operand index = some name ∨
      operand = .constant ∧ ∃ value, unit.constants[index]? = some value ∧
        heap.Shows value name := by
  constructor
  · rintro (⟨also, named⟩ | ⟨also, held, shown⟩) <;> cases operated.symm.trans also
    · exact .inl named
    · exact .inr ⟨rfl, _, held, shown⟩
  · rintro (named | ⟨rfl, value, held, shown⟩)
    · exact .variable operated named
    · exact .constant operated held shown

theorem Instruction.not_shows {heap : Heap} {unit : Blueprint} {instruction : Instruction}
    {name : String} (plain : instruction.operand? = none) :
    ¬instruction.Shows heap unit name := by
  rintro (⟨operated, _⟩ | ⟨operated, _, _⟩) <;> cases plain.symm.trans operated

namespace Listing
open Text
variable {heap : Heap} {unit : Blueprint} {instruction : Instruction} {position : Nat}
  {hint : Option String} {body : List Instruction} {lines : List String}

theorem hint?_of_operand {operand : Operand} {index : Nat}
    (operated : instruction.operand? = some (operand, index)) (other : operand ≠ .constant) :
    hint? heap unit instruction = some (unit.nameAt? operand index) := by
  rw [hint?, operated]
  cases operand with
  | constant => exact absurd rfl other
  | _ => rfl

/-- A hint is broken by nothing but the names that it shows. -/
theorem unbroken_hint_iff (hinted : hint? heap unit instruction = some hint) :
    (∀ text, hint = some text → Unbroken text) ↔
      ∀ name, instruction.Shows heap unit name → Unbroken name := by
  cases operated : instruction.operand? with
  | none =>
    simp only [hint?, operated] at hinted
    cases hinted
    exact iff_of_true nofun fun name shown => absurd shown (Instruction.not_shows operated)
  | some pair =>
    obtain ⟨operand, index⟩ := pair
    simp only [Instruction.shows_iff operated]
    by_cases constant : operand = .constant
    · subst constant
      cases held : unit.constants[index]? with
      | none =>
        simp only [hint?, operated, held] at hinted
        cases hinted
        refine iff_of_true nofun ?_
        rintro name (⟨⟨⟩⟩ | ⟨-, value, ⟨⟩, -⟩)
      | some value =>
        simp only [hint?, operated, held] at hinted
        obtain ⟨text, detailed, rfl⟩ := Option.map_eq_some_iff.mp hinted
        have details := Heap.detail?_eq_some_iff.mp detailed
        simp only [Option.some.injEq, forall_eq', details.unbroken_iff]
        constructor
        · rintro unbroken name (⟨⟨⟩⟩ | ⟨-, same, rfl, shown⟩)
          exact unbroken name shown
        · exact fun unbroken name shown => unbroken name (.inr ⟨trivial, value, rfl, shown⟩)
    · rw [hint?_of_operand operated constant] at hinted
      cases hinted
      simp only [constant, false_and, or_false]

theorem unbroken_padLeft (width : Nat) {text : String} (unbroken : Unbroken text) :
    Unbroken (padLeft width text) := by
  refine unbroken_append.mpr ⟨?_, unbroken⟩
  rw [Unbroken, String.toList_ofList]
  intro member
  exact absurd (List.eq_of_mem_replicate member) (by decide)

theorem unbroken_padRight (width : Nat) {text : String} (unbroken : Unbroken text) :
    Unbroken (padRight width text) := by
  refine unbroken_append.mpr ⟨unbroken, ?_⟩
  rw [Unbroken, String.toList_ofList]
  intro member
  exact absurd (List.eq_of_mem_replicate member) (by decide)

theorem unbroken_line_iff (position : Nat) (hinted : hint? heap unit instruction = some hint) :
    Unbroken (line position instruction hint) ↔
      ∀ name, instruction.Shows heap unit name → Unbroken name := by
  have place := unbroken_padLeft 4 (Decimal.unbroken_ofNat position)
  rw [← unbroken_hint_iff hinted]
  cases hint with
  | none =>
    refine iff_of_true ?_ nofun
    exact unbroken_append.mpr ⟨unbroken_append.mpr ⟨place, by decide⟩, instruction.unbroken_text⟩
  | some text =>
    have word := unbroken_padRight 28 instruction.unbroken_text
    have before : Unbroken (padLeft 4 (Decimal.ofNat position) ++ " " ++
        padRight 28 instruction.text ++ " (") :=
      unbroken_append.mpr ⟨unbroken_append.mpr
        ⟨unbroken_append.mpr ⟨place, by decide⟩, word⟩, by decide⟩
    simp only [Option.some.injEq, forall_eq']
    exact unbroken_around before (by decide)

theorem exists_line_eq (position : Nat) (instruction : Instruction) (hint : Option String) :
    ∃ rest, line position instruction hint =
      padLeft 4 (Decimal.ofNat position) ++ " " ++ instruction.text ++ rest := by
  cases hint with
  | none => exact ⟨"", (String.append_empty).symm⟩
  | some text =>
    refine ⟨String.ofList (List.replicate (28 - instruction.text.length) ' ') ++
      " (" ++ text ++ ")", ?_⟩
    simp only [line, padRight, String.append_assoc]

/-- The line of each instruction stands at its place among the lines. -/
theorem getElem?_lines (listed : lines? heap unit position body = some lines) :
    lines.length = body.length ∧ ∀ place instruction, body[place]? = some instruction →
      ∃ hint, hint? heap unit instruction = some hint ∧
        lines[place]? = some (line (position + place) instruction hint) := by
  induction body generalizing position lines with
  | nil =>
    cases listed
    exact ⟨rfl, nofun⟩
  | cons first rest ih =>
    obtain ⟨hint, hinted, behind⟩ := Option.bind_eq_some_iff.mp listed
    obtain ⟨others, follow, rfl⟩ := Option.map_eq_some_iff.mp behind
    obtain ⟨length, found⟩ := ih follow
    refine ⟨congrArg (· + 1) length, ?_⟩
    intro place instruction present
    cases place with
    | zero =>
      cases present
      exact ⟨hint, hinted, rfl⟩
    | succ place =>
      obtain ⟨hint, hinted, stands⟩ := found place instruction present
      refine ⟨hint, hinted, ?_⟩
      rw [List.getElem?_cons_succ, stands]
      congr 2
      omega

/-- The lines are unbroken exactly when the names on them are. -/
theorem unbroken_lines_iff (listed : lines? heap unit position body = some lines) :
    (∀ line ∈ lines, Unbroken line) ↔
      ∀ instruction ∈ body, ∀ name, instruction.Shows heap unit name → Unbroken name := by
  obtain ⟨length, found⟩ := getElem?_lines listed
  constructor
  · intro unbroken instruction member
    obtain ⟨place, present⟩ := List.mem_iff_getElem?.mp member
    obtain ⟨hint, hinted, stands⟩ := found place instruction present
    exact (unbroken_line_iff _ hinted).mp (unbroken _ (List.mem_of_getElem? stands))
  · intro unbroken line member
    obtain ⟨place, inside, rfl⟩ := List.mem_iff_getElem.mp member
    have present := List.getElem?_eq_getElem (length ▸ inside)
    obtain ⟨hint, hinted, stands⟩ := found place _ present
    rw [List.getElem?_eq_getElem inside, Option.some.injEq] at stands
    rw [stands, unbroken_line_iff _ hinted]
    exact unbroken _ (List.mem_of_getElem? present)

theorem unbroken_heading_iff (unit : Blueprint) :
    Unbroken (heading unit) ↔ Unbroken unit.name ∧ Unbroken unit.filename := by
  have plain : Unbroken "code " ∧ Unbroken " (" ∧ Unbroken "):" := by decide
  simp only [heading, unbroken_append, plain, true_and, and_true]

end Listing

namespace Blueprint
open Text
variable {heap : Heap} {unit : Blueprint}

theorem unbroken_shown_iff {lines : List String}
    (listed : Listing.lines? heap unit 0 unit.instructions.toList = some lines) :
    (∀ line ∈ Listing.heading unit :: lines, Unbroken line) ↔
      ∀ name, unit.Shows heap name → Unbroken name := by
  rw [List.forall_mem_cons, Listing.unbroken_heading_iff, Listing.unbroken_lines_iff listed]
  constructor
  · rintro ⟨⟨name, file⟩, rest⟩ _ (_ | _ | ⟨member, shown⟩)
    · exact name
    · exact file
    · exact rest _ (Array.mem_toList_iff.mpr member) _ shown
  · intro unbroken
    refine ⟨⟨unbroken _ .unit, unbroken _ .file⟩, ?_⟩
    intro instruction member name shown
    exact unbroken name (.line (Array.mem_toList_iff.mp member) shown)

structure ListsLines (heap : Heap) (unit : Blueprint) (text : String) : Prop where
  /-- There are never fewer lines than the heading and the instructions need. -/
  least : 1 + unit.instructions.size ≤ breaks text
  exact_iff : breaks text = 1 + unit.instructions.size ↔
    ∀ name, unit.Shows heap name → Unbroken name
  byLine_iff : unit.ListedByLine text ↔ ∀ name, unit.Shows heap name → Unbroken name

theorem listsLines_of_listed {text : String} (listed : unit.listing? heap = some text) :
    unit.ListsLines heap text := by
  obtain ⟨lines, lined, rfl⟩ := Option.map_eq_some_iff.mp listed
  obtain ⟨length, found⟩ := Listing.getElem?_lines lined
  have size : (Listing.heading unit :: lines).length = 1 + unit.instructions.size := by
    rw [List.length_cons, length, Array.length_toList, Nat.add_comm]
  have shown := unbroken_shown_iff lined
  have byLine (unbroken : ∀ name, unit.Shows heap name → Unbroken name) :
      unit.ListedByLine (String.join ((Listing.heading unit :: lines).map (· ++ "\n"))) := by
    refine ⟨_, ⟨rfl, shown.mpr unbroken⟩, size, rfl, ?_⟩
    intro position instruction present
    rw [← Array.getElem?_toList] at present
    obtain ⟨hint, -, stands⟩ := found position instruction present
    obtain ⟨rest, same⟩ := Listing.exists_line_eq (0 + position) instruction hint
    refine ⟨rest, ?_⟩
    rw [List.getElem?_cons_succ, stands, same, Nat.zero_add]
  have exactly : breaks (String.join ((Listing.heading unit :: lines).map (· ++ "\n"))) =
      1 + unit.instructions.size ↔ ∀ name, unit.Shows heap name → Unbroken name := by
    constructor
    · intro few
      exact shown.mp (unbroken_of_breaks_join (few.trans size.symm))
    · intro unbroken
      obtain ⟨all, has, count, -⟩ := byLine unbroken
      rw [← has.length_eq, count]
  constructor
  case least =>
    rw [breaks_join, size]
    exact Nat.le_add_right _ _
  case exact_iff => exact exactly
  case byLine_iff =>
    refine ⟨?_, byLine⟩
    rintro ⟨all, has, count, -⟩
    rw [← exactly, ← has.length_eq, count]

/-- A listing is one line for the heading and one for each instruction if and only if no name that
it shows has a line break. -/
theorem exists_listing_byLine_iff (heap : Heap) (unit : Blueprint)
    (ends : ∀ value ∈ unit.constants, heap.Ends value) :
    ∃ text, unit.listing? heap = some text ∧ unit.ListsLines heap text := by
  obtain ⟨text, listed⟩ := exists_listing ends
  exact ⟨text, listed, listsLines_of_listed listed⟩

def citing : Blueprint :=
  { name := "citing", locals := ["a"], constants := #[.str "one\ntwo", .cell 0, .code 0],
    instructions := #[.loadConst 0, .loadConst 1, .loadConst 2, .loadLocal 0, .returnValue] }

def cited : Heap := { codes := ⟨#[citing]⟩, cells := ⟨#[some (.str "three\nfour")]⟩ }

private theorem citing_ends : ∀ value ∈ citing.constants, cited.Ends value := by
  intro value member
  simp only [citing, List.mem_toArray, List.mem_cons, List.not_mem_nil, or_false] at member
  obtain rfl | rfl | rfl := member
  · exact .plain nofun
  · exact .filled rfl (.plain nofun)
  · exact .plain nofun

private theorem citing_shows {name : String} (shown : citing.Shows cited name) :
    name ∈ ["citing", "<unknown>", "a"] := by
  cases shown with
  | unit | file => decide
  | line member shown =>
    simp only [citing, List.mem_toArray, List.mem_cons, List.not_mem_nil, or_false] at member
    obtain rfl | rfl | rfl | rfl | rfl := member
    · obtain ⟨⟨⟩⟩ | ⟨-, value, held, inner⟩ := (Instruction.shows_iff rfl).mp shown
      cases held
      cases inner
    · obtain ⟨⟨⟩⟩ | ⟨-, value, held, inner⟩ := (Instruction.shows_iff rfl).mp shown
      cases held
      cases inner with
      | content held inner =>
        cases held
        cases inner
    · obtain ⟨⟨⟩⟩ | ⟨-, value, held, inner⟩ := (Instruction.shows_iff rfl).mp shown
      cases held
      cases inner <;> decide
    · obtain ⟨⟨⟩⟩ | ⟨⟨⟩, -⟩ := (Instruction.shows_iff rfl).mp shown
      decide
    · exact absurd shown (Instruction.not_shows rfl)

theorem citing_listed :
    (∀ value ∈ citing.constants, cited.Ends value) ∧
      ∃ text, citing.listing? cited = some text ∧ breaks text = 6 ∧ citing.ListedByLine text := by
  obtain ⟨text, listed, lists⟩ := exists_listing_byLine_iff cited citing citing_ends
  have plain : ∀ name ∈ ["citing", "<unknown>", "a"], Unbroken name := by decide
  have unbroken (name : String) (shown : citing.Shows cited name) := plain name (citing_shows shown)
  exact ⟨citing_ends, text, listed, lists.exact_iff.mpr unbroken, lists.byLine_iff.mpr unbroken⟩

def breaking : Blueprint :=
  { name := "breaking", locals := ["a\nb"], instructions := #[.loadLocal 0, .returnValue] }

theorem breaking_not_byLine :
    breaking.Accepted ∧ ∃ text, breaking.listing? {} = some text ∧
      HasLines text ["code breaking (<unknown>):", "   0 LoadFast(0)                  (a", "b)",
        "   1 ReturnValue"] ∧
      ¬breaking.ListedByLine text := by
  refine ⟨⟨"breaking", [.locals ["a\nb"], .instructions breaking.instructions.toList], rfl⟩,
    "code breaking (<unknown>):\n   0 LoadFast(0)                  (a\nb)\n   1 ReturnValue\n",
    by decide, ⟨by decide, by decide⟩, ?_⟩
  rintro ⟨lines, has, count, -⟩
  have four := has.length_eq
  rw [count] at four
  exact absurd four (by decide)

end Blueprint

end Interpose
