import Interpose.Rendering

/-! The listing of a unit: a heading, then one line for every instruction with its position, its
text, and in parentheses what its operand stands for. -/

namespace Interpose

namespace Instruction

private def withOperand (word : String) (operand : String) : String := word ++ "(" ++ operand ++ ")"

private def indexed (word : String) (index : Nat) : String := withOperand word (Decimal.ofNat index)

def text : Instruction → String
  | .loadConst index => indexed "LoadConst" index
  | .loadLocal index => indexed "LoadFast" index
  | .storeLocal index => indexed "StoreFast" index
  | .loadCell index => indexed "LoadDeref" index
  | .storeCell index => indexed "StoreDeref" index
  | .loadClosure index => indexed "LoadClosure" index
  | .loadGlobal index => indexed "LoadGlobal" index
  | .storeGlobal index => indexed "StoreGlobal" index
  | .binary operator => withOperand "BinaryOp" operator.text
  | .compare comparison => withOperand "CompareOp" comparison.text
  | .not => "UnaryNot"
  | .neg => "UnaryNeg"
  | .pop => "PopTop"
  | .duplicate => "DupTop"
  | .jump target => indexed "Jump" target
  | .popJumpIfFalse target => indexed "PopJumpIfFalse" target
  | .popJumpIfTrue target => indexed "PopJumpIfTrue" target
  | .call argumentCount => indexed "Call" argumentCount
  | .makeFunction code freeCount =>
    "MakeFunction \x7b code: " ++ Decimal.ofNat code ++ ", nfree: " ++ Decimal.ofNat freeCount ++
      " \x7d"
  | .raise => "Raise"
  | .returnValue => "ReturnValue"

end Instruction

namespace Listing

def padLeft (width : Nat) (text : String) : String :=
  String.ofList (List.replicate (width - text.length) ' ') ++ text

def padRight (width : Nat) (text : String) : String :=
  text ++ String.ofList (List.replicate (width - text.length) ' ')

/-- What an operand stands for: a variable by its name and a constant by its detailed text. The
outer option is empty when that text is endless, the inner one when there is nothing to show. -/
def hint? (heap : Heap) (unit : Blueprint) (instruction : Instruction) : Option (Option String) :=
  match instruction.operand? with
  | some (.constant, index) =>
    match unit.constants[index]? with
    | some value => (heap.detail? value).map some
    | none => some none
  | some (.localSlot, index) => some unit.locals[index]?
  | some (.deref, index) => some (unit.derefName? index)
  | some (.name, index) => some unit.names[index]?
  | _ => some none

def line (position : Nat) (instruction : Instruction) : Option String → String
  | some hint =>
    padLeft 4 (Decimal.ofNat position) ++ " " ++ padRight 28 instruction.text ++ " (" ++ hint ++ ")"
  | none => padLeft 4 (Decimal.ofNat position) ++ " " ++ instruction.text

def lines? (heap : Heap) (unit : Blueprint) (position : Nat) :
    List Instruction → Option (List String)
  | [] => some []
  | instruction :: rest =>
    (hint? heap unit instruction).bind fun hint =>
      (lines? heap unit (position + 1) rest).map (line position instruction hint :: ·)

def heading (unit : Blueprint) : String := "code " ++ unit.name ++ " (" ++ unit.filename ++ "):"

end Listing

def Blueprint.listing? (heap : Heap) (unit : Blueprint) : Option String :=
  (Listing.lines? heap unit 0 unit.instructions.toList).map fun lines =>
    String.join ((Listing.heading unit :: lines).map (· ++ "\n"))

end Interpose
