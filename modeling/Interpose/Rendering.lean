import Interpose.Code.Builder
import Interpose.Decimal.Positional
import Interpose.Fault
import Interpose.Heap
import Interpose.Text.Quoted

/-! The texts of values, units and faults. The plain text of a value shows a string as it is and a
cell without its content; the detailed text quotes strings and follows cells. A value that reaches
itself through cells has no detailed text, because following it would not end. -/

namespace Interpose

namespace Heap

def display (heap : Heap) : Value → String
  | .nil => "nil"
  | .bool true => "true"
  | .bool false => "false"
  | .int n => Decimal.ofInt n.toInt
  | .float x => Decimal.ofBinary64 x
  | .str s => s
  | .code id => "<code " ++ (heap.code id).name ++ " at " ++ (heap.code id).filename ++ ">"
  | .function f => "<function " ++ heap.codeName f.code ++ ">"
  | .native n => "<builtin " ++ n.name ++ ">"
  | .cell _ => "<cell>"

/-- The detailed text of a value from which fewer cells than the fuel can be followed. -/
def detailWithin (heap : Heap) : Nat → Value → Option String
  | _, .str s => some (Text.quote s)
  | 0, .cell _ => none
  | fuel + 1, .cell id =>
    match heap.cell? id with
    | none => some "Cell(None)"
    | some content => (heap.detailWithin fuel content).map fun text => "Cell(Some(" ++ text ++ "))"
  | _, value => some (heap.display value)

/-- The detailed text of a value. Following more cells than there are means going round in a
cycle. -/
def detail? (heap : Heap) (value : Value) : Option String :=
  heap.detailWithin (heap.cells.size + 1) value

def slotDetail? (heap : Heap) : Option Value → Option String
  | none => some "None"
  | some value => (heap.detail? value).map fun text => "Some(" ++ text ++ ")"

end Heap

def listText (items : List String) : String := "[" ++ ", ".intercalate items ++ "]"

def Blueprint.detail (unit : Blueprint) : String :=
  "Code \x7b name: " ++ Text.quote unit.name ++
  ", filename: " ++ Text.quote unit.filename ++
  ", argcount: " ++ Decimal.ofNat unit.argumentCount ++
  ", nlocals: " ++ Decimal.ofNat unit.locals.length ++
  ", ncells: " ++ Decimal.ofNat unit.cells.length ++
  ", nfrees: " ++ Decimal.ofNat unit.frees.length ++
  ", instrs: " ++ Decimal.ofNat unit.instructions.size ++ " \x7d"

/-- A table of names shows only how many there are. -/
def Bindings.detail (bindings : Bindings Value) : String :=
  "Namespace(" ++ Decimal.ofNat bindings.size ++ " names)"

def BinaryOperator.text : BinaryOperator → String
  | .add => "Add"
  | .sub => "Sub"
  | .mul => "Mul"
  | .div => "Div"
  | .floorDiv => "FloorDiv"
  | .mod => "Mod"

def Comparison.text : Comparison → String
  | .eq => "Eq"
  | .ne => "Ne"
  | .lt => "Lt"
  | .le => "Le"
  | .gt => "Gt"
  | .ge => "Ge"

/-- The message of a fault. Only a raised value can be without one, when its own text is endless. -/
def Fault.message? (heap : Heap) : Fault → Option String
  | .raised value => (heap.detail? value).map ("raised " ++ ·)
  | .integerOverflow operator => some ("OverflowError: integer " ++ operator.text ++ " overflow")
  | .negationOverflow => some "OverflowError: integer negation"
  | .absoluteOverflow n => some ("OverflowError: abs() of " ++ Decimal.ofInt n.toInt)
  | .repeatedTooLong bytes count =>
    some ("OverflowError: repeated string is too long (" ++ Decimal.ofNat bytes ++ " * " ++
      Decimal.ofInt count.toInt ++ ")")
  | .divisionByZero => some "ZeroDivisionError: division by zero"
  | .floatDivisionByZero => some "ZeroDivisionError: float division by zero"
  | .unsupportedOperands operator left right =>
    some ("TypeError: unsupported operand types for " ++ operator.text ++ ": '" ++ left.name ++
      "' and '" ++ right.name ++ "'")
  | .unsupportedOperand operand =>
    some ("TypeError: bad operand type for unary -: '" ++ operand.name ++ "'")
  | .unorderedOperands comparison left right =>
    some ("TypeError: '" ++ comparison.text ++ "' not supported between '" ++ left.name ++
      "' and '" ++ right.name ++ "'")
  | .unboundLocal name =>
    some ("UnboundLocalError: local variable '" ++ name ++ "' referenced before assignment")
  | .unboundCell name =>
    some ("NameError: free variable '" ++ name ++ "' referenced before assignment")
  | .undefinedName name => some ("NameError: name '" ++ name ++ "' is not defined")
  | .stackUnderflow unit position =>
    some (unit ++ ": stack underflow at " ++ Decimal.ofNat position)
  | .nothingToDuplicate unit => some (unit ++ ": stack underflow")
  | .ranPastEnd unit => some (unit ++ ": execution ran past the last instruction")
  | .noCell unit index name =>
    some (unit ++ ": deref slot " ++ Decimal.ofNat index ++ " ('" ++ name ++ "') holds no cell")
  | .closureOfNonCell found => some ("MakeFunction expects cells, got " ++ found.name)
  | .functionOfNonCode unit => some (unit ++ ": MakeFunction constant is not code")
  | .notCallable callee => some ("TypeError: '" ++ callee.name ++ "' object is not callable")
  | .argumentMismatch unit expected given =>
    some ("TypeError: " ++ unit ++ "() takes " ++ Decimal.ofNat expected ++
      " positional arguments but " ++ Decimal.ofNat given ++ " were given")
  | .closureMismatch unit given expected =>
    some (unit ++ ": closure has " ++ Decimal.ofNat given ++ " cells, code expects " ++
      Decimal.ofNat expected)
  | .recursionLimit unit =>
    some ("RecursionError: maximum recursion depth exceeded in " ++ unit)
  | .arityMismatch routine expected given =>
    some ("TypeError: " ++ routine ++ "() takes exactly " ++ Decimal.ofNat expected ++
      " argument(s) (" ++ Decimal.ofNat given ++ " given)")
  | .noAbsolute operand =>
    some ("TypeError: bad operand type for abs(): '" ++ operand.name ++ "'")
  | .noLength operand =>
    some ("TypeError: object of type '" ++ operand.name ++ "' has no len()")
  | .maximumOfNone => some "TypeError: max expected at least 1 argument, got 0"
  | .noMaximum candidate best =>
    some ("TypeError: '>' not supported between '" ++ candidate.name ++ "' and '" ++ best.name ++
      "'")
  | .fewerLocals replacement declared required unit =>
    some ("replacement " ++ replacement ++ " declares " ++ Decimal.ofNat declared ++
      " locals, fewer than the " ++ Decimal.ofNat required ++ " of " ++ unit)
  | .otherCells replacement cells frees unit requiredCells requiredFrees =>
    some ("replacement " ++ replacement ++ " has " ++ Decimal.ofNat cells ++ " cells / " ++
      Decimal.ofNat frees ++ " frees, " ++ unit ++ " has " ++ Decimal.ofNat requiredCells ++
      " / " ++ Decimal.ofNat requiredFrees)
  | .slotsExhausted users =>
    some ("no more extra slots: " ++ Decimal.ofNat users ++ " users already registered")
  | .hosted text => some text

def BuildFault.message : BuildFault → String
  | .parametersExceedLocals unit parameters locals =>
    unit ++ ": argcount " ++ Decimal.ofNat parameters ++ " exceeds local count " ++
      Decimal.ofNat locals
  | .emptyBody unit => unit ++ ": empty instruction stream"
  | .outOfRange unit position operand index available =>
    unit ++ "@" ++ Decimal.ofNat position ++ ": " ++ operand.description ++ " " ++
      Decimal.ofNat index ++ " out of range (" ++ Decimal.ofNat available ++ " available)"
  | .constantOutOfRange unit position index =>
    unit ++ "@" ++ Decimal.ofNat position ++ ": constant " ++ Decimal.ofNat index ++
      " out of range"
  | .constantNotCode unit position found =>
    unit ++ "@" ++ Decimal.ofNat position ++ ": MakeFunction constant is a " ++ found.name ++
      ", expected code"

end Interpose
