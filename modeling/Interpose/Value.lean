import Interpose.Binary64.Basic

/-! The values that code computes with. Code, functions and cells have identity and are named by it;
the other values are what they contain. -/

namespace Interpose

abbrev CodeId := Nat

abbrev CellId := Nat

abbrev NamespaceId := Nat

/-- A code unit bound to the globals it runs against and to the cells of its free variables. -/
structure Function where
  id : Nat
  code : CodeId
  globals : NamespaceId
  closure : List CellId
deriving DecidableEq, Repr

/-- The routine of a native function: one of the engine's own, or one that the host supplies. -/
inductive Routine where
  | abs
  | len
  | max
  | str
  | hosted (index : Nat)
deriving DecidableEq, Repr

/-- A function that is not made of instructions. -/
structure Native where
  name : String
  routine : Routine
deriving DecidableEq, Repr

inductive Value where
  | nil
  | bool (b : Bool)
  | int (n : Int64)
  | float (x : Binary64)
  | str (s : String)
  | code (id : CodeId)
  | function (f : Function)
  | native (n : Native)
  | cell (id : CellId)
deriving DecidableEq

instance : Inhabited Value := ⟨.nil⟩

/-- What a value is, as far as operations tell values apart. -/
inductive Kind where
  | nil
  | bool
  | int
  | float
  | str
  | code
  | function
  | native
  | cell
deriving DecidableEq, Repr

def Kind.name : Kind → String
  | .nil => "nil"
  | .bool => "bool"
  | .int => "int"
  | .float => "float"
  | .str => "str"
  | .code => "code"
  | .function => "function"
  | .native => "builtin"
  | .cell => "cell"

namespace Value

def kind : Value → Kind
  | .nil => .nil
  | .bool _ => .bool
  | .int _ => .int
  | .float _ => .float
  | .str _ => .str
  | .code _ => .code
  | .function _ => .function
  | .native _ => .native
  | .cell _ => .cell

/-- Only nil, false, the zeros and the empty string are false. -/
def isTruthy : Value → Bool
  | .nil => false
  | .bool b => b
  | .int n => n != 0
  | .float x => x.place? != some 0
  | .str s => s != ""
  | _ => true

def toBinary64? : Value → Option Binary64
  | .int n => some (.ofInt n.toInt)
  | .float x => some x
  | _ => none

end Value

end Interpose
