import Interpose.Bindings
import Interpose.Code.Basic
import Interpose.Table

/-! What code shares: units, cells, tables of global names, and the identities of functions. The
heap changes only by edits, and no edit empties a cell, unbinds a name or alters a unit. -/

namespace Interpose

structure Heap where
  codes : Table Blueprint := .empty
  cells : Table (Option Value) := .empty
  namespaces : Table (Bindings Value) := .empty
  /-- The number of functions made so far, which is the identity of the next one. -/
  functions : Nat := 0
deriving DecidableEq, Inhabited

inductive HeapEdit where
  | newCell (content : Option Value)
  | writeCell (cell : CellId) (value : Value)
  | newNamespace
  | bind (space : NamespaceId) (name : String) (value : Value)
  | newFunction
deriving DecidableEq

namespace Heap

def code (heap : Heap) (id : CodeId) : Code := { heap.codes.get id with id }

def codeName (heap : Heap) (id : CodeId) : String := (heap.codes.get id).name

def cell? (heap : Heap) (cell : CellId) : Option Value := heap.cells.get cell

def names (heap : Heap) (space : NamespaceId) : Bindings Value := heap.namespaces.get space

def freshCell (heap : Heap) : CellId := heap.cells.size

def freshNamespace (heap : Heap) : NamespaceId := heap.namespaces.size

def freshFunction (heap : Heap) (code : CodeId) (globals : NamespaceId) (closure : List CellId) :
    Function :=
  { id := heap.functions, code, globals, closure }

def edit (heap : Heap) : HeapEdit → Heap
  | .newCell content => { heap with cells := heap.cells.push content }
  | .writeCell cell value => { heap with cells := heap.cells.set cell (some value) }
  | .newNamespace => { heap with namespaces := heap.namespaces.push .empty }
  | .bind space name value =>
    { heap with namespaces := heap.namespaces.set space ((heap.names space).set name value) }
  | .newFunction => { heap with functions := heap.functions + 1 }

def editAll (heap : Heap) (edits : List HeapEdit) : Heap := edits.foldl edit heap

/-- The heap with one more unit, whose identity is the number of units before. -/
def addCode (heap : Heap) (unit : Blueprint) : Heap :=
  { heap with codes := heap.codes.push unit }

/-- A global name means its binding in the globals, or else its binding in the builtins. -/
def resolve? (heap : Heap) (globals builtins : NamespaceId) (name : String) : Option Value :=
  ((heap.names globals).get? name).or ((heap.names builtins).get? name)

end Heap

end Interpose
