import Interpose.Operation
import Interpose.Rendering

/-! The native functions of every interpreter: absolute value, length, maximum and text. -/

namespace Interpose.Builtin

/-- The names under which the routines are bound, in the order of binding. -/
def table : List Native :=
  [⟨"abs", .abs⟩, ⟨"len", .len⟩, ⟨"max", .max⟩, ⟨"str", .str⟩]

def abs : List Value → Except Fault Value
  | [.int n] =>
    match Integer.abs? n with
    | some m => .ok (.int m)
    | none => .error (.absoluteOverflow n)
  | [.float x] => .ok (.float x.abs)
  | [other] => .error (.noAbsolute other.kind)
  | arguments => .error (.arityMismatch "abs" 1 arguments.length)

def len : List Value → Except Fault Value
  | [.str s] => .ok (.int (Int64.ofNat s.length))
  | [other] => .error (.noLength other.kind)
  | arguments => .error (.arityMismatch "len" 1 arguments.length)

/-- Whether a number is greater than another; no value for anything else. -/
def exceeds? (candidate best : Value) : Option Bool :=
  match candidate, best with
  | .int a, .int b => some (decide (b.toInt < a.toInt))
  | _, _ =>
    match candidate.toBinary64?, best.toBinary64? with
    | some a, some b =>
      match a.place?, b.place? with
      | some p, some q => some (decide (q < p))
      | _, _ => some false
    | _, _ => none

/-- The best of a first value and the ones behind it; an earlier one stays until it is exceeded. -/
def maxFrom (best : Value) : List Value → Except Fault Value
  | [] => .ok best
  | candidate :: rest =>
    match exceeds? candidate best with
    | some true => maxFrom candidate rest
    | some false => maxFrom best rest
    | none => .error (.noMaximum candidate.kind best.kind)

def max : List Value → Except Fault Value
  | [] => .error .maximumOfNone
  | first :: rest => maxFrom first rest

def str (heap : Heap) : List Value → Except Fault Value
  | [value] => .ok (.str (heap.display value))
  | arguments => .error (.arityMismatch "str" 1 arguments.length)

end Interpose.Builtin
