import Interpose.Rendering

/-! What is known about the replacements of a unit: nothing yet, that it is to be left alone, or the
replacements found so far. Guards are names of checks that the host keeps; a cache stores them and
never runs one. -/

namespace Interpose

abbrev GuardId := Nat

/-- A unit to run in place of another, and the guard it was offered with. -/
structure Replacement where
  guard : GuardId
  code : CodeId
deriving DecidableEq, Repr

inductive CacheState where
  | empty
  | skip
  /-- Replacements, the oldest first. -/
  | entries (oldestFirst : List Replacement)
deriving DecidableEq, Repr, Inhabited

namespace CacheState

def oldestFirst : CacheState → List Replacement
  | .entries replacements => replacements
  | _ => []

def newestFirst (state : CacheState) : List Replacement := state.oldestFirst.reverse

def length (state : CacheState) : Nat := state.oldestFirst.length

def isEmpty (state : CacheState) : Bool := state.length == 0

def isSkip : CacheState → Bool
  | .skip => true
  | _ => false

def head? (state : CacheState) : Option Replacement := state.newestFirst.head?

/-- The state with one more replacement, which is the newest. A unit that was to be left alone
starts a list of its own. -/
def prepend (state : CacheState) (replacement : Replacement) : CacheState :=
  .entries (state.oldestFirst ++ [replacement])

@[simp] theorem newestFirst_prepend (state : CacheState) (replacement : Replacement) :
    (state.prepend replacement).newestFirst = replacement :: state.newestFirst := by
  simp [prepend, newestFirst, oldestFirst]

@[simp] theorem length_prepend (state : CacheState) (replacement : Replacement) :
    (state.prepend replacement).length = state.length + 1 := by
  simp [prepend, length, oldestFirst]

end CacheState

def Replacement.detail (heap : Heap) (replacement : Replacement) : String :=
  "GuardedCode \x7b code: " ++ Text.quote (heap.codeName replacement.code) ++ " \x7d"

def Replacement.entryDetail (heap : Heap) (replacement : Replacement) : String :=
  "CacheEntry \x7b code: " ++ Text.quote (heap.codeName replacement.code) ++ " \x7d"

def CacheState.detail (heap : Heap) : CacheState → String
  | .empty => "Empty"
  | .skip => "Skip"
  | .entries replacements =>
    "Entries(" ++ listText (replacements.map (·.entryDetail heap)) ++ ")"

end Interpose
