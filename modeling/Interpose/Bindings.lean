/-! Names bound to values. Each name is bound at most once, and binding it again replaces its value
in place; nothing unbinds a name. -/

namespace Interpose

/-- A finite map from names, kept in the order in which the names were first bound. -/
structure Bindings (α : Type) where
  entries : List (String × α) := []
  distinct : (entries.map Prod.fst).Nodup := by simp
deriving DecidableEq

namespace Bindings
variable {α : Type}

instance : Inhabited (Bindings α) := ⟨{}⟩

def empty : Bindings α := {}

def lookup (name : String) : List (String × α) → Option α
  | [] => none
  | (other, value) :: rest => if name = other then some value else lookup name rest

def insert (name : String) (value : α) : List (String × α) → List (String × α)
  | [] => [(name, value)]
  | (other, previous) :: rest =>
    if name = other then (name, value) :: rest else (other, previous) :: insert name value rest

theorem lookup_insert (name other : String) (value : α) (entries : List (String × α)) :
    lookup other (insert name value entries) =
      if other = name then some value else lookup other entries := by
  induction entries with
  | nil => simp [insert, lookup]
  | cons entry rest ih =>
    obtain ⟨head, previous⟩ := entry
    by_cases equal : name = head
    · subst equal
      by_cases same : other = name <;> simp [insert, lookup, same]
    · by_cases same : other = head
      · subst same
        simp [insert, lookup, equal, Ne.symm equal]
      · simp [insert, lookup, equal, same, ih]

theorem map_fst_insert (name : String) (value : α) (entries : List (String × α)) :
    (insert name value entries).map Prod.fst =
      if name ∈ entries.map Prod.fst then entries.map Prod.fst
      else entries.map Prod.fst ++ [name] := by
  induction entries with
  | nil => simp [insert]
  | cons entry rest ih =>
    obtain ⟨head, previous⟩ := entry
    by_cases equal : name = head
    · subst equal; simp [insert]
    · simp only [insert, equal, ↓reduceIte, List.map_cons, ih, List.mem_cons, false_or]
      split <;> simp

private theorem distinct_insert {entries : List (String × α)} (name : String) (value : α)
    (distinct : (entries.map Prod.fst).Nodup) :
    ((insert name value entries).map Prod.fst).Nodup := by
  rw [map_fst_insert]
  split
  · exact distinct
  next absent =>
    rw [List.nodup_append]
    refine ⟨distinct, by simp, ?_⟩
    intro former member new single same
    exact absent (List.mem_singleton.mp single ▸ same ▸ member)

def get? (bindings : Bindings α) (name : String) : Option α := lookup name bindings.entries

def set (bindings : Bindings α) (name : String) (value : α) : Bindings α where
  entries := insert name value bindings.entries
  distinct := distinct_insert name value bindings.distinct

def contains (bindings : Bindings α) (name : String) : Bool := (bindings.get? name).isSome

def size (bindings : Bindings α) : Nat := bindings.entries.length

@[simp] theorem get?_empty (name : String) : (empty : Bindings α).get? name = none := rfl

/-- A binding is seen under its own name and no other. -/
theorem get?_set (bindings : Bindings α) (name other : String) (value : α) :
    (bindings.set name value).get? other =
      if other = name then some value else bindings.get? other :=
  lookup_insert name other value bindings.entries

/-- Binding a name never unbinds one. -/
theorem contains_set (bindings : Bindings α) (name other : String) (value : α) :
    (bindings.set name value).contains other =
      (decide (other = name) || bindings.contains other) := by
  simp only [contains, get?_set]
  split <;> simp_all

/-- The bindings in the order of their names, by code points. -/
def sorted (bindings : Bindings α) : List (String × α) :=
  bindings.entries.mergeSort fun left right => decide (left.1 ≤ right.1)

end Bindings

end Interpose
