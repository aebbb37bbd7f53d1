/-!
# Named fields

The fields of an object stand in the order of their names, each name once. All
operations keep that order, so two objects with the same bindings are equal.
-/

namespace DurableFlow

/-- Values bound to names, in increasing order of the names. -/
abbrev Fields (α : Type u) := List (String × α)

namespace Fields

variable {α : Type u} {β : Type v}

/-- Names increase, hence none occurs twice. -/
def Sorted (fields : Fields α) : Prop := fields.Pairwise fun a b => a.1 < b.1

/-- The value bound to a name. -/
def get? (fields : Fields α) (name : String) : Option α := fields.lookup name

def contains (fields : Fields α) (name : String) : Bool := (get? fields name).isSome

/-- Bind a name, replacing what it was bound to. -/
def insert (fields : Fields α) (name : String) (value : α) : Fields α :=
  match fields with
  | [] => [(name, value)]
  | (n, v) :: rest =>
    if name < n then (name, value) :: (n, v) :: rest
    else if name = n then (name, value) :: rest
    else (n, v) :: insert rest name value

/-- Drop the binding of a name. -/
def erase (fields : Fields α) (name : String) : Fields α :=
  fields.filter fun field => field.1 != name

/-- The bindings of both, those of `delta` winning. -/
def merge (base delta : Fields α) : Fields α :=
  delta.foldl (fun fields field => insert fields field.1 field.2) base

/-- Bind pairs one after another, a later pair winning. -/
def ofList (pairs : List (String × α)) : Fields α := merge [] pairs

def names (fields : Fields α) : List String := fields.map (·.1)

def values (fields : Fields α) : List α := fields.map (·.2)

/-- Apply a function to every value. -/
def mapValues (f : α → β) (fields : Fields α) : Fields β :=
  fields.map fun field => (field.1, f field.2)

@[simp] theorem get?_nil (name : String) : get? ([] : Fields α) name = none := rfl

@[simp] theorem merge_nil (base : Fields α) : merge base [] = base := rfl

@[simp] theorem merge_cons (base : Fields α) (name : String) (value : α) (delta : Fields α) :
    merge base ((name, value) :: delta) = merge (insert base name value) delta := rfl

end Fields

end DurableFlow
