import DurableFlow.Proofs.Data.Merging
import Mathlib.Data.List.Sort

/-!
# Fields are what they bind

Fields whose names increase are the same if they bind the same names to the same values. So a
binding that is there already can be made again, and a binding that is replaced leaves nothing.
-/

namespace DurableFlow

namespace Fields

variable {α : Type} {fields other : Fields α} {name : String} {value : α}

/-- Sorted fields are the same if they bind the same names to the same values. -/
theorem Sorted.ext (sorted : Sorted fields) (sorted' : Sorted other)
    (same : ∀ name, get? fields name = get? other name) : fields = other := by
  have irrefl : Std.Irrefl fun a b : String × α => a.1 < b.1 := ⟨fun a => lt_irrefl a.1⟩
  have antisymm : Std.Antisymm fun a b : String × α => a.1 < b.1 :=
    ⟨fun a b less more => absurd more (lt_asymm less)⟩
  refine List.Pairwise.eq_of_mem_iff sorted sorted' fun entry => ?_
  obtain ⟨name, value⟩ := entry
  rw [← sorted.get?_eq_some_iff, ← sorted'.get?_eq_some_iff, same]

theorem insert_erase (sorted : Sorted fields) (name : String) (value : α) :
    insert (erase fields name) name value = insert fields name value := by
  refine Sorted.ext ((sorted.erase name).insert name value) (sorted.insert name value) fun n => ?_
  rw [get?_insert, get?_insert, get?_erase]
  split <;> rfl

theorem erase_insert (sorted : Sorted fields) (name : String) (value : α) :
    erase (insert fields name value) name = erase fields name := by
  refine Sorted.ext ((sorted.insert name value).erase name) (sorted.erase name) fun n => ?_
  rw [get?_erase, get?_erase, get?_insert]
  split <;> rfl

/-- Fields in which one name is bound anew are the same if they agree on all others. -/
theorem insert_eq_insert_iff (sorted : Sorted fields) (sorted' : Sorted other) :
    insert fields name value = insert other name value ↔ erase fields name = erase other name := by
  constructor
  · intro same
    rw [← erase_insert sorted name value, same, erase_insert sorted']
  · intro same
    rw [← insert_erase sorted, same, insert_erase sorted']

/-- It does not matter whether pairs with different names are put in order before they are bound. -/
theorem merge_ofList {base pairs : Fields α} (sorted : Sorted base)
    (distinct : (names pairs).Nodup) : merge base (ofList pairs) = merge base pairs := by
  refine Sorted.ext (sorted.merge _) (sorted.merge _) fun name => ?_
  rw [get?_merge (sorted_ofList pairs).nodup, get?_merge distinct, get?_ofList distinct]

/-- Bindings that are there already change nothing. -/
theorem merge_eq_of_bound {base pairs : Fields α} (sorted : Sorted base)
    (distinct : (names pairs).Nodup)
    (bound : ∀ field ∈ pairs, get? base field.1 = some field.2) : merge base pairs = base := by
  refine Sorted.ext (sorted.merge pairs) sorted fun name => ?_
  rw [get?_merge distinct]
  cases found : get? pairs name with
  | none => rfl
  | some value => exact (bound _ (mem_of_get? found)).symm

end Fields

end DurableFlow
