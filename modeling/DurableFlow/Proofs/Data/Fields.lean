import DurableFlow.Data.Fields
import Mathlib.Data.List.Nodup
import Mathlib.Data.String.Basic

/-!
# Looking up named fields

What the operations on named fields do to a look-up. Fields whose names increase have
each name once, so a binding is found exactly when it is among them.
-/

namespace DurableFlow

namespace Fields

variable {α : Type u} {fields : Fields α} {name other : String} {value bound : α}

theorem get?_cons (rest : Fields α) :
    get? ((other, bound) :: rest) name = if name = other then some bound else get? rest name := by
  rw [get?, List.lookup_cons, get?]
  by_cases same : name = other
  · simp [same]
  · rw [beq_eq_false_iff_ne.mpr same, if_neg same]

theorem mem_of_get? (h : get? fields name = some value) : (name, value) ∈ fields := by
  induction fields with
  | nil => simp at h
  | cons field rest ih =>
    obtain ⟨other, bound⟩ := field
    rw [get?_cons] at h
    split at h
    · rename_i same
      cases h
      exact same ▸ List.mem_cons_self
    · exact List.mem_cons_of_mem _ (ih h)

theorem mem_values_of_get? (h : get? fields name = some value) : value ∈ values fields :=
  List.mem_map_of_mem (mem_of_get? h)

theorem get?_insert (fields : Fields α) (name other : String) (value : α) :
    get? (insert fields name value) other = if other = name then some value
      else get? fields other := by
  induction fields with
  | nil => simp [insert, get?_cons]
  | cons field rest ih =>
    obtain ⟨n, v⟩ := field
    simp only [insert]
    split
    · simp [get?_cons]
    · split
      · rename_i same
        subst same
        simp only [get?_cons]
        split <;> rfl
      · rename_i different
        simp only [get?_cons, ih]
        split
        · rename_i same
          simp [same, Ne.symm different]
        · rfl

@[simp] theorem get?_insert_self (fields : Fields α) (name : String) (value : α) :
    get? (insert fields name value) name = some value := by
  simp [get?_insert]

theorem get?_erase (fields : Fields α) (name other : String) :
    get? (erase fields name) other = if other = name then none else get? fields other := by
  induction fields with
  | nil => simp [erase]
  | cons field rest ih =>
    obtain ⟨n, v⟩ := field
    simp only [erase, List.filter_cons] at ih ⊢
    by_cases same : n = name
    · subst same
      simp only [bne_self_eq_false, Bool.false_eq_true, if_false, ih, get?_cons]
      split <;> rfl
    · simp only [bne_iff_ne, ne_eq, same, not_false_eq_true, if_true, get?_cons, ih]
      split
      · rename_i found
        simp [found, same]
      · rfl

/-- Among sorted fields a binding is found exactly when it is there. -/
theorem Sorted.get?_eq_some_iff (sorted : Sorted fields) :
    get? fields name = some value ↔ (name, value) ∈ fields := by
  refine ⟨mem_of_get?, fun member => ?_⟩
  induction fields with
  | nil => simp at member
  | cons field rest ih =>
    obtain ⟨n, v⟩ := field
    obtain ⟨first, later⟩ := List.pairwise_cons.mp sorted
    rw [get?_cons]
    rcases List.mem_cons.mp member with same | further
    · cases same
      simp
    · have less : n < name := first _ further
      rw [if_neg (ne_of_gt less)]
      exact ih later further

theorem Sorted.filter (sorted : Sorted fields) (keep : String × α → Bool) :
    Sorted (fields.filter keep) :=
  List.Pairwise.filter keep sorted

/-- If values are kept by what they are known by, one at most is known by a name. -/
theorem Sorted.filter_values (sorted : Sorted fields) {key : α → String}
    (keyed : ∀ name value, get? fields name = some value → key value = name) (name : String) :
    (values fields).filter (key · == name) = (get? fields name).toList := by
  induction fields with
  | nil => rfl
  | cons field rest ih =>
    obtain ⟨n, v⟩ := field
    obtain ⟨first, later⟩ := List.pairwise_cons.mp sorted
    have less : ∀ {name value}, get? rest name = some value → n < name :=
      fun found => first _ (mem_of_get? found)
    have own : key v = n := keyed n v (by rw [get?_cons, if_pos rfl])
    have others : (values rest).filter (key · == name) = (get? rest name).toList := by
      refine ih later fun other value found => keyed other value ?_
      rw [get?_cons, if_neg (ne_of_gt (less found)), found]
    rw [get?_cons]
    by_cases same : name = n
    · have absent : get? rest name = none := by
        rw [← Option.not_isSome_iff_eq_none, Option.isSome_iff_exists]
        rintro ⟨value, found⟩
        exact absurd same (ne_of_gt (less found))
      rw [absent] at others
      rw [if_pos same]
      show (v :: values rest).filter (key · == name) = _
      rw [List.filter_cons_of_pos (by simp [own, same]), others]
      rfl
    · rw [if_neg same]
      show (v :: values rest).filter (key · == name) = _
      rw [List.filter_cons_of_neg (by simp [own, Ne.symm same]), others]

theorem Sorted.erase (sorted : Sorted fields) (name : String) : Sorted (erase fields name) :=
  sorted.filter _

theorem mem_insert {field : String × α} (h : field ∈ insert fields name value) :
    field = (name, value) ∨ field ∈ fields := by
  induction fields with
  | nil => simpa [insert] using h
  | cons first rest ih =>
    obtain ⟨n, v⟩ := first
    simp only [insert] at h
    split at h
    · simpa using h
    · split at h
      · rcases List.mem_cons.mp h with same | further
        · exact .inl same
        · exact .inr (List.mem_cons_of_mem _ further)
      · rcases List.mem_cons.mp h with same | further
        · exact .inr (same ▸ List.mem_cons_self)
        · exact (ih further).imp_right (List.mem_cons_of_mem _)

theorem Sorted.insert (sorted : Sorted fields) (name : String) (value : α) :
    Sorted (insert fields name value) := by
  induction fields with
  | nil => simp [Sorted, Fields.insert]
  | cons field rest ih =>
    obtain ⟨n, v⟩ := field
    obtain ⟨first, later⟩ := List.pairwise_cons.mp sorted
    simp only [Fields.insert]
    split
    · rename_i less
      refine List.pairwise_cons.mpr ⟨fun other member => ?_, sorted⟩
      rcases List.mem_cons.mp member with same | further
      · exact same ▸ less
      · exact lt_trans less (first other further)
    · rename_i not_less
      split
      · rename_i same
        subst same
        exact List.pairwise_cons.mpr ⟨first, later⟩
      · rename_i different
        have less : n < name := lt_of_le_of_ne (not_lt.mp not_less) (Ne.symm different)
        refine List.pairwise_cons.mpr ⟨fun other member => ?_, ih later⟩
        rcases mem_insert member with same | further
        · exact same ▸ less
        · exact first other further

end Fields

end DurableFlow
