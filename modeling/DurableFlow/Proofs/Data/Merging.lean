import DurableFlow.Data.Basic
import DurableFlow.Proofs.Data.Fields
import Mathlib.Data.List.Induction

/-!
# Binding many names

Pairs bound one after another give fields in the order of their names. Of pairs with different
names every one is found again, and fields that are in order already come back as they are. Data
is sorted if all objects in it are in order.
-/

namespace DurableFlow

namespace Fields

variable {α : Type u} {fields base delta : Fields α} {pairs : List (String × α)}

theorem Sorted.merge (sorted : Sorted base) (delta : Fields α) : Sorted (merge base delta) := by
  induction delta generalizing base with
  | nil => exact sorted
  | cons field rest ih => exact ih (sorted.insert field.1 field.2)

theorem sorted_ofList (pairs : List (String × α)) : Sorted (ofList pairs) :=
  Sorted.merge List.Pairwise.nil pairs

theorem mem_merge {field : String × α} (h : field ∈ merge base delta) :
    field ∈ base ∨ field ∈ delta := by
  induction delta generalizing base with
  | nil => exact .inl h
  | cons first rest ih =>
    rcases ih h with early | late
    · rcases mem_insert early with same | old
      · exact .inr (same ▸ List.mem_cons_self)
      · exact .inl old
    · exact .inr (List.mem_cons_of_mem _ late)

theorem mem_of_mem_ofList {field : String × α} (h : field ∈ ofList pairs) : field ∈ pairs :=
  (mem_merge h).resolve_left (by simp)

/-- A name that comes after all others is bound behind them. -/
theorem insert_last {name : String} {value : α} (last : ∀ field ∈ fields, field.1 < name) :
    insert fields name value = fields ++ [(name, value)] := by
  induction fields with
  | nil => rfl
  | cons field rest ih =>
    obtain ⟨n, v⟩ := field
    have less : n < name := last _ List.mem_cons_self
    rw [insert, if_neg (not_lt.mpr less.le), if_neg (ne_of_gt less),
      ih fun other member => last other (List.mem_cons_of_mem _ member), List.cons_append]

theorem merge_append (sorted : Sorted (base ++ delta)) : merge base delta = base ++ delta := by
  induction delta generalizing base with
  | nil => rw [merge_nil, List.append_nil]
  | cons field rest ih =>
    obtain ⟨name, value⟩ := field
    have last : ∀ other ∈ base, other.1 < name := fun other member =>
      (List.pairwise_append.mp sorted).2.2 other member _ List.mem_cons_self
    rw [merge_cons, insert_last last]
    rw [← List.singleton_append, ← List.append_assoc] at sorted
    rw [ih sorted, List.append_assoc, List.singleton_append]

/-- Fields that are in order come back as they are. -/
theorem Sorted.ofList_eq (sorted : Sorted fields) : ofList fields = fields :=
  have alone : Sorted ([] ++ fields) := sorted
  merge_append alone

theorem get?_merge (distinct : (names delta).Nodup) (base : Fields α) (name : String) :
    get? (merge base delta) name = (get? delta name).or (get? base name) := by
  induction delta generalizing base with
  | nil => rfl
  | cons field rest ih =>
    obtain ⟨n, v⟩ := field
    obtain ⟨fresh, distinct⟩ := List.nodup_cons.mp distinct
    rw [merge_cons, ih distinct, get?_insert, get?_cons]
    by_cases same : name = n
    · subst same
      have absent : get? rest name = none := by
        rw [← Option.not_isSome_iff_eq_none, Option.isSome_iff_exists]
        rintro ⟨value, found⟩
        exact fresh (List.mem_map.mpr ⟨_, mem_of_get? found, rfl⟩)
      simp [absent]
    · simp [same]

/-- Of pairs with different names every one is found. -/
theorem get?_ofList (distinct : (names pairs).Nodup) (name : String) :
    get? (ofList pairs) name = get? pairs name := by
  rw [ofList, get?_merge distinct, get?_nil, Option.or_none]

theorem merge_merge (base first second : Fields α) :
    merge base (first ++ second) = merge (merge base first) second :=
  List.foldl_append

/-- Of bindings to one name the last one counts. -/
theorem get?_merge_reverse (base delta : Fields α) (name : String) :
    get? (merge base delta) name = (get? delta.reverse name).or (get? base name) := by
  induction delta using List.reverseRecOn with
  | nil => rfl
  | append_singleton delta field ih =>
    obtain ⟨n, v⟩ := field
    rw [merge_merge, merge_cons, merge_nil, get?_insert, ih, List.reverse_append,
      List.reverse_singleton, List.singleton_append, get?_cons]
    split <;> rfl

theorem get?_merge_of_not_mem {name : String} (absent : name ∉ names delta) (base : Fields α) :
    get? (merge base delta) name = get? base name := by
  have unbound : get? delta.reverse name = none := by
    rw [Option.eq_none_iff_forall_not_mem]
    intro value bound
    exact absent (List.mem_map.mpr ⟨_, List.mem_reverse.mp (mem_of_get? bound), rfl⟩)
  rw [get?_merge_reverse, unbound, Option.none_or]

theorem isSome_get? {name : String} (bound : name ∈ names fields) :
    (get? fields name).isSome = true := by
  induction fields with
  | nil => cases bound
  | cons field rest ih =>
    obtain ⟨n, v⟩ := field
    rw [get?_cons]
    split
    · rfl
    · rename_i different
      exact ih ((List.mem_cons.mp bound).resolve_left different)

theorem get?_merge_of_mem {name : String} (bound : name ∈ names delta) (base other : Fields α) :
    get? (merge base delta) name = get? (merge other delta) name := by
  have found : (get? delta.reverse name).isSome = true := by
    apply isSome_get?
    rw [names, List.map_reverse, List.mem_reverse]
    exact bound
  rw [get?_merge_reverse, get?_merge_reverse, Option.or_of_isSome found,
    Option.or_of_isSome found]

section Many

variable {ι : Type v} {writes : ι → Fields α} {first second : List ι} {name : String}

/-- What only one writer binds has the value that this writer binds it to, once it has. -/
theorem get?_merge_flatMap {writer : ι} (member : writer ∈ first)
    (bound : name ∈ names (writes writer))
    (sole : ∀ other ∈ first, name ∈ names (writes other) → other = writer) (base : Fields α) :
    get? (merge base (first.flatMap writes)) name = get? (merge base (writes writer)) name := by
  induction first generalizing base with
  | nil => cases member
  | cons one rest ih =>
    rw [List.flatMap_cons, merge_merge]
    by_cases later : writer ∈ rest
    · rw [ih later fun other member => sole other (List.mem_cons_of_mem _ member)]
      exact get?_merge_of_mem bound _ _
    · obtain rfl : writer = one := (List.mem_cons.mp member).resolve_right later
      apply get?_merge_of_not_mem
      intro again
      obtain ⟨field, there, rfl⟩ := List.mem_map.mp again
      obtain ⟨other, among, writes⟩ := List.mem_flatMap.mp there
      obtain rfl := sole other (List.mem_cons_of_mem _ among) (List.mem_map_of_mem writes)
      exact later among

/-- Writers that bind different names may come in any order, and each as often as it likes. -/
theorem get?_merge_flatMap_congr (same : ∀ writer, writer ∈ first ↔ writer ∈ second)
    (apart : ∀ writer ∈ first, ∀ other ∈ first, name ∈ names (writes writer) →
      name ∈ names (writes other) → other = writer) (base : Fields α) :
    get? (merge base (first.flatMap writes)) name =
      get? (merge base (second.flatMap writes)) name := by
  by_cases bound : ∃ writer ∈ first, name ∈ names (writes writer)
  · obtain ⟨writer, member, bound⟩ := bound
    have sole := fun other among => apart writer member other among bound
    rw [get?_merge_flatMap member bound sole, get?_merge_flatMap ((same writer).mp member) bound
      fun other among => sole other ((same other).mpr among)]
  · have absent : ∀ writers : List ι, (∀ writer ∈ writers, writer ∈ first) →
        name ∉ names (writers.flatMap writes) := by
      intro writers among again
      obtain ⟨field, there, rfl⟩ := List.mem_map.mp again
      obtain ⟨writer, member, writes⟩ := List.mem_flatMap.mp there
      exact bound ⟨writer, among writer member, List.mem_map_of_mem writes⟩
    rw [get?_merge_of_not_mem (absent first fun _ member => member),
      get?_merge_of_not_mem (absent second fun writer member => (same writer).mpr member)]

end Many

theorem Sorted.nodup (sorted : Sorted fields) : (names fields).Nodup :=
  List.pairwise_map.mpr (sorted.imp fun less => ne_of_lt less)

/-- Fields whose names differ are found by them, in whatever order they stand. -/
theorem get?_eq_some_iff (distinct : (names fields).Nodup) {name : String} {value : α} :
    get? fields name = some value ↔ (name, value) ∈ fields := by
  refine ⟨mem_of_get?, fun member => ?_⟩
  induction fields with
  | nil => contradiction
  | cons field rest ih =>
    obtain ⟨n, v⟩ := field
    obtain ⟨fresh, distinct⟩ := List.nodup_cons.mp distinct
    rw [get?_cons]
    rcases List.mem_cons.mp member with same | further
    · cases same
      rw [if_pos rfl]
    · have different : name ≠ n := by
        rintro rfl
        exact fresh (List.mem_map.mpr ⟨_, further, rfl⟩)
      rw [if_neg different]
      exact ih distinct further

/-- Fields of which some are left out by their names have the others as before. -/
theorem get?_filter (keep : String → Bool) (fields : Fields α) (name : String) :
    get? (fields.filter fun field => keep field.1) name =
      if keep name = true then get? fields name else none := by
  induction fields with
  | nil => simp
  | cons field rest ih =>
    obtain ⟨n, v⟩ := field
    rw [List.filter_cons]
    by_cases same : name = n
    · subst same
      by_cases kept : keep name = true <;> simp [kept, get?_cons, ih]
    · by_cases kept : keep n = true <;> simp [kept, get?_cons, ih, same]

theorem Sorted.mapValues {β : Type v} (sorted : Sorted fields) (f : α → β) :
    Sorted (mapValues f fields) :=
  List.pairwise_map.mpr sorted

theorem get?_mapValues {β : Type v} (f : α → β) (fields : Fields α) (name : String) :
    get? (mapValues f fields) name = (get? fields name).map f := by
  induction fields with
  | nil => rfl
  | cons field rest ih =>
    obtain ⟨n, v⟩ := field
    show get? ((n, f v) :: mapValues f rest) name = _
    rw [get?_cons, get?_cons, ih]
    split <;> rfl

end Fields

namespace Data

mutual

/-- All objects in data have their names in order. -/
def Sorted : Data → Prop
  | .arr items => SortedItems items
  | .obj fields => Fields.Sorted fields ∧ SortedFields fields
  | _ => True

def SortedItems : List Data → Prop
  | [] => True
  | v :: rest => v.Sorted ∧ SortedItems rest

def SortedFields : List (String × Data) → Prop
  | [] => True
  | (_, v) :: rest => v.Sorted ∧ SortedFields rest

end

theorem sortedFields_iff {fields : List (String × Data)} :
    SortedFields fields ↔ ∀ field ∈ fields, field.2.Sorted := by
  induction fields with
  | nil => simp [SortedFields]
  | cons field rest ih => simp only [SortedFields, List.forall_mem_cons, ih]

theorem sortedItems_iff {items : List Data} : SortedItems items ↔ ∀ v ∈ items, v.Sorted := by
  induction items with
  | nil => simp [SortedItems]
  | cons v rest ih => simp only [SortedItems, List.forall_mem_cons, ih]

theorem sorted_texts (items : List String) : (texts items).Sorted := by
  refine sortedItems_iff.mpr fun v member => ?_
  obtain ⟨s, -, rfl⟩ := List.mem_map.mp member
  trivial

theorem sorted_ofPairs {pairs : List (String × Data)} (sorted : ∀ field ∈ pairs, field.2.Sorted) :
    (ofPairs pairs).Sorted :=
  ⟨Fields.sorted_ofList pairs,
    sortedFields_iff.mpr fun field member => sorted field (Fields.mem_of_mem_ofList member)⟩

end Data

end DurableFlow
