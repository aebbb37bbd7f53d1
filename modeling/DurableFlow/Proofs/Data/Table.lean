import Mathlib.Algebra.BigOperators.Group.List.Basic
import Mathlib.Algebra.GroupWithZero.Nat
import Mathlib.Data.List.Nodup

/-!
# Tables by number

Branches, errands and runs stand in lists by their numbers. A number that occurs once
names one entry, which can be changed and taken out without touching the others.
-/

namespace DurableFlow

namespace Table

variable {α : Type u} {β : Type v} {entries : List (Nat × α)} {id other : Nat} {value : α}

/-- The entries with the ones of a number changed. -/
def update (id : Nat) (change : α → α) (entries : List (Nat × α)) : List (Nat × α) :=
  entries.map fun entry => if entry.1 = id then (id, change entry.2) else entry

theorem update_cons (change : α → α) (rest : List (Nat × α)) :
    update id change ((other, value) :: rest) =
      (if other = id then (id, change value) else (other, value)) :: update id change rest := rfl

/-- The numbers of entries. -/
abbrev ids (entries : List (Nat × α)) : List Nat := entries.map Prod.fst

theorem mem_of_lookup (h : entries.lookup id = some value) : (id, value) ∈ entries := by
  obtain ⟨before, after, split, _⟩ := List.lookup_eq_some_iff.mp h
  simp [split]

theorem lookup_cons (rest : List (Nat × α)) :
    ((other, value) :: rest).lookup id = if id = other then some value else rest.lookup id := by
  rw [List.lookup_cons]
  by_cases same : id = other
  · simp [same]
  · rw [beq_eq_false_iff_ne.mpr same, if_neg same]

/-- An entry whose number occurs once is found by it. -/
theorem lookup_eq_some_iff (unique : (ids entries).Nodup) :
    entries.lookup id = some value ↔ (id, value) ∈ entries := by
  refine ⟨mem_of_lookup, fun member => ?_⟩
  induction entries with
  | nil => simp at member
  | cons entry rest ih =>
    obtain ⟨n, v⟩ := entry
    obtain ⟨fresh, later⟩ := List.nodup_cons.mp unique
    rw [lookup_cons]
    rcases List.mem_cons.mp member with same | further
    · cases same
      simp
    · have different : id ≠ n := by
        rintro rfl
        exact fresh (List.mem_map.mpr ⟨_, further, rfl⟩)
      rw [if_neg different]
      exact ih later further

theorem lookup_eq_none_of_not_mem (absent : id ∉ ids entries) : entries.lookup id = none := by
  rw [List.lookup_eq_none_iff]
  intro entry member
  have different : id ≠ entry.1 := fun same => absent (same ▸ List.mem_map_of_mem member)
  simpa using different

@[simp] theorem ids_update (id : Nat) (change : α → α) (entries : List (Nat × α)) :
    ids (update id change entries) = ids entries := by
  simp only [ids, update, List.map_map]
  apply List.map_congr_left
  intro entry _
  by_cases same : entry.1 = id <;> simp [same]

theorem lookup_update (id other : Nat) (change : α → α) (entries : List (Nat × α)) :
    (update id change entries).lookup other =
      if other = id then (entries.lookup id).map change else entries.lookup other := by
  induction entries with
  | nil => simp [update]
  | cons entry rest ih =>
    obtain ⟨n, v⟩ := entry
    rw [update_cons]
    by_cases same : n = id
    · subst same
      by_cases asked : other = n
      · simp [asked]
      · simp [lookup_cons, asked, ih]
    · by_cases asked : other = id
      · subst asked
        simp [lookup_cons, same, Ne.symm same, ih]
      · simp [lookup_cons, same, asked, ih]

theorem mem_update {entry : Nat × α} {change : α → α} (h : entry ∈ update id change entries) :
    entry ∈ entries ∨ ∃ value, (id, value) ∈ entries ∧ entry = (id, change value) := by
  obtain ⟨old, member, rfl⟩ := List.mem_map.mp h
  obtain ⟨n, v⟩ := old
  by_cases same : n = id
  · subst same
    exact .inr ⟨v, member, by simp⟩
  · exact .inl (by simpa [same] using member)

theorem update_of_not_mem {change : α → α} (absent : id ∉ ids entries) :
    update id change entries = entries := by
  refine (List.map_congr_left fun entry member => ?_).trans (List.map_id' entries)
  have different : entry.1 ≠ id := fun same => absent (same ▸ List.mem_map_of_mem member)
  simp [different]

theorem update_update (id : Nat) (first second : α → α) (entries : List (Nat × α)) :
    update id second (update id first entries) = update id (second ∘ first) entries := by
  simp only [update, List.map_map]
  refine List.map_congr_left fun entry _ => ?_
  by_cases same : entry.1 = id <;> simp [same]

/-- Entries of different numbers are changed in either order. -/
theorem update_comm (different : other ≠ id) (first second : α → α) (entries : List (Nat × α)) :
    update other second (update id first entries) =
      update id first (update other second entries) := by
  simp only [update, List.map_map]
  refine List.map_congr_left fun entry _ => ?_
  by_cases one : entry.1 = id
  · simp [one, different.symm]
  · by_cases two : entry.1 = other <;> simp [one, two, different]

theorem filter_update (id other : Nat) (change : α → α) (entries : List (Nat × α)) :
    (update id change entries).filter (·.1 != other) =
      update id change (entries.filter (·.1 != other)) := by
  rw [update, List.filter_map]
  refine congrArg _ (List.filter_congr fun entry _ => ?_)
  by_cases same : entry.1 = id <;> simp [same]

theorem lookup_filter_ne (id other : Nat) (entries : List (Nat × α)) :
    (entries.filter (·.1 != id)).lookup other =
      if other = id then none else entries.lookup other := by
  induction entries with
  | nil => simp
  | cons entry rest ih =>
    obtain ⟨n, v⟩ := entry
    by_cases same : n = id
    · subst same
      rw [List.filter_cons_of_neg (by simp), ih, lookup_cons]
      by_cases asked : other = n <;> simp [asked]
    · rw [List.filter_cons_of_pos (by simpa using same), lookup_cons, lookup_cons, ih]
      by_cases asked : other = n
      · simp [asked, same]
      · simp [asked]

/-- Of entries whose numbers occur once, the one of a number is kept or left out. -/
theorem lookup_filter (unique : (ids entries).Nodup) (keep : Nat × α → Bool) (id : Nat) :
    (entries.filter keep).lookup id = (entries.lookup id).filter fun value => keep (id, value) := by
  have kept : (ids (entries.filter keep)).Nodup := unique.sublist (List.filter_sublist.map Prod.fst)
  apply Option.ext
  intro value
  rw [lookup_eq_some_iff kept, List.mem_filter, Option.filter_eq_some_iff,
    lookup_eq_some_iff unique]

theorem nodup_filter (unique : (ids entries).Nodup) (keep : Nat × α → Bool) :
    (ids (entries.filter keep)).Nodup :=
  unique.sublist (List.filter_sublist.map Prod.fst)

/-- Changing the entry of a number that occurs once changes one summand. -/
theorem sum_update (unique : (ids entries).Nodup) (found : entries.lookup id = some value)
    (change : α → α) (weight : α → Nat) :
    ((update id change entries).map fun entry => weight entry.2).sum + weight value =
      (entries.map fun entry => weight entry.2).sum + weight (change value) := by
  induction entries with
  | nil => simp at found
  | cons entry rest ih =>
    obtain ⟨n, v⟩ := entry
    obtain ⟨fresh, later⟩ := List.nodup_cons.mp unique
    rw [lookup_cons] at found
    by_cases same : id = n
    · subst same
      obtain rfl : v = value := by simpa using found
      simp only [update_cons, update_of_not_mem fresh, if_true, List.map_cons, List.sum_cons]
      omega
    · rw [if_neg same] at found
      have step := ih later found
      simp only [update_cons, Ne.symm same, if_false, List.map_cons, List.sum_cons]
      omega

/-- Taking the entry of a number that occurs once out takes one summand away. -/
theorem sum_filter_ne (unique : (ids entries).Nodup) (found : entries.lookup id = some value)
    (weight : α → Nat) :
    ((entries.filter (·.1 != id)).map fun entry => weight entry.2).sum + weight value =
      (entries.map fun entry => weight entry.2).sum := by
  induction entries with
  | nil => simp at found
  | cons entry rest ih =>
    obtain ⟨n, v⟩ := entry
    obtain ⟨fresh, later⟩ := List.nodup_cons.mp unique
    rw [lookup_cons] at found
    by_cases same : id = n
    · subst same
      obtain rfl : v = value := by simpa using found
      have untouched : rest.filter (·.1 != id) = rest := by
        apply List.filter_eq_self.mpr
        intro entry member
        have different : entry.1 ≠ id := fun same => fresh (List.mem_map.mpr ⟨_, member, same⟩)
        simpa using different
      simp only [List.filter_cons, bne_self_eq_false, Bool.false_eq_true, if_false, untouched,
        List.map_cons, List.sum_cons]
      omega
    · rw [if_neg same] at found
      have step := ih later found
      simp only [List.filter_cons, bne_iff_ne, ne_eq, Ne.symm same, not_false_eq_true, if_true,
        List.map_cons, List.sum_cons]
      omega

/-- Of entries whose numbers occur once, only one may count. -/
theorem sum_eq_of_lookup (unique : (ids entries).Nodup) (found : entries.lookup id = some value)
    {weight : Nat × α → Nat}
    (others : ∀ entry ∈ entries, entry.1 ≠ id → weight entry = 0) :
    (entries.map weight).sum = weight (id, value) := by
  induction entries with
  | nil => contradiction
  | cons entry rest ih =>
    obtain ⟨n, v⟩ := entry
    obtain ⟨fresh, later⟩ := List.nodup_cons.mp unique
    rw [lookup_cons] at found
    rw [List.map_cons, List.sum_cons]
    split at found
    · rename_i same
      subst same
      cases found
      have nothing : (rest.map weight).sum = 0 := by
        refine List.sum_eq_zero fun n member => ?_
        obtain ⟨entry, there, rfl⟩ := List.mem_map.mp member
        exact others entry (List.mem_cons_of_mem _ there) fun same =>
          fresh (List.mem_map.mpr ⟨entry, there, same⟩)
      rw [nothing, Nat.add_zero]
    · rename_i different
      rw [others _ List.mem_cons_self (Ne.symm different), Nat.zero_add]
      exact ih later found fun entry member => others entry (List.mem_cons_of_mem _ member)

/-- Entries that do not count may be left out. -/
theorem sum_filter_of_zero {weight : Nat × α → Nat} {keep : Nat × α → Bool}
    (dropped : ∀ entry ∈ entries, keep entry = false → weight entry = 0) :
    ((entries.filter keep).map weight).sum = (entries.map weight).sum := by
  induction entries with
  | nil => rfl
  | cons entry rest ih =>
    have later := ih fun entry member => dropped entry (List.mem_cons_of_mem _ member)
    cases kept : keep entry with
    | true => rw [List.filter_cons_of_pos kept, List.map_cons, List.map_cons, List.sum_cons,
        List.sum_cons, later]
    | false =>
      rw [List.filter_cons_of_neg (by simp [kept]), List.map_cons, List.sum_cons,
        dropped entry List.mem_cons_self kept, Nat.zero_add, later]

/-- Values numbered one after another. -/
def enumerate (start : Nat) (values : List α) : List (Nat × α) :=
  values.mapIdx fun i value => (start + i, value)

@[simp] theorem enumerate_nil (start : Nat) : enumerate start ([] : List α) = [] := rfl

theorem enumerate_cons (start : Nat) (value : α) (rest : List α) :
    enumerate start (value :: rest) = (start, value) :: enumerate (start + 1) rest := by
  simp only [enumerate, List.mapIdx_cons, Nat.add_zero, List.cons.injEq, true_and]
  refine congrArg (fun f => rest.mapIdx f) (funext fun i => funext fun value => ?_)
  rw [Nat.add_assoc, Nat.add_comm 1 i]

theorem ids_enumerate (start : Nat) (values : List α) :
    ids (enumerate start values) = List.range' start values.length := by
  induction values generalizing start with
  | nil => rfl
  | cons value rest ih =>
    rw [enumerate_cons, List.length_cons, List.range'_succ, ← ih]
    rfl

theorem lookup_enumerate (start : Nat) (values : List α) (id : Nat) :
    (enumerate start values).lookup id = if start ≤ id then values[id - start]? else none := by
  induction values generalizing start with
  | nil => simp
  | cons value rest ih =>
    rw [enumerate_cons, lookup_cons, ih]
    by_cases first : id = start
    · simp [first]
    · by_cases before : start ≤ id
      · obtain ⟨i, rfl⟩ : ∃ i, id = start + 1 + i := ⟨id - (start + 1), by omega⟩
        have index : start + 1 + i - start = i + 1 := by omega
        simp [index, first, before]
      · have : ¬ start + 1 ≤ id := by omega
        simp [first, before, this]

theorem mem_enumerate {start : Nat} {values : List α} {entry : Nat × α}
    (h : entry ∈ enumerate start values) : entry.2 ∈ values := by
  obtain ⟨i, inside, rfl⟩ := List.mem_mapIdx.mp h
  exact List.getElem_mem inside

end Table

end DurableFlow
