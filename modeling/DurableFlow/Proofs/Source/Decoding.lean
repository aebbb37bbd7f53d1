import DurableFlow.Proofs.Data.Except
import DurableFlow.Proofs.Data.Merging
import DurableFlow.Source.Decode

/-!
# Decoding data

What decoders make of sources that are data: each reads back what is written for a value of its
type, and a record finds the value of every field that is there. In the other direction, whatever
source data is decoded from, its objects are in order.
-/

namespace DurableFlow

namespace Source

theorem ofFields_eq_map (fields : List (String × Data)) :
    ofFields fields = Fields.mapValues ofData fields := by
  induction fields with
  | nil => rfl
  | cons field rest ih =>
    rw [ofFields, ih]
    rfl

@[simp] theorem lookup_ofFields (fields : List (String × Data)) (name : String) :
    (ofFields fields).lookup name = (Fields.get? fields name).map ofData := by
  rw [ofFields_eq_map]
  exact Fields.get?_mapValues ofData fields name

theorem isAbsent_ofData (v : Data) : (ofData v).isAbsent = v.isNull := by
  cases v <;> rfl

mutual

/-- No type in data is still open. -/
theorem settled_ofData (v : Data) : (ofData v).settled = ofData v := by
  cases v with
  | arr items => rw [ofData, settled, settled_ofItems items]
  | obj fields => rw [ofData, settled, settled_ofFields fields]
  | _ => rfl
termination_by structural v

theorem settled_ofItems (items : List Data) : settledItems (ofItems items) = ofItems items := by
  cases items with
  | nil => rfl
  | cons v rest => rw [ofItems, settledItems, settled_ofData v, settled_ofItems rest]
termination_by structural items

theorem settled_ofFields (fields : List (String × Data)) :
    settledFields (ofFields fields) = ofFields fields := by
  cases fields with
  | nil => rfl
  | cons field rest => rw [ofFields, settledFields, settled_ofData field.2, settled_ofFields rest]
termination_by structural fields

end

end Source

namespace Decode

open Source

section Values

mutual

/-- Data in order is decoded as itself. -/
theorem data_ofData (v : Data) (sorted : v.Sorted) : data (.ofData v) = .ok v := by
  cases v with
  | arr items =>
    simp only [ofData, data, dataItems_ofItems items sorted, stopError]
  | obj fields =>
    simp only [ofData, data, dataFields_ofFields fields sorted.2, stopError, sorted.1.ofList_eq]
  | _ => rfl
termination_by structural v

theorem dataItems_ofItems (items : List Data) (sorted : Data.SortedItems items) :
    dataItems (ofItems items) = .ok items := by
  cases items with
  | nil => rfl
  | cons v rest =>
    simp only [ofItems, dataItems, data_ofData v sorted.1, dataItems_ofItems rest sorted.2]
termination_by structural items

theorem dataFields_ofFields (fields : List (String × Data)) (sorted : Data.SortedFields fields) :
    dataFields (ofFields fields) = .ok fields := by
  cases fields with
  | nil => rfl
  | cons field rest =>
    simp only [ofFields, dataFields, data_ofData field.2 sorted.1,
      dataFields_ofFields rest sorted.2]
termination_by structural fields

end

mutual

/-- Nothing in data stops the reading of it. -/
theorem skip_ofData (v : Data) : skip (.ofData v) = .ok () := by
  cases v with
  | arr items =>
    rw [ofData, skip, skip_ofItems items]
    rfl
  | obj fields =>
    rw [ofData, skip, skip_ofFields fields]
    rfl
  | _ => rfl
termination_by structural v

theorem skip_ofItems (items : List Data) : skip.skipItems (ofItems items) = .ok () := by
  cases items with
  | nil => rfl
  | cons v rest =>
    rw [ofItems, skip.skipItems, skip_ofData v, ok_bind]
    exact skip_ofItems rest
termination_by structural items

theorem skip_ofFields (fields : List (String × Data)) :
    skip.skipFields (ofFields fields) = .ok () := by
  cases fields with
  | nil => rfl
  | cons field rest =>
    rw [ofFields, skip.skipFields, skip_ofData field.2, ok_bind]
    exact skip_ofFields rest
termination_by structural fields

end

variable {α : Type} {decode : Decoder α}

theorem nat64_nat {n : Nat} (small : n < 2 ^ (64 : Nat)) : nat64 (.ofData (.nat n)) = .ok n := by
  have held : Number.ofInt (n : Int) = .int n := by
    rw [Number.ofInt, if_pos]
    exact ⟨by rw [Number.minInt]; omega, by rw [Number.intBound]; omega⟩
  have bounds : (0 : Int) ≤ n ∧ (n : Int) < 2 ^ (64 : Nat) := by omega
  rw [Data.nat, held]
  simp only [ofData, nat64, integer, settled, if_pos bounds]
  rfl

theorem list_arr {write : α → Data} {xs : List α}
    (reads : ∀ x ∈ xs, decode (.ofData (write x)) = .ok x) :
    list decode (.ofData (.arr (xs.map write))) = .ok xs := by
  have items : listItems decode (ofItems (xs.map write)) = .ok xs := by
    induction xs with
    | nil => rfl
    | cons x rest ih =>
      obtain ⟨first, later⟩ := List.forall_mem_cons.mp reads
      simp only [List.map_cons, ofItems, listItems, first, ih later]
  simp only [list, ofData, untagged, items, stopError]

theorem list_texts (xs : List String) : list string (.ofData (.texts xs)) = .ok xs :=
  list_arr fun _ _ => rfl

theorem map_obj {write : α → Data} {fields : Fields α} (sorted : Fields.Sorted fields)
    (reads : ∀ field ∈ fields, decode (.ofData (write field.2)) = .ok field.2) :
    map decode (.ofData (.obj (Fields.mapValues write fields))) = .ok fields := by
  have values : mapFields decode (ofFields (Fields.mapValues write fields)) = .ok fields := by
    clear sorted
    induction fields with
    | nil => rfl
    | cons field rest ih =>
      obtain ⟨first, later⟩ := List.forall_mem_cons.mp reads
      show mapFields decode ((field.1, .ofData (write field.2)) ::
        ofFields (Fields.mapValues write rest)) = _
      simp only [mapFields, first, ih later]
  simp only [map, ofData, untagged, values, stopError, sorted.ofList_eq]

theorem map_data {fields : Fields Data} (sorted : (Data.obj fields).Sorted) :
    map data (.ofData (.obj fields)) = .ok fields := by
  have same : Fields.mapValues id fields = fields := List.map_id' fields
  have read : map data (.ofData (.obj (Fields.mapValues id fields))) = .ok fields :=
    map_obj sorted.1 fun field member =>
      data_ofData field.2 (Data.sortedFields_iff.mp sorted.2 field member)
  rwa [same] at read

theorem option_ofData {v : Data} {x : α} (there : v.isNull = false)
    (reads : decode (.ofData v) = .ok x) : option decode (.ofData v) = .ok (some x) := by
  rw [option, isAbsent_ofData, there, reads]
  rfl

end Values

section Records

/-- The fields of a record that have a value. -/
def present (entries : List (String × Option Data)) : List (String × Data) :=
  entries.filterMap fun entry => entry.2.map fun v => (entry.1, v)

/-- If an entry has a value of a field that is looked for, the value passes its check. -/
def Checked (specs : List FieldSpec) (entry : String × Option Data) : Prop :=
  ∀ spec v, specs.find? (·.name == entry.1) = some spec → entry.2 = some v →
    spec.check (.ofData v) = .ok ()

variable {α β : Type} {specs : List FieldSpec} {name : String} {decode : Decoder α}
  {entries : List (String × Option Data)} {fields : List (String × Data)}

theorem mem_present {v : Data} (h : (name, v) ∈ present entries) : (name, some v) ∈ entries := by
  obtain ⟨⟨other, value⟩, member, same⟩ := List.mem_filterMap.mp h
  cases value with
  | none => cases same
  | some value =>
    cases same
    exact member

theorem get?_present (distinct : (entries.map Prod.fst).Nodup) (name : String) :
    Fields.get? (present entries) name = (entries.lookup name).join := by
  induction entries with
  | nil => rfl
  | cons entry rest ih =>
    obtain ⟨other, value⟩ := entry
    obtain ⟨fresh, later⟩ := List.nodup_cons.mp distinct
    rw [List.lookup_cons]
    by_cases same : name = other
    · subst same
      rw [beq_self_eq_true]
      cases value with
      | none =>
        show Fields.get? (present rest) name = none
        rw [ih later, List.lookup_eq_none_iff.mpr]
        · rfl
        · rintro ⟨n, v⟩ member
          rw [bne_iff_ne]
          rintro rfl
          exact fresh (List.mem_map.mpr ⟨_, member, rfl⟩)
      | some v =>
        show Fields.get? ((name, v) :: present rest) name = some v
        rw [Fields.get?_cons, if_pos rfl]
    · rw [beq_eq_false_iff_ne.mpr same]
      cases value with
      | none => exact ih later
      | some v =>
        show Fields.get? ((other, v) :: present rest) name = _
        rw [Fields.get?_cons, if_neg same]
        exact ih later

theorem nodup_present (distinct : (entries.map Prod.fst).Nodup) :
    (Fields.names (present entries)).Nodup := by
  have shorter : (Fields.names (present entries)).Sublist (entries.map Prod.fst) := by
    clear distinct
    induction entries with
    | nil => exact .slnil
    | cons entry rest ih =>
      obtain ⟨other, value⟩ := entry
      cases value with
      | none => exact ih.cons other
      | some v => exact ih.cons_cons other
  exact distinct.sublist shorter

@[simp] theorem present_nil : present [] = [] := rfl

@[simp] theorem ifSome_some (name : String) (v : Data) :
    Exchange.ifSome name (some v) = [(name, v)] := rfl

theorem present_cons (name : String) (value : Option Data)
    (rest : List (String × Option Data)) :
    present ((name, value) :: rest) = Exchange.ifSome name value ++ present rest := by
  cases value <;> rfl

/-- The fields of a record are the entries that have a value. -/
structure Stands (fields : List (String × Data)) (entries : List (String × Option Data)) :
    Prop where
  distinct : (Fields.names fields).Nodup
  members : ∀ name v, (name, v) ∈ fields → (name, some v) ∈ entries
  found : ∀ name, Fields.get? fields name = (entries.lookup name).join

theorem stands_present (distinct : (entries.map Prod.fst).Nodup) :
    Stands (Fields.ofList (present entries)) entries where
  distinct := (Fields.sorted_ofList _).nodup
  members _ _ member := mem_present (Fields.mem_of_mem_ofList member)
  found name := by rw [Fields.get?_ofList (nodup_present distinct), get?_present distinct]

theorem Stands.filter (stands : Stands fields entries) (keep : String → Bool) :
    Stands (fields.filter fun field => keep field.1) (entries.filter fun entry => keep entry.1)
    where
  distinct := stands.distinct.sublist (List.filter_sublist.map Prod.fst)
  members name v member := by
    obtain ⟨among, kept⟩ := List.mem_filter.mp member
    exact List.mem_filter.mpr ⟨stands.members name v among, kept⟩
  found name := by
    show _ = (Fields.get? _ name).join
    rw [Fields.get?_filter, Fields.get?_filter, stands.found]
    split <;> rfl

/-- Of fields with different names those that are looked for are taken as they are. -/
theorem recordFields_ofFields (distinct : (Fields.names fields).Nodup) {seen : List String}
    (fresh : ∀ name ∈ seen, name ∉ Fields.names fields)
    (checked : ∀ field ∈ fields, Checked specs (field.1, some field.2)) :
    recordFields specs seen (ofFields fields) = .ok (ofFields
      (fields.filter fun field => (specs.find? (·.name == field.1)).isSome)) := by
  induction fields generalizing seen with
  | nil => rfl
  | cons field rest ih =>
    obtain ⟨name, v⟩ := field
    obtain ⟨other, distinct⟩ := List.nodup_cons.mp distinct
    obtain ⟨first, later⟩ := List.forall_mem_cons.mp checked
    have unseen : name ∉ seen := fun member => fresh name member List.mem_cons_self
    rw [ofFields, recordFields, List.filter_cons]
    cases found : specs.find? (·.name == name) with
    | none =>
      simp only [skip_ofData, Option.isSome_none, Bool.false_eq_true, if_false]
      exact ih distinct (fun n member among => fresh n member (List.mem_cons_of_mem _ among)) later
    | some spec =>
      have further : ∀ n ∈ name :: seen, n ∉ Fields.names rest := by
        refine List.forall_mem_cons.mpr ⟨other, fun n member among => ?_⟩
        exact fresh n member (List.mem_cons_of_mem _ among)
      simp only [if_neg unseen, first spec v found rfl, ih distinct further later,
        Option.isSome_some, if_true]
      rfl

/-- The value of every field that is looked for is found. -/
theorem Stands.recordFields (stands : Stands fields entries)
    (checked : ∀ entry ∈ entries, Checked specs entry) :
    ∃ known, recordFields specs [] (ofFields fields) = .ok known ∧
      ∀ name, (specs.find? (·.name == name)).isSome = true →
        known.lookup name = (entries.lookup name).join.map ofData := by
  refine ⟨_, recordFields_ofFields stands.distinct nofun fun field member =>
    checked _ (stands.members field.1 field.2 member), fun name known => ?_⟩
  rw [lookup_ofFields, Fields.get?_filter fun name => (specs.find? (·.name == name)).isSome,
    if_pos known, stands.found]

/-- A reader of fields goes on with the values that it looks for. -/
theorem Stands.bind (stands : Stands fields entries) {result : β}
    {further : List (String × Source) → Except DecodeError β}
    (checked : ∀ entry ∈ entries, Checked specs entry)
    (reads : ∀ known, (∀ name, (specs.find? (·.name == name)).isSome = true →
      known.lookup name = (entries.lookup name).join.map ofData) → further known = .ok result) :
    Decode.recordFields specs [] (ofFields fields) >>= further = .ok result := by
  obtain ⟨known, read, found⟩ := stands.recordFields checked
  rw [read, ok_bind]
  exact reads known found

/-- A reader of a record goes on with the values that it looks for. -/
theorem record_bind {type : String} {needed : String → Bool} {result : β}
    {further : List (String × Source) → Except DecodeError β}
    (distinct : (entries.map Prod.fst).Nodup) (checked : ∀ entry ∈ entries, Checked specs entry)
    (reads : ∀ known, (∀ name, (specs.find? (·.name == name)).isSome = true →
      known.lookup name = (entries.lookup name).join.map ofData) → further known = .ok result) :
    record type specs needed (.ofData (.ofPairs (present entries))) >>= further = .ok result := by
  obtain ⟨known, read, found⟩ := (stands_present distinct).recordFields checked
  simp only [record, Data.ofPairs, ofData, untagged, read, stopError, ok_bind]
  exact reads known found

theorem checked_none (stranger : specs.find? (·.name == name) = none) (value : Option Data) :
    Checked specs (name, value) := by
  intro spec v found
  rw [stranger] at found
  cases found

theorem checked_some (find : specs.find? (·.name == name) = some (.of name decode)) {v : Data}
    {x : α} (reads : decode (.ofData v) = .ok x) : Checked specs (name, some v) := by
  rintro spec v found ⟨⟩
  cases find.symm.trans found
  show (decode (.ofData v)).map (fun _ => ()) = .ok ()
  rw [reads]
  rfl

theorem checked_map (find : specs.find? (·.name == name) = some (.of name (option decode)))
    {write : α → Data} {value : Option α}
    (reads : ∀ x ∈ value, option decode (.ofData (write x)) = .ok (some x)) :
    Checked specs (name, value.map write) := by
  cases value with
  | none => nofun
  | some x => exact checked_some find (reads x rfl)

variable {known : List (String × Source)}

theorem required_of {v : Data} {x : α} (found : known.lookup name = some (.ofData v))
    (reads : decode (.ofData v) = .ok x) : required known name decode = .ok x := by
  rw [required, found]
  exact reads

theorem defaulted_of {v : Data} {x missing : α} (found : known.lookup name = some (.ofData v))
    (reads : decode (.ofData v) = .ok x) : defaulted known name decode missing = .ok x := by
  rw [defaulted, found]
  exact reads

theorem optional_of {write : α → Data} {value : Option α}
    (found : known.lookup name = (value.map write).map .ofData)
    (reads : ∀ x ∈ value, option decode (.ofData (write x)) = .ok (some x)) :
    optional known name decode = .ok value := by
  rw [optional, found]
  cases value with
  | none => rfl
  | some x => exact reads x rfl

theorem checked_text (find : specs.find? (·.name == name) = some (.of name (option string)))
    (value : Option String) : Checked specs (name, value.map .str) :=
  checked_map find fun _ _ => rfl

theorem optional_text {value : Option String}
    (found : known.lookup name = (value.map .str).map .ofData) :
    optional known name string = .ok value :=
  optional_of found fun _ _ => rfl

end Records

section Decoded

mutual

/-- Decoded data is in order. -/
theorem sorted_of_data (v : Source) {x : Data} (h : data v = .ok x) : x.Sorted := by
  cases v with
  | arr items stop =>
    rw [data] at h
    split at h
    · cases h
    · rename_i xs read
      split at h <;> cases h
      exact Data.sortedItems_iff.mpr (sorted_of_dataItems items read)
  | obj fields stop =>
    rw [data] at h
    split at h
    · cases h
    · rename_i xs read
      split at h <;> cases h
      exact Data.sorted_ofPairs (sorted_of_dataFields fields read)
  | typed w v =>
    rw [data] at h
    exact sorted_of_data v h
  | plain w =>
    rw [data] at h
    split at h <;> cases h <;> trivial
  | _ =>
    cases h
    try trivial
termination_by structural v

theorem sorted_of_dataItems (items : List Source) {xs : List Data}
    (h : dataItems items = .ok xs) : ∀ x ∈ xs, x.Sorted := by
  cases items with
  | nil =>
    cases h
    nofun
  | cons v rest =>
    rw [dataItems] at h
    split at h
    · cases h
    · rename_i x first
      split at h <;> cases h
      rename_i xs later
      exact List.forall_mem_cons.mpr ⟨sorted_of_data v first, sorted_of_dataItems rest later⟩
termination_by structural items

theorem sorted_of_dataFields (fields : List (String × Source)) {xs : List (String × Data)}
    (h : dataFields fields = .ok xs) : ∀ x ∈ xs, x.2.Sorted := by
  cases fields with
  | nil =>
    cases h
    nofun
  | cons field rest =>
    rw [dataFields] at h
    split at h
    · cases h
    · rename_i x first
      split at h <;> cases h
      rename_i xs later
      exact List.forall_mem_cons.mpr ⟨sorted_of_data field.2 first, sorted_of_dataFields rest later⟩
termination_by structural fields

end

variable {α : Type} {decode : Decoder α} {known : List (String × Source)} {name : String} {x : α}

theorem lt_of_nat64 {v : Source} {n : Nat} (h : nat64 v = .ok n) : n < 2 ^ (64 : Nat) := by
  rw [nat64, integer] at h
  split at h
  · split at h
    · rename_i bounds
      cases h
      omega
    · cases h
  · cases h

theorem mem_of_list {v : Source} {xs : List α} (h : list decode v = .ok xs) :
    ∀ x ∈ xs, ∃ w, decode w = .ok x := by
  have items : ∀ {vs xs}, listItems decode vs = .ok xs → ∀ x ∈ xs, ∃ w, decode w = .ok x := by
    intro vs
    induction vs with
    | nil =>
      rintro xs ⟨⟩
      nofun
    | cons v rest ih =>
      intro xs h
      rw [listItems] at h
      split at h
      · cases h
      · rename_i x first
        split at h <;> cases h
        rename_i xs later
        exact List.forall_mem_cons.mpr ⟨⟨v, first⟩, ih later⟩
  rw [list] at h
  split at h
  · split at h
    · cases h
    · rename_i xs read
      split at h <;> cases h
      exact items read
  · cases h
    nofun
  · cases h

/-- Decoded fields are in order, and each has a decoded value. -/
theorem sorted_of_map {v : Source} {fields : Fields α} (h : map decode v = .ok fields) :
    Fields.Sorted fields ∧ ∀ field ∈ fields, ∃ w, decode w = .ok field.2 := by
  have values : ∀ {vs xs}, mapFields decode vs = .ok xs →
      ∀ x ∈ xs, ∃ w, decode w = .ok (Prod.snd x) := by
    intro vs
    induction vs with
    | nil =>
      rintro xs ⟨⟩
      nofun
    | cons v rest ih =>
      intro xs h
      rw [mapFields] at h
      split at h
      · cases h
      · rename_i x first
        split at h <;> cases h
        rename_i xs later
        exact List.forall_mem_cons.mpr ⟨⟨v.2, first⟩, ih later⟩
  rw [map] at h
  split at h
  · split at h
    · cases h
    · rename_i xs read
      split at h <;> cases h
      exact ⟨Fields.sorted_ofList xs, fun field member =>
        values read field (Fields.mem_of_mem_ofList member)⟩
  · cases h
    exact ⟨List.Pairwise.nil, nofun⟩
  · cases h

theorem sorted_of_map_data {v : Source} {fields : Fields Data} (h : map data v = .ok fields) :
    (Data.obj fields).Sorted := by
  obtain ⟨sorted, values⟩ := sorted_of_map h
  refine ⟨sorted, Data.sortedFields_iff.mpr fun field member => ?_⟩
  obtain ⟨w, read⟩ := values field member
  exact sorted_of_data w read

theorem exists_of_required (h : required known name decode = .ok x) : ∃ v, decode v = .ok x := by
  rw [required] at h
  split at h
  · exact ⟨_, h⟩
  · cases h

theorem exists_of_defaulted {missing : α} (h : defaulted known name decode missing = .ok x) :
    (∃ v, decode v = .ok x) ∨ x = missing := by
  rw [defaulted] at h
  split at h
  · exact .inl ⟨_, h⟩
  · cases h
    exact .inr rfl

theorem exists_of_optional (h : optional known name decode = .ok (some x)) :
    ∃ v, decode v = .ok x := by
  rw [optional] at h
  split at h
  · rename_i v found
    rw [option] at h
    split at h
    · cases h
    · cases read : decode v with
      | error e =>
        rw [read] at h
        cases h
      | ok y =>
        rw [read] at h
        cases h
        exact ⟨v, read⟩
  · cases h

/-- A field with an object of data, which is empty if it is missing. -/
theorem sorted_of_defaulted {fields : Fields Data}
    (h : defaulted known name (map data) [] = .ok fields) : (Data.obj fields).Sorted := by
  obtain ⟨v, read⟩ | rfl := exists_of_defaulted h
  · exact sorted_of_map_data read
  · exact ⟨List.Pairwise.nil, trivial⟩

end Decoded

end Decode

end DurableFlow
